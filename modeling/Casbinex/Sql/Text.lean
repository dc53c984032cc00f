import Mathlib.Data.List.DropRight

/-!
# Byte strings

A `std::string` is a list of bytes.  Source text is written as an ASCII literal,
a number as its decimal digits, and a C string ends at its first zero byte.
-/

namespace Casbinex.Sql

abbrev Bytes := List UInt8

/-- The bytes of an ASCII literal of the source. -/
def ascii (text : String) : Bytes := text.toList.map Char.toUInt8

/-- `std::to_string` of an unsigned number. -/
def decimal (n : Nat) : Bytes := (Nat.toDigits 10 n).map Char.toUInt8

/-- What a C interface sees of a byte string handed over by its `c_str()`. -/
def cString (text : Bytes) : Bytes := text.takeWhile (· != 0)

/-- ASCII whitespace: blank, tab, line feed, vertical tab, form feed, carriage return. -/
def isSpace (byte : UInt8) : Bool := byte == 32 || (9 ≤ byte && byte ≤ 13)

/-- Remove the whitespace at both ends. -/
def strip (text : Bytes) : Bytes := (text.dropWhile isSpace).rdropWhile isSpace

theorem cString_of_notMem {text : Bytes} (clean : (0 : UInt8) ∉ text) : cString text = text := by
  apply List.takeWhile_eq_self_iff.mpr
  intro byte member
  simp only [bne_iff_ne, ne_eq]
  rintro rfl
  exact clean member

theorem map_cString_of_notMem {texts : List Bytes} (clean : ∀ text ∈ texts, (0 : UInt8) ∉ text) :
    texts.map cString = texts := by
  have each : ∀ text ∈ texts, cString text = text := fun text member =>
    cString_of_notMem (clean text member)
  rw [List.map_congr_left each, List.map_id']

theorem zero_notMem_cString (text : Bytes) : (0 : UInt8) ∉ cString text := by
  intro member
  simpa using List.mem_takeWhile_imp member

/-- Stripping from the right never exposes whitespace on the left. -/
theorem dropWhile_rdropWhile_self (text : Bytes) (h : text.dropWhile isSpace = text) :
    (text.rdropWhile isSpace).dropWhile isSpace = text.rdropWhile isSpace := by
  rcases (List.rdropWhile_prefix isSpace text) with ⟨suffix, split⟩
  cases kept : text.rdropWhile isSpace with
  | nil => rfl
  | cons byte rest =>
      rw [kept] at split
      rw [← split] at h
      cases blank : isSpace byte with
      | true =>
          have shorter := congrArg List.length h
          simp only [List.cons_append, List.dropWhile_cons, blank, if_true,
            List.length_cons] at shorter
          have bound := (List.dropWhile_suffix isSpace (l := rest ++ suffix)).length_le
          omega
      | false => simp [blank]

@[simp]
theorem strip_strip (text : Bytes) : strip (strip text) = strip text := by
  unfold strip
  rw [dropWhile_rdropWhile_self _ (List.dropWhile_idempotent isSpace text),
    List.rdropWhile_idempotent]

theorem mem_of_mem_strip {text : Bytes} {byte : UInt8} (member : byte ∈ strip text) :
    byte ∈ text := by
  have inner := (List.rdropWhile_prefix isSpace (text.dropWhile isSpace)).subset member
  exact (List.dropWhile_suffix isSpace).subset inner

theorem dropWhile_eq_self_iff_head (text : Bytes) :
    text.dropWhile isSpace = text ↔ ∀ byte ∈ text.head?, isSpace byte = false := by
  rw [List.dropWhile_eq_self_iff]
  cases text <;> simp

theorem rdropWhile_eq_self_iff_last (text : Bytes) :
    text.rdropWhile isSpace = text ↔ ∀ byte ∈ text.getLast?, isSpace byte = false := by
  rw [List.rdropWhile_eq_self_iff]
  cases text with
  | nil => simp
  | cons byte rest => simp [List.getLast?_eq_some_getLast]

/-- A text is its own strip exactly when it neither begins nor ends in whitespace. -/
theorem strip_eq_self_iff (text : Bytes) :
    strip text = text ↔ (∀ byte ∈ text.head?, isSpace byte = false) ∧
      ∀ byte ∈ text.getLast?, isSpace byte = false := by
  rw [← dropWhile_eq_self_iff_head, ← rdropWhile_eq_self_iff_last]
  unfold strip
  constructor
  · intro same
    have front : text.dropWhile isSpace = text := by
      apply (List.dropWhile_suffix isSpace).eq_of_length_le
      have shorter := (List.rdropWhile_prefix isSpace (text.dropWhile isSpace)).length_le
      rwa [same] at shorter
    rw [front] at same
    exact ⟨front, same⟩
  · rintro ⟨front, back⟩
    rw [front, back]

/-! ## Decimal digits -/

theorem decimal_digit {n : Nat} {byte : UInt8} (member : byte ∈ decimal n) :
    48 ≤ byte ∧ byte ≤ 57 := by
  obtain ⟨digit, inDigits, rfl⟩ := List.mem_map.mp member
  have isDigit := Nat.isDigit_of_mem_toDigits (by decide) (by decide) inDigits
  simp only [Char.isDigit, Bool.and_eq_true, decide_eq_true_eq] at isDigit
  obtain ⟨lower, upper⟩ := isDigit
  have lowerNat : 48 ≤ digit.val.toNat := UInt32.le_iff_toNat_le.mp lower
  have upperNat : digit.val.toNat ≤ 57 := UInt32.le_iff_toNat_le.mp upper
  have small : digit.toUInt8.toNat = digit.val.toNat := by
    change digit.val.toNat % 256 = digit.val.toNat
    omega
  constructor <;> rw [UInt8.le_iff_toNat_le, small]
  · exact lowerNat
  · exact upperNat

end Casbinex.Sql
