import Casbinex.Sql.Text

/-!
# Erlang terms and their conversions

The calls of `erl_nif` that the entry points use, and the conversions
`ListToString`, `ListToVector` and `VectorToList` written with them.  A charlist
is a proper list of the integers 0 to 255.
-/

namespace Casbinex.Nif

open Casbinex.Sql

inductive Term where
  | int (value : Int)
  | atom (name : Bytes)
  | binary (bytes : Bytes)
  | nil
  | cons (head tail : Term)
  | pair (first second : Term)
  /-- A term of any other kind. -/
  | other (id : Nat)
  deriving DecidableEq, Repr

namespace Term

def ofList : List Term → Term
  | [] => .nil
  | head :: rest => .cons head (ofList rest)

/-- The charlist of a byte string. -/
def ofBytes (text : Bytes) : Term := ofList (text.map fun byte => .int byte.toNat)

/-- A term that is one byte, as `enif_get_string` with `ERL_NIF_LATIN1` accepts it. -/
def latin1 : Term → Option UInt8
  | .int value => if 0 ≤ value ∧ value ≤ 255 then some (UInt8.ofNat value.toNat) else none
  | _ => none

/-- The bytes of a charlist; every other term has none. -/
def charlist : Term → Option Bytes
  | .nil => some []
  | .cons head rest => (latin1 head).bind fun byte => (charlist rest).map (byte :: ·)
  | _ => none

end Term

/-! ## The interface of `erl_nif` -/

/-- `enif_is_list`: the empty list or any list cell. -/
def enifIsList : Term → Bool
  | .nil => true
  | .cons _ _ => true
  | _ => false

/-- `enif_get_list_length`: fails on an improper list. -/
def enifGetListLength : Term → Option Nat
  | .nil => some 0
  | .cons _ rest => (enifGetListLength rest).map (· + 1)
  | _ => none

/-- `enif_get_string` into a buffer of the given size: the bytes written with the
terminator, negative if the text was truncated, 0 if the term is no charlist. -/
def enifGetString (term : Term) (size : Nat) : Int × Bytes :=
  match term.charlist with
  | none => (0, [])
  | some text =>
      if text.length < size then (text.length + 1, text)
      else if size = 0 then (0, [])
      else (-size, text.take (size - 1))

/-- `enif_get_int`: an integer of 32 bits. -/
def enifGetInt : Term → Option Int32
  | .int value =>
      if -2147483648 ≤ value ∧ value ≤ 2147483647 then some (Int32.ofInt value) else none
  | _ => none

/-! ## The conversions of the entry points -/

/-- `ListToString`: the empty string whenever the term cannot be read. -/
def listToString (term : Term) : Bytes :=
  if enifIsList term then
    match enifGetListLength term with
    | none => []
    | some length =>
        let (res, stringData) := enifGetString term (length + 1)
        if res < 1 then [] else stringData.take (res - 1).toNat
  else []

/-- The loop of `ListToVector` over the cells of a list. -/
def collectItems : Term → List Bytes
  | .cons item items => listToString item :: collectItems items
  | _ => []

/-- `ListToVector`. -/
def listToVector (term : Term) : List Bytes :=
  if enifIsList term && (enifGetListLength term).isSome then collectItems term else []

/-- `VectorToList` of strings, each cut at its first zero byte by `c_str()`. -/
def vectorToList (input : List Bytes) : Term :=
  Term.ofList (input.map fun text => Term.ofBytes (cString text))

/-- `VectorToList` of vectors of strings. -/
def vectorsToList (input : List (List Bytes)) : Term := Term.ofList (input.map vectorToList)

/-! ## What `ListToString` returns -/

theorem length_of_charlist {term : Term} {text : Bytes} (reads : term.charlist = some text) :
    enifGetListLength term = some text.length := by
  induction term generalizing text with
  | nil =>
      cases reads
      rfl
  | cons head rest _ ih =>
      obtain ⟨byte, _, more⟩ := Option.bind_eq_some_iff.mp reads
      obtain ⟨inner, readsRest, rfl⟩ := Option.map_eq_some_iff.mp more
      rw [enifGetListLength, ih readsRest]
      rfl
  | _ => cases reads

theorem isList_of_charlist {term : Term} {text : Bytes} (reads : term.charlist = some text) :
    enifIsList term = true := by
  cases term with
  | nil => rfl
  | cons head rest => rfl
  | _ => cases reads

/-- The buffer is large enough, so a charlist is read whole, and any other term is
read as the empty string. -/
theorem listToString_eq (term : Term) : listToString term = term.charlist.getD [] := by
  unfold listToString
  cases reads : term.charlist with
  | none =>
      have nothing (size : Nat) : enifGetString term size = (0, []) := by
        rw [enifGetString, reads]
      simp only [nothing]
      split
      · split <;> simp
      · rfl
  | some text =>
      have whole : enifGetString term (text.length + 1) =
          ((text.length : Int) + 1, text) := by
        rw [enifGetString, reads]
        simp
      rw [if_pos (isList_of_charlist reads), length_of_charlist reads]
      simp only [whole]
      rw [if_neg (by omega)]
      simp

theorem latin1_int (byte : UInt8) : Term.latin1 (.int byte.toNat) = some byte := by
  have bound := byte.toNat_lt
  simp [Term.latin1, show (byte.toNat : Int) ≤ 255 by omega]

@[simp]
theorem charlist_ofBytes (text : Bytes) : (Term.ofBytes text).charlist = some text := by
  induction text with
  | nil => rfl
  | cons byte rest ih =>
      change (Term.latin1 (.int byte.toNat)).bind
        (fun head => (Term.ofBytes rest).charlist.map (head :: ·)) = _
      rw [latin1_int, ih]
      rfl

theorem eq_ofBytes_of_charlist {term : Term} {text : Bytes} (reads : term.charlist = some text) :
    term = Term.ofBytes text := by
  induction term generalizing text with
  | nil =>
      cases reads
      rfl
  | cons head rest _ ih =>
      obtain ⟨byte, readsHead, more⟩ := Option.bind_eq_some_iff.mp reads
      obtain ⟨inner, readsRest, rfl⟩ := Option.map_eq_some_iff.mp more
      have first : head = .int byte.toNat := by
        cases head with
        | int value =>
            rw [Term.latin1] at readsHead
            split at readsHead
            · next bounds =>
                cases readsHead
                rw [UInt8.toNat_ofNat', Nat.mod_eq_of_lt (by omega), Int.toNat_of_nonneg bounds.1]
            · cases readsHead
        | _ => cases readsHead
      rw [first, ih readsRest]
      rfl
  | _ => cases reads

/-- A term is a charlist exactly when it is the charlist of its bytes. -/
theorem charlist_eq_some_iff (term : Term) (text : Bytes) :
    term.charlist = some text ↔ term = Term.ofBytes text := by
  constructor
  · exact eq_ofBytes_of_charlist
  · rintro rfl
    exact charlist_ofBytes text

/-! ## What `ListToVector` returns -/

theorem getListLength_ofList (items : List Term) :
    enifGetListLength (.ofList items) = some items.length := by
  induction items with
  | nil => rfl
  | cons item more ih =>
      rw [Term.ofList, enifGetListLength, ih]
      rfl

theorem collectItems_ofList (items : List Term) :
    collectItems (.ofList items) = items.map listToString := by
  induction items with
  | nil => rfl
  | cons item more ih =>
      rw [Term.ofList, collectItems, ih]
      rfl

/-- A proper list gives one string for each element, empty for an unreadable one. -/
theorem listToVector_ofList (items : List Term) :
    listToVector (.ofList items) = items.map fun item => item.charlist.getD [] := by
  have cell : enifIsList (.ofList items) = true := by cases items <;> rfl
  rw [listToVector, cell, getListLength_ofList]
  exact (collectItems_ofList items).trans (List.map_congr_left fun item _ => listToString_eq item)

theorem listToVector_charlists (texts : List Bytes) :
    listToVector (.ofList (texts.map Term.ofBytes)) = texts := by
  rw [listToVector_ofList, List.map_map]
  refine (List.map_congr_left fun text _ => ?_).trans (List.map_id texts)
  simp

end Casbinex.Nif
