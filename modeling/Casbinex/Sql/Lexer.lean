import Casbinex.Sql.Text

/-!
# Tokens of a statement

The scanner reads one byte at a time.  It covers words, plain string literals
and the six separators of the fragment; every other byte outside a literal is
refused.  Two quotes inside a literal denote one quote, and a literal goes on
after white space that holds a line break, as the server's scanner has it.
-/

namespace Casbinex.Sql

inductive Token where
  | word (name : Bytes)
  | str (value : Bytes)
  | sym (byte : UInt8)
  deriving DecidableEq, Repr

namespace Lexer

inductive Mode where
  | start
  | word (seen : Bytes)
  | quoted (seen : Bytes)
  /-- A quote was just read inside a literal. -/
  | closing (seen : Bytes)
  /-- White space after a literal, with a mark for a line break in it. -/
  | gap (seen : Bytes) (newline : Bool)
  deriving DecidableEq, Repr

/-- Unquoted names are folded to lower case. -/
def lower (byte : UInt8) : UInt8 := if 65 ≤ byte ∧ byte ≤ 90 then byte + 32 else byte

def isDigit (byte : UInt8) : Bool := 48 ≤ byte && byte ≤ 57

def isWordStart (byte : UInt8) : Bool :=
  (65 ≤ byte && byte ≤ 90) || (97 ≤ byte && byte ≤ 122) || byte == 95 || 128 ≤ byte

def isWordPart (byte : UInt8) : Bool := isWordStart byte || isDigit byte || byte == 36

/-- The separators `(`, `)`, `,`, `.`, `;` and `=`. -/
def isSymbol (byte : UInt8) : Bool :=
  byte == 40 || byte == 41 || byte == 44 || byte == 46 || byte == 59 || byte == 61

def isNewline (byte : UInt8) : Bool := byte == 10 || byte == 13

def startStep (byte : UInt8) : Option (List Token × Mode) :=
  if isSpace byte then some ([], .start)
  else if isWordStart byte then some ([], .word [lower byte])
  else if byte = 39 then some ([], .quoted [])
  else if isSymbol byte then some ([.sym byte], .start)
  else none

/-- Emit a finished token and read the byte afresh. -/
def emit (token : Token) (byte : UInt8) : Option (List Token × Mode) :=
  (startStep byte).map fun next => (token :: next.1, next.2)

def step : Mode → UInt8 → Option (List Token × Mode)
  | .start, byte => startStep byte
  | .word seen, byte =>
      if isWordPart byte then some ([], .word (seen ++ [lower byte]))
      -- a word that touches a quote opens one of the prefixed literals (E'', B'', N'')
      else if byte = 39 then none
      else emit (.word seen) byte
  | .quoted seen, byte =>
      if byte = 39 then some ([], .closing seen) else some ([], .quoted (seen ++ [byte]))
  | .closing seen, byte =>
      if byte = 39 then some ([], .quoted (seen ++ [39]))
      else if isSpace byte then some ([], .gap seen (isNewline byte))
      else emit (.str seen) byte
  | .gap seen newline, byte =>
      if isSpace byte then some ([], .gap seen (newline || isNewline byte))
      else if byte = 39 && newline then some ([], .quoted seen)
      else emit (.str seen) byte

/-- Read a piece of text and return its tokens and the mode it leaves behind. -/
def run : Mode → Bytes → Option (List Token × Mode)
  | mode, [] => some ([], mode)
  | mode, byte :: rest =>
      (step mode byte).bind fun first =>
        (run first.2 rest).map fun next => (first.1 ++ next.1, next.2)

/-- The token still held at the end of the text; an open literal is an error. -/
def finish : Mode → Option (List Token)
  | .start => some []
  | .word seen => some [.word seen]
  | .quoted _ => none
  | .closing seen => some [.str seen]
  | .gap seen _ => some [.str seen]

def lexFrom (mode : Mode) (text : Bytes) : Option (List Token) :=
  (run mode text).bind fun result => (finish result.2).map (result.1 ++ ·)

end Lexer

/-- The tokens of a complete text. -/
def lex (text : Bytes) : Option (List Token) := Lexer.lexFrom .start text

namespace Lexer

theorem run_append (mode : Mode) (first second : Bytes) :
    run mode (first ++ second) =
      (run mode first).bind fun head =>
        (run head.2 second).map fun tail => (head.1 ++ tail.1, tail.2) := by
  induction first generalizing mode with
  | nil => simp [run]
  | cons byte rest ih =>
      simp only [List.cons_append, run]
      cases step mode byte with
      | none => rfl
      | some head =>
          simp only [Option.bind_some, ih]
          cases run head.2 rest with
          | none => rfl
          | some middle =>
              simp only [Option.bind_some, Option.map_some]
              cases run middle.2 second <;> simp

/-- Text that was read up to a mode is followed by what that mode makes of the rest. -/
theorem lexFrom_append {mode next : Mode} {first : Bytes} {tokens : List Token}
    (read : run mode first = some (tokens, next)) (second : Bytes) :
    lexFrom mode (first ++ second) = (lexFrom next second).map (tokens ++ ·) := by
  unfold lexFrom
  rw [run_append, read, Option.bind_some]
  cases run next second with
  | none => rfl
  | some tail =>
      simp only [Option.map_some, Option.bind_some]
      cases finish tail.2 <;> simp

/-! ## Literals -/

/-- What `esc` makes of a field: every quote doubled, every other byte kept. -/
def doubleQuotes (field : Bytes) : Bytes :=
  field.flatMap fun byte => if byte = 39 then [39, 39] else [byte]

@[simp]
theorem doubleQuotes_nil : doubleQuotes [] = [] := rfl

theorem doubleQuotes_cons (byte : UInt8) (rest : Bytes) :
    doubleQuotes (byte :: rest) =
      (if byte = 39 then [39, 39] else [byte]) ++ doubleQuotes rest := rfl

theorem run_quoted_doubleQuotes (seen field : Bytes) :
    run (.quoted seen) (doubleQuotes field) = some ([], .quoted (seen ++ field)) := by
  induction field generalizing seen with
  | nil => simp [run]
  | cons byte rest ih =>
      have head : run (.quoted seen) (if byte = 39 then [39, 39] else [byte]) =
          some ([], .quoted (seen ++ [byte])) := by
        split
        · next quote => simp [run, step, quote]
        · next plain => simp [run, step, plain]
      rw [doubleQuotes_cons, run_append, head, Option.bind_some, ih]
      simp

/-- A field between quotes, with its own quotes doubled. -/
def literal (field : Bytes) : Bytes := 39 :: doubleQuotes field ++ [39]

/-- A quoted field is one literal denoting it. -/
theorem run_literal (field : Bytes) : run .start (literal field) = some ([], .closing field) := by
  have opened : run .start (39 :: doubleQuotes field) = some ([], .quoted field) := by
    have inner := run_quoted_doubleQuotes [] field
    rw [List.nil_append] at inner
    simp [run, step, startStep, isSpace, isWordStart, inner]
  unfold literal
  rw [run_append, opened]
  simp [run, step]

/-- A mode that emits a token at a byte leaves the byte to be read afresh. -/
theorem lexFrom_emit {mode : Mode} {token : Token} {byte : UInt8} (rest : Bytes)
    (read : step mode byte = emit token byte) :
    lexFrom mode (byte :: rest) = (lexFrom .start (byte :: rest)).map (token :: ·) := by
  have afresh : step .start byte = startStep byte := rfl
  unfold lexFrom
  simp only [run, read, emit, afresh]
  cases startStep byte with
  | none => rfl
  | some first =>
      simp only [Option.map_some, Option.bind_some]
      cases run first.2 rest with
      | none => rfl
      | some next =>
          simp only [Option.map_some, Option.bind_some]
          cases finish next.2 <;> simp

/-- One blank after a literal is skipped unless a quote follows it. -/
theorem lexFrom_closing_blank {field : Bytes} {byte : UInt8} (rest : Bytes)
    (notQuote : byte ≠ 39) (notSpace : isSpace byte = false) :
    lexFrom (.closing field) (32 :: byte :: rest) =
      (lexFrom .start (byte :: rest)).map (Token.str field :: ·) := by
  have blank : run (.closing field) [32] = some ([], .gap field false) := rfl
  have skipped := lexFrom_append blank (byte :: rest)
  rw [List.singleton_append] at skipped
  have read : step (.gap field false) byte = emit (.str field) byte := by
    simp [step, notSpace, notQuote]
  rw [skipped, lexFrom_emit rest read]
  cases lexFrom .start (byte :: rest) <;> rfl

/-! ## Words -/

/-- Bytes that a word takes over unchanged. -/
def PlainPart (byte : UInt8) : Prop := isWordPart byte = true ∧ lower byte = byte

theorem run_word (seen part : Bytes) (plain : ∀ byte ∈ part, PlainPart byte) :
    run (.word seen) part = some ([], .word (seen ++ part)) := by
  induction part generalizing seen with
  | nil => simp [run]
  | cons byte rest ih =>
      obtain ⟨isPart, same⟩ := plain byte List.mem_cons_self
      have inner := ih (seen ++ [byte]) fun other member =>
        plain other (List.mem_cons_of_mem _ member)
      simp [run, step, isPart, same, inner]

theorem plainPart_decimal {n : Nat} {byte : UInt8} (member : byte ∈ decimal n) :
    PlainPart byte := by
  obtain ⟨lowerBound, upperBound⟩ := decimal_digit member
  have capital : ¬ (65 : UInt8) ≤ byte := by
    rw [UInt8.le_iff_toNat_le] at *
    simp at *
    omega
  exact ⟨by simp [isWordPart, isDigit, lowerBound, upperBound], by simp [lower, capital]⟩

/-- A lower-case name: it is scanned as one word, unchanged. -/
structure PlainName (name : Bytes) : Prop where
  head : ∃ first part, name = first :: part ∧ isWordStart first = true ∧ lower first = first
  tail : ∀ byte ∈ name, PlainPart byte

theorem isSpace_of_isWordStart {byte : UInt8} (start : isWordStart byte = true) :
    isSpace byte = false := by
  have bounds : 65 ≤ byte.toNat := by
    simp only [isWordStart, Bool.or_eq_true, Bool.and_eq_true, decide_eq_true_eq, beq_iff_eq,
      UInt8.le_iff_toNat_le] at start
    rcases start with ((⟨low, _⟩ | ⟨low, _⟩) | rfl) | low
    · exact low
    · exact Nat.le_trans (by decide) low
    · decide
    · exact Nat.le_trans (by decide) low
  have notBlank : byte ≠ 32 := by
    rintro rfl
    revert bounds
    decide
  have notControl : ¬ byte ≤ 13 := by
    rw [UInt8.le_iff_toNat_le]
    change ¬ byte.toNat ≤ 13
    omega
  simp [isSpace, notBlank, notControl]

theorem run_name {name : Bytes} (plain : PlainName name) :
    run .start name = some ([], .word name) := by
  obtain ⟨first, part, rfl, start, same⟩ := plain.head
  have inner := run_word [first] part fun byte member =>
    plain.tail byte (List.mem_cons_of_mem _ member)
  simp [run, step, startStep, start, same, isSpace_of_isWordStart start, inner]

/-! ## Lists inside parentheses -/

theorem lexFrom_names (names : List Bytes) (plain : ∀ name ∈ names, PlainName name)
    (seen rest : Bytes) :
    lexFrom (.word seen) (names.flatMap (44 :: ·) ++ 41 :: rest) =
      (lexFrom .start rest).map fun tokens =>
        Token.word seen :: names.flatMap (fun name => [.sym 44, .word name]) ++
          .sym 41 :: tokens := by
  induction names generalizing seen with
  | nil =>
      have paren : run (.word seen) [41] = some ([.word seen, .sym 41], .start) := rfl
      have close := lexFrom_append paren rest
      rw [List.singleton_append] at close
      simpa using close
  | cons name names ih =>
      have comma : run (.word seen) [44] = some ([.word seen, .sym 44], .start) := rfl
      have split : (name :: names).flatMap (44 :: ·) ++ 41 :: rest =
          [44] ++ (name ++ (names.flatMap (44 :: ·) ++ 41 :: rest)) := by simp
      rw [split, lexFrom_append comma, lexFrom_append (run_name (plain name List.mem_cons_self)),
        ih (fun other member => plain other (List.mem_cons_of_mem _ member)) name]
      cases lexFrom .start rest <;> simp

theorem lexFrom_literals (values : List Bytes) (seen rest : Bytes) :
    lexFrom (.closing seen)
        (values.flatMap (fun value => 44 :: 32 :: literal value) ++ 41 :: rest) =
      (lexFrom .start rest).map fun tokens =>
        Token.str seen :: values.flatMap (fun value => [.sym 44, .str value]) ++
          .sym 41 :: tokens := by
  induction values generalizing seen with
  | nil =>
      have paren : run (.closing seen) [41] = some ([.str seen, .sym 41], .start) := rfl
      have close := lexFrom_append paren rest
      rw [List.singleton_append] at close
      simpa using close
  | cons value values ih =>
      have comma : run (.closing seen) [44, 32] = some ([.str seen, .sym 44], .start) := rfl
      have split :
          (value :: values).flatMap (fun value => 44 :: 32 :: literal value) ++ 41 :: rest =
          [44, 32] ++ (literal value ++
            (values.flatMap (fun value => 44 :: 32 :: literal value) ++ 41 :: rest)) := by simp
      rw [split, lexFrom_append comma, lexFrom_append (run_literal value), ih value]
      cases lexFrom .start rest <;> simp

end Lexer

end Casbinex.Sql
