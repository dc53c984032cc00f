import Casbinex.Sql.Text

/-!
# The text format of COPY

Each row is a line and its fields are separated by tabs; a backslash takes the byte behind
it out of its role.  A field that is `\N` and nothing else is NULL, and a line that is
`\.` ends the data.  A zero byte is refused, and numeric escapes are none of this reader.
-/

namespace Casbinex.Sql.Copy

/-- A byte of the data, with the backslash before it. -/
inductive Item where
  | byte (value : UInt8)
  | escaped (value : UInt8)
  | tab
  | newline
  deriving DecidableEq, Repr

/-- A byte that no backslash precedes; a carriage return and a zero byte are refused. -/
def Item.bare (byte : UInt8) : Option Item :=
  if byte = 9 then some .tab
  else if byte = 10 then some .newline
  else if byte = 13 ∨ byte = 0 then none
  else some (.byte byte)

/-- Read the items; the mark says that a backslash was just read. -/
def lexFrom : Bool → Bytes → Option (List Item)
  | false, [] => some []
  | true, [] => none
  | true, byte :: rest => (lexFrom false rest).map (.escaped byte :: ·)
  | false, byte :: rest =>
      if byte = 92 then lexFrom true rest
      else (Item.bare byte).bind fun item => (lexFrom false rest).map (item :: ·)

def lex (data : Bytes) : Option (List Item) := lexFrom false data

/-- What the byte behind a backslash denotes: a control character or itself. -/
def denoted (byte : UInt8) : Option UInt8 :=
  if byte = 98 then some 8
  else if byte = 102 then some 12
  else if byte = 110 then some 10
  else if byte = 114 then some 13
  else if byte = 116 then some 9
  else if byte = 118 then some 11
  else if byte = 120 ∨ byte = 0 ∨ (48 ≤ byte ∧ byte ≤ 55) then none
  else some byte

/-- The byte of a field that an item stands for. -/
def Item.value : Item → Option UInt8
  | .byte value => some value
  | .escaped value => denoted value
  | .tab => none
  | .newline => none

/-- `\N` -/
def nullItems : List Item := [.escaped 78]

/-- `\.` -/
def endItems : List Item := [.escaped 46]

def readField (items : List Item) : Option (Option Bytes) :=
  if items = nullItems then some none else (items.mapM Item.value).map some

def readRow (items : List Item) : Option (List (Option Bytes)) :=
  (items.splitOn .tab).mapM readField

/-- The lines before the end of the data; a last line without a line break counts. -/
def lines (items : List Item) : List (List Item) :=
  let pieces := items.splitOn .newline
  (if pieces.getLast? = some [] then pieces.dropLast else pieces).takeWhile (· ≠ endItems)

def readData (data : Bytes) : Option (List (List (Option Bytes))) :=
  (lex data).bind fun items => (lines items).mapM readRow

/-! ## Writing -/

/-- An escaped field without zero bytes reads back, and is not taken for NULL. -/
structure FieldEscape (escape : Bytes → Bytes) : Prop where
  reads : ∀ data, (0 : UInt8) ∉ data → ∃ items, lex (escape data) = some items ∧
    items.mapM Item.value = some data ∧ items ≠ nullItems

/-- No field of the row holds a zero byte. -/
def Clean (row : List (Option Bytes)) : Prop :=
  ∀ field ∈ row, ∀ data ∈ field, (0 : UInt8) ∉ data

def fieldText (escape : Bytes → Bytes) : Option Bytes → Bytes
  | none => [92, 78]
  | some data => escape data

def lineText (escape : Bytes → Bytes) (row : List (Option Bytes)) : Bytes :=
  [9].intercalate (row.map (fieldText escape)) ++ [10]

/-! ## Reading what was written -/

theorem lexFrom_append {mode : Bool} {first : Bytes} {items : List Item}
    (read : lexFrom mode first = some items) (second : Bytes) :
    lexFrom mode (first ++ second) = (lex second).map (items ++ ·) := by
  induction first generalizing mode items with
  | nil =>
      cases mode with
      | true => cases read
      | false =>
          cases read
          simp [lex]
  | cons byte rest ih =>
      cases mode with
      | true =>
          obtain ⟨more, readRest, rfl⟩ := Option.map_eq_some_iff.mp read
          rw [List.cons_append, lexFrom, ih readRest, Option.map_map]
          rfl
      | false =>
          rw [lexFrom] at read
          rw [List.cons_append, lexFrom]
          split
          · next backslash =>
              rw [if_pos backslash] at read
              exact ih read
          · next plain =>
              rw [if_neg plain] at read
              obtain ⟨item, bare, readRest⟩ := Option.bind_eq_some_iff.mp read
              obtain ⟨more, tail, rfl⟩ := Option.map_eq_some_iff.mp readRest
              rw [bare, Option.bind_some, ih tail, Option.map_map]
              rfl

theorem lex_append {first second : Bytes} {items more : List Item}
    (read : lex first = some items) (readMore : lex second = some more) :
    lex (first ++ second) = some (items ++ more) := by
  rw [lex, lexFrom_append read, readMore]
  rfl

/-- The items of a field hold no separator. -/
theorem value_of_mem {items : List Item} {data : Bytes} (means : items.mapM Item.value = some data)
    {item : Item} (member : item ∈ items) : item.value ≠ none := by
  induction items generalizing data with
  | nil => cases member
  | cons head more ih =>
      rw [List.mapM_cons] at means
      obtain ⟨first, here, rest⟩ := Option.bind_eq_some_iff.mp means
      obtain ⟨later, there, _⟩ := Option.bind_eq_some_iff.mp rest
      rcases List.mem_cons.mp member with rfl | inMore
      · rw [here]
        exact Option.some_ne_none first
      · exact ih there inMore

theorem mapM_map_of_inverse {α β : Type} {read : β → Option α} {write : α → β} {values : List α}
    (inverse : ∀ value ∈ values, read (write value) = some value) :
    (values.map write).mapM read = some values := by
  induction values with
  | nil => rfl
  | cons value more ih =>
      obtain ⟨here, rest⟩ := List.forall_mem_cons.mp inverse
      rw [List.map_cons, List.mapM_cons, here, ih rest]
      rfl

/-- Texts that are joined by a separator read as their items joined by its item. -/
theorem lex_intercalate {byte : UInt8} {separator : Item} (alone : lex [byte] = some [separator])
    {α : Type} {text : α → Bytes} {items : α → List Item} {values : List α}
    (read : ∀ value ∈ values, lex (text value) = some (items value)) :
    lex ([byte].intercalate (values.map text)) =
      some ([separator].intercalate (values.map items)) := by
  induction values with
  | nil => rfl
  | cons value more ih =>
      obtain ⟨here, there⟩ := List.forall_mem_cons.mp read
      cases more with
      | nil => simpa using here
      | cons next rest =>
          rw [List.map_cons, List.map_cons, List.map_cons, List.map_cons,
            List.intercalate_cons_cons, List.intercalate_cons_cons]
          exact lex_append (lex_append here alone) (ih there)

/-- Lines that each end by a line break are the pieces before the last, empty one. -/
theorem flatMap_newline (pieces : List (List Item)) :
    pieces.flatMap (· ++ [.newline]) = [.newline].intercalate (pieces ++ [[]]) := by
  induction pieces with
  | nil => rfl
  | cons piece more ih =>
      rw [List.flatMap_cons, ih, List.cons_append]
      cases more with
      | nil => simp
      | cons next rest => rw [List.cons_append, List.intercalate_cons_cons]

theorem lines_flatMap {pieces : List (List Item)} (unbroken : ∀ piece ∈ pieces, .newline ∉ piece)
    (goesOn : ∀ piece ∈ pieces, piece ≠ endItems) :
    lines (pieces.flatMap (· ++ [.newline])) = pieces := by
  have split : (pieces.flatMap (· ++ [Item.newline])).splitOn .newline = pieces ++ [[]] := by
    rw [flatMap_newline]
    apply List.splitOn_intercalate
    · simpa [or_imp, forall_and] using unbroken
    · simp
  simp only [lines, split, List.getLast?_concat, if_true, List.dropLast_concat]
  exact List.takeWhile_eq_self_iff.mpr fun piece member => decide_eq_true (goesOn piece member)

section

variable {escape : Bytes → Bytes}

/-- The items of a written field. -/
def fieldItems (escape : Bytes → Bytes) (field : Option Bytes) : List Item :=
  (lex (fieldText escape field)).getD []

/-- The items of a written line, without the line break. -/
def lineItems (escape : Bytes → Bytes) (row : List (Option Bytes)) : List Item :=
  [.tab].intercalate (row.map (fieldItems escape))

namespace FieldEscape

variable (escapes : FieldEscape escape) {field : Option Bytes} {row : List (Option Bytes)}

include escapes

theorem lex_fieldText (clean : ∀ data ∈ field, (0 : UInt8) ∉ data) :
    lex (fieldText escape field) = some (fieldItems escape field) := by
  cases field with
  | none => rfl
  | some data =>
      obtain ⟨items, read, _⟩ := escapes.reads data (clean data rfl)
      rw [fieldItems, fieldText, read]
      rfl

/-- A written field is read as the field. -/
theorem readField_fieldItems (clean : ∀ data ∈ field, (0 : UInt8) ∉ data) :
    readField (fieldItems escape field) = some field := by
  cases field with
  | none => rfl
  | some data =>
      obtain ⟨items, read, means, notNull⟩ := escapes.reads data (clean data rfl)
      have same : fieldItems escape (some data) = items := by
        rw [fieldItems, fieldText, read]
        rfl
      rw [same, readField, if_neg notNull, means]
      rfl

theorem value_of_mem_fieldItems (clean : ∀ data ∈ field, (0 : UInt8) ∉ data) {item : Item}
    (member : item ∈ fieldItems escape field) : item.value ≠ none := by
  cases field with
  | none =>
      have only : item ∈ nullItems := member
      rw [List.mem_singleton.mp only]
      decide
  | some data =>
      obtain ⟨items, read, means, _⟩ := escapes.reads data (clean data rfl)
      rw [fieldItems, fieldText, read] at member
      exact value_of_mem means member

theorem readRow_lineItems (clean : Clean row) (filled : row ≠ []) :
    readRow (lineItems escape row) = some row := by
  have split : (lineItems escape row).splitOn .tab = row.map (fieldItems escape) := by
    apply List.splitOn_intercalate
    · intro items inRow tab
      obtain ⟨field, member, rfl⟩ := List.mem_map.mp inRow
      exact escapes.value_of_mem_fieldItems (clean field member) tab rfl
    · simpa using filled
  rw [readRow, split]
  exact mapM_map_of_inverse fun field member => escapes.readField_fieldItems (clean field member)

theorem mem_lineItems (clean : Clean row) {item : Item} (member : item ∈ lineItems escape row) :
    item = .tab ∨ item.value ≠ none := by
  induction row with
  | nil => cases member
  | cons field more ih =>
      obtain ⟨here, there⟩ := List.forall_mem_cons.mp clean
      cases more with
      | nil =>
          have inField : item ∈ fieldItems escape field := by simpa [lineItems] using member
          exact Or.inr (escapes.value_of_mem_fieldItems here inField)
      | cons next rest =>
          simp only [lineItems, List.map_cons, List.intercalate_cons_cons, List.mem_append,
            List.mem_singleton] at member
          rcases member with (inField | tab) | later
          · exact Or.inr (escapes.value_of_mem_fieldItems here inField)
          · exact Or.inl tab
          · exact ih there later

theorem lex_lineText (clean : Clean row) :
    lex (lineText escape row) = some (lineItems escape row ++ [.newline]) :=
  lex_append (lex_intercalate rfl fun field member =>
    escapes.lex_fieldText (clean field member)) rfl

theorem lex_flatMap_lineText {rows : List (List (Option Bytes))} (clean : ∀ row ∈ rows, Clean row) :
    lex (rows.flatMap (lineText escape)) =
      some ((rows.map (lineItems escape)).flatMap (· ++ [.newline])) := by
  induction rows with
  | nil => rfl
  | cons row more ih =>
      obtain ⟨here, there⟩ := List.forall_mem_cons.mp clean
      exact lex_append (escapes.lex_lineText here) (ih there)

/-- Rows of two fields and more read back from the lines that were written, NULLs,
separators and backslashes included. -/
theorem readData_lines {rows : List (List (Option Bytes))} (clean : ∀ row ∈ rows, Clean row)
    (wide : ∀ row ∈ rows, 2 ≤ row.length) :
    readData (rows.flatMap (lineText escape)) = some rows := by
  have separated : lines ((rows.map (lineItems escape)).flatMap (· ++ [.newline])) =
      rows.map (lineItems escape) := by
    apply lines_flatMap
    · intro items inRows broken
      obtain ⟨row, member, rfl⟩ := List.mem_map.mp inRows
      rcases escapes.mem_lineItems (clean row member) broken with tab | none
      · cases tab
      · exact none rfl
    · intro items inRows ended
      obtain ⟨row, member, rfl⟩ := List.mem_map.mp inRows
      -- a line with two fields has a tab
      match row, wide row member with
      | first :: second :: rest, _ =>
          have tab : Item.tab ∈ lineItems escape (first :: second :: rest) := by
            simp [lineItems, List.intercalate_cons_cons]
          rw [ended] at tab
          exact absurd tab (by decide)
  rw [readData, escapes.lex_flatMap_lineText clean, Option.bind_some, separated]
  exact mapM_map_of_inverse fun row member => escapes.readRow_lineItems (clean row member)
    (List.length_pos_iff.mp (Nat.lt_of_succ_lt (wide row member)))

end FieldEscape

end

/-! ## A writer of escapes -/

/-- The letter behind the backslash for a byte that needs one. -/
def letter (byte : UInt8) : Option UInt8 :=
  if byte = 8 then some 98
  else if byte = 12 then some 102
  else if byte = 10 then some 110
  else if byte = 13 then some 114
  else if byte = 9 then some 116
  else if byte = 11 then some 118
  else if byte = 92 then some 92
  else none

def escapeByte (byte : UInt8) : Bytes :=
  match letter byte with
  | some after => [92, after]
  | none => [byte]

def escapeField (data : Bytes) : Bytes := data.flatMap escapeByte

theorem denoted_letter {byte after : UInt8} (needs : letter byte = some after) :
    denoted after = some byte ∧ after ≠ 78 := by
  unfold letter at needs
  repeat' split at needs
  case isFalse.isFalse.isFalse.isFalse.isFalse.isFalse.isFalse => cases needs
  all_goals
    next same =>
      cases needs
      subst same
      decide

theorem lex_of_letter_none {byte : UInt8} (plain : letter byte = none) (filled : byte ≠ 0) :
    lex [byte] = some [.byte byte] := by
  have special (other after : UInt8) (needs : letter other = some after) : byte ≠ other := by
    rintro rfl
    rw [needs] at plain
    cases plain
  have backslash := special 92 92 rfl
  have tab := special 9 116 rfl
  have newline := special 10 110 rfl
  have carriage := special 13 114 rfl
  simp [lex, lexFrom, Item.bare, backslash, tab, newline, carriage, filled]

theorem escapeByte_reads {byte : UInt8} (filled : byte ≠ 0) :
    ∃ item, lex (escapeByte byte) = some [item] ∧ item.value = some byte ∧
      item ≠ .escaped 78 := by
  unfold escapeByte
  cases needs : letter byte with
  | none => exact ⟨.byte byte, lex_of_letter_none needs filled, rfl, fun same => by cases same⟩
  | some after =>
      obtain ⟨means, notN⟩ := denoted_letter needs
      exact ⟨.escaped after, rfl, means, fun same => notN (Item.escaped.inj same)⟩

theorem fieldEscape_escapeField : FieldEscape escapeField where
  reads data clean := by
    induction data with
    | nil => exact ⟨[], rfl, rfl, by decide⟩
    | cons byte rest ih =>
        rw [List.mem_cons, not_or] at clean
        obtain ⟨item, read, means, plain⟩ := escapeByte_reads (Ne.symm clean.1)
        obtain ⟨items, readRest, meansRest, _⟩ := ih clean.2
        refine ⟨item :: items, lex_append read readRest, ?_, ?_⟩
        · rw [List.mapM_cons, means, meansRest]
          rfl
        · intro same
          exact plain (List.cons.inj same).1

end Casbinex.Sql.Copy
