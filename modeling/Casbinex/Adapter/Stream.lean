import Casbinex.Adapter.Atomic
import Casbinex.Sql.CopyText

/-!
# The stream of `SavePolicy`

`pqxx::stream_to` puts the fields of a row into a buffer, a tab behind each, takes the last
tab away and sends the buffer as a line.  Its header is part of this repository and
`stream_to.cxx` is not: the two members that are defined there are parameters here, and
`Documented` lists what the header says of them.
-/

namespace Casbinex.Adapter

open Casbinex.Sql
open Casbinex.Sql.Copy

/-- `pqxx::conversion_overrun` -/
inductive Overrun where
  | tooLong
  deriving DecidableEq, Repr

/-- `m_buffer`, the size of `m_field_buf`, and the lines that were sent. -/
structure StreamTo where
  buffer : Bytes
  fieldBuf : Nat
  sent : Bytes
  deriving DecidableEq, Repr

namespace StreamTo

def fresh : StreamTo := ⟨[], 0, []⟩

/-- `null_field` -/
def nullField : Bytes := [92, 78, 9]

/-- `size_buffer` of a string counts the zero byte behind it. -/
def sizeBuffer (value : Bytes) : Nat := value.length + 1

def estimateBuffer : Option Bytes → Nat
  | none => nullField.length
  | some value => sizeBuffer value

/-- `into_buf` copies the string and a zero byte, if there is room for both. -/
def intoBuf (room : Nat) (value : Bytes) : Except Overrun Bytes :=
  if room ≤ value.length then .error .tooLong else .ok (value ++ [0])

/-- `to_buf` looks at what was written without the zero byte. -/
def toBuf (room : Nat) (value : Bytes) : Except Overrun Bytes :=
  (intoBuf room value).map fun written => written.take (written.length - 1)

/-- The members that the header declares and leaves to `stream_to.cxx`. -/
structure Source where
  escapeFieldToBuffer : StreamTo → Bytes → StreamTo
  writeBuffer : StreamTo → StreamTo

/-- What the header documents of them. -/
structure Source.Documented (source : Source) (escape : Bytes → Bytes) : Prop where
  escapes : FieldEscape escape
  /-- Append escaped version of the data to the buffer, plus a tab. -/
  appends : ∀ stream data, source.escapeFieldToBuffer stream data =
    { stream with buffer := stream.buffer ++ (escape data ++ [9]) }
  /-- Write the row into the table, without the tab that is one too many. -/
  writes : ∀ stream text, stream.buffer = text ++ [9] →
    (source.writeBuffer stream).sent = stream.sent ++ (text ++ [10])
  /-- Reset the buffer for the next row. -/
  resets : ∀ stream, (source.writeBuffer stream).buffer = []

def appendToBuffer (source : Source) (stream : StreamTo) : Option Bytes → Except Overrun StreamTo
  | none => .ok { stream with buffer := stream.buffer ++ nullField }
  | some value => do
      let budget := estimateBuffer (some value)
      let text ← toBuf budget value
      return source.escapeFieldToBuffer { stream with fieldBuf := budget } text

def fillBuffer (source : Source) (row : Row) (stream : StreamTo) : Except Overrun StreamTo :=
  row.foldlM (appendToBuffer source) stream

def writeRow (source : Source) (stream : StreamTo) (row : Row) : Except Overrun StreamTo :=
  (fillBuffer source row stream).map source.writeBuffer

/-! ## What the stream sends -/

section

variable {source : Source} {escape : Bytes → Bytes}

/-- The budget of a field is enough for the field. -/
theorem toBuf_estimateBuffer (value : Bytes) :
    toBuf (estimateBuffer (some value)) value = .ok value := by
  have room : ¬ estimateBuffer (some value) ≤ value.length := Nat.not_succ_le_self value.length
  rw [toBuf, intoBuf, if_neg room]
  simp [Except.map]

/-- A field comes with a tab behind it. -/
theorem appendToBuffer_eq (documented : source.Documented escape) (stream : StreamTo)
    (field : Option Bytes) :
    ∃ size, appendToBuffer source stream field =
      .ok ⟨stream.buffer ++ (fieldText escape field ++ [9]), size, stream.sent⟩ := by
  cases field with
  | none => exact ⟨stream.fieldBuf, rfl⟩
  | some value =>
      refine ⟨estimateBuffer (some value), ?_⟩
      simp only [appendToBuffer, toBuf_estimateBuffer, documented.appends]
      rfl

theorem fillBuffer_eq (documented : source.Documented escape) (row : Row) (stream : StreamTo) :
    ∃ size, fillBuffer source row stream =
      .ok ⟨stream.buffer ++ row.flatMap (fieldText escape · ++ [9]), size, stream.sent⟩ := by
  induction row generalizing stream with
  | nil => exact ⟨stream.fieldBuf, by simp [fillBuffer]; rfl⟩
  | cons field more ih =>
      obtain ⟨size, appended⟩ := appendToBuffer_eq documented stream field
      obtain ⟨last, filled⟩ :=
        ih ⟨stream.buffer ++ (fieldText escape field ++ [9]), size, stream.sent⟩
      refine ⟨last, ?_⟩
      rw [fillBuffer, List.foldlM_cons, appended]
      rw [List.append_assoc] at filled
      exact filled

/-- A tab behind each field is a tab between the fields and one too many. -/
theorem flatMap_tab {texts : List Bytes} (filled : texts ≠ []) :
    texts.flatMap (· ++ [9]) = [9].intercalate texts ++ [9] := by
  induction texts with
  | nil => exact absurd rfl filled
  | cons text more ih =>
      cases more with
      | nil => simp
      | cons next rest =>
          rw [List.intercalate_cons_cons, List.flatMap_cons, ih (List.cons_ne_nil next rest)]
          simp only [List.append_assoc]

theorem writeRow_eq (documented : source.Documented escape) {row : Row} (filled : row ≠ [])
    (size : Nat) (sent : Bytes) :
    ∃ after, writeRow source ⟨[], size, sent⟩ row =
      .ok ⟨[], after, sent ++ lineText escape row⟩ := by
  obtain ⟨width, appended⟩ := fillBuffer_eq documented row ⟨[], size, sent⟩
  have tabbed : row.flatMap (fieldText escape · ++ [9]) =
      [9].intercalate (row.map (fieldText escape)) ++ [9] := by
    rw [← flatMap_tab (mt List.map_eq_nil_iff.mp filled), List.flatMap_map]
  rw [List.nil_append, tabbed] at appended
  let stream : StreamTo := ⟨[9].intercalate (row.map (fieldText escape)) ++ [9], width, sent⟩
  have emptied : (source.writeBuffer stream).buffer = [] := documented.resets stream
  have written : (source.writeBuffer stream).sent = sent ++ lineText escape row :=
    documented.writes stream _ rfl
  rcases ended : source.writeBuffer stream with ⟨buffer, fieldBuf, total⟩
  rw [ended] at emptied written
  cases emptied
  cases written
  refine ⟨fieldBuf, ?_⟩
  rw [writeRow, appended]
  exact congrArg Except.ok ended

theorem writeRows_eq (documented : source.Documented escape) {rows : List Row}
    (filled : ∀ row ∈ rows, row ≠ []) (size : Nat) (sent : Bytes) :
    ∃ after, rows.foldlM (writeRow source) ⟨[], size, sent⟩ =
      .ok ⟨[], after, sent ++ rows.flatMap (lineText escape)⟩ := by
  induction rows generalizing size sent with
  | nil => exact ⟨size, by simp; rfl⟩
  | cons row more ih =>
      obtain ⟨here, others⟩ := List.forall_mem_cons.mp filled
      obtain ⟨middle, first⟩ := writeRow_eq documented here size sent
      obtain ⟨after, rest⟩ := ih others middle (sent ++ lineText escape row)
      refine ⟨after, ?_⟩
      rw [List.foldlM_cons, first]
      rw [List.append_assoc] at rest
      exact rest

/-- Rows of two fields and more arrive as they were written. -/
theorem readData_of_writeRows (documented : source.Documented escape) {rows : List Row}
    (clean : ∀ row ∈ rows, Clean row) (wide : ∀ row ∈ rows, 2 ≤ row.length) :
    ∃ stream, rows.foldlM (writeRow source) fresh = .ok stream ∧
      readData stream.sent = some rows := by
  have filled : ∀ row ∈ rows, row ≠ [] := by
    intro row member empty
    have short := wide row member
    rw [empty] at short
    exact absurd short (by decide)
  obtain ⟨after, written⟩ := writeRows_eq documented filled 0 []
  exact ⟨_, written, documented.escapes.readData_lines clean wide⟩

end

/-- Members that do what is documented. -/
def reference : Source where
  escapeFieldToBuffer stream data :=
    { stream with buffer := stream.buffer ++ (escapeField data ++ [9]) }
  writeBuffer stream :=
    { stream with buffer := [], sent := stream.sent ++ (stream.buffer.dropLast ++ [10]) }

theorem reference_documented : reference.Documented escapeField where
  escapes := fieldEscape_escapeField
  appends _ _ := rfl
  writes stream text ends := by
    change stream.sent ++ (stream.buffer.dropLast ++ [10]) = _
    rw [ends, List.dropLast_concat]
  resets _ := rfl

end StreamTo

/-! ## Saving through the stream -/

/-- The rows that `SavePolicy` writes, one for each rule of the sections `p` and `g`. -/
def savedRows (model : Model) : List Row :=
  (sectionRules model (ascii "p") ++ sectionRules model (ascii "g")).map
    fun e => savedCells e.1 e.2

/-- A saved row is as free of zero bytes as its ptype: `esc` stops at the first one. -/
theorem clean_savedCells {ptype : Bytes} (clean : (0 : UInt8) ∉ ptype) (rule : Rule) :
    Clean (savedCells ptype rule) := by
  intro field member data present
  rcases List.mem_cons.mp member with rfl | inRule
  · cases present
    exact clean
  · obtain ⟨ii, _, rfl⟩ := List.mem_map.mp inRule
    obtain ⟨text, _, rfl⟩ := List.mem_map.mp (List.mem_of_getElem? present)
    exact zero_notMem_doubleQuotes (zero_notMem_cString text)

/-- The rows that a `SavePolicy` streams fit into the buffers of the stream, and what the
server reads from the bytes that were sent is the content of the table afterwards. -/
theorem savePolicy_over_the_wire {source : StreamTo.Source} {escape : Bytes → Bytes}
    (documented : source.Documented escape) {db : Database} {key : RelName} {relation : Relation}
    (serves : Serves db plainRef key relation) {model : Model}
    (clean : ∀ e ∈ sectionRules model (ascii "p") ++ sectionRules model (ascii "g"),
      (0 : UInt8) ∉ e.1)
    {faults : List Bool} (returns : (call (savePolicy .live) faults model db).result = .ok ()) :
    ∃ filled stream, (call (savePolicy .live) faults model db).db = db.put key filled ∧
      (savedRows model).foldlM (StreamTo.writeRow source) StreamTo.fresh = .ok stream ∧
      readData stream.sent = some (content filled) := by
  obtain ⟨filled, _, stored, saved⟩ := call_savePolicy serves model
  have same := congrArg Outcome.db (call_nil_of_ok returns)
  rw [saved] at same
  have rows : content filled = savedRows model := by
    rw [stored, sectionLines_eq, sectionLines_eq, savedRows, List.map_append]
  have cleanRows : ∀ row ∈ savedRows model, Clean row := by
    intro row member
    obtain ⟨e, inRules, rfl⟩ := List.mem_map.mp member
    exact clean_savedCells (clean e inRules) e.2
  have wide : ∀ row ∈ savedRows model, 2 ≤ row.length := by
    intro row member
    obtain ⟨e, _, rfl⟩ := List.mem_map.mp member
    rw [length_savedCells]
    decide
  obtain ⟨stream, written, read⟩ := StreamTo.readData_of_writeRows documented cleanRows wide
  exact ⟨filled, stream, same.symm, written, rows ▸ read⟩

/-- A rule with a tab, a line break and a backslash in its fields. -/
theorem savePolicy_over_the_wire_separators :
    let rule : Rule := [[9, 10], [92, 78], []]
    ∃ filled stream,
      (call (savePolicy .live) [] (rbacModel [rule] []) (singleTable (ascii "polarity")
        (Relation.empty tableColumns))).db =
          (singleTable (ascii "polarity") (Relation.empty tableColumns)).put
            (ascii "polarity", tableName) filled ∧
      (savedRows (rbacModel [rule] [])).foldlM (StreamTo.writeRow StreamTo.reference)
        StreamTo.fresh = .ok stream ∧
      readData stream.sent = some (content filled) :=
  savePolicy_over_the_wire StreamTo.reference_documented (serves_singleTable _ rfl)
    (by decide +kernel) (by decide +kernel)

end Casbinex.Adapter
