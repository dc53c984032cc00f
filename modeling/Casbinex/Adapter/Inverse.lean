import Casbinex.Adapter.Filter

/-!
# A removal is the inverse of an addition

The seven guards of the INSERT and the seven conjuncts of the DELETE switch at the
size of the rule.  Together they make `RemovePolicy` take exactly the rows that
`AddPolicy` of the same rule would write, and leave every neighbour.
-/

namespace Casbinex.Adapter

open Casbinex.Sql

/-- A row next to the row of a rule: that of another rule, a prefix or an extension of it
included, or one with the empty string for NULL or NULL for the empty string. -/
def Neighbour (ptype : Bytes) (rule : Rule) (cells : Row) : Prop :=
  (∃ other : Rule, other.length ≤ 7 ∧ other ≠ rule ∧ cells = ruleCells ptype other) ∨
    ∃ ii : Nat, cells[ii]? = some (some []) ∧ (ruleCells ptype rule)[ii]? = some none ∨
      cells[ii]? = some none ∧ (ruleCells ptype rule)[ii]? = some (some [])

theorem Neighbour.ne {ptype : Bytes} {rule : Rule} {cells : Row} (short : rule.length ≤ 7)
    (neighbour : Neighbour ptype rule cells) : cells ≠ ruleCells ptype rule := by
  rintro rfl
  rcases neighbour with ⟨other, brief, different, same⟩ | ⟨ii, ⟨empty, null⟩ | ⟨null, empty⟩⟩
  · exact different (ruleCells_injective brief short same.symm).2
  · rw [empty] at null
    cases null
  · rw [empty] at null
    cases null

/-- `RemovePolicy` takes the rows that are equal to the row `AddPolicy` writes, in all their
copies, and no other row; after both calls a table that did not hold the rule is as it was.
Both calls escape the ptype, which ends it at its first zero byte. -/
structure RemovesInserted (db : Database) (key : RelName) (relation : Relation) (model : Model)
    (sec ptype : Bytes) (rule : Rule) : Prop where
  inserted : ∃ longer, call (addPolicy sec ptype rule) [] model db =
      ⟨.ok (), model, db.put key longer, []⟩ ∧
    content longer = content relation ++ [ruleCells (cString ptype) rule]
  removed : ∃ left, call (removePolicy sec ptype rule) [] model db =
      ⟨.ok (), model, db.put key left, []⟩ ∧
    left.rows = relation.rows.filter (·.tail ≠ ruleCells (cString ptype) rule) ∧
    ∀ row ∈ relation.rows, Neighbour (cString ptype) rule row.tail → row ∈ left.rows
  restored : ruleCells (cString ptype) rule ∉ content relation → ∃ again,
    call (removePolicy sec ptype rule) [] model (call (addPolicy sec ptype rule) [] model db).db =
      ⟨.ok (), model, db.put key again, []⟩ ∧
    again.rows = relation.rows ∧ again.columns = relation.columns

section

variable {db : Database} {key : RelName} {relation : Relation} {ptype : Bytes} {rule : Rule}

/-- A rule whose row is new is gone again after both calls. -/
theorem rows_withoutRule_withRule (shape : relation.columns = tableColumns)
    (absent : ruleCells (cString ptype) (rule.map cString) ∉ content relation) :
    (withoutRule (withRule relation ptype rule) ptype rule).rows = relation.rows := by
  have longer : (withRule relation ptype rule).columns = tableColumns := shape
  rw [rows_withoutRule longer, withRule, Relation.append_rows, newRow_rule shape,
    List.filter_append]
  have others : relation.rows.filter
        (·.tail ≠ ruleCells (cString ptype) (rule.map cString)) = relation.rows := by
    apply List.filter_eq_self.mpr
    intro row member
    apply decide_eq_true
    intro same
    exact absent (List.mem_map.mpr ⟨row, member, same⟩)
  rw [others]
  simp

theorem removePolicy_inverts_addPolicy (named : Serves db plainRef key relation)
    (qualified : db.resolve polarityRef = some key) (model : Model) (sec : Bytes)
    (clean : ∀ field ∈ rule, (0 : UInt8) ∉ field) (short : rule.length ≤ 7) :
    RemovesInserted db key relation model sec ptype rule := by
  have cells : ruleCells (cString ptype) (rule.map cString) = ruleCells (cString ptype) rule := by
    rw [map_cString_of_notMem clean]
  have adds := call_addPolicy named model sec ptype rule
  have deleteServes : Serves db polarityRef key relation := ⟨qualified, named.stored, named.shape⟩
  constructor
  · refine ⟨_, adds, ?_⟩
    rw [content_withRule named.shape, cells]
  · refine ⟨_, call_removePolicy deleteServes model sec ptype rule, ?_⟩
    rw [rows_withoutRule named.shape, cells]
    refine ⟨rfl, fun row member neighbour => ?_⟩
    exact List.mem_filter.mpr ⟨member, decide_eq_true (neighbour.ne short)⟩
  · intro absent
    rw [← cells] at absent
    have longer : (withRule relation ptype rule).columns = tableColumns := named.shape
    have served := deleteServes.put longer
    refine ⟨withoutRule (withRule relation ptype rule) ptype rule, ?_,
      rows_withoutRule_withRule named.shape absent, ?_⟩
    · rw [adds, call_removePolicy served, Database.put_put]
    · exact longer.trans named.shape.symm

end

/-- A prefix of the grant of alice: adding it and removing it keeps the whole grant. -/
theorem removePolicy_inverts_addPolicy_alice :
    RemovesInserted (singleTable (ascii "polarity") aliceTable) (ascii "polarity", tableName)
        aliceTable (rbacModel [] []) (ascii "p") (ascii "p") (aliceReads.rule.take 2) ∧
      Neighbour (ascii "p") (aliceReads.rule.take 2) aliceReads.cells ∧
      ruleCells (ascii "p") (aliceReads.rule.take 2) ∉ content aliceTable := by
  have qualified := (serves_polarity serves_aliceTable.shape).resolved
  refine ⟨removePolicy_inverts_addPolicy serves_aliceTable qualified _ _ (by decide) (by decide),
    Or.inl ⟨aliceReads.rule, by decide, by decide, rfl⟩, by decide⟩

end Casbinex.Adapter
