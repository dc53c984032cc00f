import Casbinex.Adapter.Grants

/-!
# Revocation

The loader reads a row through two normalisations, dropping NULLs and trimming,
and so many rows denote one rule; `RemovePolicy` deletes only the row that is
stored as the rule itself.  A removed rule stays removed exactly when no other
row of the table denotes it.
-/

namespace Casbinex.Adapter

open Casbinex.Sql

/-- Every row that denotes the rule is stored as the rule. -/
def Tidy (rows : List Row) (ptype : Bytes) (rule : Rule) : Prop :=
  ∀ cells ∈ rows, entryOf cells = some (ptype, rule) → cells = ruleCells ptype rule

/-- The texts a column admits have no zero byte. -/
def Admitted (rows : List Row) : Prop :=
  ∀ cells ∈ rows, ∀ cell ∈ cells, ∀ text ∈ cell, (0 : UInt8) ∉ text

instance (rows : List Row) : Decidable (Admitted rows) :=
  inferInstanceAs (Decidable (∀ cells ∈ rows, ∀ cell ∈ cells, ∀ text ∈ cell, (0 : UInt8) ∉ text))

/-! ## What a row can denote -/

/-- A denoted ptype and rule are trimmed, free of zero bytes, and fit into a row. -/
theorem entryOf_normal {cells : Row} (eight : cells.length = 8)
    (clean : ∀ cell ∈ cells, ∀ text ∈ cell, (0 : UInt8) ∉ text) {ptype : Bytes} {rule : Rule}
    (reads : entryOf cells = some (ptype, rule)) :
    (∀ text ∈ ptype :: rule, Plain text) ∧ rule.length ≤ 7 := by
  unfold entryOf at reads
  cases tokens : (policyLine cells).map trim with
  | nil => simp [tokens] at reads
  | cons key fields =>
      simp only [tokens, Option.some.injEq, Prod.mk.injEq] at reads
      obtain ⟨rfl, rfl⟩ := reads
      constructor
      · intro text inTokens
        rw [← tokens] at inTokens
        obtain ⟨raw, inLine, rfl⟩ := List.mem_map.mp inTokens
        have inCells : some raw ∈ cells := List.reduceOption_mem_iff.mp inLine
        exact ⟨strip_strip raw, fun zero => clean _ inCells raw rfl (mem_of_mem_strip zero)⟩
      · have lengths := congrArg List.length tokens
        rw [List.length_map, List.length_cons] at lengths
        have bound : (policyLine cells).length ≤ cells.length := List.reduceOption_length_le cells
        omega

/-- The grant that a row denotes. -/
def grantOf {cells : Row} (eight : cells.length = 8)
    (clean : ∀ cell ∈ cells, ∀ text ∈ cell, (0 : UInt8) ∉ text) {ptype : Bytes} {rule : Rule}
    (reads : entryOf cells = some (ptype, rule)) : Grant :=
  have normal := entryOf_normal eight clean reads
  ⟨ptype, rule, normal.1 ptype List.mem_cons_self,
    fun field member => normal.1 field (List.mem_cons_of_mem ptype member), normal.2⟩

/-! ## Rules that stay -/

theorem count_rulesUnder (ptype : Bytes) (rule : Rule) (rows : List Row) :
    (rulesUnder ptype rows).count rule =
      rows.countP fun row => entryOf row = some (ptype, rule) := by
  unfold rulesUnder
  rw [List.filterMap_filterMap, List.count_filterMap]
  apply List.countP_congr
  intro row _
  cases entryOf row with
  | none => simp
  | some e => simp [Prod.ext_iff]

/-- Dropping rows that denote one rule leaves every other rule as often as before. -/
theorem count_rulesUnder_filter {rows : List Row} {keep : Row → Bool} {ptype : Bytes}
    {rule : Rule} (kept : ∀ row ∈ rows, entryOf row = some (ptype, rule) → keep row = true) :
    (rulesUnder ptype (rows.filter keep)).count rule = (rulesUnder ptype rows).count rule := by
  rw [count_rulesUnder, count_rulesUnder, List.countP_filter]
  apply List.countP_congr
  intro row member
  rw [Bool.and_eq_true, decide_eq_true_eq]
  constructor
  · exact And.left
  · intro reads
    exact ⟨reads, kept row member reads⟩

/-- Deleting the row stored as a rule removes the rule exactly from tidy tables. -/
theorem notMem_rulesUnder_filter (rows : List Row) (ptype : Bytes) (rule : Rule) :
    rule ∉ rulesUnder ptype (rows.filter (· ≠ ruleCells ptype rule)) ↔ Tidy rows ptype rule := by
  rw [mem_rulesUnder]
  simp only [List.mem_filter, decide_eq_true_eq, Tidy, not_exists, not_and, and_imp]
  constructor
  · intro none cells member reads
    by_contra other
    exact none cells member other reads
  · intro tidy cells member other reads
    exact other (tidy cells member reads)

section

variable {db : Database} {key : RelName} {relation : Relation} {start loaded : Model}
  {ptype : Bytes} {rule : Rule}

/-- Load, remove, load again: the rows left are those not stored as the rule. -/
theorem reload_after_remove (named : Serves db plainRef key relation)
    (qualified : db.resolve polarityRef = some key)
    (loads : call loadPolicy [] start db = ⟨.ok (), loaded, db, []⟩)
    (sec ptype : Bytes) (rule : Rule) :
    ∃ removedDb reloaded,
      call (removePolicy sec ptype rule) [] loaded db = ⟨.ok (), loaded, removedDb, []⟩ ∧
      call loadPolicy [] loaded removedDb = ⟨.ok (), reloaded, removedDb, []⟩ ∧
      LoadedFrom loaded.clearPolicy ((content relation).filter
        (· ≠ ruleCells (cString ptype) (rule.map cString))) reloaded := by
  have deleteServes : Serves db polarityRef key relation :=
    ⟨qualified, named.stored, named.shape⟩
  have ok := loadRows_of_call named loads
  have served : Serves (db.put key (withoutRule relation ptype rule)) plainRef key
      (withoutRule relation ptype rule) := named.put named.shape
  have loadable : Loadable loaded.clearPolicy (content (withoutRule relation ptype rule)) := by
    intro row member
    rw [content_withoutRule named.shape] at member
    obtain ⟨k, r, reads, declared⟩ := loadable_of_loadRows ok row (List.mem_filter.mp member).1
    refine ⟨k, r, reads, ?_⟩
    rw [Model.declares_clearPolicy, (loadedFrom_of_ok ok).declares]
    exact declared
  obtain ⟨reloaded, again, spec⟩ := loadRows_spec loadable
  rw [content_withoutRule named.shape] at spec
  exact ⟨_, reloaded, call_removePolicy deleteServes loaded sec ptype rule,
    call_loadPolicy_ok served again, spec⟩

/-- A loaded rule that is removed stays away from the next load, and every other
rule comes back as often as before, exactly when each row that denotes the rule
is stored as the rule. -/
theorem revocation_durable_iff (named : Serves db plainRef key relation)
    (qualified : db.resolve polarityRef = some key) (admitted : Admitted (content relation))
    (loads : call loadPolicy [] start db = ⟨.ok (), loaded, db, []⟩)
    (present : rule ∈ loaded.policy (ptype.take 1) ptype) :
    let removed := call (removePolicy (ptype.take 1) ptype rule) [] loaded db
    let reloaded := call loadPolicy [] removed.model removed.db
    (removed.result = .ok () ∧ reloaded.result = .ok () ∧
      rule ∉ reloaded.model.policy (ptype.take 1) ptype ∧
      ∀ s t r, ¬ (s = ptype.take 1 ∧ t = ptype ∧ r = rule) →
        (reloaded.model.policy s t).count r = (loaded.policy s t).count r) ↔
    Tidy (content relation) ptype rule := by
  intro removed reloaded
  obtain ⟨removedDb, again, removes, reloads, after⟩ :=
    reload_after_remove named qualified loads (ptype.take 1) ptype rule
  have before := loadedFrom_of_call named loads
  have removedIs : removed = ⟨.ok (), loaded, removedDb, []⟩ := removes
  have reloadedIs : reloaded = ⟨.ok (), again, removedDb, []⟩ := by
    simp only [reloaded, removedIs]
    exact reloads
  rw [before.policy_of_clear, if_pos rfl, mem_rulesUnder] at present
  obtain ⟨witness, inContent, denotes⟩ := present
  let g := grantOf (length_of_mem_content named.shape inContent) (admitted _ inContent) denotes
  have stored : ruleCells (cString ptype) (rule.map cString) = g.cells :=
    congrArg₂ ruleCells g.cString_ptype g.map_cString_rule
  have reads : entryOf g.cells = some (ptype, rule) := g.entryOf_cells
  rw [stored] at after
  rw [reloadedIs, removedIs]
  have gone : rule ∉ again.policy (ptype.take 1) ptype ↔ Tidy (content relation) ptype rule := by
    rw [after.policy_of_clear, if_pos rfl]
    exact notMem_rulesUnder_filter (content relation) ptype rule
  have others (s t : Bytes) (r : Rule) (different : ¬ (s = ptype.take 1 ∧ t = ptype ∧ r = rule)) :
      (again.policy s t).count r = (loaded.policy s t).count r := by
    rw [after.policy_of_clear, before.policy_of_clear]
    split
    · next own =>
        apply count_rulesUnder_filter
        intro row _ reading
        apply decide_eq_true
        rintro rfl
        rw [reads, Option.some.injEq, Prod.mk.injEq] at reading
        obtain ⟨rfl, rfl⟩ := reading
        exact different ⟨own, rfl, rfl⟩
    · rfl
  constructor
  · rintro ⟨_, _, absent, _⟩
    exact gone.mp absent
  · intro tidy
    exact ⟨rfl, rfl, gone.mpr tidy, others⟩

/-- A table in which the removed rule is stored as itself. -/
theorem revocation_durable_singleTable :
    let alice : Rule := [ascii "alice", ascii "data1", ascii "read"]
    let db := singleTable (ascii "polarity")
      (withRule (Relation.empty tableColumns) (ascii "p") alice)
    let loaded := rbacModel [alice] []
    let removed := call (removePolicy (ascii "p") (ascii "p") alice) [] loaded db
    let reloaded := call loadPolicy [] removed.model removed.db
    removed.result = .ok () ∧ reloaded.result = .ok () ∧
      alice ∉ reloaded.model.policy (ascii "p") (ascii "p") ∧
      ∀ s t r, ¬ (s = ascii "p" ∧ t = ascii "p" ∧ r = alice) →
        (reloaded.model.policy s t).count r = (loaded.policy s t).count r := by
  intro alice db loaded
  have one : content (withRule (Relation.empty tableColumns) (ascii "p") alice) =
      [ruleCells (ascii "p") alice] := rfl
  have named : Serves db plainRef (ascii "polarity", tableName) _ := serves_singleTable _ rfl
  have loads : call loadPolicy [] (rbacModel [] []) db = ⟨.ok (), loaded, db, []⟩ :=
    call_loadPolicy_ok named rfl
  have admitted :
      Admitted (content (withRule (Relation.empty tableColumns) (ascii "p") alice)) := by
    decide
  have qualified := (serves_polarity (named.shape)).resolved
  apply (revocation_durable_iff named qualified admitted loads (by decide)).mpr
  intro cells member _
  rw [one, List.mem_singleton] at member
  exact member

/-- A rule stored with a leading blank survives its removal. -/
theorem revocation_undone_by_blank :
    let alice : Rule := [ascii "alice", ascii "data1", ascii "read"]
    let db := singleTable (ascii "polarity")
      (withRule (Relation.empty tableColumns) (ascii "p")
        [ascii " alice", ascii "data1", ascii "read"])
    let loaded := call loadPolicy [] (rbacModel [] []) db
    let removed := call (removePolicy (ascii "p") (ascii "p") alice) [] loaded.model db
    let reloaded := call loadPolicy [] removed.model removed.db
    loaded.result = .ok () ∧ alice ∈ loaded.model.policy (ascii "p") (ascii "p") ∧
      removed.result = .ok () ∧ reloaded.result = .ok () ∧
      alice ∈ reloaded.model.policy (ascii "p") (ascii "p") := by
  decide +kernel

end

end Casbinex.Adapter
