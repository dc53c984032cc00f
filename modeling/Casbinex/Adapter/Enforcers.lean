import Casbinex.Adapter.Atomic
import Casbinex.Adapter.OneRelation
import Casbinex.Program.Threads

/-!
# Enforcers that share one table

Every enforcer has a model of its own and commits its updates to one table.  casbin
adds a rule only if the model lacks it, but a model may be stale, and neither the
schema nor the INSERT nor the loader looks for the rule.  No rule is stored twice as
long as an enforcer that adds a rule knows it whenever the table has it.
-/

namespace Casbinex.Adapter

open Casbinex.Program
open Casbinex.Sql

/-- What an enforcer does, with the faults it meets. -/
inductive Request where
  | update (u : Update) (faults : List Bool)
  | load (faults : List Bool)
  deriving DecidableEq

/-- Each enforcer has its own model, and all of them share the committed database. -/
def enforcers (casbin : Casbin) : System Database Model Model Request where
  spawn := id
  advance
    | .update u faults, db, model =>
        let after := casbin.update u faults model db
        some (after.db, after.model)
    | .load faults, db, model =>
        let after := call loadPolicy faults model db
        some (after.db, after.model)

/-- casbin passes an addition on only if the model lacks the rule. -/
def Casbin.AddsAbsent (casbin : Casbin) : Prop :=
  ∀ (model after : Model) (sec ptype : Bytes) (rule : Rule),
    casbin.change (.add sec ptype rule) model = (true, after) → rule ∉ model.policy sec ptype

/-- The row that `AddPolicy` inserts. -/
def insertedCells (ptype : Bytes) (rule : Rule) : Row :=
  ruleCells (cString ptype) (rule.map cString)

/-- An enforcer that is asked to add a rule knows it whenever the table has a row that
looks like the new one. -/
def Informed {β : Type} (view : Row → β) (key : RelName) (config : Config Database Model) :
    Act Model Request → Prop
  | .step index (.update (.add sec ptype rule) _) =>
      ∀ model ∈ config.threads[index]?, ∀ relation ∈ config.shared.table key,
        view (insertedCells ptype rule) ∈ (content relation).map view →
          rule ∈ model.policy sec ptype
  | _ => True

instance {β : Type} [DecidableEq β] (view : Row → β) (key : RelName)
    (config : Config Database Model) : DecidablePred (Informed view key config)
  | .step index (.update (.add sec ptype rule) _) =>
      inferInstanceAs (Decidable (∀ model ∈ config.threads[index]?,
        ∀ relation ∈ config.shared.table key,
          view (insertedCells ptype rule) ∈ (content relation).map view →
            rule ∈ model.policy sec ptype))
  | .step _ (.update (.remove _ _ _) _) => .isTrue trivial
  | .step _ (.update (.removeFiltered _ _ _ _) _) => .isTrue trivial
  | .step _ (.load _) => .isTrue trivial
  | .start _ => .isTrue trivial

/-! ## What an update does to the shared table -/

section

variable {db : Database} {ref : TableRef} {key : RelName} {relation : Relation}

/-- Rewriting another relation leaves what a name denotes. -/
theorem Serves.put_of_ne (serves : Serves db ref key relation) {other : RelName}
    (present : other ∈ db.relations) (apart : key ≠ other) (changed : Relation) :
    Serves (db.put other changed) ref key relation where
  resolved := by
    rw [Database.resolve_put_of_mem _ present]
    exact serves.resolved
  stored := by
    rw [Database.table_put_of_ne _ _ apart]
    exact serves.stored
  shape := serves.shape

/-- A DELETE takes rows from the table or concerns another relation. -/
theorem table_of_delete (serves : Serves db plainRef key relation) {ptype : Bytes}
    {conds : List Cond} (conjuncts : Conjuncts conds) {rows : List Row} {changed : Database}
    (executed : db.execText (deleteQuery ptype conds) = .ok (rows, changed)) :
    ∃ left, Serves changed plainRef key left ∧
      (content left).Sublist (content relation) := by
  rw [execText_deleteQuery db ptype conjuncts] at executed
  cases updated : db.update polarityRef fun relation =>
      relation.delete (.eq (ascii "ptype") (cString ptype) :: conds) with
  | error error =>
      rw [updated] at executed
      cases executed
  | ok after =>
      rw [updated] at executed
      cases executed
      obtain ⟨other, target, shrunk, resolved, found, deleted, rfl⟩ :=
        Database.update_cases updated
      obtain ⟨keep, rfl⟩ := Relation.delete_cases deleted
      by_cases same : key = other
      · subst same
        rw [serves.stored, Option.some.injEq] at found
        subst found
        exact ⟨_, serves.put serves.shape, List.filter_sublist.map List.tail⟩
      · exact ⟨relation, serves.put_of_ne (Database.mem_of_resolve resolved) same _,
          List.Sublist.refl _⟩

/-- Storing a removal takes rows from the table at most. -/
theorem table_of_removal (serves : Serves db plainRef key relation) {u : Update}
    (removal : ∀ sec ptype rule, u ≠ .add sec ptype rule) {model : Model}
    (ok : (call u.store [] model db).result = .ok ()) :
    ∃ left, Serves (call u.store [] model db).db plainRef key left ∧
      (content left).Sublist (content relation) := by
  cases u with
  | add sec ptype rule => exact absurd rfl (removal sec ptype rule)
  | remove sec ptype rule =>
      rw [Update.store, removePolicy_eq] at ok ⊢
      obtain ⟨query, rows, built, executed⟩ :=
        text_of_call_transaction (within_buildMatch ptype rule) ok
      rw [run_buildMatch] at built
      cases built
      exact table_of_delete serves (conjuncts_matchCond rule _) executed
  | removeFiltered sec ptype fieldIndex fieldValues =>
      rw [Update.store, removeFilteredPolicy_eq] at ok ⊢
      obtain ⟨query, rows, built, executed⟩ :=
        text_of_call_transaction (within_buildFilter ptype fieldIndex fieldValues) ok
      obtain ⟨conds, conjuncts, rfl⟩ := buildFilter_text ⟨_, built⟩
      exact table_of_delete serves conjuncts executed

/-- An update inserts the row of a rule that casbin passed on, or takes rows at most. -/
theorem table_of_update (serves : Serves db plainRef key relation) (casbin : Casbin) (u : Update)
    (faults : List Bool) (model : Model) :
    (∃ sec ptype rule, u = .add sec ptype rule ∧ (casbin.change u model).1 = true ∧
      (casbin.update u faults model db).db = db.put key (withRule relation ptype rule)) ∨
    ∃ left, Serves (casbin.update u faults model db).db plainRef key left ∧
      (content left).Sublist (content relation) := by
  have untouched : ∃ left, Serves db plainRef key left ∧
      (content left).Sublist (content relation) := ⟨relation, serves, List.Sublist.refl _⟩
  unfold Casbin.update
  rcases changes : casbin.change u model with ⟨passes, after⟩
  cases passes with
  | false => exact Or.inr untouched
  | true =>
      dsimp only
      cases ended : (call u.store faults after db).result with
      | error failure =>
          rw [Update.call_of_error ended]
          exact Or.inr untouched
      | ok done =>
          have whole := call_nil_of_ok ended
          have database : (call u.store faults after db).db = (call u.store [] after db).db := by
            rw [whole]
          rw [database]
          by_cases addition : ∃ sec ptype rule, u = .add sec ptype rule
          · obtain ⟨sec, ptype, rule, rfl⟩ := addition
            left
            refine ⟨sec, ptype, rule, rfl, rfl, ?_⟩
            rw [Update.store, call_addPolicy serves]
          · right
            refine table_of_removal serves (fun sec ptype rule same => ?_) ?_
            · exact addition ⟨sec, ptype, rule, same⟩
            · rw [whole]

/-! ## Runs -/

/-- No two rows of the table look alike. -/
def Distinct {β : Type} (view : Row → β) (key : RelName) (db : Database) : Prop :=
  ∃ relation, Serves db plainRef key relation ∧ ((content relation).map view).Nodup

variable {β : Type} {view : Row → β} {casbin : Casbin} {models : List Model}
  {last : Config Database Model}

theorem distinct_update (adds : casbin.AddsAbsent) {front back : List Model} {model : Model}
    {u : Update} {faults : List Bool} (distinct : Distinct view key db)
    (informed : Informed view key ⟨db, front ++ model :: back⟩
      (.step front.length (.update u faults))) :
    Distinct view key (casbin.update u faults model db).db := by
  obtain ⟨relation, serves, nodup⟩ := distinct
  rcases table_of_update serves casbin u faults model with
    ⟨sec, ptype, rule, rfl, passes, after⟩ | ⟨left, served, fewer⟩
  · have shape : (withRule relation ptype rule).columns = tableColumns := serves.shape
    rw [after]
    refine ⟨_, serves.put shape, ?_⟩
    rw [content_withRule serves.shape, List.map_append]
    apply List.Nodup.append nodup (List.nodup_singleton _)
    rw [List.disjoint_singleton]
    intro present
    have known := informed model (by simp) relation serves.stored present
    exact adds model _ sec ptype rule (Prod.ext passes rfl) known
  · exact ⟨left, served, (fewer.map view).nodup nodup⟩

/-- Rows that look different keep looking different along every run in which the
enforcers are informed. -/
theorem distinct_run (adds : casbin.AddsAbsent) (distinct : Distinct view key db)
    (run : RunFrom (enforcers casbin).Step (Informed view key) ⟨db, models⟩ last) :
    Distinct view key last.shared := by
  refine (enforcers casbin).run_invariant (fun config => Distinct view key config.shared)
    (fun shared threads input distinct _ => distinct) ?_ distinct run
  intro shared front model back request changed moved distinct informed advanced
  cases request with
  | update u faults =>
      cases advanced
      exact distinct_update adds distinct informed
  | load faults =>
      cases advanced
      rw [db_of_loadPolicy]
      exact distinct

/-- A load from rows that read differently builds each rule once. -/
theorem nodup_of_load (distinct : Distinct entryOf key db) {faults : List Bool} {model : Model}
    (ok : (call loadPolicy faults model db).result = .ok ()) (s t : Bytes) :
    ((call loadPolicy faults model db).model.policy s t).Nodup := by
  obtain ⟨relation, serves, nodup⟩ := distinct
  have whole := call_nil_of_ok ok
  have completes : (call loadPolicy [] model db).result = .ok () ∧
      (call loadPolicy [] model db).model = (call loadPolicy faults model db).model := by
    rw [whole]
    exact ⟨rfl, rfl⟩
  have spec := loadedFrom_of_ok ((call_loadPolicy_completes_iff serves model _).mp completes)
  rw [spec.policy_of_clear]
  split
  · refine nodup_rulesUnder nodup.of_map ?_ t
    intro a inA b inB e readA readB
    exact List.inj_on_of_nodup_map nodup inA inB (readA.trans readB.symm)
  · exact List.nodup_nil

/-- Where enforcers add a rule only if they know whether the table has its row, no two
rows of the table are equal in any state reached.  Where they know whether a row reads
as the rule, and no two initial rows read alike, every load builds each rule once, and
removing one occurrence of a rule from memory revokes it. -/
theorem no_rule_twice (adds : casbin.AddsAbsent) (named : Serves db plainRef key relation) :
    (RunFrom (enforcers casbin).Step (Informed id key) ⟨db, models⟩ last →
      (content relation).Nodup →
      ∃ reached, Serves last.shared plainRef key reached ∧ (content reached).Nodup) ∧
    (RunFrom (enforcers casbin).Step (Informed entryOf key) ⟨db, models⟩ last →
      ((content relation).map entryOf).Nodup →
      ∀ faults model, (call loadPolicy faults model last.shared).result = .ok () → ∀ s t,
        ((call loadPolicy faults model last.shared).model.policy s t).Nodup ∧
        ∀ rule, rule ∉ ((call loadPolicy faults model last.shared).model.policy s t).erase rule) :=
    by
  constructor
  · intro run nodup
    have start : Distinct id key db := ⟨relation, named, by rwa [List.map_id]⟩
    obtain ⟨reached, serves, after⟩ := distinct_run adds start run
    exact ⟨reached, serves, by rwa [List.map_id] at after⟩
  · intro run nodup faults model ok s t
    have once := nodup_of_load (distinct_run adds ⟨relation, named, nodup⟩ run) ok s t
    exact ⟨once, fun rule => once.not_mem_erase⟩

end

theorem Casbin.reference_addsAbsent : Casbin.reference.AddsAbsent := by
  intro model after sec ptype rule passes
  simp only [Casbin.reference] at passes
  split at passes
  · cases passes
  · assumption

/-- An empty table and two enforcers without rules. -/
def twoEnforcers : Config Database Model :=
  ⟨singleTable (ascii "polarity") (Relation.empty tableColumns), [rbacModel [] [], rbacModel [] []]⟩

/-- The request for the grant of alice. -/
def addAlice : Request := .update (.add (ascii "p") (ascii "p") aliceReads.rule) []

/-- The content of the shared table. -/
def sharedRows (config : Config Database Model) : Option (List Row) :=
  (config.shared.table (ascii "polarity", tableName)).map content

/-- The second enforcer loads before it is asked for the same rule. -/
theorem no_rule_twice_aliceReads :
    (∃ last, RunFrom (enforcers Casbin.reference).Step
        (Informed id (ascii "polarity", tableName)) twoEnforcers last ∧
      sharedRows last = some [aliceReads.cells] ∧
      ∃ reached, Serves last.shared plainRef (ascii "polarity", tableName) reached ∧
        (content reached).Nodup) ∧
    ∃ last, RunFrom (enforcers Casbin.reference).Step
        (Informed entryOf (ascii "polarity", tableName)) twoEnforcers last ∧
      sharedRows last = some [aliceReads.cells] ∧
      ∀ faults model, (call loadPolicy faults model last.shared).result = .ok () → ∀ s t,
        ((call loadPolicy faults model last.shared).model.policy s t).Nodup := by
  have computed {β : Type} [DecidableEq β] (view : Row → β)
      (ended : (follow
        (fun config act => decide (Informed view (ascii "polarity", tableName) config act))
        (enforcers Casbin.reference).next twoEnforcers
        [.step 0 addAlice, .step 1 (.load []), .step 1 addAlice]).any
          (fun config => decide (sharedRows config = some [aliceReads.cells])) = true) :
      ∃ last, RunFrom (enforcers Casbin.reference).Step
        (Informed view (ascii "polarity", tableName)) twoEnforcers last ∧
          sharedRows last = some [aliceReads.cells] :=
    exists_run_of_follow (fun config act => of_decide_eq_true) ended
  constructor
  · obtain ⟨last, run, ended⟩ := computed id (by decide +kernel)
    refine ⟨last, run, ended, ?_⟩
    exact (no_rule_twice Casbin.reference_addsAbsent (serves_singleTable _ rfl)).1 run
      List.nodup_nil
  · obtain ⟨last, run, ended⟩ := computed entryOf (by decide +kernel)
    refine ⟨last, run, ended, fun faults model ok s t => ?_⟩
    exact ((no_rule_twice Casbin.reference_addsAbsent (serves_singleTable _ rfl)).2 run
      List.nodup_nil faults model ok s t).1

/-- The grant of alice, plain and with a blank before each field. -/
def paddedTable : Relation :=
  withRule (withRule (Relation.empty tableColumns) aliceReads.ptype aliceReads.rule)
    aliceReads.ptype (aliceReads.rule.map (ascii " " ++ ·))

/-- Two enforcers that have not seen the rule store it twice, and a load builds it twice;
a load also builds it twice from two different rows that read alike. -/
theorem two_enforcers_store_twice :
    (∃ last, Reachable (enforcers Casbin.reference).Step twoEnforcers last ∧
      sharedRows last = some [aliceReads.cells, aliceReads.cells] ∧
      (call loadPolicy [] (rbacModel [] []) last.shared).model.policy (ascii "p") (ascii "p") =
        [aliceReads.rule, aliceReads.rule]) ∧
    (content paddedTable).Nodup ∧
      (call loadPolicy [] (rbacModel [] []) (singleTable (ascii "polarity")
        paddedTable)).model.policy (ascii "p") (ascii "p") =
          [aliceReads.rule, aliceReads.rule] := by
  have computed : (follow (fun _ _ => true) (enforcers Casbin.reference).next twoEnforcers
      [.step 0 addAlice, .step 1 addAlice]).any (fun config =>
        decide (sharedRows config = some [aliceReads.cells, aliceReads.cells] ∧
          (call loadPolicy [] (rbacModel [] []) config.shared).model.policy (ascii "p")
            (ascii "p") = [aliceReads.rule, aliceReads.rule])) = true := by
    decide +kernel
  obtain ⟨last, run, ended⟩ := exists_run_of_follow (fun _ _ _ => trivial) computed
  exact ⟨⟨last, run, ended⟩, by decide +kernel, by decide +kernel⟩

end Casbinex.Adapter
