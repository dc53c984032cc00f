import Casbinex.Adapter.Enforcer
import Casbinex.Program.Threads

/-!
# Concurrent updates

`AddPolicy` and `RemovePolicy` of many processes: each changes the model and then
commits its transaction on a connection of its own.  Nothing ties the order of the
transactions to the order of the changes.  Where the two orders agree rule by rule,
table and model agree whenever no call stands between its two steps.
-/

namespace Casbinex.Adapter

open Casbinex.Program
open Casbinex.Sql

/-- A call of `AddPolicy` or `RemovePolicy` on a rule that fits into a row. -/
inductive Change where
  | grant (g : Grant)
  | revoke (g : Grant)
  deriving DecidableEq

namespace Change

def target : Change → Grant
  | .grant g => g
  | .revoke g => g

def update : Change → Update
  | .grant g => .add g.sec g.ptype g.rule
  | .revoke g => .remove g.sec g.ptype g.rule

end Change

/-- How far a call has come. -/
inductive Stage where
  | called (change : Change)
  /-- The model has changed, the transaction is still to come. -/
  | between (change : Change)
  | answered (changed : Bool)
  deriving DecidableEq

def Stage.pending : Stage → Option Change
  | .between change => some change
  | _ => none

/-- What the processes share.  `pending` records the changes of each rule whose
transactions are still to come, oldest first; no step reads it. -/
structure Shared where
  model : Model
  db : Database
  pending : Grant → List Change

/-- The two atomic steps of a call; a transaction that fails is none of this system. -/
def processes (casbin : Casbin) : System Shared Stage Change Unit where
  spawn := .called
  advance _ shared
    | .called change =>
        match casbin.change change.update shared.model with
        | (false, model) => some ({ shared with model := model }, .answered false)
        | (true, model) =>
            let waiting := shared.pending change.target ++ [change]
            some ({ shared with
              model := model
              pending := Function.update shared.pending change.target waiting }, .between change)
    | .between change =>
        let outcome := call change.update.store [] shared.model shared.db
        let waiting := (shared.pending change.target).tail
        match outcome.result with
        | .ok () => some (⟨outcome.model, outcome.db,
            Function.update shared.pending change.target waiting⟩, .answered true)
        | .error _ => none
    | .answered _ => none

/-- Calls are on declared ptypes, and the transactions on a rule come in the order of
the changes they belong to. -/
def InOrder (start : Model) (config : Config Shared Stage) : Act Change Unit → Prop
  | .start change => start.Declares change.target.sec change.target.ptype
  | .step index _ => ∀ change ∈ config.threads[index]?.bind Stage.pending,
      (config.shared.pending change.target).head? = some change

instance (start : Model) (config : Config Shared Stage) :
    DecidablePred (InOrder start config)
  | .start change =>
      inferInstanceAs (Decidable (start.Declares change.target.sec change.target.ptype))
  | .step index _ =>
      inferInstanceAs (Decidable (∀ change ∈ config.threads[index]?.bind Stage.pending,
        (config.shared.pending change.target).head? = some change))

/-! ## The changes of one rule -/

/-- Applied in order to a rule that is there or not, the changes take effect each,
and afterwards it is there or not. -/
def Leads : Prop → List Change → Prop → Prop
  | before, [], after => before ↔ after
  | before, .grant _ :: more, after => ¬ before ∧ Leads True more after
  | before, .revoke _ :: more, after => before ∧ Leads False more after

theorem Leads.congr {before same after : Prop} {changes : List Change}
    (leads : Leads before changes after) (iff : before ↔ same) : Leads same changes after :=
  propext iff ▸ leads

theorem Leads.append_grant {before middle after : Prop} {changes : List Change} (g : Grant)
    (leads : Leads before changes middle) (absent : ¬ middle) (present : after) :
    Leads before (changes ++ [.grant g]) after := by
  induction changes generalizing before with
  | nil => exact ⟨mt leads.mp absent, iff_of_true trivial present⟩
  | cons change more ih =>
      cases change with
      | grant other => exact ⟨leads.1, ih leads.2⟩
      | revoke other => exact ⟨leads.1, ih leads.2⟩

theorem Leads.append_revoke {before middle after : Prop} {changes : List Change} (g : Grant)
    (leads : Leads before changes middle) (present : middle) (absent : ¬ after) :
    Leads before (changes ++ [.revoke g]) after := by
  induction changes generalizing before with
  | nil => exact ⟨leads.mpr present, iff_of_false id absent⟩
  | cons change more ih =>
      cases change with
      | grant other => exact ⟨leads.1, ih leads.2⟩
      | revoke other => exact ⟨leads.1, ih leads.2⟩

/-! ## The two steps -/

section

variable {casbin : Casbin} {start model : Model} {db : Database} {key : RelName}
  {relation : Relation} {stored held : Set Grant}

/-- A change of the model takes effect on its rule or changes nothing. -/
theorem change_cases (documented : casbin.Documented) (memory : MemoryHolds model held)
    (change : Change) (declared : model.Declares change.target.sec change.target.ptype) :
    casbin.change change.update model = (false, model) ∨
    ∃ after changed, casbin.change change.update model = (true, after) ∧
      MemoryHolds after changed ∧ (∀ s t, after.Declares s t ↔ model.Declares s t) ∧
      (∀ g, g ≠ change.target → (g ∈ changed ↔ g ∈ held)) ∧
      ∀ before changes, Leads before changes (change.target ∈ held) →
        Leads before (changes ++ [change]) (change.target ∈ changed) := by
  cases change with
  | grant g =>
      by_cases granted : g ∈ held
      · exact Or.inl (documented.add_present declared ((memory.mem_iff g).mpr granted))
      · obtain ⟨changes, holds⟩ := change_add documented memory declared granted
        refine Or.inr ⟨_, insert g held, changes, holds,
          fun s t => model.declares_adjust _ _ _ _ _,
          fun h other => Set.mem_insert_iff.trans (or_iff_right other),
          fun before changes leads => ?_⟩
        exact leads.append_grant g granted (Set.mem_insert g held)
  | revoke g =>
      by_cases granted : g ∈ held
      · obtain ⟨changes, holds⟩ := change_remove documented memory declared granted
        refine Or.inr ⟨_, {h ∈ held | h ≠ g}, changes, holds,
          fun s t => model.declares_adjust _ _ _ _ _,
          fun h other => and_iff_left other, fun before changes leads => ?_⟩
        exact leads.append_revoke g granted fun inside => inside.2 rfl
      · exact Or.inl (documented.remove_absent declared (mt (memory.mem_iff g).mp granted))

/-- The transaction of the oldest change of a rule brings the rule one change further. -/
theorem commit_oldest (named : Serves db plainRef key relation)
    (qualified : Serves db polarityRef key relation) (table : TableHolds relation stored)
    {change : Change} {more : List Change} {after : Prop}
    (leads : Leads (change.target ∈ stored) (change :: more) after) (model : Model) :
    ∃ written kept, call change.update.store [] model db = ⟨.ok (), model, db.put key written, []⟩ ∧
      written.columns = tableColumns ∧ TableHolds written kept ∧
      (∀ g, g ≠ change.target → (g ∈ kept ↔ g ∈ stored)) ∧
      Leads (change.target ∈ kept) more after := by
  cases change with
  | grant g =>
      refine ⟨withRule relation g.ptype g.rule, insert g stored,
        call_addPolicy named model g.sec g.ptype g.rule, named.shape,
        table.insert named.shape leads.1,
        fun h other => Set.mem_insert_iff.trans (or_iff_right other), ?_⟩
      exact leads.2.congr (iff_of_true trivial (Set.mem_insert g stored))
  | revoke g =>
      refine ⟨withoutRule relation g.ptype g.rule, {h ∈ stored | h ≠ g},
        call_removePolicy qualified model g.sec g.ptype g.rule, named.shape,
        table.erase named.shape g, fun h other => and_iff_left other, ?_⟩
      exact leads.2.congr (iff_of_false id fun inside => inside.2 rfl)

/-! ## The invariant -/

def Stage.pendingOn (g : Grant) : Stage → Option Change
  | .between change => if change.target = g then some change else none
  | _ => none

/-- The table holds one set of grants and the model another one; rule by rule, the
changes whose transactions are still to come lead from the first to the second. -/
structure Trails (start : Model) (key : RelName) (config : Config Shared Stage)
    (relation : Relation) (stored held : Set Grant) : Prop where
  named : Serves config.shared.db plainRef key relation
  qualified : Serves config.shared.db polarityRef key relation
  table : TableHolds relation stored
  memory : MemoryHolds config.shared.model held
  declares : ∀ s t, config.shared.model.Declares s t ↔ start.Declares s t
  known : ∀ change, .called change ∈ config.threads →
    start.Declares change.target.sec change.target.ptype
  inFlight : ∀ g, (config.shared.pending g).Perm (config.threads.filterMap (Stage.pendingOn g))
  leads : ∀ g, Leads (g ∈ stored) (config.shared.pending g) (g ∈ held)

/-- A set of grants in both places and no call. -/
theorem trails_start (named : Serves db plainRef key relation)
    (qualified : Serves db polarityRef key relation) (table : TableHolds relation held)
    (memory : MemoryHolds start held) :
    Trails start key ⟨⟨start, db, fun _ => []⟩, []⟩ relation held held where
  named := named
  qualified := qualified
  table := table
  memory := memory
  declares _ _ := Iff.rfl
  known change member := by cases member
  inFlight _ := List.Perm.nil
  leads _ := Iff.rfl

theorem trails_call {shared : Shared} {threads : List Stage} {change : Change}
    (trails : Trails start key ⟨shared, threads⟩ relation stored held)
    (declared : start.Declares change.target.sec change.target.ptype) :
    Trails start key ⟨shared, threads ++ [.called change]⟩ relation stored held := by
  refine { trails with known := fun other member => ?_, inFlight := fun g => ?_ }
  · rcases List.mem_append.mp member with before | new
    · exact trails.known other before
    · cases List.mem_singleton.mp new
      exact declared
  · have silent : [Stage.called change].filterMap (Stage.pendingOn g) = [] := rfl
    rw [List.filterMap_append, silent, List.append_nil]
    exact trails.inFlight g

section Moved

variable {shared : Shared} {front back : List Stage} {stage moved : Stage} {change : Change}

theorem known_moved
    (trails : Trails start key ⟨shared, front ++ stage :: back⟩ relation stored held)
    (settled : ∀ change, moved ≠ .called change) :
    ∀ change, .called change ∈ front ++ moved :: back →
      start.Declares change.target.sec change.target.ptype := by
  intro change member
  rcases mem_of_replaced stage member with same | before
  · exact absurd same.symm (settled change)
  · exact trails.known change before

/-- The changes waiting on a rule are that of one call, if it has one, and those of the others. -/
theorem pending_perm
    (trails : Trails start key ⟨shared, front ++ stage :: back⟩ relation stored held) (g : Grant) :
    (shared.pending g).Perm
      ((stage.pendingOn g).toList ++ (front ++ back).filterMap (Stage.pendingOn g)) :=
  (trails.inFlight g).trans (filterMap_split (Stage.pendingOn g) front back stage)

/-- A change that takes effect is put behind those of its rule. -/
theorem pending_change
    (trails : Trails start key ⟨shared, front ++ .called change :: back⟩ relation stored held)
    (g : Grant) :
    (Function.update shared.pending change.target
        (shared.pending change.target ++ [change]) g).Perm
      ((front ++ .between change :: back).filterMap (Stage.pendingOn g)) := by
  refine List.Perm.trans ?_
    (filterMap_split (Stage.pendingOn g) front back (.between change)).symm
  by_cases own : g = change.target
  · subst own
    simp only [Function.update_self, Stage.pendingOn, if_pos, Option.toList_some]
    exact List.perm_append_comm.trans (List.Perm.append_left [change] (pending_perm trails _))
  · simp only [Function.update_of_ne own, Stage.pendingOn, if_neg (Ne.symm own)]
    exact pending_perm trails g

/-- A transaction takes the oldest change of its rule away. -/
theorem pending_commit
    (trails : Trails start key ⟨shared, front ++ .between change :: back⟩ relation stored held)
    {more : List Change} (waiting : shared.pending change.target = change :: more) (g : Grant) :
    (Function.update shared.pending change.target more g).Perm
      ((front ++ .answered true :: back).filterMap (Stage.pendingOn g)) := by
  refine List.Perm.trans ?_
    (filterMap_split (Stage.pendingOn g) front back (.answered true)).symm
  have whole := pending_perm trails g
  by_cases own : g = change.target
  · subst own
    simp only [waiting, Stage.pendingOn, if_pos, Option.toList_some] at whole
    simp only [Function.update_self]
    exact whole.cons_inv
  · simp only [Stage.pendingOn, if_neg (Ne.symm own)] at whole
    simp only [Function.update_of_ne own]
    exact whole

/-- The first step of a call: the model moves on and the table stays. -/
theorem trails_change (documented : casbin.Documented) {changed : Shared}
    (trails : Trails start key ⟨shared, front ++ .called change :: back⟩ relation stored held)
    (advanced : (processes casbin).advance () shared (.called change) = some (changed, moved)) :
    ∃ granted, Trails start key ⟨changed, front ++ moved :: back⟩ relation stored granted := by
  have declared : shared.model.Declares change.target.sec change.target.ptype :=
    (trails.declares _ _).mpr (trails.known change (by simp))
  simp only [processes] at advanced
  rcases change_cases documented trails.memory change declared with
    idle | ⟨after, granted, changes, memory, declares, elsewhere, leads⟩
  · rw [idle] at advanced
    cases advanced
    refine ⟨held, { trails with known := known_moved trails (by simp), inFlight := fun g => ?_ }⟩
    exact (pending_perm trails g).trans
      (filterMap_split (Stage.pendingOn g) front back (.answered false)).symm
  · rw [changes] at advanced
    cases advanced
    refine ⟨granted, { trails with
      memory := memory
      declares := fun s t => (declares s t).trans (trails.declares s t)
      known := known_moved trails (by simp)
      inFlight := pending_change trails
      leads := fun g => ?_ }⟩
    by_cases own : g = change.target
    · subst own
      simp only [Function.update_self]
      exact leads _ _ (trails.leads change.target)
    · simp only [Function.update_of_ne own, elsewhere g own]
      exact trails.leads g

/-- The second step of a call: the table moves on by the oldest change of the rule. -/
theorem trails_commit {changed : Shared}
    (trails : Trails start key ⟨shared, front ++ .between change :: back⟩ relation stored held)
    (oldest : (shared.pending change.target).head? = some change)
    (advanced : (processes casbin).advance () shared (.between change) = some (changed, moved)) :
    ∃ written kept, Trails start key ⟨changed, front ++ moved :: back⟩ written kept held := by
  obtain ⟨more, waiting⟩ := List.head?_eq_some_iff.mp oldest
  have leads := trails.leads change.target
  rw [waiting] at leads
  obtain ⟨written, kept, commits, shape, table, elsewhere, rest⟩ :=
    commit_oldest trails.named trails.qualified trails.table leads shared.model
  simp only [processes, commits, waiting, List.tail_cons] at advanced
  cases advanced
  refine ⟨written, kept, {
    named := trails.named.put shape
    qualified := trails.qualified.put shape
    table := table
    memory := trails.memory
    declares := trails.declares
    known := known_moved trails (by simp)
    inFlight := pending_commit trails waiting
    leads := fun g => ?_ }⟩
  by_cases own : g = change.target
  · subst own
    simp only [Function.update_self]
    exact rest
  · simp only [Function.update_of_ne own, elsewhere g own]
    exact trails.leads g

/-- Step: one call advances; the transactions come in the order of the changes. -/
theorem trails_step (documented : casbin.Documented) {changed : Shared}
    (trails : Trails start key ⟨shared, front ++ stage :: back⟩ relation stored held)
    (inOrder : InOrder start ⟨shared, front ++ stage :: back⟩ (.step front.length ()))
    (advanced : (processes casbin).advance () shared stage = some (changed, moved)) :
    ∃ relation stored held,
      Trails start key ⟨changed, front ++ moved :: back⟩ relation stored held := by
  cases stage with
  | answered answer => cases advanced
  | called change =>
      obtain ⟨granted, after⟩ := trails_change documented trails advanced
      exact ⟨relation, stored, granted, after⟩
  | between change =>
      have found : (front ++ Stage.between change :: back)[front.length]? =
          some (.between change) := by simp
      have oldest : (shared.pending change.target).head? = some change :=
        inOrder change (by rw [found]; rfl)
      obtain ⟨written, kept, after⟩ := trails_commit trails oldest advanced
      exact ⟨written, kept, held, after⟩

end Moved

/-- Run: from a table that equals the model, if the transactions on each rule come in
the order of the changes, table and model hold the same grants, each once, whenever
no call stands between its two steps. -/
theorem concurrent_updates_agree (documented : casbin.Documented)
    (named : Serves db plainRef key relation) (qualified : db.resolve polarityRef = some key)
    (table : TableHolds relation held) (memory : MemoryHolds start held)
    {last : Config Shared Stage}
    (run : RunFrom (processes casbin).Step (InOrder start)
      ⟨⟨start, db, fun _ => []⟩, []⟩ last)
    (quiet : ∀ stage ∈ last.threads, stage.pending = none) :
    ∃ relation grants, Serves last.shared.db plainRef key relation ∧
      TableHolds relation grants ∧ MemoryHolds last.shared.model grants := by
  have reached : ∃ relation stored held, Trails start key last relation stored held := by
    refine (processes casbin).run_invariant
      (fun config => ∃ relation stored held, Trails start key config relation stored held)
      ?_ ?_ ?_ run
    · rintro shared threads change ⟨relation, stored, held, trails⟩ declared
      exact ⟨relation, stored, held, trails_call trails declared⟩
    · rintro shared front stage back _ changed moved ⟨relation, stored, held, trails⟩ inOrder
      exact trails_step documented trails inOrder
    · exact ⟨relation, held, held, trails_start named ⟨qualified, named.stored, named.shape⟩
        table memory⟩
  obtain ⟨relation, stored, held, trails⟩ := reached
  have same : stored = held := by
    ext g
    have idle : last.threads.filterMap (Stage.pendingOn g) = [] := by
      apply List.filterMap_eq_nil_iff.mpr
      intro stage member
      have none := quiet stage member
      cases stage with
      | between change => cases none
      | _ => rfl
    have leads := trails.leads g
    have nothing := trails.inFlight g
    rw [idle, List.perm_nil] at nothing
    rw [nothing] at leads
    exact leads
  subst same
  exact ⟨relation, stored, trails.named, trails.table, trails.memory⟩

end

/-! ## One rule and two processes -/

/-- An empty table and a model without rules. -/
def nothingGranted : Shared :=
  ⟨rbacModel [] [], singleTable (ascii "polarity") (Relation.empty tableColumns), fun _ => []⟩

/-- Both calls are over and the rule is gone from the model; the table holds the given rows. -/
def Ended (rows : List Row) (config : Config Shared Stage) : Prop :=
  config.threads = [.answered true, .answered true] ∧
    config.shared.model.policy (ascii "p") (ascii "p") = [] ∧
    (config.shared.db.table (ascii "polarity", tableName)).map content = some rows

instance (rows : List Row) : DecidablePred (Ended rows) :=
  fun _ => inferInstanceAs (Decidable (_ ∧ _ ∧ _))

/-- The rule is added and removed; both transactions come after both changes, in the
same order. -/
theorem concurrent_updates_agree_aliceReads :
    ∃ last, RunFrom (processes Casbin.reference).Step (InOrder nothingGranted.model)
        ⟨nothingGranted, []⟩ last ∧ Ended [] last ∧
      ∃ relation grants, Serves last.shared.db plainRef (ascii "polarity", tableName) relation ∧
        TableHolds relation grants ∧ MemoryHolds last.shared.model grants := by
  have computed : (follow (fun config act => decide (InOrder nothingGranted.model config act))
      (processes Casbin.reference).next ⟨nothingGranted, []⟩
      [.start (.grant aliceReads), .step 0 (), .start (.revoke aliceReads), .step 1 (), .step 0 (),
        .step 1 ()]).any (decide <| Ended [] ·) = true := by
    decide +kernel
  obtain ⟨last, run, finished⟩ :=
    exists_run_of_follow (fun config act => of_decide_eq_true) computed
  refine ⟨last, run, finished, ?_⟩
  have table : TableHolds (Relation.empty tableColumns) ∅ :=
    ⟨List.nodup_nil, fun cells => by simp [content, Relation.empty]⟩
  have empty (s t : Bytes) : nothingGranted.model.policy s t = [] := by
    simp only [nothingGranted, Model.policy, assertion_rbacModel]
    split
    · rfl
    · split <;> rfl
  have memory : MemoryHolds nothingGranted.model ∅ := by
    refine ⟨fun s t => ?_, fun s t rule => ?_, fun g member => absurd member (Set.notMem_empty g)⟩
    · rw [empty]
      exact List.nodup_nil
    · rw [empty]
      simp
  refine concurrent_updates_agree Casbin.reference_documented (serves_singleTable _ rfl)
    (serves_polarity rfl).resolved table memory run fun stage member => ?_
  rw [finished.1] at member
  rcases List.mem_pair.mp member with rfl | rfl <;> rfl

/-- The transactions come in the other order: the rule that was removed last is left in
the table. -/
theorem removed_rule_stays_in_table :
    ∃ last, Reachable (processes Casbin.reference).Step ⟨nothingGranted, []⟩ last ∧
      Ended [aliceReads.cells] last := by
  have computed : (follow (fun _ _ => true) (processes Casbin.reference).next ⟨nothingGranted, []⟩
      [.start (.grant aliceReads), .step 0 (), .start (.revoke aliceReads), .step 1 (), .step 1 (),
        .step 0 ()]).any (decide <| Ended [aliceReads.cells] ·) = true := by
    decide +kernel
  exact exists_run_of_follow (fun _ _ _ => trivial) computed

end Casbinex.Adapter
