import Casbinex.Adapter.Atomic

/-!
# Saves and loads in turn

`SavePolicy` streams escaped fields, which no statement takes apart again.  Every load
that follows a save therefore brings back one doubling of the quotes more, and failed
saves and loads bring back nothing.
-/

namespace Casbinex.Adapter

open Casbinex.Program
open Casbinex.Program.Prog
open Casbinex.Sql
open Casbinex.Sql.Lexer (doubleQuotes)

/-! ## Doublings -/

/-- A policy with its quotes doubled so many times. -/
def doubled : Nat → List Rule → List Rule
  | 0, rules => rules
  | n + 1, rules => (doubled n rules).map (List.map doubleQuotes)

theorem quotes_doubled (n : Nat) (rules : List Rule) :
    quotes (doubled n rules) = 2 ^ n * quotes rules := by
  induction n with
  | zero => rw [doubled, Nat.pow_zero, Nat.one_mul]
  | succ n ih => rw [doubled, quotes_doubleQuotes, ih, Nat.pow_succ, Nat.mul_comm (2 ^ n) 2,
      Nat.mul_assoc]

@[simp]
theorem doubled_nil (n : Nat) : doubled n [] = [] := by
  induction n with
  | zero => rfl
  | succ n ih => rw [doubled, ih, List.map_nil]

theorem storable_doubled {rules : List Rule} (storable : ∀ rule ∈ rules, StorableRule rule)
    (n : Nat) : ∀ rule ∈ doubled n rules, StorableRule rule := by
  induction n with
  | zero => exact storable
  | succ n ih =>
      intro rule member
      obtain ⟨before, inBefore, rfl⟩ := List.mem_map.mp member
      obtain ⟨plain, short⟩ := ih before inBefore
      refine ⟨fun field inRule => ?_, by rw [List.length_map]; exact short⟩
      obtain ⟨old, inOld, rfl⟩ := List.mem_map.mp inRule
      exact ⟨trim_doubleQuotes (plain old inOld).trimmed,
        zero_notMem_doubleQuotes (plain old inOld).clean⟩

/-- A model that declares what a saveable one declares and holds its doubled policies. -/
theorem saveable_of_doubled {origin model : Model} (saveable : Saveable origin)
    (declares : ∀ s t, model.Declares s t ↔ origin.Declares s t) {n : Nat}
    (holds : ∀ s t, model.policy s t = doubled n (origin.policy s t)) : Saveable model where
  sections s t held := saveable.sections s t fun empty => held (by rw [holds, empty, doubled_nil])
  ptypes s t saved declared := saveable.ptypes s t saved ((declares s t).mp declared)
  rules s t rule member :=
    storable_doubled (saveable.rules s t) n rule (holds s t ▸ member)

/-! ## A save keeps the rules in memory -/

/-- A step on the model that keeps every assertion. -/
def Instr.keepsRules : Instr → Prop
  | .model change => ∀ model after, change model = .ok after →
      ∀ s t, after.assertion s t = model.assertion s t
  | _ => True

theorem keepsRules_saveRule (ptype : Bytes) (rule : Rule) :
    Within Instr.keepsRules (saveRule ptype rule) := by
  refine (Within.foldlM (fun row ii => ?_) _ _).bind fun row => ⟨trivial, fun _ => trivial⟩
  unfold saveField
  split
  · exact ⟨trivial, fun _ => trivial⟩
  · trivial

theorem keepsRules_saveRules (ptype : Bytes) (rules : List Rule) :
    Within Instr.keepsRules (saveRules ptype rules) := by
  induction rules with
  | nil => trivial
  | cons rule more ih => exact (keepsRules_saveRule ptype rule).bind fun _ => ih

theorem keepsRules_saveSection (sec : Bytes) : Within Instr.keepsRules (saveSection sec) := by
  have entries (entries : List (Σ _ : Bytes, List Rule)) :
      Within Instr.keepsRules (saveAssertions entries) := by
    induction entries with
    | nil => trivial
    | cons entry more ih => exact (keepsRules_saveRules entry.1 entry.2).bind fun _ => ih
  refine ⟨fun model after touched s t => ?_, fun _ => entries _⟩
  cases touched
  exact model.assertion_touch sec s t

/-- However a save ends, the model has the assertions it had. -/
theorem assertion_of_savePolicy (faults : List Bool) (model : Model) (db : Database)
    (s t : Bytes) :
    (call (savePolicy .live) faults model db).model.assertion s t = model.assertion s t := by
  have within : Within Instr.keepsRules (savePolicy .live) :=
    ⟨trivial, fun _ => ⟨trivial, fun _ => ⟨trivial, fun _ => ⟨trivial, fun _ =>
      (keepsRules_saveSection _).bind fun _ => (keepsRules_saveSection _).bind fun _ =>
        ⟨trivial, fun _ => ⟨trivial, fun _ => trivial⟩⟩⟩⟩⟩⟩
  refine within.run_invariant machine (fun store => store.model.assertion s t = model.assertion s t)
    (fun i store answer changed keeps same stepped => ?_) faults rfl
  by_cases onModel : ∃ change, i = .model change
  · obtain ⟨change, rfl⟩ := onModel
    simp only [machine, Store.step] at stepped
    cases applied : change store.model with
    | error crash =>
        rw [applied] at stepped
        cases stepped
    | ok after =>
        rw [applied] at stepped
        cases stepped
        exact (keeps store.model _ applied s t).trans same
  · rw [model_of_step (fun change equal => onModel ⟨change, equal⟩) stepped]
    exact same

/-! ## Runs of saves and loads -/

inductive Copying where
  | save
  | load
  deriving DecidableEq

def Copying.program : Copying → AdapterProg Unit
  | .save => savePolicy .live
  | .load => loadPolicy

/-- Saves and loads, each under its schedule; for each of them whether it returns, and the
state that they leave. -/
def copyAll : List (Copying × List Bool) → Model × Database →
    List (Copying × Bool) × Model × Database
  | [], state => ([], state)
  | (copying, faults) :: more, state =>
      let ended := call copying.program faults state.1 state.2
      let rest := copyAll more (ended.model, ended.db)
      ((copying, ended.result.toBool) :: rest.1, rest.2)

/-- How often the quotes have been doubled in memory and in the table. -/
def drift : Nat × Nat → Copying × Bool → Nat × Nat
  | (held, _), (.save, true) => (held, held + 1)
  | (_, stored), (.load, true) => (stored, stored)
  | counts, (_, false) => counts

/-- Model and table hold the policy of the origin, with its quotes doubled so many times. -/
structure Drifted (origin : Model) (key : RelName) (state : Model × Database)
    (counts : Nat × Nat) : Prop where
  declares : ∀ s t, state.1.Declares s t ↔ origin.Declares s t
  held : ∀ s t, state.1.policy s t = doubled counts.1 (origin.policy s t)
  stored : ∃ relation, Serves state.2 plainRef key relation ∧ Loadable origin (content relation) ∧
    ∀ t, rulesUnder t (content relation) = doubled counts.2 (origin.policy (t.take 1) t)

section

variable {origin model : Model} {db : Database} {key : RelName} {counts : Nat × Nat}

theorem drifted_save (saveable : Saveable origin) (drifted : Drifted origin key (model, db) counts)
    (faults : List Bool) :
    let ended := call (savePolicy .live) faults model db
    Drifted origin key (ended.model, ended.db) (drift counts (.save, ended.result.toBool)) := by
  intro ended
  have kept (s t : Bytes) : ended.model.assertion s t = model.assertion s t :=
    assertion_of_savePolicy faults model db s t
  have declares (s t : Bytes) : ended.model.Declares s t ↔ origin.Declares s t := by
    rw [Model.Declares, kept]
    exact drifted.declares s t
  have held (s t : Bytes) : ended.model.policy s t = doubled counts.1 (origin.policy s t) := by
    rw [Model.policy, kept]
    exact drifted.held s t
  obtain ⟨relation, named, loadable, rules⟩ := drifted.stored
  rcases call_fault_or_nil (savePolicy .live) faults model db with struck | ⟨later, whole⟩
  · have same : ended.db = db := db_of_error (publishesLast_savePolicy .live) struck
    have failed : ended.result.toBool = false := congrArg Except.toBool struck
    rw [failed]
    exact ⟨declares, held, relation, same ▸ named, loadable, rules⟩
  · have current : Saveable model := saveable_of_doubled saveable drifted.declares drifted.held
    obtain ⟨filled, shape, _, saves⟩ := call_savePolicy named model
    obtain ⟨saved, loaded, same, loads, twice⟩ := load_after_save named current
      fun s t => (drifted.declares s t).symm
    rw [saves] at whole
    have database : ended.db = db.put key filled := congrArg Outcome.db whole
    have returned : ended.result = .ok () := congrArg Outcome.result whole
    have served : Serves ended.db plainRef key filled := database ▸ named.put shape
    obtain rfl : ended.db = saved := by rw [database, ← same, saves]
    have ok := loadRows_of_call served loads
    rw [returned]
    refine ⟨declares, held, filled, served, fun row member => ?_, fun t => ?_⟩
    · obtain ⟨key, rule, reads, known⟩ := loadable_of_loadRows ok row member
      exact ⟨key, rule, reads, (origin.declares_clearPolicy _ _).mp known⟩
    · have own := (loadedFrom_of_ok ok).policy_of_clear (t.take 1) t
      rw [if_pos rfl, twice, drifted.held] at own
      exact own.symm

/-- What a load without faults brings back. -/
theorem Drifted.loads (saveable : Saveable origin)
    (drifted : Drifted origin key (model, db) counts) :
    ∃ loaded, call loadPolicy [] model db = ⟨.ok (), loaded, db, []⟩ ∧
      (∀ s t, loaded.Declares s t ↔ origin.Declares s t) ∧
      ∀ s t, loaded.policy s t = doubled counts.2 (origin.policy s t) := by
  obtain ⟨relation, named, loadable, rules⟩ := drifted.stored
  have known : Loadable model.clearPolicy (content relation) := by
    intro row member
    obtain ⟨key, rule, reads, declared⟩ := loadable row member
    exact ⟨key, rule, reads, (model.declares_clearPolicy _ _).mpr
      ((drifted.declares _ _).mpr declared)⟩
  obtain ⟨loaded, ok, spec⟩ := loadRows_spec known
  refine ⟨loaded, call_loadPolicy_ok named ok, fun s t => ?_, fun s t => ?_⟩
  · rw [spec.declares, Model.declares_clearPolicy]
    exact drifted.declares s t
  · rw [spec.policy_of_clear]
    split
    · next own => rw [rules, ← own]
    · next away => rw [saveable.policy_nil away, doubled_nil]

theorem drifted_load (saveable : Saveable origin) (drifted : Drifted origin key (model, db) counts)
    (faults : List Bool) :
    let ended := call loadPolicy faults model db
    Drifted origin key (ended.model, ended.db) (drift counts (.load, ended.result.toBool)) := by
  intro ended
  obtain ⟨loaded, loads, declares, brought⟩ := drifted.loads saveable
  have database : ended.db = db := db_of_loadPolicy faults model db
  rcases call_fault_or_nil loadPolicy faults model db with struck | ⟨later, whole⟩
  · have same : ended.model = model := model_of_loadPolicy_thrown struck trivial
    have failed : ended.result.toBool = false := congrArg Except.toBool struck
    rw [failed, same, database]
    exact drifted
  · rw [loads] at whole
    have same : ended.model = loaded := congrArg Outcome.model whole
    have returned : ended.result = .ok () := congrArg Outcome.result whole
    rw [returned, same, database]
    exact ⟨declares, brought, drifted.stored⟩

/-- Run: every save and load keeps what the counts say. -/
theorem drifted_copyAll (saveable : Saveable origin) {script : List (Copying × List Bool)}
    {state : Model × Database} (drifted : Drifted origin key state counts) :
    Drifted origin key (copyAll script state).2 ((copyAll script state).1.foldl drift counts) := by
  induction script generalizing state counts with
  | nil => exact drifted
  | cons step more ih =>
      obtain ⟨copying, faults⟩ := step
      cases copying with
      | save => exact ih (drifted_save saveable drifted faults)
      | load => exact ih (drifted_load saveable drifted faults)

end

/-- Two saves that return, one that does not, and the loads after them. -/
def backups : List (Copying × List Bool) :=
  [(.save, []), (.load, []), (.save, [false, true]), (.load, []), (.save, []), (.load, [])]

end Casbinex.Adapter
