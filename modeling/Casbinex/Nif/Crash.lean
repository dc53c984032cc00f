import Casbinex.Nif.Host

/-!
# A process that dies

The process may die in the middle of a call, at any step on the database.  The model and
the cache are lost; what was committed stays, and that is the work of the first
operations of the call.
-/

namespace Casbinex.Nif

open Casbinex.Program
open Casbinex.Program.Prog
open Casbinex.Sql
open Casbinex.Adapter (Model Grant Operation Casbin Mirrored Serves plainRef call construct content)

/-! ## Updates that are cut short -/

section

variable {casbin : Casbin} {start : Model} {key : RelName} {state : Model × Database}
  {grants : Set Grant} {relation : Relation}

/-- An update that returns leaves what it leaves without faults. -/
theorem update_nil_of_ok {u : Adapter.Update} {faults later : List Bool} {model after : Model}
    {db changed : Database} {answer : Bool}
    (returns : casbin.update u faults model db = ⟨.ok answer, after, changed, later⟩) :
    casbin.update u [] model db = ⟨.ok answer, after, changed, []⟩ := by
  rcases changes : casbin.change u model with ⟨passes, revised⟩
  unfold Casbin.update at returns ⊢
  rw [changes] at returns ⊢
  cases passes with
  | false =>
      cases returns
      rfl
  | true =>
      dsimp only at returns ⊢
      cases ended : (call u.store faults revised db).result with
      | error failure =>
          rw [ended] at returns
          cases returns
      | ok done =>
          rw [ended] at returns
          cases returns
          rw [Adapter.call_nil_of_ok ended]
          rfl

/-- Run: whatever the schedule, the database is left as some of the operations, from the
first one on, leave it. -/
theorem updateAll_cut (documented : casbin.Documented) {operations : List Operation}
    (admissible : ∀ operation ∈ operations, operation.Admissible start)
    (mirrored : Mirrored start key state grants relation) (faults : List Bool) :
    ∃ done model stored, Mirrored start key (model, (updateAll casbin
        (operations.filterMap Operation.update) faults state.1 state.2).db)
      ((operations.take done).foldl Operation.effect grants) stored := by
  induction operations generalizing state grants relation faults with
  | nil => exact ⟨0, state.1, relation, mirrored⟩
  | cons operation more ih =>
      obtain ⟨first, rest⟩ := List.forall_mem_cons.mp admissible
      obtain ⟨stored, next⟩ := Adapter.perform_mirrored documented mirrored first
      cases asks : operation.update with
      | none =>
          have idle : operation.effect grants = grants := by
            cases operation <;> first | rfl | cases asks
          obtain ⟨done, model, last, kept⟩ := ih rest mirrored faults
          refine ⟨done + 1, model, last, ?_⟩
          rw [List.filterMap_cons_none asks, List.take_succ_cons, List.foldl_cons, idle]
          exact kept
      | some u =>
          rw [List.filterMap_cons_some asks]
          rcases ended : casbin.update u faults state.1 state.2 with ⟨result, after, changed, later⟩
          cases result with
          | error failure =>
              -- the adapter throws before it commits
              have same : changed = state.2 := by
                rcases casbin.update_cases u faults state.1 state.2 with
                  ⟨_, idle⟩ | ⟨_, _, rem, failed⟩ | ⟨_, _, rem, stored⟩
                · rw [ended] at idle
                  cases idle
                · rw [ended] at failed
                  cases failed
                  rfl
                · rw [ended] at stored
                  cases stored
              refine ⟨0, state.1, relation, ?_⟩
              simp only [updateAll, ended, same]
              exact mirrored
          | ok answer =>
              have whole := update_nil_of_ok ended
              rw [update_returns mirrored asks first] at whole
              obtain ⟨_, rfl, rfl, _⟩ := Casbin.Updated.mk.inj whole
              obtain ⟨done, model, last, kept⟩ := ih rest next later
              refine ⟨done + 1, model, last, ?_⟩
              rw [List.take_succ_cons, List.foldl_cons]
              simp only [updateAll, ended]
              exact kept

end

/-! ## Incidents -/

/-- An event, or a call under a schedule of faults during which the process dies; then a new
one creates an enforcer. -/
inductive Incident where
  | whole (event : Event)
  | cut (call : Call) (faults : List Bool)

/-- What an incident means to the grants: of a call that was cut short, this many operations
have been carried out. -/
inductive Meaning where
  | whole (event : Event)
  | cut (call : Call) (done : Nat)

inductive Means : Incident → Meaning → Prop
  | whole (event : Event) : Means (.whole event) (.whole event)
  | cut (call : Call) (faults : List Bool) (done : Nat) : Means (.cut call faults) (.cut call done)

def Incident.shown : Incident → Bool
  | .whole event => event.shown
  | .cut _ _ => true

def Meaning.shown : Meaning → Bool
  | .whole event => event.shown
  | .cut _ _ => true

/-- The operations that a call asks for. -/
def Call.operations (call : Call) : List Operation :=
  (call.mutation.map fun change => change.1.operations).getD []

def Incident.Admissible (start : Model) : Incident → Prop
  | .whole event => event.Admissible start
  | .cut call _ => ∀ operation ∈ call.operations, operation.Admissible start

/-- The host after a call under the schedule, with nothing left but the database. -/
def survivor (library : Library) (files : Files) (engine : Engine Live) (call : Call)
    (faults : List Bool) (host : Host) : Host :=
  ⟨none, (run (hostMachine library files faults engine) call.program [] host).state.db⟩

/-- The host among processes that die. -/
def mortalService (library : Library) (files : Files) (engine : Engine Live)
    (modelPath policyPath : Term) : Service Incident (Except Undefined Reply) Host where
  answer
    | .whole event, host =>
        (hostService library files engine modelPath policyPath).answer event host
    | .cut call faults, host => (hostService library files engine modelPath policyPath).answer
        .restart (survivor library files engine call faults host)

/-- The grants, some of which a call that was cut short has changed. -/
noncomputable def prefixService (decision : Set Grant → List Bytes → Except Thrown Bool) :
    Service Meaning (Except Undefined Reply) (Set Grant) where
  answer
    | .whole event, grants => (grantService decision).answer event grants
    | .cut call done, grants =>
        (.ok .created, (call.operations.take done).foldl Operation.effect grants)

section

variable {library : Library} {files : Files} {engine : Engine Live} {start : Model}
  {key : RelName} {grants : Set Grant}
  {decision : Set Grant → List Bytes → Except Thrown Bool} {modelPath policyPath : Term}

/-- A construction that is cut short leaves a database that has the table. -/
theorem db_of_construction {faults : List Bool} {path connection : Bytes} {db after : Database}
    {relation : Relation} {made : Except Thrown Live} (serves : Serves db plainRef key relation)
    (built : construction library files faults path connection db = .ok (made, after)) :
    after = db := by
  have settled (model : Model) : (call construct faults model db).db = db := by
    rcases Adapter.call_construct_atomic faults model model db with same | whole
    · exact same
    · rw [whole, Adapter.call_construct_settled (Adapter.many_of_serves serves)]
  unfold construction at built
  cases parsed : files.parsed path with
  | error thrown =>
      rw [parsed] at built
      exact (Library.snd_of_caught built).trans (settled ∅)
  | ok model =>
      rw [parsed] at built
      have started := (Adapter.db_of_startUp model faults db).trans (settled model)
      exact (Library.snd_of_caught built).trans started

/-- A step that keeps the policy leaves a database that has the table. -/
theorem db_of_keepsPolicy {faults : List Bool} {relation : Relation} {i : Instr} {host after : Host}
    {answer : i.Answer} (keeps : i.keepsPolicy) (serves : Serves host.db plainRef key relation)
    (stepped : (hostMachine library files faults engine).step i host = .ok (answer, after)) :
    after.db = host.db := by
  have apart {i : Instr} {answer : i.Answer}
      {stepped : Except Undefined (i.Answer × Option (Cached Live))}
      (same : (stepped.map fun after => (after.1, (⟨after.2, host.db⟩ : Host))) =
        .ok (answer, after)) : after.db = host.db := by
    cases stepped with
    | error undefined => cases same
    | ok pair =>
        cases same
        rfl
  cases i with
  | create modelPath storage =>
      cases storage with
      | file path =>
          rw [step_create_file] at stepped
          exact apart stepped
      | postgres connection =>
          rw [step_create] at stepped
          cases built : construction library files faults modelPath connection host.db with
          | error undefined =>
              rw [built] at stepped
              cases stepped
          | ok pair =>
              obtain ⟨made, db⟩ := pair
              rw [built] at stepped
              have same := db_of_construction serves built
              cases made <;> cases stepped <;> exact same
  | invalidateCache => cases keeps
  | mutate mutation => cases keeps
  | _ =>
      rw [step_of_silent rfl] at stepped
      exact apart stepped

/-- Whatever the schedule, a call leaves in the database what some of its operations, from
the first one on, make of the grants. -/
theorem survivor_kept (documented : library.Documented) {host : Host}
    (stands : Stands engine start key host grants) {call : Call} (faults : List Bool)
    (admissible : ∀ operation ∈ call.operations, operation.Admissible start) :
    ∃ done, Kept start key (survivor library files engine call faults host).db
      ((call.operations.take done).foldl Operation.effect grants) := by
  have kept := stands.kept
  obtain ⟨⟨⟨model, storage⟩, cache⟩, connection, relation, pointer, postgres, _, mirrored⟩ := stands
  obtain ⟨pointer', db⟩ := host
  cases pointer
  cases postgres
  cases mutates : call.mutation with
  | none =>
      have same : (survivor library files engine call faults
          ⟨some ⟨⟨model, .postgres connection⟩, cache⟩, db⟩).db = db :=
        (within_of_no_mutation mutates).run_invariant _ (fun host => host.db = db)
          (fun i host answer after keeps same stepped =>
            (db_of_keepsPolicy keeps (same ▸ mirrored.named) stepped).trans same) [] rfl
      refine ⟨0, ?_⟩
      rw [same]
      exact kept
  | some change =>
      obtain ⟨mutation, handler⟩ := change
      have asked : call.operations = mutation.operations := by
        rw [Call.operations, mutates]
        rfl
      rw [asked] at admissible ⊢
      obtain ⟨done, last, stored, cut⟩ :=
        updateAll_cut documented.casbin admissible mirrored faults
      rw [← updates_eq documented] at cut
      have went := run_updating library files faults engine mutation handler connection model db
        cache
      simp only [survivor, program_of_mutation mutates]
      cases caught : library.caught (updateAll library.toCasbin (library.updates mutation) faults
          model db).result with
      | error undefined =>
          refine ⟨0, ?_⟩
          simp only [mutated, caught] at went
          exact (congrArg (fun ending => ending.state.db) went).symm ▸ kept
      | ok answer =>
          refine ⟨done, ?_⟩
          simp only [mutated, caught] at went
          exact (congrArg (fun ending => ending.state.db) went).symm ▸ kept_of_mirrored cut

/-- A process that dies in the middle of any call leaves the work of the first operations of
that call, in the order in which the call asks for them, and nothing of the others.  Among
calls, restarts and such incidents, however many, every reply is the one that the set of
grants gives. -/
theorem host_survives (documented : library.Documented)
    (decides : DecidesByGrants engine start decision)
    (parses : files.parsed (listToString modelPath) = .ok start)
    (postgres : (listToString policyPath).take 8 = ascii "postgres") {host : Host}
    (kept : Kept start key host.db grants) {incidents : List Incident}
    (admissible : ∀ incident ∈ incidents, incident.Admissible start) :
    ∃ reading, List.Forall₂ Means incidents reading ∧
      (mortalService library files engine modelPath policyPath).told Incident.shown
          (.whole .restart :: incidents) host =
        (prefixService decision).told Meaning.shown (.whole .restart :: reading) grants := by
  have refines : (mortalService library files engine modelPath policyPath).Refines Incident.shown
      (prefixService decision) Meaning.shown (Incident.Admissible start) Means
      (Stands engine start key) := by
    refine ⟨fun incident host grants fits stands => ?_⟩
    cases incident with
    | whole event =>
        obtain ⟨same, next⟩ := answer_admissible documented decides parses postgres stands fits
        exact ⟨.whole event, .whole event, rfl, same, next⟩
    | cut call faults =>
        obtain ⟨done, left⟩ := survivor_kept documented stands faults fits
        obtain ⟨created, next⟩ := answer_restart library engine decision left parses postgres
        exact ⟨.cut call done, .cut call faults done, rfl, fun _ => created, next⟩
  obtain ⟨created, stands⟩ := answer_restart library engine decision kept parses postgres
  obtain ⟨reading, meanings, same⟩ := refines.exists_told admissible stands
  exact ⟨reading, meanings, congrArg₂ List.cons created same⟩

end

/-- The grant of bob is committed and its reply lost; the revocation of alice is lost. -/
def bobForAliceCut : List Incident :=
  let bob := charlist "bob"
  let alice := charlist "alice"
  let data := charlist "data1"
  let read := charlist "read"
  [.cut (.addPolicy bob data read) [], .whole (.complete (.enforce bob data read)),
    .cut (.removePolicy alice data read) [true], .whole (.complete (.enforce alice data read))]

theorem admissible_bobForAliceCut :
    ∀ incident ∈ bobForAliceCut, incident.Admissible (Adapter.rbacModel [] []) := by
  have whole := admissible_bobForAlice
  simp only [bobForAlice, List.forall_mem_cons] at whole
  obtain ⟨askBob, granted, _, _, revoked, _, askAlice, _⟩ := whole
  simp only [bobForAliceCut, List.forall_mem_cons]
  exact ⟨granted.2 _ rfl, askBob, revoked.2 _ rfl, askAlice, List.forall_mem_nil _⟩

open Classical in
/-- Both requests are granted by the processes after the deaths. -/
theorem host_survives_bobForAliceCut :
    let told := (mortalService Library.reference rbacFiles rulesEngine (charlist "model.conf")
      (charlist "postgres://host")).told Incident.shown
    (∃ reading, List.Forall₂ Means bobForAliceCut reading ∧
      told (.whole .restart :: bobForAliceCut) freshHost =
        (prefixService fun grants request =>
          .ok (decide (∃ g ∈ grants, g.ptype = policySection ∧ g.rule = request))).told
          Meaning.shown (.whole .restart :: reading)
          {g | g.cells ∈ content Adapter.aliceRelation}) ∧
      (told (.whole .restart :: bobForAliceCut) freshHost).map Except.toOption =
        [some .created, some .created, some (.ofBool true), some .created,
          some (.ofBool true)] := by
  refine ⟨?_, by decide +kernel⟩
  exact host_survives Library.reference_documented byGrants_rulesEngine rfl (by decide +kernel)
    (kept_of_mirrored Adapter.mirrored_aliceReads) admissible_bobForAliceCut

end Casbinex.Nif
