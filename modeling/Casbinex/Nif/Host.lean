import Casbinex.Adapter.Faults
import Casbinex.Nif.Failure
import Casbinex.Program.Service

/-!
# The host and its database

What the entry points answer is what a set of grants answers: the cache, the texts, the
table and the loading of a new enforcer do not show in any decision.
-/

namespace Casbinex.Nif

open Casbinex.Program
open Casbinex.Program.Prog
open Casbinex.Sql
open Casbinex.Adapter (Model Grant Operation Casbin Mirrored MemoryHolds Serves plainRef
  polarityRef content)

/-! ## Calls and restarts -/

/-- A complete call, or a restart: the enforcer is deleted, or lost with its process, and a
new one is created. -/
inductive Event where
  | complete (call : Call)
  | restart
  deriving DecidableEq

/-- The restart names the same files each time. -/
def Event.program (modelPath policyPath : Term) : Event → NifProg Reply
  | .complete call => call.program
  | .restart => destroyEnforcer >>= fun _ => createEnforcer modelPath policyPath

/-- The host answers a complete call, or a restart. -/
def hostService (library : Library) (files : Files) (engine : Engine Live)
    (modelPath policyPath : Term) : Service Event (Except Undefined Reply) Host where
  answer event host :=
    let ending := run (hostMachine library files [] engine) (event.program modelPath policyPath)
      [] host
    (ending.result, ending.state)

/-- The entry points that answer with a list, whose order is that of the rules. -/
def Call.lists : Call → Bool
  | .getUsersForRole _ => true
  | .getRolesForUser _ => true
  | .getFilteredPolicy _ _ => true
  | _ => false

def Event.isCall : Event → Bool
  | .complete _ => true
  | .restart => false

/-- The events whose answers are compared. -/
def Event.shown : Event → Bool
  | .complete call => !call.lists
  | .restart => true

/-! ## The service of a set of grants -/

/-- The operations that a mutation asks for in turn. -/
def Mutation.operations : Mutation → List Operation
  | .addPolicy rule => [.add policySection rule]
  | .removePolicy rule => [.remove policySection rule]
  | .addGroupingPolicy rule => [.add roleSection rule]
  | .deleteRole role =>
      [.removeFiltered roleSection 1 [role], .removeFiltered policySection 0 [role]]
  | .addRoleForUser user role => [.add roleSection [user, role]]
  | .addRolesForUser user roles => roles.map fun role => .add roleSection [user, role]
  | .deleteRolesForUser user => [.removeFiltered roleSection 0 [user]]
  | .deleteRoleForUser user role => [.remove roleSection [user, role]]
  | .removeFilteredPolicy fieldIndex fieldValues =>
      [.removeFiltered policySection fieldIndex fieldValues]

theorem updates_eq {library : Library} (documented : library.Documented) (mutation : Mutation) :
    library.updates mutation = mutation.operations.filterMap Operation.update := by
  cases mutation with
  | addPolicy rule => exact documented.addPolicy rule
  | removePolicy rule => exact documented.removePolicy rule
  | addGroupingPolicy rule => exact documented.addGroupingPolicy rule
  | deleteRole role => exact documented.deleteRole role
  | addRoleForUser user role => exact documented.addRoleForUser user role
  | addRolesForUser user roles =>
      rw [documented.addRolesForUser, Mutation.operations, List.filterMap_map]
      exact (congrFun List.filterMap_eq_map roles).symm
  | deleteRolesForUser user => exact documented.deleteRolesForUser user
  | deleteRoleForUser user role => exact documented.deleteRoleForUser user role
  | removeFilteredPolicy fieldIndex fieldValues =>
      exact documented.removeFilteredPolicy fieldIndex fieldValues

/-- Whether operations change anything, and the grants after them. -/
noncomputable def changeAll : List Operation → Set Grant → Bool × Set Grant
  | [], grants => (false, grants)
  | operation :: more, grants =>
      let rest := changeAll more (operation.effect grants)
      (open Classical in decide (operation.effect grants ≠ grants) || rest.1, rest.2)

/-- What `CreateEnforcer` answers when it has created one. -/
def Reply.created : Reply :=
  .term (.pair (.atom (ascii "ok")) (Term.ofBytes (ascii "Created Enforcer")))

/-- The replies of a set of grants: a mutation is answered by whether it changes the set, a
request by what the set decides, and a restart changes nothing. -/
noncomputable def grantService (decision : Set Grant → List Bytes → Except Thrown Bool) :
    Service Event (Except Undefined Reply) (Set Grant) where
  answer
    | .restart, grants => (.ok .created, grants)
    | .complete call, grants =>
        match call.mutation with
        | some change =>
            let changed := changeAll change.1.operations grants
            (.ok (.ofBool changed.1), changed.2)
        | none =>
            match call with
            | .enforce sub obj act => (.ok (replyTo refuse (decision grants
                [cString (listToString sub), cString (listToString obj),
                  cString (listToString act)])), grants)
            | _ => (.ok .badarg, grants)

/-! ## Updates -/

section

variable {casbin : Casbin} {start : Model} {key : RelName} {state : Model × Database}
  {grants : Set Grant} {relation : Relation}

/-- casbin reports a change exactly if the set of grants changes. -/
theorem reports_iff (documented : casbin.Documented)
    (mirrored : Mirrored start key state grants relation) {operation : Operation}
    {u : Adapter.Update} (asks : operation.update = some u)
    (admissible : operation.Admissible start) :
    (casbin.change u state.1).1 = true ↔ operation.effect grants ≠ grants := by
  cases operation with
  | add ptype rule =>
      cases asks
      obtain ⟨declaredType, storable⟩ := admissible
      let g := storable.grant declaredType
      have declared : state.1.Declares g.sec g.ptype :=
        (mirrored.declares _ _).mpr declaredType.declared
      change (casbin.change (.add g.sec g.ptype g.rule) state.1).1 = true ↔ _
      by_cases granted : g ∈ grants
      · rw [documented.add_present declared ((mirrored.memory.mem_iff g).mpr granted)]
        refine iff_of_false Bool.false_ne_true (not_not.mpr (Set.ext fun h => ?_))
        exact or_iff_right_of_imp fun same => (Grant.ext_iff.mpr same : h = g) ▸ granted
      · rw [(Adapter.change_add documented mirrored.memory declared granted).1]
        exact iff_of_true rfl fun same => granted (same ▸ Or.inl ⟨rfl, rfl⟩)
  | remove ptype rule =>
      cases asks
      obtain ⟨declaredType, storable⟩ := admissible
      let g := storable.grant declaredType
      have declared : state.1.Declares g.sec g.ptype :=
        (mirrored.declares _ _).mpr declaredType.declared
      change (casbin.change (.remove g.sec g.ptype g.rule) state.1).1 = true ↔ _
      by_cases granted : g ∈ grants
      · rw [(Adapter.change_remove documented mirrored.memory declared granted).1]
        refine iff_of_true rfl fun same => ?_
        rw [← same] at granted
        exact granted.2 ⟨rfl, rfl⟩
      · rw [documented.remove_absent declared (mt (mirrored.memory.mem_iff g).mp granted)]
        refine iff_of_false Bool.false_ne_true (not_not.mpr (Set.ext fun h => ?_))
        exact and_iff_left_of_imp fun member same =>
          granted ((Grant.ext_iff.mpr same : h = g) ▸ member)
  | removeFiltered ptype fieldIndex fieldValues =>
      cases asks
      obtain ⟨declaredType, storable⟩ := admissible
      have declared : state.1.Declares (ptype.take 1) ptype :=
        (mirrored.declares _ _).mpr declaredType.declared
      by_cases hit : ∃ g ∈ grants, g.Matches ptype fieldIndex.toNatClampNeg fieldValues
      · obtain ⟨after, memory, _⟩ := Adapter.change_removeFiltered documented mirrored.memory
          declared storable.nonneg storable.solid hit
        rw [memory]
        refine iff_of_true rfl fun same => ?_
        obtain ⟨g, granted, matched⟩ := hit
        rw [← same] at granted
        exact granted.2 matched
      · rw [Adapter.change_removeFiltered_miss documented mirrored.memory declared storable.nonneg
          storable.solid hit]
        refine iff_of_false Bool.false_ne_true (not_not.mpr (Set.ext fun g => ?_))
        exact and_iff_left_of_imp fun member matched => hit ⟨g, member, matched⟩
  | reload => cases asks

/-- Without faults an update returns, and leaves what the operation leaves. -/
theorem update_returns (mirrored : Mirrored start key state grants relation)
    {operation : Operation} {u : Adapter.Update} (asks : operation.update = some u)
    (admissible : operation.Admissible start) :
    casbin.update u [] state.1 state.2 = ⟨.ok (casbin.change u state.1).1,
      (casbin.perform state operation).1, (casbin.perform state operation).2, []⟩ := by
  have returns (addressed : u.Addressed) (serves : Serves state.2 u.ref key relation) :
      casbin.update u [] state.1 state.2 = ⟨.ok (casbin.change u state.1).1,
        (casbin.update u [] state.1 state.2).model, (casbin.update u [] state.1 state.2).db,
        []⟩ := by
    unfold Casbin.update
    rcases casbin.change u state.1 with ⟨changed, after⟩
    cases changed with
    | false => rfl
    | true =>
        simp only [Adapter.Update.call_store addressed serves]
        rfl
  cases operation with
  | add ptype rule =>
      cases asks
      exact returns trivial mirrored.named
  | remove ptype rule =>
      cases asks
      exact returns trivial mirrored.qualified
  | removeFiltered ptype fieldIndex fieldValues =>
      cases asks
      exact returns ⟨admissible.2.nonneg, admissible.2.bound⟩ mirrored.qualified
  | reload => cases asks

/-- Run: the updates of admissible operations return, report whether they change the set
of grants, and keep the mirror. -/
theorem updateAll_mirrored (documented : casbin.Documented) {operations : List Operation}
    (admissible : ∀ operation ∈ operations, operation.Admissible start)
    (mirrored : Mirrored start key state grants relation) :
    ∃ after stored,
      updateAll casbin (operations.filterMap Operation.update) [] state.1 state.2 =
        ⟨.ok (changeAll operations grants).1, after.1, after.2, []⟩ ∧
      Mirrored start key after (changeAll operations grants).2 stored := by
  induction operations generalizing state grants relation with
  | nil => exact ⟨state, relation, rfl, mirrored⟩
  | cons operation more ih =>
      obtain ⟨first, rest⟩ := List.forall_mem_cons.mp admissible
      cases asks : operation.update with
      | none =>
          have idle : operation.effect grants = grants := by
            cases operation <;> first | rfl | cases asks
          rw [List.filterMap_cons_none asks]
          simp only [changeAll, idle, ne_eq, not_true_eq_false, decide_false, Bool.false_or]
          exact ih rest mirrored
      | some u =>
          obtain ⟨stored, next⟩ := Adapter.perform_mirrored documented mirrored first
          obtain ⟨after, last, ended, kept⟩ := ih rest next
          refine ⟨after, last, ?_, kept⟩
          have reported : (casbin.change u state.1).1 =
              (open Classical in decide (operation.effect grants ≠ grants)) :=
            Bool.eq_iff_iff.mpr ((reports_iff documented mirrored asks first).trans
              decide_eq_true_iff.symm)
          rw [List.filterMap_cons_some asks]
          simp only [updateAll, update_returns mirrored asks first, ended, reported]
          rfl

end

/-! ## The host stands for the set of grants -/

/-- The database holds the grants, under both names of the table, and the model declares
them. -/
structure Kept (start : Model) (key : RelName) (db : Database) (grants : Set Grant) : Prop where
  stored : ∃ relation, Serves db plainRef key relation ∧ Serves db polarityRef key relation ∧
    Adapter.TableHolds relation grants
  declared : ∀ g ∈ grants, start.Declares g.sec g.ptype

/-- The enforcer behind the pointer remembers what its engine decides, and its model holds
the grants that the table holds. -/
def Stands (engine : Engine Live) (start : Model) (key : RelName) (host : Host)
    (grants : Set Grant) : Prop :=
  ∃ enforcer connection relation, host.pointer = some enforcer ∧
    enforcer.policy.storage = .postgres connection ∧ enforcer.Faithful engine ∧
    Mirrored start key (enforcer.policy.model, host.db) grants relation

/-- The engine decides on the grants that a model holds, whatever the order of its rules. -/
def DecidesByGrants (engine : Engine Live) (start : Model)
    (decision : Set Grant → List Bytes → Except Thrown Bool) : Prop :=
  ∀ live grants request, MemoryHolds live.model grants →
    (∀ s t, live.model.Declares s t ↔ start.Declares s t) →
    engine.evaluate live request = decision grants request

/-- The calls that replace the enforcer. -/
def Call.replaces : Call → Bool
  | .createEnforcer _ _ => true
  | .destroyEnforcer => true
  | _ => false

/-- A restart, or a call that leaves the enforcer and asks for admissible operations. -/
def Event.Admissible (start : Model) : Event → Prop
  | .complete call => call.replaces = false ∧
      ∀ change ∈ call.mutation, ∀ operation ∈ change.1.operations, operation.Admissible start
  | .restart => True

section

variable {library : Library} {files : Files} {engine : Engine Live} {start : Model}
  {key : RelName} {grants : Set Grant}
  {decision : Set Grant → List Bytes → Except Thrown Bool} {modelPath policyPath : Term}

theorem kept_of_mirrored {state : Model × Database} {relation : Relation}
    (mirrored : Mirrored start key state grants relation) : Kept start key state.2 grants where
  stored := ⟨relation, mirrored.named, mirrored.qualified, mirrored.table⟩
  declared g granted := (mirrored.declares _ _).mp (mirrored.memory.declared g granted)

theorem Stands.kept {host : Host} (stands : Stands engine start key host grants) :
    Kept start key host.db grants := by
  obtain ⟨enforcer, connection, relation, _, _, _, mirrored⟩ := stands
  exact kept_of_mirrored mirrored

/-- A new enforcer loads the grants; the database stays as it is. -/
theorem construction_of_kept (library : Library) {db : Database}
    (kept : Kept start key db grants) {path : Bytes} (parses : files.parsed path = .ok start)
    (connection : Bytes) :
    ∃ loaded relation, construction library files [] path connection db =
        .ok (.ok ⟨loaded, .postgres connection⟩, db) ∧
      Mirrored start key (loaded, db) grants relation := by
  obtain ⟨relation, named, qualified, table⟩ := kept.stored
  obtain ⟨loaded, ok, spec⟩ := Adapter.loadRows_spec (table.loadable fun g granted =>
    (start.declares_clearPolicy _ _).mpr (kept.declared g granted))
  have loads := Adapter.call_loadPolicy_ok named ok
  refine ⟨loaded, relation, ?_, ?_⟩
  · simp only [construction, parses, Adapter.startUp_of_serves named, loads]
    rfl
  · exact {
      named := named
      qualified := qualified
      table := table
      memory := table.memoryHolds spec kept.declared
      declares := fun s t => (spec.declares s t).trans (start.declares_clearPolicy s t) }

/-- A restart on a connection deletes the enforcer and creates one with a `PgAdapter`. -/
theorem program_restart (postgres : (listToString policyPath).take 8 = ascii "postgres") :
    Event.program modelPath policyPath .restart =
      .op .destroy fun _ => .op (.create (listToString modelPath)
        (.postgres (listToString policyPath))) fun made => match made with
          | .ok () => .ret .created
          | .error thrown => .ret (creationFailed thrown) := by
  have storage : (if (listToString policyPath).take 8 = ascii "postgres" then
      Storage.postgres (listToString policyPath) else .file (listToString policyPath)) =
      .postgres (listToString policyPath) := if_pos postgres
  simp only [Event.program, destroyEnforcer, createEnforcer]
  rw [storage]
  refine congrArg (Prog.op Instr.destroy) (funext fun _ => ?_)
  refine congrArg (Prog.op _) (funext fun made => ?_)
  cases made <;> rfl

/-- A restart answers that it has created an enforcer, and this one stands for what the
database holds. -/
theorem answer_restart (library : Library) (engine : Engine Live)
    (decision : Set Grant → List Bytes → Except Thrown Bool) {host : Host}
    (kept : Kept start key host.db grants)
    (parses : files.parsed (listToString modelPath) = .ok start)
    (postgres : (listToString policyPath).take 8 = ascii "postgres") :
    ((hostService library files engine modelPath policyPath).answer .restart host).1 =
        ((grantService decision).answer .restart grants).1 ∧
      Stands engine start key
        ((hostService library files engine modelPath policyPath).answer .restart host).2
        grants := by
  obtain ⟨loaded, relation, made, mirrored⟩ := construction_of_kept library kept parses
    (listToString policyPath)
  have ended : run (hostMachine library files [] engine)
      (Event.program modelPath policyPath .restart) [] host =
      ⟨.ok .created,
        ⟨some ⟨⟨loaded, .postgres (listToString policyPath)⟩, []⟩, host.db⟩, []⟩ := by
    rw [program_restart postgres, run_op_nil, step_of_silent rfl]
    simp only [cachedStep, Except.map, run_op_nil, step_create, made]
    rfl
  simp only [hostService, ended]
  exact ⟨rfl, _, _, relation, rfl, rfl, faithful_of_empty engine _, mirrored⟩

/-- A mutation of admissible operations is answered by whether it changes the grants. -/
theorem answer_mutation (documented : library.Documented) {host : Host}
    (stands : Stands engine start key host grants) {call : Call} {mutation : Mutation}
    {handler : Thrown → Reply} (mutates : call.mutation = some (mutation, handler))
    (admissible : ∀ operation ∈ mutation.operations, operation.Admissible start) :
    ((hostService library files engine modelPath policyPath).answer (.complete call) host).1 =
        ((grantService decision).answer (.complete call) grants).1 ∧
      Stands engine start key
        ((hostService library files engine modelPath policyPath).answer (.complete call) host).2
        ((grantService decision).answer (.complete call) grants).2 := by
  obtain ⟨⟨⟨model, storage⟩, cache⟩, connection, relation, pointer, postgres, _, mirrored⟩ := stands
  obtain ⟨pointer', db⟩ := host
  cases pointer
  cases postgres
  obtain ⟨after, stored, ended, kept⟩ :=
    updateAll_mirrored documented.casbin admissible mirrored
  rw [← updates_eq documented] at ended
  have done : mutated library [] mutation model db =
      .ok (.ok (changeAll mutation.operations grants).1, after.1, after.2) := by
    simp only [mutated, ended]
    rfl
  have went : run (hostMachine library files [] engine) call.program []
      ⟨some ⟨⟨model, .postgres connection⟩, cache⟩, db⟩ =
      ⟨.ok (replyTo handler (.ok (changeAll mutation.operations grants).1)),
        ⟨some ⟨⟨after.1, .postgres connection⟩, []⟩, after.2⟩, []⟩ := by
    rw [program_of_mutation mutates]
    refine (run_updating _ _ [] _ mutation handler connection model db cache).trans ?_
    rw [done]
    rfl
  simp only [hostService, Event.program, went, grantService, mutates]
  exact ⟨rfl, _, _, stored, rfl, rfl, faithful_of_empty engine _, kept⟩

/-- A request is answered by what the grants decide, from the cache or afresh. -/
theorem answer_enforce (decides : DecidesByGrants engine start decision) {host : Host}
    (stands : Stands engine start key host grants) (sub obj act : Term) :
    ((hostService library files engine modelPath policyPath).answer
          (.complete (.enforce sub obj act)) host).1 =
        ((grantService decision).answer (.complete (.enforce sub obj act)) grants).1 ∧
      Stands engine start key
        ((hostService library files engine modelPath policyPath).answer
          (.complete (.enforce sub obj act)) host).2 grants := by
  obtain ⟨enforcer, connection, relation, pointer, postgres, faithful, mirrored⟩ := stands
  obtain ⟨pointer', db⟩ := host
  cases pointer
  let request := [cString (listToString sub), cString (listToString obj),
    cString (listToString act)]
  have went : run (hostMachine library files [] engine) (Call.enforce sub obj act).program []
      ⟨some enforcer, db⟩ = ⟨.ok (replyTo refuse (enforcer.enforce engine request).1),
        ⟨some (enforcer.enforce engine request).2, db⟩, []⟩ := rfl
  simp only [hostService, Event.program, went]
  constructor
  · rw [enforce_of_faithful faithful, decides _ grants _ mirrored.memory mirrored.declares]
    rfl
  · refine ⟨_, connection, relation, rfl, ?_, faithful_enforce faithful request, ?_⟩
    · rw [policy_enforce]
      exact postgres
    · rw [policy_enforce]
      exact mirrored

/-- A call that neither mutates nor decides nor replaces the enforcer leaves the host; if
its answer is no list, it refuses its field index. -/
theorem answer_query (library : Library) (files : Files) (engine : Engine Live)
    (modelPath policyPath : Term) (enforcer : Cached Live) (db : Database) {call : Call}
    (reads : call.mutation = none) (stays : call.replaces = false)
    (other : ∀ sub obj act, call ≠ .enforce sub obj act) :
    (call.lists = false →
      ((hostService library files engine modelPath policyPath).answer (.complete call)
        ⟨some enforcer, db⟩).1 = .ok .badarg) ∧
      ((hostService library files engine modelPath policyPath).answer (.complete call)
        ⟨some enforcer, db⟩).2 = ⟨some enforcer, db⟩ := by
  cases call with
  | enforce sub obj act => exact absurd rfl (other sub obj act)
  | getUsersForRole role =>
      refine ⟨fun shown => (by cases shown), ?_⟩
      simp only [hostService, Event.program, Call.program, getUsersForRole, guarded, issue,
        perform_bind, run_op_nil, step_of_silent (i := .created) rfl,
        step_of_silent (i := .getUsersForRole _) rfl, cachedStep, Except.map,
        Option.isSome_some, if_true]
      cases engine.usersForRole enforcer.policy (listToString role) <;> rfl
  | getRolesForUser user =>
      refine ⟨fun shown => (by cases shown), ?_⟩
      simp only [hostService, Event.program, Call.program, getRolesForUser, guarded, issue,
        perform_bind, run_op_nil, step_of_silent (i := .created) rfl,
        step_of_silent (i := .getRolesForUser _) rfl, cachedStep, Except.map,
        Option.isSome_some, if_true]
      cases engine.rolesForUser enforcer.policy (listToString user) <;> rfl
  | getFilteredPolicy fieldIndex resourceId =>
      refine ⟨fun shown => (by cases shown), ?_⟩
      simp only [hostService, Event.program, Call.program, getFilteredPolicy, guarded]
      cases enifGetInt fieldIndex with
      | none => rfl
      | some index =>
          simp only [issue, perform_bind, run_op_nil, step_of_silent (i := .created) rfl,
            step_of_silent (i := .getFilteredPolicy _ _) rfl, cachedStep, Except.map,
            Option.isSome_some, if_true]
          cases engine.filteredPolicy enforcer.policy index (listToVector resourceId) <;> rfl
  | removeFilteredPolicy fieldIndex resourceId =>
      have refused : (Call.removeFilteredPolicy fieldIndex resourceId).program =
          guarded (return .badarg) := program_of_unread rfl reads
      simp only [hostService, Event.program, refused]
      exact ⟨fun _ => rfl, rfl⟩
  | createEnforcer modelPath policyPath => cases stays
  | destroyEnforcer => cases stays
  | _ => cases reads

/-- Step: an admissible event is answered as the set of grants answers it, and the host
stands for the set of grants after it. -/
theorem answer_admissible (documented : library.Documented)
    (decides : DecidesByGrants engine start decision)
    (parses : files.parsed (listToString modelPath) = .ok start)
    (postgres : (listToString policyPath).take 8 = ascii "postgres") {host : Host}
    (stands : Stands engine start key host grants) {event : Event}
    (admissible : event.Admissible start) :
    (event.shown = true →
      ((hostService library files engine modelPath policyPath).answer event host).1 =
        ((grantService decision).answer event grants).1) ∧
      Stands engine start key
        ((hostService library files engine modelPath policyPath).answer event host).2
        ((grantService decision).answer event grants).2 := by
  cases event with
  | restart =>
      obtain ⟨same, again⟩ := answer_restart library engine decision stands.kept parses
        postgres
      exact ⟨fun _ => same, again⟩
  | complete call =>
      cases reads : call.mutation with
      | some change =>
          obtain ⟨same, next⟩ := answer_mutation documented stands reads (admissible.2 change reads)
          exact ⟨fun _ => same, next⟩
      | none =>
          by_cases asks : ∃ sub obj act, call = .enforce sub obj act
          · obtain ⟨sub, obj, act, rfl⟩ := asks
            obtain ⟨same, next⟩ := answer_enforce decides stands sub obj act
            exact ⟨fun _ => same, next⟩
          · have other : ∀ sub obj act, call ≠ .enforce sub obj act :=
              fun sub obj act same => asks ⟨sub, obj, act, same⟩
            have meant : (grantService decision).answer (.complete call) grants =
                (.ok .badarg, grants) := by
              simp only [grantService, reads]
            obtain ⟨pointer, db⟩ := host
            have live := stands
            obtain ⟨enforcer, _, _, same, _⟩ := live
            cases same
            obtain ⟨refuses, stays⟩ := answer_query library files engine modelPath policyPath
              enforcer db reads admissible.1 other
            rw [stays, meant]
            exact ⟨fun visible => refuses (Bool.not_eq_true' _ ▸ visible), stands⟩

/-- Whatever is shown of the events whose answers are compared, a script that creates the
enforcer first is answered as the set of grants answers it. -/
theorem told_created (documented : library.Documented)
    (decides : DecidesByGrants engine start decision)
    (parses : files.parsed (listToString modelPath) = .ok start)
    (postgres : (listToString policyPath).take 8 = ascii "postgres") {host : Host}
    (kept : Kept start key host.db grants) {shown : Event → Bool}
    (compared : ∀ event, shown event = true → event.shown = true) {events : List Event}
    (admissible : ∀ event ∈ events, event.Admissible start) :
    (hostService library files engine modelPath policyPath).told shown (.restart :: events) host =
      (grantService decision).told shown (.restart :: events) grants := by
  have refines : (hostService library files engine modelPath policyPath).Refines shown
      (grantService decision) shown (Event.Admissible start) (· = ·) (Stands engine start key) := by
    refine ⟨fun event host grants fits stands => ⟨event, rfl, rfl, ?_⟩⟩
    obtain ⟨same, next⟩ := answer_admissible documented decides parses postgres stands fits
    exact ⟨fun visible => same (compared event visible), next⟩
  obtain ⟨created, stands⟩ := answer_restart library engine decision kept parses postgres
  have rest := refines.told_eq admissible stands
  rw [Service.told, Service.told, created, rest]
  rfl

/-- The host refines the set of grants.  A script that creates the enforcer on a database
which holds the grants, and then has any calls that ask for admissible operations and any
restarts, gets the replies that the set of grants gives; and without the restarts the calls
get the same replies. -/
theorem host_refines_grants (documented : library.Documented)
    (decides : DecidesByGrants engine start decision)
    (parses : files.parsed (listToString modelPath) = .ok start)
    (postgres : (listToString policyPath).take 8 = ascii "postgres") {host : Host}
    (kept : Kept start key host.db grants) {events : List Event}
    (admissible : ∀ event ∈ events, event.Admissible start) :
    let service := hostService library files engine modelPath policyPath
    let calls := fun event : Event => event.isCall && event.shown
    service.told Event.shown (.restart :: events) host =
        (grantService decision).told Event.shown (.restart :: events) grants ∧
      service.told calls (.restart :: events) host =
        service.told calls (.restart :: events.filter Event.isCall) host := by
  intro service calls
  refine ⟨told_created documented decides parses postgres kept (fun _ shown => shown) admissible,
    ?_⟩
  have compared (event : Event) (shown : calls event = true) : event.shown = true :=
    (Bool.and_eq_true_iff.mp shown).2
  have idle (event : Event) (restarts : event.isCall = false) : calls event = false ∧
      ∀ grants, ((grantService decision).answer event grants).2 = grants := by
    cases event with
    | complete call => cases restarts
    | restart => exact ⟨rfl, fun _ => rfl⟩
  have fits (event : Event) (member : event ∈ events.filter Event.isCall) :
      event.Admissible start := admissible event (List.mem_of_mem_filter member)
  rw [told_created documented decides parses postgres kept compared admissible,
    told_created documented decides parses postgres kept compared fits,
    ← Service.told_filter Event.isCall idle (.restart :: events),
    ← Service.told_filter Event.isCall idle (.restart :: events.filter Event.isCall)]
  have skip (script : List Event) :
      (Event.restart :: script).filter Event.isCall = script.filter Event.isCall := rfl
  rw [skip, skip, List.filter_filter]
  simp only [Bool.and_self]

end

/-! ## A grant, a revocation and two restarts -/

open Classical in
theorem byGrants_rulesEngine :
    DecidesByGrants rulesEngine (Adapter.rbacModel [] []) fun grants request =>
      .ok (decide (∃ g ∈ grants, g.ptype = policySection ∧ g.rule = request)) := by
  intro live grants request holds _
  have own (g : Grant) (named : g.ptype = policySection) : g.sec = policySection := by
    rw [Grant.sec, named]
    rfl
  refine congrArg Except.ok (Bool.eq_iff_iff.mpr ?_)
  rw [List.contains_iff_mem, decide_eq_true_iff, holds.rules]
  constructor
  · rintro ⟨g, granted, _, named, same⟩
    exact ⟨g, granted, named, same⟩
  · rintro ⟨g, granted, named, same⟩
    exact ⟨g, granted, own g named, named, same⟩

def charlist (text : String) : Term := Term.ofBytes (ascii text)

/-- The process has just been started. -/
def freshHost : Host := ⟨none, Adapter.singleTable (ascii "polarity") Adapter.aliceRelation⟩

def bobForAlice : List Event :=
  let bob := charlist "bob"
  let alice := charlist "alice"
  let data := charlist "data1"
  let read := charlist "read"
  [.complete (.enforce bob data read), .complete (.addPolicy bob data read), .restart,
    .complete (.enforce bob data read), .complete (.removePolicy alice data read), .restart,
    .complete (.enforce alice data read)]

theorem admissible_bobForAlice :
    ∀ event ∈ bobForAlice, event.Admissible (Adapter.rbacModel [] []) := by
  have declaredType : Adapter.DeclaredType (Adapter.rbacModel [] []) policySection :=
    ⟨by decide, by decide⟩
  have enforces (sub obj act : Term) :
      (Event.complete (.enforce sub obj act)).Admissible (Adapter.rbacModel [] []) :=
    ⟨rfl, fun change none => by cases none⟩
  have granted : (Event.complete (.addPolicy (charlist "bob") (charlist "data1")
      (charlist "read"))).Admissible (Adapter.rbacModel [] []) := by
    refine ⟨rfl, fun change same => ?_⟩
    cases same
    exact List.forall_mem_singleton.mpr
      ⟨declaredType, Adapter.bobReads.plainFields, Adapter.bobReads.short⟩
  have revoked : (Event.complete (.removePolicy (charlist "alice") (charlist "data1")
      (charlist "read"))).Admissible (Adapter.rbacModel [] []) := by
    refine ⟨rfl, fun change same => ?_⟩
    cases same
    exact List.forall_mem_singleton.mpr
      ⟨declaredType, Adapter.aliceReads.plainFields, Adapter.aliceReads.short⟩
  simp only [bobForAlice, List.forall_mem_cons]
  exact ⟨enforces _ _ _, granted, trivial, enforces _ _ _, revoked, trivial, enforces _ _ _,
    List.forall_mem_nil _⟩

open Classical in
/-- What bob was granted and alice lost is so after each restart. -/
theorem host_refines_grants_bobForAlice :
    let told := (hostService Library.reference rbacFiles rulesEngine (charlist "model.conf")
      (charlist "postgres://host")).told Event.shown
    told (.restart :: bobForAlice) freshHost =
        (grantService fun grants request =>
          .ok (decide (∃ g ∈ grants, g.ptype = policySection ∧ g.rule = request))).told Event.shown
          (.restart :: bobForAlice) {g | g.cells ∈ content Adapter.aliceRelation} ∧
      (told (.restart :: bobForAlice) freshHost).map Except.toOption =
        [some .created, some (.ofBool false), some (.ofBool true), some .created,
          some (.ofBool true), some (.ofBool true), some .created, some (.ofBool false)] := by
  refine ⟨?_, by decide +kernel⟩
  exact (host_refines_grants Library.reference_documented byGrants_rulesEngine rfl
    (by decide +kernel) (kept_of_mirrored Adapter.mirrored_aliceReads) admissible_bobForAlice).1

end Casbinex.Nif
