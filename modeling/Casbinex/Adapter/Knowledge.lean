import Casbinex.Adapter.Enforcers
import Casbinex.Adapter.Faults
import Casbinex.Program.Recorded

/-!
# What a node knows

The nodes share the table and nothing else: nobody tells a node what the others store, and
a node that fails to store an update does not take it back.  Of everything else a node is
right, as soon as it has loaded the table.
-/

namespace Casbinex.Adapter

open Casbinex.Program
open Casbinex.Sql

/-- The operation that an update belongs to. -/
def Update.operation : Update → Operation
  | .add _ ptype rule => .add ptype rule
  | .remove _ ptype rule => .remove ptype rule
  | .removeFiltered _ ptype fieldIndex fieldValues => .removeFiltered ptype fieldIndex fieldValues

/-- An update that belongs to an admissible operation. -/
structure Update.Fits (start : Model) (u : Update) : Prop where
  asked : u.operation.update = some u
  admissible : u.operation.Admissible start

/-- The rules are those of grants, in the sections of the first model. -/
structure WellFormed (start model : Model) : Prop where
  rules : ∀ s t, ∀ rule ∈ model.policy s t, ∃ g : Grant, g.ptype = t ∧ g.rule = rule
  declares : ∀ s t, model.Declares s t ↔ start.Declares s t

/-- A step as it concerns one of the nodes. -/
inductive News where
  /-- Somebody asks for an update; it parts the node from the table if the node fails to
  store it, or if another node stores it. -/
  | update (u : Update) (parts : Bool)
  /-- The node has completed a load of the rows. -/
  | loaded (rows : List Row)
  /-- A node begins with a model. -/
  | joined (model : Model)
  deriving DecidableEq

/-- The rows of the table. -/
def rowsOf (key : RelName) (db : Database) : List Row := ((db.table key).map content).getD []

/-- The steps of a run as they concern the node. -/
def concerns (casbin : Casbin) (key : RelName) (index : Nat) (config : Config Database Model) :
    Act Model Request → List News
  | .start model => [.joined model]
  | .step other (.update u faults) =>
      match config.threads[other]? with
      | none => []
      | some model =>
          match (casbin.update u faults model config.shared).result with
          | .ok stored => [.update u (stored && other ≠ index)]
          | .error _ => [.update u (other = index)]
  | .step other (.load faults) =>
      match config.threads[other]? with
      | none => []
      | some model =>
          match (call loadPolicy faults model config.shared).result with
          | .ok () => if other = index then [.loaded (rowsOf key config.shared)] else []
          | .error _ => []

/-- The grants of which the node may be wrong: a load leaves those that are stored twice. -/
def unsure (grants : Set Grant) : News → Set Grant
  | .update u true => grants ∪ {g | u.operation.Names g}
  | .update _ false => grants
  | .loaded rows => grants ∩ {g | 1 < rows.count g.cells}
  | .joined _ => grants

/-- Updates fit, and new nodes are well formed. -/
def News.Sound (start : Model) : News → Prop
  | .update u _ => u.Fits start
  | .loaded _ => True
  | .joined model => WellFormed start model

section

variable {casbin : Casbin} {start model : Model} {db : Database} {key : RelName}
  {relation : Relation} {grants doubtful : Set Grant} {u : Update} {faults : List Bool}

theorem WellFormed.tells (wellFormed : WellFormed start model) (grants : Set Grant) :
    MemoryTells start model grants Set.univ :=
  ⟨wellFormed.rules, wellFormed.declares, fun _ sure => absurd trivial sure⟩

theorem wellFormed_clearPolicy (start : Model) : WellFormed start start.clearPolicy where
  rules := by
    intro s t rule member
    rw [Model.policy_clearPolicy] at member
    cases member
  declares := fun s t => start.declares_clearPolicy s t

theorem MemoryTells.wellFormed (tells : MemoryTells start model grants doubtful) :
    WellFormed start model :=
  ⟨tells.rules, tells.declares⟩

theorem once_iff (present : Prop) (count : Nat) :
    Once present count ↔ (present ↔ 0 < count) ∧ count ≤ 1 := by
  unfold Once
  by_cases here : present
  · simp only [here, true_and, not_true, false_and, or_false, true_iff]
    omega
  · simp only [here, false_and, not_false_iff, true_and, false_or, false_iff]
    omega

theorem Once.count_eq {present : Prop} {count other : Nat} (once : Once present count)
    (again : Once present other) : count = other := by
  rcases once with ⟨here, one⟩ | ⟨gone, none⟩
  · rcases again with ⟨_, alike⟩ | ⟨gone, _⟩
    · exact one.trans alike.symm
    · exact absurd here gone
  · rcases again with ⟨here, _⟩ | ⟨_, alike⟩
    · exact absurd here gone
    · exact none.trans alike.symm

/-- The grants of the rows. -/
def grantsOf (relation : Relation) : Set Grant := {g | g.cells ∈ content relation}

theorem once_grantsOf {g : Grant} (single : (content relation).count g.cells ≤ 1) :
    Once (g ∈ grantsOf relation) ((content relation).count g.cells) :=
  (once_iff _ _).mpr ⟨List.count_pos_iff.symm, single⟩

/-- What is sure is what the rows are. -/
theorem Contained.reread {state : Model × Database}
    (contained : Contained start key state relation grants doubtful) :
    Contained start key state relation (grantsOf relation) doubtful := by
  have same (g : Grant) (sure : g ∉ doubtful) : g ∈ grants ↔ g ∈ grantsOf relation :=
    ((once_iff _ _).mp (contained.table.once g sure)).1.trans List.count_pos_iff
  exact ⟨contained.named, contained.qualified,
    ⟨contained.table.rows, fun g sure => (contained.table.once g sure).congr (same g sure)⟩,
    ⟨contained.memory.rules, contained.memory.declares,
      fun g sure => (contained.memory.once g sure).congr (same g sure)⟩⟩

theorem Contained.mono {state : Model × Database}
    (contained : Contained start key state relation grants doubtful) {more : Set Grant}
    (wider : doubtful ⊆ more) : Contained start key state relation grants more :=
  ⟨contained.named, contained.qualified, contained.table.mono wider, contained.memory.mono wider⟩

/-- Any well-formed model, about which nothing is sure. -/
theorem Contained.other {state : Model × Database}
    (contained : Contained start key state relation grants doubtful)
    (wellFormed : WellFormed start model) :
    Contained start key (model, state.2) relation grants Set.univ :=
  ⟨contained.named, contained.qualified, contained.table.mono (Set.subset_univ _),
    wellFormed.tells grants⟩

theorem attempt_update (fits : u.Fits start) (faults : List Bool) (model : Model) (db : Database) :
    casbin.attempt (model, db) u.operation faults =
      ((casbin.update u faults model db).result.map fun _ => (),
        (casbin.update u faults model db).model, (casbin.update u faults model db).db) := by
  simp only [Casbin.attempt, fits.asked]

/-- An update that is passed on is stored with what it means, except that what it names may
come into doubt. -/
theorem written_of_update (documented : casbin.Documented) (wellFormed : WellFormed start model)
    (fits : u.Fits start) (passes : (casbin.change u model).1 = true)
    (named : Serves db plainRef key relation) (qualified : Serves db polarityRef key relation)
    (table : TableTells start relation grants doubtful)
    (doubted : ∀ g ∉ doubtful, ¬ u.operation.Names g) (after : Model) :
    Written start db key grants doubtful u.operation u after := by
  obtain ⟨asked, admissible⟩ := fits
  cases u with
  | add sec ptype rule =>
      cases asked
      exact written_add named table admissible.1 admissible.2
        (fun g sure names => absurd names (doubted g sure)) after
  | remove sec ptype rule =>
      cases asked
      exact written_remove qualified table admissible.1 admissible.2 after
  | removeFiltered sec ptype fieldIndex fieldValues =>
      cases asked
      have declared : model.Declares (ptype.take 1) ptype :=
        (wellFormed.declares _ _).mpr admissible.1.declared
      by_cases hit : ∃ rule ∈ model.policy (ptype.take 1) ptype,
          filterHits fieldIndex.toNatClampNeg fieldValues rule = true
      · obtain ⟨rule, member, hitting⟩ := hit
        exact written_removeFiltered qualified table admissible.1 admissible.2
          (clean_of_hit wellFormed.rules admissible.2 member hitting) after
      · have miss : ∀ rule ∈ model.policy (ptype.take 1) ptype,
            filterHits fieldIndex.toNatClampNeg fieldValues rule = false := by
          intro rule member
          rw [← Bool.not_eq_true]
          exact fun hitting => hit ⟨rule, member, hitting⟩
        rw [documented.removeFiltered_miss declared admissible.2.nonneg miss] at passes
        cases passes

theorem subset_unsure (doubtful : Set Grant) (u : Update) (parts : Bool) :
    doubtful ⊆ unsure doubtful (.update u parts) := by
  cases parts with
  | true => exact Set.subset_union_left
  | false => exact subset_rfl

/-- The node's own update, stored or not. -/
theorem contained_own (documented : casbin.Documented)
    (contained : Contained start key (model, db) relation grants doubtful)
    (fits : u.Fits start) {parts : Bool}
    (fails : ∀ failure, (casbin.update u faults model db).result = .error failure → parts = true) :
    ∃ stored, Contained start key
      ((casbin.update u faults model db).model, (casbin.update u faults model db).db)
      stored (grantsOf stored) (unsure doubtful (.update u parts)) := by
  obtain ⟨stored, after⟩ := contained_attempt documented contained fits.admissible faults
  have wider : doubtful ∪ casbin.doubts (model, db) u.operation faults ⊆
      unsure doubtful (.update u parts) := by
    rintro g (before | ⟨⟨failure, failed⟩, names⟩)
    · exact subset_unsure doubtful u parts before
    · rw [attempt_update fits] at failed
      cases ended : (casbin.update u faults model db).result with
      | ok value =>
          rw [ended] at failed
          cases failed
      | error failure =>
          obtain rfl := fails failure ended
          exact Or.inr names
  rw [attempt_update fits] at after
  exact ⟨stored, (after.mono wider).reread⟩

/-- An update of another node: what it stores comes into doubt. -/
theorem contained_foreign (documented : casbin.Documented)
    (contained : Contained start key (model, db) relation (grantsOf relation) doubtful)
    {other : Model} (wellFormed : WellFormed start other) (fits : u.Fits start) {parts : Bool}
    (stores : (casbin.update u faults other db).result = .ok true → parts = true) :
    ∃ stored, Contained start key (model, (casbin.update u faults other db).db)
      stored (grantsOf stored) (unsure doubtful (.update u parts)) := by
  have wider := subset_unsure doubtful u parts
  rcases casbin.update_cases u faults other db with
    ⟨_, idle⟩ | ⟨_, failure, later, failed⟩ | ⟨passes, _, later, done⟩
  · rw [idle]
    exact ⟨relation, contained.mono wider⟩
  · rw [failed]
    exact ⟨relation, contained.mono wider⟩
  · obtain rfl := stores (by rw [done])
    obtain ⟨written, saved, shape, table⟩ := written_of_update documented wellFormed fits passes
      contained.named contained.qualified (contained.table.mono wider)
      (fun g sure names => sure (Or.inr names)) (casbin.change u other).2
    refine ⟨written, ?_⟩
    rw [done, saved]
    have memory : MemoryTells start model (u.operation.effect (grantsOf relation)) _ :=
      (contained.memory.mono wider).idle fun g sure names => absurd (Or.inr names) sure
    exact Contained.reread
      ⟨contained.named.put shape, contained.qualified.put shape, table, memory⟩

/-- A load that completes settles everything that is stored once. -/
theorem contained_loaded
    (contained : Contained start key (model, db) relation (grantsOf relation) doubtful)
    (ok : (call loadPolicy faults model db).result = .ok ()) :
    Contained start key ((call loadPolicy faults model db).model, db) relation (grantsOf relation)
      (unsure doubtful (.loaded (rowsOf key db))) := by
  have rows : rowsOf key db = content relation := by
    rw [rowsOf, contained.named.stored]
    rfl
  have table : TableTells start relation (grantsOf relation)
      (unsure doubtful (.loaded (rowsOf key db))) := by
    refine ⟨contained.table.rows, fun g sure => ?_⟩
    rw [rows] at sure
    by_cases early : g ∈ doubtful
    · exact once_grantsOf (Nat.not_lt.mp fun twice => sure ⟨early, twice⟩)
    · exact contained.table.once g early
  obtain ⟨loaded, reads, told⟩ := table.loaded contained.memory.declares
  have whole := (call_nil_of_ok ok).symm.trans (call_loadPolicy_ok contained.named reads)
  have same : (call loadPolicy faults model db).model = loaded := congrArg Outcome.model whole
  rw [same]
  exact ⟨contained.named, contained.qualified, table, told⟩

theorem wellFormed_load (casbin : Casbin)
    (contained : Contained start key (model, db) relation grants doubtful) (faults : List Bool) :
    WellFormed start (call loadPolicy faults model db).model :=
  (contained_reload casbin contained faults).memory.wellFormed

theorem wellFormed_update (documented : casbin.Documented)
    (contained : Contained start key (model, db) relation grants doubtful) (fits : u.Fits start)
    (faults : List Bool) : WellFormed start (casbin.update u faults model db).model := by
  obtain ⟨stored, after⟩ := contained_attempt documented contained fits.admissible faults
  rw [attempt_update fits] at after
  exact after.memory.wellFormed

/-! ## Runs -/

/-- The model of the node.  Before the node has joined every grant is doubtful, and any
model stands for the one that it will begin with. -/
def Seat (index : Nat) (threads : List Model) (doubtful : Set Grant) (model : Model) : Prop :=
  threads[index]? = some model ∨ threads[index]? = none ∧ doubtful = Set.univ

/-- Every model is well formed, and the node knows the table but for the doubtful grants. -/
structure Standing (start : Model) (key : RelName) (index : Nat) (config : Config Database Model)
    (doubtful : Set Grant) : Prop where
  wellFormed : ∀ model ∈ config.threads, WellFormed start model
  known : ∃ relation model, Seat index config.threads doubtful model ∧
    Contained start key (model, config.shared) relation (grantsOf relation) doubtful

variable {index : Nat} {models : List Model} {config after last : Config Database Model}
  {act : Act Model Request} {log : List News}

theorem seat_of_threads {threads : List Model} {actor : Model}
    (there : threads[index]? = some actor) (seat : Seat index threads doubtful model) :
    actor = model := by
  rcases seat with found | ⟨absent, _⟩
  · exact Option.some.inj (there.symm.trans found)
  · rw [there] at absent
    cases absent

/-- A step of another node leaves the node its model. -/
theorem Seat.set_ne {threads : List Model} {other : Nat} (different : other ≠ index)
    (actor : Model) {more : Set Grant} (wider : doubtful ⊆ more)
    (seat : Seat index threads doubtful model) :
    Seat index (threads.set other actor) more model := by
  rcases seat with found | ⟨absent, rfl⟩
  · exact Or.inl ((List.getElem?_set_ne different).trans found)
  · exact Or.inr ⟨(List.getElem?_set_ne different).trans absent, Set.univ_subset_iff.mp wider⟩

/-- What an update of some node is to the node. -/
theorem concerns_update (casbin : Casbin) (key : RelName) (index : Nat) {other : Nat}
    {actor : Model} (there : config.threads[other]? = some actor) (u : Update)
    (faults : List Bool) :
    ∃ parts, concerns casbin key index config (.step other (.update u faults)) =
        [.update u parts] ∧
      (other = index → ∀ failure,
        (casbin.update u faults actor config.shared).result = .error failure → parts = true) ∧
      (other ≠ index →
        (casbin.update u faults actor config.shared).result = .ok true → parts = true) := by
  simp only [concerns, there]
  cases ended : (casbin.update u faults actor config.shared).result with
  | ok stored =>
      refine ⟨_, rfl, fun _ failure failed => ?_, fun foreign done => ?_⟩
      · cases failed
      · cases done
        exact decide_eq_true foreign
  | error failure =>
      refine ⟨_, rfl, fun own _ _ => decide_eq_true own, fun _ done => ?_⟩
      cases done

/-- Step: an update of any node. -/
theorem standing_update (documented : casbin.Documented) {other : Nat}
    (standing : Standing start key index config doubtful)
    (sound : ∀ news ∈ concerns casbin key index config (.step other (.update u faults)),
      news.Sound start)
    (step : (enforcers casbin).Step config (.step other (.update u faults)) after) :
    Standing start key index after
      ((concerns casbin key index config (.step other (.update u faults))).foldl unsure
        doubtful) := by
  obtain ⟨relation, model, seat, contained⟩ := standing.known
  obtain ⟨actor, there, rest⟩ := Option.bind_eq_some_iff.mp step
  cases rest
  obtain ⟨parts, reported, fails, stores⟩ := concerns_update casbin key index there u faults
  rw [reported] at sound ⊢
  have fits : u.Fits start := sound _ List.mem_cons_self
  have acting := contained.other (standing.wellFormed actor (List.mem_of_getElem? there))
  have wellFormed : ∀ model ∈ config.threads.set other
      (casbin.update u faults actor config.shared).model, WellFormed start model :=
    forall_set standing.wellFormed (wellFormed_update documented acting fits faults)
  have inside : other < config.threads.length := (List.getElem?_eq_some_iff.mp there).1
  by_cases same : other = index
  · subst same
    obtain rfl : actor = model := seat_of_threads there seat
    obtain ⟨stored, now⟩ := contained_own documented contained fits (fails rfl)
    exact ⟨wellFormed, stored, _, Or.inl (List.getElem?_set_self inside), now⟩
  · obtain ⟨stored, now⟩ :=
      contained_foreign documented contained acting.memory.wellFormed fits (stores same)
    exact ⟨wellFormed, stored, model, seat.set_ne same _ (subset_unsure doubtful u parts), now⟩

/-- Step: a load of any node. -/
theorem standing_load {other : Nat} (standing : Standing start key index config doubtful)
    (step : (enforcers casbin).Step config (.step other (.load faults)) after) :
    Standing start key index after
      ((concerns casbin key index config (.step other (.load faults))).foldl unsure doubtful) := by
  obtain ⟨relation, model, seat, contained⟩ := standing.known
  obtain ⟨actor, there, rest⟩ := Option.bind_eq_some_iff.mp step
  cases rest
  have acting := contained.other (standing.wellFormed actor (List.mem_of_getElem? there))
  have wellFormed : ∀ model ∈ config.threads.set other
      (call loadPolicy faults actor config.shared).model, WellFormed start model :=
    forall_set standing.wellFormed (wellFormed_load casbin acting faults)
  have inside : other < config.threads.length := (List.getElem?_eq_some_iff.mp there).1
  have kept : (call loadPolicy faults actor config.shared).db = config.shared :=
    db_of_loadPolicy faults actor config.shared
  refine ⟨wellFormed, relation, ?_⟩
  simp only [concerns, there]
  rw [kept]
  by_cases same : other = index
  · subst same
    obtain rfl : actor = model := seat_of_threads there seat
    refine ⟨_, Or.inl (List.getElem?_set_self inside), ?_⟩
    cases ended : (call loadPolicy faults actor config.shared).result with
    | ok value =>
        rw [if_pos rfl]
        exact contained_loaded contained ended
    | error failure =>
        have reloaded := contained_reload casbin contained faults
        simp only [Casbin.attempt, Operation.update, kept] at reloaded
        exact reloaded
  · rw [if_neg same]
    refine ⟨model, ?_⟩
    cases (call loadPolicy faults actor config.shared).result <;>
      exact ⟨seat.set_ne same _ subset_rfl, contained⟩

/-- Step: a node joins; if it is this one, nothing was sure before. -/
theorem standing_start {joined : Model} (standing : Standing start key index config doubtful)
    (begins : WellFormed start joined) :
    Standing start key index { config with threads := config.threads ++ [joined] } doubtful := by
  obtain ⟨relation, model, seat, contained⟩ := standing.known
  refine ⟨forall_started standing.wellFormed begins, relation, ?_⟩
  rcases seat with found | ⟨absent, rfl⟩
  · have inside := (List.getElem?_eq_some_iff.mp found).1
    exact ⟨model, Or.inl ((List.getElem?_append_left inside).trans found), contained⟩
  · have outside : config.threads.length ≤ index := List.getElem?_eq_none_iff.mp absent
    refine ⟨joined, ?_, contained.other begins⟩
    rcases outside.eq_or_lt with rfl | beyond
    · exact Or.inl List.getElem?_concat_length
    · refine Or.inr ⟨List.getElem?_eq_none_iff.mpr ?_, rfl⟩
      rw [List.length_append]
      exact beyond

theorem standing_step (documented : casbin.Documented) (config : Config Database Model)
    (act : Act Model Request) (after : Config Database Model) (doubtful : Set Grant)
    (standing : Standing start key index config doubtful)
    (sound : ∀ news ∈ concerns casbin key index config act, news.Sound start)
    (step : (enforcers casbin).Step config act after) :
    Standing start key index after
      ((concerns casbin key index config act).foldl unsure doubtful) := by
  cases act with
  | start model =>
      cases step
      exact standing_start standing (sound _ List.mem_cons_self)
  | step other request =>
      cases request with
      | update u faults => exact standing_update documented standing sound step
      | load faults => exact standing_load standing step

/-- A load makes the node sure of a grant that is stored once, until it is parted from it. -/
theorem not_mem_unsure {g : Grant} {rows : List Row} (single : rows.count g.cells ≤ 1)
    (before later : List News)
    (quiet : ∀ u, News.update u true ∈ later → ¬ u.operation.Names g) (grants : Set Grant) :
    g ∉ (before ++ .loaded rows :: later).foldl unsure grants := by
  have kept (sure : Set Grant) (settled : g ∉ sure) : g ∉ later.foldl unsure sure := by
    induction later generalizing sure with
    | nil => exact settled
    | cons news more ih =>
        refine ih (fun u member => quiet u (List.mem_cons_of_mem _ member)) _ ?_
        cases news with
        | update u parts =>
            cases parts with
            | true => exact fun member => member.elim settled (quiet u List.mem_cons_self)
            | false => exact settled
        | loaded rows => exact fun both => settled both.1
        | joined model => exact settled
  rw [List.foldl_append]
  exact kept _ fun both => absurd both.2 (Nat.not_lt.mpr single)

/-- Run: any number of nodes join and act in any order, whatever they fail at.  A node that
has loaded a grant, stored once at most, whether it was there at the start or joined, is
right about it as long as no other node stores an update that names it and no own update
that names it fails: model and table have it once, or neither has it. -/
theorem node_knows (documented : casbin.Documented) (named : Serves db plainRef key relation)
    (qualified : Serves db polarityRef key relation)
    (rows : ∀ cells ∈ content relation,
      ∃ g : Grant, g.cells = cells ∧ start.Declares g.sec g.ptype)
    (wellFormed : ∀ model ∈ models, WellFormed start model)
    (run : Logged (enforcers casbin).Step (concerns casbin key index) ⟨db, models⟩ log last)
    (sound : ∀ news ∈ log, news.Sound start) {before later : List News} {loaded : List Row}
    (loads : log = before ++ .loaded loaded :: later) {g : Grant}
    (single : loaded.count g.cells ≤ 1)
    (quiet : ∀ u, News.update u true ∈ later → ¬ u.operation.Names g) :
    ∃ stored model, Serves last.shared plainRef key stored ∧
      last.threads[index]? = some model ∧
      (model.policy g.sec g.ptype).count g.rule = (content stored).count g.cells ∧
      (content stored).count g.cells ≤ 1 := by
  have blank : Contained start key (start.clearPolicy, db) relation (grantsOf relation) Set.univ :=
    ⟨named, qualified, ⟨rows, fun _ sure => absurd trivial sure⟩,
      (wellFormed_clearPolicy start).tells _⟩
  have begins : Standing start key index ⟨db, models⟩ Set.univ := by
    refine ⟨wellFormed, relation, ?_⟩
    cases found : models[index]? with
    | none => exact ⟨start.clearPolicy, Or.inr ⟨found, rfl⟩, blank⟩
    | some model =>
        exact ⟨model, Or.inl found, blank.other (wellFormed _ (List.mem_of_getElem? found))⟩
  obtain ⟨_, stored, model, seat, ended⟩ :=
    run.replay (standing_step documented) begins sound
  have sure : g ∉ log.foldl unsure Set.univ := loads ▸ not_mem_unsure single before later quiet _
  have there : last.threads[index]? = some model := by
    rcases seat with found | ⟨_, doubted⟩
    · exact found
    · rw [doubted] at sure
      exact absurd trivial sure
  have table := ended.table.once g sure
  exact ⟨stored, model, ended.named, there, (ended.memory.once g sure).count_eq table,
    ((once_iff _ _).mp table).2⟩

end

/-- The second node stores the grant of alice, the first one loads it; then the second one
stores the grant of bob, which the first one has nothing to remove of. -/
def partedLog : List News :=
  [.update (.add (ascii "p") (ascii "p") aliceReads.rule) true, .loaded [aliceReads.cells],
    .update (.add (ascii "p") (ascii "p") bobReads.rule) true,
    .update (.remove (ascii "p") (ascii "p") bobReads.rule) false]

/-- The first node is right about alice, and wrong about bob. -/
theorem node_knows_partedLog :
    ∃ last, Logged (enforcers Casbin.reference).Step
        (concerns Casbin.reference (ascii "polarity", tableName) 0) twoEnforcers partedLog last ∧
      sharedRows last = some [aliceReads.cells, bobReads.cells] ∧
      last.threads[0]?.map (·.policy (ascii "p") (ascii "p")) = some [aliceReads.rule] ∧
      ∃ stored model, Serves last.shared plainRef (ascii "polarity", tableName) stored ∧
        last.threads[0]? = some model ∧
        (model.policy aliceReads.sec aliceReads.ptype).count aliceReads.rule =
          (content stored).count aliceReads.cells ∧
        (content stored).count aliceReads.cells ≤ 1 := by
  have computed : (followLog (enforcers Casbin.reference).next
      (concerns Casbin.reference (ascii "polarity", tableName) 0) twoEnforcers
      [.step 1 addAlice, .step 0 (.load []),
        .step 1 (.update (.add (ascii "p") (ascii "p") bobReads.rule) []),
        .step 0 (.update (.remove (ascii "p") (ascii "p") bobReads.rule) [])]).any
          (fun ended => decide (ended.1 = partedLog ∧
            sharedRows ended.2 = some [aliceReads.cells, bobReads.cells] ∧
            ended.2.threads[0]?.map (·.policy (ascii "p") (ascii "p")) =
              some [aliceReads.rule])) = true := by
    decide +kernel
  obtain ⟨⟨log, last⟩, followed, same⟩ := (Option.any_eq_true _ _).mp computed
  obtain ⟨rfl, rows, held⟩ := of_decide_eq_true same
  have run := logged_of_followLog followed
  have declaredType : DeclaredType (rbacModel [] []) (ascii "p") := ⟨by decide, by decide⟩
  have storableAlice : StorableRule aliceReads.rule := by decide
  have storableBob : StorableRule bobReads.rule := by decide
  have sound : ∀ news ∈ partedLog, news.Sound (rbacModel [] []) := by
    simp only [partedLog, List.forall_mem_cons]
    exact ⟨⟨rfl, declaredType, storableAlice⟩, trivial, ⟨rfl, declaredType, storableBob⟩,
      ⟨rfl, declaredType, storableBob⟩, List.forall_mem_nil _⟩
  have wellFormed : ∀ model ∈ [rbacModel [] [], rbacModel [] []],
      WellFormed (rbacModel [] []) model := by
    have empty : WellFormed (rbacModel [] []) (rbacModel [] []) := by
      refine ⟨fun s t rule member => ?_, fun s t => Iff.rfl⟩
      have none : (rbacModel [] []).policy s t = [] := by
        simp only [Model.policy, assertion_rbacModel]
        split
        · rfl
        · split <;> rfl
      rw [none] at member
      cases member
    exact List.forall_mem_cons.mpr ⟨empty, List.forall_mem_singleton.mpr empty⟩
  have others : aliceReads.rule ≠ bobReads.rule := by decide
  have quiet : ∀ u, News.update u true ∈ [News.update (.add (ascii "p") (ascii "p")
      bobReads.rule) true, .update (.remove (ascii "p") (ascii "p") bobReads.rule) false] →
      ¬ u.operation.Names aliceReads := by
    intro u member
    rcases List.mem_cons.mp member with own | rest
    · cases own
      exact fun names => others names.2
    · cases List.mem_singleton.mp rest
  have loads : partedLog = [.update (.add (ascii "p") (ascii "p") aliceReads.rule) true] ++
      .loaded [aliceReads.cells] :: partedLog.drop 2 := rfl
  exact ⟨last, run, rows, held, node_knows Casbin.reference_documented
    (serves_singleTable _ rfl) (serves_polarity rfl) (List.forall_mem_nil _) wellFormed
    run sound loads (by decide) quiet⟩

end Casbinex.Adapter
