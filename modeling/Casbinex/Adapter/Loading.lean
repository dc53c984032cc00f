import Casbinex.Adapter.Save

/-!
# Loading a table that anyone may write

The schema admits rows that no rule was stored as.  `LoadPolicyLine` guards the
section of a row but neither an empty token vector nor a ptype that the model does
not declare.  And of a stored rule the loader reads seven trimmed fields, whatever
rule was given.
-/

namespace Casbinex.Adapter

open Casbinex.Program
open Casbinex.Program.Prog
open Casbinex.Sql

section

variable {db : Database} {key : RelName} {relation : Relation}

/-! ## Safety -/

theorem loadable_clearPolicy (model : Model) (rows : List Row) :
    Loadable model.clearPolicy rows ↔ Loadable model rows := by
  unfold Loadable
  simp only [Model.declares_clearPolicy]

/-- Without faults `LoadPolicy` returns or runs into undefined behaviour. -/
theorem crash_of_not_loadable (serves : Serves db plainRef key relation) {model : Model}
    (unfit : ¬ Loadable model (content relation)) :
    ∃ crash, (call loadPolicy [] model db).result = .error (.crash crash) := by
  cases rows : loadRows (content relation) model.clearPolicy with
  | ok loaded =>
      exact absurd ((loadable_clearPolicy model _).mp (loadable_of_loadRows rows)) unfit
  | error crash =>
      obtain ⟨partly, ended⟩ := run_loadLoop_error rows [] ⟨db, some db, none⟩
      refine ⟨crash, ?_⟩
      unfold call
      rw [call_loadPolicy_run serves, ended]

/-- `LoadPolicy` runs into no undefined behaviour, whatever faults strike, and appends
every row to a declared assertion if it returns, exactly when every row denotes an
assertion that the model declares. -/
theorem loadPolicy_safe_iff (serves : Serves db plainRef key relation) (model : Model) :
    (∀ faults, (∀ crash, (call loadPolicy faults model db).result ≠ .error (.crash crash)) ∧
      ((call loadPolicy faults model db).result = .ok () →
        LoadedFrom model.clearPolicy (content relation) (call loadPolicy faults model db).model)) ↔
      Loadable model (content relation) := by
  constructor
  · intro safe
    by_contra unfit
    obtain ⟨crash, crashes⟩ := crash_of_not_loadable serves unfit
    exact (safe []).1 crash crashes
  · intro loadable faults
    obtain ⟨loaded, rows, spec⟩ := loadRows_spec ((loadable_clearPolicy model _).mpr loadable)
    have loads := call_loadPolicy_ok serves rows
    rcases call_fault_or_nil loadPolicy faults model db with struck | ⟨later, same⟩
    · rw [struck]
      exact ⟨nofun, nofun⟩
    · rw [same, loads]
      exact ⟨nofun, fun _ => spec⟩

/-- A table with the row of one grant. -/
theorem loadPolicy_safe_singleTable :
    LoadedFrom (rbacModel [] []).clearPolicy [aliceReads.cells]
      (call loadPolicy [] (rbacModel [] []) (singleTable (ascii "polarity")
        (withRule (Relation.empty tableColumns) aliceReads.ptype aliceReads.rule))).model := by
  have rows : content (withRule (Relation.empty tableColumns) aliceReads.ptype aliceReads.rule) =
      [aliceReads.cells] := by decide
  rw [← rows]
  refine ((loadPolicy_safe_iff (serves_singleTable _ rfl) _).mpr ?_ []).2 (by decide +kernel)
  rw [rows]
  intro row member
  rw [List.mem_singleton.mp member]
  exact ⟨_, _, aliceReads.entryOf_cells, by decide⟩

/-- A row of NULLs, and a row of a ptype that the model does not declare. -/
theorem loadPolicy_crashes :
    (call loadPolicy [] (rbacModel [] []) (singleTable (ascii "polarity")
      ((Relation.empty tableColumns).append [] []))).result = .error (.crash .emptyTokens) ∧
    (call loadPolicy [] (rbacModel [] []) (singleTable (ascii "polarity")
      (withRule (Relation.empty tableColumns) (ascii "p2") aliceReads.rule))).result =
        .error (.crash .nullAssertion) := by
  decide +kernel

/-! ## What becomes of a grant -/

/-- What the loader reads of a stored rule. -/
def readBack (rule : Rule) : Rule := (rule.take 7).map trim

theorem readBack_eq_iff (rule : Rule) :
    readBack rule = rule ↔ rule.length ≤ 7 ∧ ∀ field ∈ rule, trim field = field := by
  unfold readBack
  constructor
  · intro same
    have size := congrArg List.length same
    rw [List.length_map, List.length_take] at size
    have short : rule.length ≤ 7 := by omega
    rw [List.take_of_length_le short] at same
    exact ⟨short, List.map_inj_left.mp (same.trans (List.map_id rule).symm)⟩
  · rintro ⟨short, trimmed⟩
    rw [List.take_of_length_le short]
    exact (List.map_congr_left trimmed).trans (List.map_id rule)

/-- One more rule under a ptype, all else being the same up to order. -/
structure OneMore (before after : Model) (ptype : Bytes) (rule : Rule) : Prop where
  own : (after.policy (ptype.take 1) ptype).Perm (rule :: before.policy (ptype.take 1) ptype)
  others : ∀ s t, ¬ (s = ptype.take 1 ∧ t = ptype) →
    (after.policy s t).Perm (before.policy s t)

section

variable {model : Model} {rule : Rule}

/-- An added rule is read back under the ptype as the loader reads it. -/
theorem entryOf_added (clean : ∀ field ∈ rule, (0 : UInt8) ∉ field) (ptype : Bytes) :
    entryOf (ruleCells (cString ptype) (rule.map cString)) =
      some (trim (cString ptype), readBack rule) := by
  rw [entryOf_ruleCells, map_cString_of_notMem clean]
  rfl

/-- The rules of a model that is loaded again after an addition. -/
theorem policy_after_add (serves : Serves db plainRef key relation)
    (loads : (call loadPolicy [] model db).result = .ok ()) (ptype : Bytes)
    (clean : ∀ field ∈ rule, (0 : UInt8) ∉ field) {stored : Database}
    (added : stored = db.put key (withRule relation ptype rule))
    (reloads : (call loadPolicy [] model stored).result = .ok ()) (s t : Bytes) :
    (call loadPolicy [] model stored).model.policy s t =
      (call loadPolicy [] model db).model.policy s t ++
        if s = t.take 1 ∧ trim (cString ptype) = t then [readBack rule] else [] := by
  subst added
  have shape : (withRule relation ptype rule).columns = tableColumns := serves.shape
  have before := (call_loadPolicy_completes_iff serves model _).mp ⟨loads, rfl⟩
  have after := (call_loadPolicy_completes_iff (serves.put shape) model _).mp ⟨reloads, rfl⟩
  rw [(loadedFrom_of_ok after).policy_of_clear, (loadedFrom_of_ok before).policy_of_clear]
  by_cases own : s = t.take 1
  · rw [if_pos own, if_pos own, content_withRule serves.shape, rulesUnder_append,
      rulesUnder_cons (entryOf_added clean ptype)]
    by_cases same : trim (cString ptype) = t
    · rw [if_pos same, if_pos ⟨own, same⟩]
      rfl
    · rw [if_neg same, if_neg (fun both => same both.2)]
      rfl
  · rw [if_neg own, if_neg own, if_neg (fun both => own both.1), List.append_nil]

/-- A table that loads still loads after a rule of a declared ptype was added. -/
theorem reloads_after_add (serves : Serves db plainRef key relation)
    (loads : (call loadPolicy [] model db).result = .ok ()) {ptype : Bytes}
    (clean : ∀ field ∈ rule, (0 : UInt8) ∉ field) (plain : Plain ptype)
    (declared : model.Declares (ptype.take 1) ptype) :
    (call loadPolicy [] model (db.put key (withRule relation ptype rule))).result = .ok () := by
  have shape : (withRule relation ptype rule).columns = tableColumns := serves.shape
  have before := (call_loadPolicy_completes_iff serves model _).mp ⟨loads, rfl⟩
  have loadable := (loadable_clearPolicy model _).mp (loadable_of_loadRows before)
  have fits : Loadable model.clearPolicy (content (withRule relation ptype rule)) := by
    rw [loadable_clearPolicy, content_withRule serves.shape]
    intro row member
    rcases List.mem_append.mp member with old | new
    · exact loadable row old
    · rw [List.mem_singleton.mp new]
      refine ⟨ptype, readBack rule, ?_, declared⟩
      rw [entryOf_added clean, cString_of_notMem plain.clean, plain.trimmed]
  obtain ⟨reloaded, after, _⟩ := loadRows_spec fits
  rw [call_loadPolicy_ok (serves.put shape) after]

/-- A trimmed rule of at most seven fields comes back as it was granted. -/
theorem oneMore_of_readBack (serves : Serves db plainRef key relation)
    (loads : (call loadPolicy [] model db).result = .ok ()) {ptype : Bytes}
    (clean : ∀ field ∈ rule, (0 : UInt8) ∉ field) (plain : Plain ptype)
    (declared : model.Declares (ptype.take 1) ptype) (same : readBack rule = rule) :
    OneMore (call loadPolicy [] model db).model
      (call loadPolicy [] model (db.put key (withRule relation ptype rule))).model ptype rule := by
  have reloads := reloads_after_add serves loads clean plain declared
  have policies := policy_after_add serves loads ptype clean rfl reloads
  rw [cString_of_notMem plain.clean, plain.trimmed, same] at policies
  constructor
  · rw [policies, if_pos ⟨rfl, rfl⟩]
    exact List.perm_append_singleton _ _
  · intro s t away
    rw [policies, if_neg, List.append_nil]
    rintro ⟨own, rfl⟩
    exact away ⟨own, rfl⟩

/-- A rule that comes back as it was granted is trimmed and of at most seven fields, and
its ptype was not cut. -/
theorem readBack_of_oneMore (serves : Serves db plainRef key relation)
    (loads : (call loadPolicy [] model db).result = .ok ()) {ptype : Bytes}
    (clean : ∀ field ∈ rule, (0 : UInt8) ∉ field)
    (reloads : (call loadPolicy [] model
      (db.put key (withRule relation ptype rule))).result = .ok ())
    (more : OneMore (call loadPolicy [] model db).model
      (call loadPolicy [] model (db.put key (withRule relation ptype rule))).model ptype rule) :
    (0 : UInt8) ∉ ptype ∧ readBack rule = rule := by
  have own := more.own
  rw [policy_after_add serves loads ptype clean rfl reloads] at own
  by_cases whole : trim (cString ptype) = ptype
  · rw [if_pos ⟨rfl, whole⟩] at own
    have same : ([readBack rule] ++ _).Perm ([rule] ++ _) := List.perm_append_comm.trans own
    refine ⟨?_, List.singleton_perm_singleton.mp ((List.perm_append_right_iff _).mp same)⟩
    rw [← whole]
    exact fun zero => zero_notMem_cString ptype (mem_of_mem_strip zero)
  · rw [if_neg (fun both => whole both.2)] at own
    have sizes := own.length_eq
    simp at sizes

/-- A grant is stored faithfully or refused, whatever faults strike, exactly when its
ptype has no zero byte and its rule has at most seven fields, all of them trimmed. -/
theorem grant_faithful_iff (serves : Serves db plainRef key relation)
    (loads : (call loadPolicy [] model db).result = .ok ()) {ptype : Bytes}
    (trimmed : trim ptype = ptype) (declared : model.Declares (ptype.take 1) ptype)
    (clean : ∀ field ∈ rule, (0 : UInt8) ∉ field) (sec : Bytes) :
    (∀ faults,
      let added := call (addPolicy sec ptype rule) faults model db
      let reloaded := call loadPolicy [] model added.db
      (added.result = .ok () → reloaded.result = .ok () ∧
        OneMore (call loadPolicy [] model db).model reloaded.model ptype rule) ∧
      ∀ failure, added.result = .error failure → added.db = db) ↔
    (0 : UInt8) ∉ ptype ∧ rule.length ≤ 7 ∧ ∀ field ∈ rule, trim field = field := by
  have adds := call_addPolicy serves model sec ptype rule
  rw [← readBack_eq_iff]
  constructor
  · intro faithful
    have exact := (faithful []).1
    simp only [adds] at exact
    obtain ⟨reloads, more⟩ := exact trivial
    exact readBack_of_oneMore serves loads clean reloads more
  · rintro ⟨cleanType, same⟩ faults added reloaded
    have plain : Plain ptype := ⟨trimmed, cleanType⟩
    refine ⟨fun returns => ?_, fun failure failed => ?_⟩
    · have ended := call_nil_of_ok returns
      rw [adds] at ended
      have database : added.db = db.put key (withRule relation ptype rule) :=
        (congrArg Outcome.db ended).symm
      simp only [reloaded, database]
      exact ⟨reloads_after_add serves loads clean plain declared,
        oneMore_of_readBack serves loads clean plain declared same⟩
    · exact Update.call_of_error (u := .add sec ptype rule) failed

end

end

/-- A rule of three trimmed fields and an empty table. -/
theorem grant_faithful_aliceReads :
    (call loadPolicy [] (rbacModel [] []) (call (addPolicy (ascii "p") aliceReads.ptype
      aliceReads.rule) [] (rbacModel [] []) (singleTable (ascii "polarity")
        (Relation.empty tableColumns))).db).result = .ok () := by
  have named : Serves (singleTable (ascii "polarity") (Relation.empty tableColumns)) plainRef
      (ascii "polarity", tableName) (Relation.empty tableColumns) := serves_singleTable _ rfl
  have loads : (call loadPolicy [] (rbacModel [] [])
      (singleTable (ascii "polarity") (Relation.empty tableColumns))).result = .ok () := by
    decide +kernel
  have faithful := (grant_faithful_iff named loads aliceReads.plainType.trimmed (by decide)
    (fun field member => (aliceReads.plainFields field member).clean) (ascii "p")).mpr
    ⟨aliceReads.plainType.clean, aliceReads.short,
      fun field member => (aliceReads.plainFields field member).trimmed⟩
  exact ((faithful []).1 (by decide +kernel)).1

/-- A rule of eight fields is stored without its last one. -/
theorem long_grant_is_cut :
    let rule := aliceReads.rule ++ List.replicate 4 [] ++ [ascii "deny"]
    (call (addPolicy (ascii "p") (ascii "p") rule) [] (rbacModel [] [])
        (singleTable (ascii "polarity") (Relation.empty tableColumns))).result = .ok () ∧
      (call loadPolicy [] (rbacModel [] []) (call (addPolicy (ascii "p") (ascii "p") rule) []
        (rbacModel [] []) (singleTable (ascii "polarity")
          (Relation.empty tableColumns))).db).model.policy (ascii "p") (ascii "p") =
        [aliceReads.rule ++ List.replicate 4 []] := by
  decide +kernel

end Casbinex.Adapter
