import Casbinex.Program.Assoc
import Casbinex.Sql.Relation

/-!
# The casbin model and its line loader

A model maps a section to its assertions and an assertion, by its ptype, to the
rules of its policy.  `loadPolicyLine` is `PgAdapter::LoadPolicyLine`; what is
undefined behaviour in the source is a crash here.
-/

namespace Casbinex.Adapter

open Casbinex.Program
open Casbinex.Sql

abbrev Rule := List Bytes

abbrev AssertionMap := AList fun _ : Bytes => List Rule

abbrev Model := AList fun _ : Bytes => AssertionMap

/-- Where the source goes wrong for good: undefined behaviour, or a text that grows until
the memory is gone. -/
inductive Crash where
  /-- `tokens[0]` of an empty vector. -/
  | emptyTokens
  /-- `assertion_map[key]` inserted a null pointer, which is then dereferenced. -/
  | nullAssertion
  /-- A subscript past the end of a vector. -/
  | outOfBounds
  /-- A loop whose condition stays true. -/
  | neverEnds
  deriving DecidableEq, Repr

/-- `casbin::Trim`. -/
def trim (text : Bytes) : Bytes := strip text

namespace Model

def assertion (model : Model) (sec ptype : Bytes) : Option (List Rule) :=
  (model.lookup sec).bind fun assertions => assertions.lookup ptype

def policy (model : Model) (sec ptype : Bytes) : List Rule :=
  (model.assertion sec ptype).getD []

def Declares (model : Model) (sec ptype : Bytes) : Prop :=
  (model.assertion sec ptype).isSome = true

instance (model : Model) (sec ptype : Bytes) : Decidable (model.Declares sec ptype) :=
  inferInstanceAs (Decidable (_ = _))

/-- Rewrite the policy of every assertion. -/
def mapPolicies (model : Model) (change : Bytes → Bytes → List Rule → List Rule) : Model :=
  mapEntries (fun sec assertions => mapEntries (change sec) assertions) model

/-- Rewrite the policy of one assertion. -/
def adjust (model : Model) (sec ptype : Bytes) (change : List Rule → List Rule) : Model :=
  model.mapPolicies fun s t rules => if s = sec ∧ t = ptype then change rules else rules

/-- casbin's `ClearPolicy`: no rules are left, every declared assertion is kept. -/
def clearPolicy (model : Model) : Model := model.mapPolicies fun _ _ _ => []

/-- `model->m[sec]` default-inserts an empty section. -/
def touch (model : Model) (sec : Bytes) : Model :=
  if sec ∈ model then model else model.insert sec ∅

end Model

/-- `PgAdapter::LoadPolicyLine`. -/
def loadPolicyLine (tokens : List Bytes) (model : Model) : Except Crash Model :=
  match tokens.map trim with
  | [] => .error .emptyTokens
  | key :: newTokens =>
      let sec := key.take 1
      let model := model.touch sec
      match model.assertion sec key with
      | none => .error .nullAssertion
      | some _ => .ok (model.adjust sec key fun rules => rules ++ [newTokens])

/-- The non-NULL columns of a result row, in order. -/
def policyLine (row : Row) : List Bytes := row.reduceOption

/-- The loop of `PgAdapter::LoadPolicy` over the result rows. -/
def loadRows : List Row → Model → Except Crash Model
  | [], model => .ok model
  | row :: more, model => (loadPolicyLine (policyLine row) model).bind (loadRows more)

namespace Model

theorem assertion_mapPolicies (model : Model) (change : Bytes → Bytes → List Rule → List Rule)
    (sec ptype : Bytes) :
    (model.mapPolicies change).assertion sec ptype =
      (model.assertion sec ptype).map (change sec ptype) := by
  unfold assertion mapPolicies
  rw [lookup_mapEntries]
  cases model.lookup sec with
  | none => rfl
  | some assertions => exact lookup_mapEntries _ _ _

@[simp]
theorem declares_mapPolicies (model : Model) (change : Bytes → Bytes → List Rule → List Rule)
    (sec ptype : Bytes) :
    (model.mapPolicies change).Declares sec ptype ↔ model.Declares sec ptype := by
  simp [Declares, assertion_mapPolicies]

@[simp]
theorem declares_adjust (model : Model) (sec ptype s t : Bytes)
    (change : List Rule → List Rule) :
    (model.adjust sec ptype change).Declares s t ↔ model.Declares s t :=
  model.declares_mapPolicies _ s t

@[simp]
theorem declares_clearPolicy (model : Model) (sec ptype : Bytes) :
    model.clearPolicy.Declares sec ptype ↔ model.Declares sec ptype :=
  model.declares_mapPolicies _ sec ptype

@[simp]
theorem policy_clearPolicy (model : Model) (sec ptype : Bytes) :
    model.clearPolicy.policy sec ptype = [] := by
  unfold policy clearPolicy
  rw [assertion_mapPolicies]
  cases model.assertion sec ptype <;> rfl

theorem policy_adjust_self {model : Model} {sec ptype : Bytes}
    (declared : model.Declares sec ptype) (change : List Rule → List Rule) :
    (model.adjust sec ptype change).policy sec ptype = change (model.policy sec ptype) := by
  obtain ⟨rules, found⟩ := Option.isSome_iff_exists.mp declared
  simp [policy, adjust, assertion_mapPolicies, found]

theorem policy_adjust_of_ne (model : Model) {sec ptype s t : Bytes}
    (change : List Rule → List Rule) (different : ¬ (s = sec ∧ t = ptype)) :
    (model.adjust sec ptype change).policy s t = model.policy s t := by
  simp [policy, adjust, assertion_mapPolicies, different]

theorem touch_of_declares {model : Model} {sec ptype : Bytes}
    (declared : model.Declares sec ptype) : model.touch sec = model := by
  have present : sec ∈ model := by
    rw [← AList.lookup_isSome]
    cases found : model.lookup sec with
    | none => simp [Declares, assertion, found] at declared
    | some assertions => rfl
  simp [touch, present]

/-- Touching a section declares nothing and keeps every policy. -/
theorem assertion_touch (model : Model) (sec s t : Bytes) :
    (model.touch sec).assertion s t = model.assertion s t := by
  unfold touch
  split
  · rfl
  · next absent =>
      unfold assertion
      by_cases same : s = sec
      · subst same
        rw [AList.lookup_insert, AList.lookup_eq_none.mpr absent]
        exact AList.lookup_empty t
      · rw [AList.lookup_insert_ne same]

end Model

/-! ## What a row denotes -/

/-- Ptype and rule that the loader reads off a row: NULLs dropped, fields trimmed. -/
def entryOf (row : Row) : Option (Bytes × Rule) :=
  match (policyLine row).map trim with
  | [] => none
  | key :: rule => some (key, rule)

/-- The rules that rows put under a ptype, in their order. -/
def rulesUnder (ptype : Bytes) (rows : List Row) : List Rule :=
  (rows.filterMap entryOf).filterMap fun e => if e.1 = ptype then some e.2 else none

theorem mem_rulesUnder {ptype : Bytes} {rows : List Row} {rule : Rule} :
    rule ∈ rulesUnder ptype rows ↔ ∃ row ∈ rows, entryOf row = some (ptype, rule) := by
  unfold rulesUnder
  simp only [List.mem_filterMap, Option.ite_none_right_eq_some, Option.some.injEq]
  constructor
  · rintro ⟨⟨_, _⟩, ⟨row, member, reads⟩, rfl, rfl⟩
    exact ⟨row, member, reads⟩
  · rintro ⟨row, member, reads⟩
    exact ⟨(ptype, rule), ⟨row, member, reads⟩, rfl, rfl⟩

theorem rulesUnder_cons {row : Row} {key : Bytes} {rule : Rule}
    (reads : entryOf row = some (key, rule)) (ptype : Bytes) (more : List Row) :
    rulesUnder ptype (row :: more) =
      if key = ptype then rule :: rulesUnder ptype more else rulesUnder ptype more := by
  unfold rulesUnder
  rw [List.filterMap_cons_some reads]
  by_cases same : key = ptype <;> simp [same]

/-- Distinct rows that read differently put distinct rules under a ptype. -/
theorem nodup_rulesUnder {rows : List Row} (distinct : rows.Nodup)
    (unique : ∀ a ∈ rows, ∀ b ∈ rows, ∀ e, entryOf a = some e → entryOf b = some e → a = b)
    (ptype : Bytes) : (rulesUnder ptype rows).Nodup := by
  have entries : (rows.filterMap entryOf).Nodup := by
    unfold List.Nodup
    rw [List.pairwise_filterMap]
    apply List.Pairwise.imp_of_mem _ distinct
    rintro a b inA inB different e readA f readB rfl
    exact different (unique a inA b inB e readA readB)
  apply List.Nodup.filterMap _ entries
  rintro ⟨_, _⟩ ⟨_, _⟩ rule first second
  simp only [Option.mem_def, Option.ite_none_right_eq_some, Option.some.injEq] at first second
  rw [first.1, first.2, second.1, second.2]

theorem loadPolicyLine_of_entry {model : Model} {row : Row} {key : Bytes} {rule : Rule}
    (denotes : entryOf row = some (key, rule)) (declared : model.Declares (key.take 1) key) :
    loadPolicyLine (policyLine row) model =
      .ok (model.adjust (key.take 1) key fun rules => rules ++ [rule]) := by
  unfold entryOf at denotes
  unfold loadPolicyLine
  cases tokens : (policyLine row).map trim with
  | nil => simp [tokens] at denotes
  | cons first rest =>
      simp only [tokens, Option.some.injEq, Prod.mk.injEq] at denotes
      obtain ⟨rfl, rfl⟩ := denotes
      obtain ⟨rules, found⟩ := Option.isSome_iff_exists.mp declared
      simp only [Model.touch_of_declares declared, found]

/-- The loader accepts a row exactly when the row denotes a declared ptype. -/
theorem loadPolicyLine_ok_iff (model loaded : Model) (row : Row) :
    loadPolicyLine (policyLine row) model = .ok loaded ↔
      ∃ key rule, entryOf row = some (key, rule) ∧ model.Declares (key.take 1) key ∧
        loaded = model.adjust (key.take 1) key fun rules => rules ++ [rule] := by
  constructor
  · intro ok
    have source := ok
    unfold loadPolicyLine at ok
    cases tokens : (policyLine row).map trim with
    | nil => simp [tokens] at ok
    | cons key rule =>
        have denotes : entryOf row = some (key, rule) := by simp [entryOf, tokens]
        by_cases declared : model.Declares (key.take 1) key
        · rw [loadPolicyLine_of_entry denotes declared] at source
          exact ⟨key, rule, denotes, declared, (Except.ok.inj source).symm⟩
        · have missing : model.assertion (key.take 1) key = none := by
            simpa [Model.Declares] using declared
          simp [tokens, Model.assertion_touch, missing] at ok
  · rintro ⟨key, rule, denotes, declared, rfl⟩
    exact loadPolicyLine_of_entry denotes declared

/-- Every row denotes an assertion the model declares. -/
def Loadable (model : Model) (rows : List Row) : Prop :=
  ∀ row ∈ rows, ∃ key rule, entryOf row = some (key, rule) ∧ model.Declares (key.take 1) key

/-- What loading does: it completes on loadable rows and appends to every policy
the rules the rows put under it. -/
structure LoadedFrom (model : Model) (rows : List Row) (loaded : Model) : Prop where
  declares : ∀ s t, loaded.Declares s t ↔ model.Declares s t
  policy : ∀ t, loaded.policy (t.take 1) t = model.policy (t.take 1) t ++ rulesUnder t rows
  elsewhere : ∀ s t, s ≠ t.take 1 → loaded.policy s t = model.policy s t

/-- Loading into a cleared model leaves what the rows say and nothing else. -/
theorem LoadedFrom.policy_of_clear {model loaded : Model} {rows : List Row}
    (spec : LoadedFrom model.clearPolicy rows loaded) (s t : Bytes) :
    loaded.policy s t = if s = t.take 1 then rulesUnder t rows else [] := by
  by_cases own : s = t.take 1
  · rw [if_pos own, own, spec.policy, Model.policy_clearPolicy, List.nil_append]
  · rw [if_neg own, spec.elsewhere s t own, Model.policy_clearPolicy]

theorem loadRows_spec {rows : List Row} {model : Model} (loadable : Loadable model rows) :
    ∃ loaded, loadRows rows model = .ok loaded ∧ LoadedFrom model rows loaded := by
  induction rows generalizing model with
  | nil => exact ⟨model, rfl, fun _ _ => Iff.rfl, fun _ => by simp [rulesUnder], fun _ _ _ => rfl⟩
  | cons row more ih =>
      obtain ⟨key, rule, denotes, declared⟩ := loadable row List.mem_cons_self
      let middle := model.adjust (key.take 1) key fun rules => rules ++ [rule]
      have rest : Loadable middle more := by
        intro other member
        obtain ⟨k, r, reads, known⟩ := loadable other (List.mem_cons_of_mem _ member)
        exact ⟨k, r, reads, (model.declares_adjust _ _ _ _ _).mpr known⟩
      obtain ⟨loaded, ok, spec⟩ := ih rest
      refine ⟨loaded, ?_, ?_, ?_, ?_⟩
      · rw [loadRows, loadPolicyLine_of_entry denotes declared]
        exact ok
      · intro s t
        rw [spec.declares]
        exact model.declares_adjust _ _ _ _ _
      · intro t
        rw [spec.policy]
        by_cases same : t = key
        · subst same
          rw [Model.policy_adjust_self declared]
          simp [rulesUnder, denotes]
        · rw [Model.policy_adjust_of_ne _ _ fun both => same both.2]
          simp [rulesUnder, denotes, Ne.symm same]
      · intro s t away
        rw [spec.elsewhere s t away]
        apply Model.policy_adjust_of_ne
        rintro ⟨rfl, rfl⟩
        exact away rfl

theorem loadable_of_loadRows {rows : List Row} {model loaded : Model}
    (ok : loadRows rows model = .ok loaded) : Loadable model rows := by
  induction rows generalizing model with
  | nil => exact fun row member => absurd member List.not_mem_nil
  | cons row more ih =>
      rw [loadRows] at ok
      cases first : loadPolicyLine (policyLine row) model with
      | error crash => simp [first, Except.bind] at ok
      | ok middle =>
          rw [first] at ok
          obtain ⟨key, rule, denotes, declared, rfl⟩ :=
            (loadPolicyLine_ok_iff model middle row).mp first
          intro other member
          rcases List.mem_cons.mp member with rfl | inMore
          · exact ⟨key, rule, denotes, declared⟩
          · obtain ⟨k, r, reads, known⟩ := ih ok other inMore
            exact ⟨k, r, reads, (model.declares_adjust _ _ _ _ _).mp known⟩

theorem loadedFrom_of_ok {rows : List Row} {model loaded : Model}
    (ok : loadRows rows model = .ok loaded) : LoadedFrom model rows loaded := by
  obtain ⟨again, same, spec⟩ := loadRows_spec (loadable_of_loadRows ok)
  rw [ok] at same
  exact Except.ok.inj same ▸ spec

end Casbinex.Adapter
