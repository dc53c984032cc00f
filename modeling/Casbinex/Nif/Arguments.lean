import Casbinex.Nif.EntryPoints

/-!
# Arguments and principals

Ten entry points take strings.  `ListToString` reads every term that is no
charlist as the empty string, and the three calls that go through `c_str()` cut a
string at its first zero byte.  The enforcer is therefore handed the given bytes
only for charlists, and for these calls only without a zero byte.
-/

namespace Casbinex.Nif

open Casbinex.Program
open Casbinex.Program.Prog
open Casbinex.Sql

/-! ## What a call hands to the enforcer -/

/-- The strings of a mutation. -/
def Mutation.strings : Mutation → List Bytes
  | .addPolicy rule => rule
  | .removePolicy rule => rule
  | .addGroupingPolicy rule => rule
  | .deleteRole role => [role]
  | .addRoleForUser user role => [user, role]
  | .addRolesForUser user roles => user :: roles
  | .deleteRolesForUser user => [user]
  | .deleteRoleForUser user role => [user, role]
  | .removeFilteredPolicy _ fieldValues => fieldValues

/-- The strings of a method of the enforcer that takes any. -/
def Instr.strings : Instr → Option (List Bytes)
  | .enforce request => some request
  | .mutate mutation => some mutation.strings
  | .getUsersForRole role => some [role]
  | .getRolesForUser user => some [user]
  | .getFilteredPolicy _ fieldValues => some fieldValues
  | _ => none

/-- The strings handed over by a call, for each method it invokes; the answers of
the steps are free. -/
def handed (answers : (i : Instr) → i.Answer) (call : Call) : List (List Bytes) :=
  (trace answers call.program).filterMap Instr.strings

/-- The string arguments of the ten entry points that take nothing else. -/
def Call.stringArguments : Call → Option (List Term)
  | .enforce sub obj act => some [sub, obj, act]
  | .addPolicy sub obj act => some [sub, obj, act]
  | .removePolicy sub obj act => some [sub, obj, act]
  | .addGroupingPolicy user group => some [user, group]
  | .getUsersForRole role => some [role]
  | .getRolesForUser user => some [user]
  | .deleteRole role => some [role]
  | .addRoleForUser user role => some [user, role]
  | .deleteRoleForUser user role => some [user, role]
  | .deleteRolesForUser user => some [user]
  | _ => none

/-- The calls that pass their strings through `c_str()`. -/
def Call.cutsAtZero : Call → Bool
  | .enforce _ _ _ => true
  | .addPolicy _ _ _ => true
  | .removePolicy _ _ _ => true
  | _ => false

/-- The string that a call makes of a term. -/
def Call.passes (call : Call) (term : Term) : Bytes :=
  if call.cutsAtZero then cString (listToString term) else listToString term

/-- A term whose bytes the call passes on unchanged. -/
def Call.Readable (call : Call) (term : Term) : Prop :=
  ∃ text, term = Term.ofBytes text ∧ (call.cutsAtZero = true → (0 : UInt8) ∉ text)

/-- The call is refused, or every argument is a charlist and the enforcer is handed
exactly the bytes of these charlists. -/
def Exact (answers : (i : Instr) → i.Answer) (call : Call) (arguments : List Term) : Prop :=
  handed answers call = [] ∨
    ∃ texts, arguments = texts.map Term.ofBytes ∧ handed answers call = [texts]

/-- A created enforcer is handed one string for each argument. -/
theorem handed_eq {call : Call} {arguments : List Term}
    (takes : call.stringArguments = some arguments) (answers : (i : Instr) → i.Answer) :
    handed answers call =
      if answers .created = true then [arguments.map call.passes] else [] := by
  have behind {body : NifProg Reply} {texts : List Bytes}
      (issued : (trace answers body).filterMap Instr.strings = [texts]) :
      (trace answers (guarded body)).filterMap Instr.strings =
        if answers .created = true then [texts] else [] := by
    change ((Instr.created :: trace answers
      (if answers .created = true then body else return .mustCreate)).filterMap _) = _
    split
    · exact issued
    · rfl
  cases call with
  | enforce sub obj act =>
      cases takes
      exact behind rfl
  | getUsersForRole role =>
      cases takes
      apply behind
      simp only [issue, perform_bind, trace]
      cases answers (.getUsersForRole (listToString role)) <;> rfl
  | getRolesForUser user =>
      cases takes
      apply behind
      simp only [issue, perform_bind, trace]
      cases answers (.getRolesForUser (listToString user)) <;> rfl
  | _ =>
      cases takes <;> exact behind rfl

theorem readable_iff (call : Call) (term : Term) :
    call.Readable term ↔ term = Term.ofBytes (call.passes term) := by
  unfold Call.Readable Call.passes
  rw [listToString_eq]
  constructor
  · rintro ⟨text, rfl, clean⟩
    rw [charlist_ofBytes, Option.getD_some]
    split
    · next cuts => rw [cString_of_notMem (clean cuts)]
    · rfl
  · intro same
    refine ⟨_, same, fun cuts => ?_⟩
    rw [if_pos cuts]
    exact zero_notMem_cString _

/-- Arguments are read exactly, or the call is refused, precisely when there is no
enforcer or every argument is readable. -/
theorem exact_iff {call : Call} {arguments : List Term}
    (takes : call.stringArguments = some arguments) (answers : (i : Instr) → i.Answer) :
    Exact answers call arguments ↔
      answers .created = false ∨ ∀ term ∈ arguments, call.Readable term := by
  unfold Exact
  rw [handed_eq takes]
  cases answers .created with
  | false => simp
  | true =>
      simp only [if_true, List.cons_ne_nil, false_or, Bool.true_eq_false, List.cons.injEq, and_true]
      constructor
      · rintro ⟨texts, rfl, passed⟩ term member
        obtain ⟨text, inTexts, rfl⟩ := List.mem_map.mp member
        rw [List.map_map] at passed
        have kept : call.passes (Term.ofBytes text) = text := by
          have each := List.map_inj_left.mp (passed.trans (List.map_id texts).symm)
          exact each text inTexts
        rw [readable_iff, kept]
      · intro readable
        refine ⟨arguments.map call.passes, ?_, rfl⟩
        rw [List.map_map]
        exact ((List.map_congr_left fun term member =>
          ((readable_iff call term).mp (readable term member)).symm).trans (List.map_id _)).symm

/-- A call reads its arguments exactly or is refused precisely when there is no
enforcer or every argument is readable; and two calls with readable arguments that
hand over the same strings have the same arguments. -/
theorem arguments_identify {call : Call} {arguments : List Term}
    (takes : call.stringArguments = some arguments) (answers : (i : Instr) → i.Answer) :
    (Exact answers call arguments ↔
      answers .created = false ∨ ∀ term ∈ arguments, call.Readable term) ∧
    ∀ (other : Call) (others : List Term), other.stringArguments = some others →
      (∀ term ∈ arguments, call.Readable term) → (∀ term ∈ others, other.Readable term) →
      answers .created = true → handed answers call = handed answers other →
      arguments = others := by
  refine ⟨exact_iff takes answers, ?_⟩
  intro other others otherTakes readable otherReadable created same
  have restored {c : Call} {terms : List Term} (all : ∀ term ∈ terms, c.Readable term) :
      (terms.map c.passes).map Term.ofBytes = terms := by
    rw [List.map_map]
    refine (List.map_congr_left fun term member => ?_).trans (List.map_id terms)
    exact ((readable_iff c term).mp (all term member)).symm
  rw [handed_eq takes, handed_eq otherTakes, if_pos created, if_pos created,
    List.singleton_inj] at same
  rw [← restored readable, ← restored otherReadable, same]

/-- Answers of a created enforcer. -/
def allowing : (i : Instr) → i.Answer
  | .created => true
  | .create _ _ => .ok ()
  | .destroy => ()
  | .invalidateCache => ()
  | .enforce _ => .ok true
  | .mutate _ => .ok true
  | .getUsersForRole _ => .ok []
  | .getRolesForUser _ => .ok []
  | .getFilteredPolicy _ _ => .ok []

/-- The charlists alice, data1 and read. -/
theorem arguments_identify_alice :
    let arguments := [ascii "alice", ascii "data1", ascii "read"].map Term.ofBytes
    let call := Call.enforce (Term.ofBytes (ascii "alice")) (Term.ofBytes (ascii "data1"))
      (Term.ofBytes (ascii "read"))
    Exact allowing call arguments := by
  intro arguments call
  apply (arguments_identify (show call.stringArguments = some arguments from rfl) allowing).1.mpr
  right
  intro term member
  obtain ⟨text, inTexts, rfl⟩ := List.mem_map.mp member
  refine ⟨text, rfl, fun _ => ?_⟩
  revert text
  decide

/-- A rule added for a binary is the rule that an atom asks for. -/
theorem binary_and_atom_collide :
    let obj := Term.ofBytes (ascii "data1")
    let act := Term.ofBytes (ascii "read")
    let sub := Term.binary (ascii "alice")
    let asker := Term.atom (ascii "bob")
    sub ≠ asker ∧ ¬ Exact allowing (.addPolicy sub obj act) [sub, obj, act] ∧
      handed allowing (.addPolicy sub obj act) = handed allowing (.enforce asker obj act) := by
  intro obj act sub asker
  refine ⟨by decide, ?_, by decide⟩
  have takes : (Call.addPolicy sub obj act).stringArguments = some [sub, obj, act] := rfl
  rw [exact_iff takes]
  rintro (missing | readable)
  · cases missing
  · obtain ⟨text, same, _⟩ := readable sub List.mem_cons_self
    have reads := congrArg Term.charlist same
    rw [charlist_ofBytes] at reads
    cases reads

end Casbinex.Nif
