import Casbinex.Nif.Arguments
import Mathlib.Data.List.Forall2

/-!
# Listed rules as arguments

`VectorToList` ends a string at its first zero byte, `ListToString` reads a charlist
into a buffer with room for the terminator and takes the terminator off again.  On
strings without a zero byte the two undo each other, in both directions, for empty
strings and empty vectors as well.
-/

namespace Casbinex.Nif

open Casbinex.Program
open Casbinex.Program.Prog
open Casbinex.Sql

/-- No text holds a zero byte. -/
def Clean (texts : List Bytes) : Prop := ∀ text ∈ texts, (0 : UInt8) ∉ text

/-- Handed over as an argument, the term denotes the texts, and its items one each. -/
structure FeedsBack (term : Term) (texts : List Bytes) : Prop where
  vector : listToVector term = texts
  strings : ∃ items, term = .ofList items ∧ items.map listToString = texts

theorem vectorToList_eq {texts : List Bytes} (clean : Clean texts) :
    vectorToList texts = .ofList (texts.map Term.ofBytes) := by
  refine congrArg Term.ofList (List.map_congr_left fun text member => ?_)
  rw [cString_of_notMem (clean text member)]

theorem feedsBack_vectorToList {texts : List Bytes} (clean : Clean texts) :
    FeedsBack (vectorToList texts) texts := by
  rw [vectorToList_eq clean]
  refine ⟨listToVector_charlists texts, texts.map Term.ofBytes, rfl, ?_⟩
  rw [List.map_map]
  refine (List.map_congr_left fun text _ => ?_).trans (List.map_id texts)
  rw [Function.comp_apply, listToString_eq, charlist_ofBytes]
  rfl

/-- The inner lists denote the vectors, one by one. -/
theorem feedsBack_vectorsToList {input : List (List Bytes)}
    (clean : ∀ texts ∈ input, Clean texts) :
    ∃ inner, vectorsToList input = .ofList inner ∧ List.Forall₂ FeedsBack inner input := by
  refine ⟨input.map vectorToList, rfl, ?_⟩
  rw [List.forall₂_map_left_iff, List.forall₂_same]
  exact fun texts member => feedsBack_vectorToList (clean texts member)

/-! ## From terms to vectors and back -/

def InRange (values : List Int) : Prop := ∀ value ∈ values, 1 ≤ value ∧ value ≤ 255

/-- A list of integers 1 to 255 is the charlist of a text without a zero byte. -/
theorem charlist_of_inRange {values : List Int} (inRange : InRange values) :
    ∃ text, Term.ofList (values.map .int) = Term.ofBytes text ∧ (0 : UInt8) ∉ text := by
  induction values with
  | nil => exact ⟨[], rfl, List.not_mem_nil⟩
  | cons value more ih =>
      obtain ⟨lower, upper⟩ := inRange value List.mem_cons_self
      obtain ⟨text, same, clean⟩ := ih fun other member =>
        inRange other (List.mem_cons_of_mem value member)
      have byte : ((UInt8.ofNat value.toNat).toNat : Int) = value := by
        rw [UInt8.toNat_ofNat', Nat.mod_eq_of_lt (by omega)]
        omega
      refine ⟨UInt8.ofNat value.toNat :: text, ?_, ?_⟩
      · rw [List.map_cons, Term.ofList, same]
        exact congrArg (fun first => Term.cons (.int first) (Term.ofBytes text)) byte.symm
      · rw [List.mem_cons, not_or]
        refine ⟨fun zero => ?_, clean⟩
        rw [← zero] at byte
        change (0 : Int) = value at byte
        omega

theorem charlists_of_inRange {lists : List (List Int)}
    (inRange : ∀ values ∈ lists, InRange values) :
    ∃ texts, lists.map (fun values => Term.ofList (values.map .int)) = texts.map Term.ofBytes ∧
      Clean texts := by
  induction lists with
  | nil => exact ⟨[], rfl, fun text member => absurd member List.not_mem_nil⟩
  | cons values more ih =>
      obtain ⟨text, same, clean⟩ := charlist_of_inRange (inRange values List.mem_cons_self)
      obtain ⟨texts, others, cleans⟩ := ih fun other member =>
        inRange other (List.mem_cons_of_mem values member)
      refine ⟨text :: texts, ?_, List.forall_mem_cons.mpr ⟨clean, cleans⟩⟩
      rw [List.map_cons, List.map_cons, same, others]

theorem vectorToList_listToVector {lists : List (List Int)}
    (inRange : ∀ values ∈ lists, InRange values) {term : Term}
    (proper : term = .ofList (lists.map fun values => .ofList (values.map .int))) :
    vectorToList (listToVector term) = term := by
  obtain ⟨texts, same, clean⟩ := charlists_of_inRange inRange
  rw [proper, same, listToVector_charlists, vectorToList_eq clean]

/-! ## The entry points that list -/

/-- What the three entry points reply can be handed back: it denotes the strings that the
enforcer listed. -/
structure RepliesFeedBack (answers : (i : Instr) → i.Answer) : Prop where
  users : ∀ role listed, answers (.getUsersForRole (listToString role)) = .ok listed →
    Clean listed → ∃ term, eval answers (getUsersForRole role) = .term term ∧
      FeedsBack term listed
  roles : ∀ user listed, answers (.getRolesForUser (listToString user)) = .ok listed →
    Clean listed → ∃ term, eval answers (getRolesForUser user) = .term term ∧
      FeedsBack term listed
  filtered : ∀ fieldIndex resourceId index listed, enifGetInt fieldIndex = some index →
    answers (.getFilteredPolicy index (listToVector resourceId)) = .ok listed →
    (∀ rule ∈ listed, Clean rule) → ∃ inner,
      eval answers (getFilteredPolicy fieldIndex resourceId) = .term (.ofList inner) ∧
        List.Forall₂ FeedsBack inner listed

theorem eval_guarded {answers : (i : Instr) → i.Answer} (created : answers .created = true)
    (body : NifProg Reply) : eval answers (guarded body) = eval answers body := by
  change eval answers (if answers .created = true then body else return .mustCreate) = _
  rw [if_pos created]

theorem repliesFeedBack {answers : (i : Instr) → i.Answer} (created : answers .created = true) :
    RepliesFeedBack answers where
  users role listed answered clean := by
    refine ⟨vectorToList listed, ?_, feedsBack_vectorToList clean⟩
    rw [getUsersForRole, eval_guarded created]
    simp only [issue, perform_bind, eval, answered]
    rfl
  roles user listed answered clean := by
    refine ⟨vectorToList listed, ?_, feedsBack_vectorToList clean⟩
    rw [getRolesForUser, eval_guarded created]
    simp only [issue, perform_bind, eval, answered]
    rfl
  filtered fieldIndex resourceId index listed reads answered clean := by
    obtain ⟨inner, same, feeds⟩ := feedsBack_vectorsToList clean
    refine ⟨inner, ?_, feeds⟩
    rw [getFilteredPolicy, eval_guarded created, ← same]
    simp only [reads, issue, perform_bind, eval, answered]
    rfl

/-- Rules that are listed can be handed back unchanged: from vectors to terms and back, from
terms to vectors and back, and through every entry point that lists. -/
theorem listed_rules_feed_back :
    (∀ input : List (List Bytes), (∀ texts ∈ input, Clean texts) →
      ∃ inner, vectorsToList input = .ofList inner ∧ List.Forall₂ FeedsBack inner input) ∧
    (∀ (lists : List (List Int)) (term : Term), (∀ values ∈ lists, InRange values) →
      term = .ofList (lists.map fun values => .ofList (values.map .int)) →
      vectorToList (listToVector term) = term) ∧
    ∀ answers : (i : Instr) → i.Answer, answers .created = true → RepliesFeedBack answers :=
  ⟨fun _ clean => feedsBack_vectorsToList clean,
    fun _ _ inRange proper => vectorToList_listToVector inRange proper,
    fun _ created => repliesFeedBack created⟩

/-- A created enforcer that lists a rule with an empty field, and an empty rule. -/
def listing : (i : Instr) → i.Answer
  | .getFilteredPolicy _ _ => .ok [[ascii "alice", [], ascii "read"], []]
  | i => allowing i

theorem listed_rules_feed_back_alice :
    (∃ inner, vectorsToList [[ascii "alice", [], ascii "read"], []] = .ofList inner ∧
      List.Forall₂ FeedsBack inner [[ascii "alice", [], ascii "read"], []]) ∧
    vectorToList (listToVector (.ofList [.ofList [.int 1, .int 255], .nil])) =
      .ofList [.ofList [.int 1, .int 255], .nil] ∧
    ∃ inner, eval listing (getFilteredPolicy (.int 0) .nil) = .term (.ofList inner) ∧
      List.Forall₂ FeedsBack inner [[ascii "alice", [], ascii "read"], []] := by
  have clean : ∀ texts ∈ [[ascii "alice", [], ascii "read"], []], Clean texts := by
    unfold Clean
    decide
  have inRange : ∀ values ∈ [[(1 : Int), 255], []], InRange values := by
    unfold InRange
    decide
  obtain ⟨vectors, terms, replies⟩ := listed_rules_feed_back
  refine ⟨vectors _ clean, terms _ _ inRange rfl, ?_⟩
  exact (replies listing rfl).filtered _ _ 0 _ rfl rfl clean

end Casbinex.Nif
