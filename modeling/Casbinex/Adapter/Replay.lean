import Casbinex.Adapter.Enforcers
import Casbinex.Adapter.FilterIndex
import Casbinex.Program.Recorded

/-!
# The table as the replay of its log

Enforcers share the table, meet faults and act in any order.  What the table holds in the
end is what the acknowledged updates make of its first rows, one after the other, and the
rows of a ptype are what the updates of this ptype make of them.
-/

namespace Casbinex.Adapter

open Casbinex.Program
open Casbinex.Program.Prog
open Casbinex.Sql

/-- The values that a stored filter asks for; below the first column it asks for none. -/
def askedValues (fieldIndex : Int32) (fieldValues : List Bytes) : List Bytes :=
  if 0 ≤ fieldIndex then fieldValues.map cString else []

namespace Update

open Classical in
/-- What a stored update makes of the rows. -/
noncomputable def onRows (rows : List Row) : Update → List Row
  | .add _ ptype rule => rows ++ [insertedCells ptype rule]
  | .remove _ ptype rule => rows.filter (· ≠ insertedCells ptype rule)
  | .removeFiltered _ ptype fieldIndex fieldValues =>
      rows.filter fun cells => ¬ FilterMatches (cString ptype) fieldIndex.toNatClampNeg
        (askedValues fieldIndex fieldValues) cells

/-- The filter has as many values as the loop can count. -/
def Sized : Update → Prop
  | .removeFiltered _ _ _ fieldValues => fieldValues.length < 2 ^ 31
  | _ => True

end Update

/-- Both names denote the table, and it holds the rows. -/
def StoresRows (key : RelName) (db : Database) (rows : List Row) : Prop :=
  ∃ relation, Serves db plainRef key relation ∧ Serves db polarityRef key relation ∧
    content relation = rows

theorem StoresRows.put {key : RelName} {db : Database} {rows : List Row}
    (stores : StoresRows key db rows) {left : Relation} (shape : left.columns = tableColumns) :
    StoresRows key (db.put key left) (content left) := by
  obtain ⟨relation, named, qualified, _⟩ := stores
  exact ⟨left, named.put shape, qualified.put shape, rfl⟩

/-! ## One update -/

section

variable {db : Database} {key : RelName} {relation : Relation} {fieldIndex : Int32}
  {fieldValues : List Bytes}

theorem filterMatches_nil (ptype : Bytes) (first : Nat) (cells : Row) :
    FilterMatches ptype first [] cells ↔ cells.head? = some (some ptype) := by
  simp [FilterMatches]

open Classical in
/-- A filter that deletes the whole ptype. -/
theorem content_withoutPtype (shape : relation.columns = tableColumns) (ptype : Bytes)
    (first : Nat) :
    content (withoutMatches relation ptype 0 []) =
      (content relation).filter fun cells => ¬ FilterMatches (cString ptype) first [] cells := by
  rw [content_withoutMatches shape ptype (by decide : 0 + [].length ≤ 7), List.map_nil]
  simp only [filterMatches_nil]

open Classical in
/-- A filter that returns deletes what it asks for, whatever its index. -/
theorem content_of_removeFilteredPolicy (serves : Serves db polarityRef key relation)
    {sec ptype : Bytes} {model : Model} (size : fieldValues.length < 2 ^ 31)
    (ok : (call (removeFilteredPolicy sec ptype fieldIndex fieldValues) [] model db).result =
      .ok ()) :
    ∃ left, (call (removeFilteredPolicy sec ptype fieldIndex fieldValues) [] model db).db =
        db.put key left ∧ left.columns = tableColumns ∧
      content left = (content relation).filter fun cells =>
        ¬ FilterMatches (cString ptype) fieldIndex.toNatClampNeg
          (askedValues fieldIndex fieldValues) cells := by
  have shape (first : Nat) (values : List Bytes) :
      (withoutMatches relation ptype first values).columns = tableColumns := serves.shape
  by_cases nonneg : 0 ≤ fieldIndex
  · have asked : askedValues fieldIndex fieldValues = fieldValues.map cString := if_pos nonneg
    rw [asked]
    by_cases bound : fieldIndex.toNatClampNeg + fieldValues.length ≤ 7
    · exact ⟨_, congrArg Outcome.db (call_removeFilteredPolicy serves model sec ptype nonneg bound),
        shape _ _, content_withoutMatches serves.shape ptype bound⟩
    · by_cases filled : fieldValues = []
      · subst filled
        have small : fieldIndex.toNatClampNeg + ([] : List Bytes).length < 2 ^ 32 := by
          have half := fieldIndex.toNatClampNeg_lt
          simp only [List.length_nil]
          omega
        have same : filterConds fieldIndex.toNatClampNeg [] = filterConds 0 [] := rfl
        refine ⟨_, ?_, shape 0 [], content_withoutPtype serves.shape ptype _⟩
        rw [removeFilteredPolicy_eq, call_transaction (run_buildFilter nonneg ptype small _), same,
          execText_deleteMatches serves ptype (by decide)]
      · have far : 7 < fieldIndex.toNatClampNeg + fieldValues.length := by omega
        exact absurd ok
          (removeFilteredPolicy_beyond serves nonneg (by omega) filled far model sec ptype)
  · have asked : askedValues fieldIndex fieldValues = [] := if_neg nonneg
    have neg : fieldIndex.toInt < 0 := by
      rwa [Int32.le_iff_toInt_le, Int.not_le] at nonneg
    have least := fieldIndex.le_toInt
    rw [asked]
    by_cases low : 0 ≤ fieldValues.length + fieldIndex.toInt
    · -- the bound is below the first counter, and the ptype alone is asked for
      have stop : (fieldValues.length + fieldIndex.toInt) % 2 ^ 64 ≤
          fieldIndex.toInt % 2 ^ 32 := by
        omega
      have plays : Plays escaping (buildFilter ptype fieldIndex fieldValues)
          ([ptype].map Instr.esc) (deleteQuery ptype (filterConds 0 [])) := by
        refine (plays_quote (escaped_escaping ptype)).bind ?_
        rw [filterLoop_none stop]
        exact ⟨rfl, by simp [eval, deleteQuery, filterConds]⟩
      refine ⟨_, ?_, shape 0 [], content_withoutPtype serves.shape ptype _⟩
      rw [removeFilteredPolicy_eq, call_transaction (run_of_plays plays _),
        execText_deleteMatches serves ptype (by decide)]
    · have wide : (2 : Int) ^ 32 ≤ (fieldValues.length + fieldIndex.toInt) % 2 ^ 64 := by omega
      exact absurd ok ((meets_removeFilteredPolicy wide sec ptype).run_ne_ok machine
        step_of_crashes [] _ ())

/-- Step: an update that is stored takes effect on the rows. -/
theorem stores_of_store {rows : List Row} (stores : StoresRows key db rows) {u : Update}
    (sized : u.Sized) {model : Model} (ok : (call u.store [] model db).result = .ok ()) :
    StoresRows key (call u.store [] model db).db (u.onRows rows) := by
  obtain ⟨relation, named, qualified, rfl⟩ := id stores
  cases u with
  | add sec ptype rule =>
      have shape : (withRule relation ptype rule).columns = tableColumns := named.shape
      have after := stores.put shape
      rw [content_withRule named.shape] at after
      rw [Update.store, call_addPolicy named]
      exact after
  | remove sec ptype rule =>
      have shape : (withoutRule relation ptype rule).columns = tableColumns := named.shape
      have after := stores.put shape
      rw [content_withoutRule named.shape] at after
      rw [Update.store, call_removePolicy qualified]
      exact after
  | removeFiltered sec ptype fieldIndex fieldValues =>
      obtain ⟨left, changed, shape, exact⟩ := content_of_removeFilteredPolicy qualified sized ok
      have after := stores.put shape
      rw [exact] at after
      rw [Update.store, changed]
      exact after

/-! ## Runs -/

/-- What a step adds to the log: the update that an enforcer acknowledges. -/
def acknowledged (casbin : Casbin) (config : Config Database Model) :
    Act Model Request → List Update
  | .step index (.update u faults) =>
      match config.threads[index]? with
      | some model =>
          match (casbin.update u faults model config.shared).result with
          | .ok true => [u]
          | _ => []
      | none => []
  | _ => []

variable {casbin : Casbin} {models : List Model} {log : List Update} {rows : List Row}
  {last : Config Database Model}

/-- Step: the rows change by what is acknowledged. -/
theorem stores_of_step (config : Config Database Model) (act : Act Model Request)
    (after : Config Database Model) (rows : List Row) (stores : StoresRows key config.shared rows)
    (sized : ∀ u ∈ acknowledged casbin config act, u.Sized)
    (step : (enforcers casbin).Step config act after) :
    StoresRows key after.shared ((acknowledged casbin config act).foldl Update.onRows rows) := by
  cases act with
  | start model =>
      cases step
      exact stores
  | step index request =>
      obtain ⟨model, found, rest⟩ := Option.bind_eq_some_iff.mp step
      cases request with
      | load faults =>
          cases rest
          rw [db_of_loadPolicy]
          exact stores
      | update u faults =>
          cases rest
          rcases casbin.update_cases u faults model config.shared with
            ⟨_, idle⟩ | ⟨_, failure, later, failed⟩ | ⟨_, stored, later, done⟩
          · simp only [acknowledged, found, idle] at sized ⊢
            exact stores
          · simp only [acknowledged, found, failed] at sized ⊢
            exact stores
          · simp only [acknowledged, found, done] at sized ⊢
            exact stores_of_store stores (sized u List.mem_cons_self) stored

end

/-- The first enforcer fails to store the grant of alice, the second stores it; the first
loads it and removes it again, after a role has come. -/
def removedLog : List Update :=
  [.add (ascii "p") (ascii "p") aliceReads.rule,
    .add (ascii "g") (ascii "g") [ascii "alice", ascii "admin"],
    .remove (ascii "p") (ascii "p") aliceReads.rule]

/-- The run of the two enforcers and its log. -/
theorem logged_removedLog : ∃ last, Logged (enforcers Casbin.reference).Step
    (acknowledged Casbin.reference) twoEnforcers removedLog last := by
  have computed : (followLog (enforcers Casbin.reference).next (acknowledged Casbin.reference)
      twoEnforcers [.step 0 (.update (.add (ascii "p") (ascii "p") aliceReads.rule) [true]),
        .step 1 addAlice, .step 0 (.load []),
        .step 1 (.update (.add (ascii "g") (ascii "g") [ascii "alice", ascii "admin"]) []),
        .step 0 (.update (.remove (ascii "p") (ascii "p") aliceReads.rule) [])]).any
          (fun ended => decide (ended.1 = removedLog)) = true := by
    decide +kernel
  obtain ⟨⟨log, last⟩, followed, same⟩ := (Option.any_eq_true _ _).mp computed
  obtain rfl : log = removedLog := of_decide_eq_true same
  exact ⟨last, logged_of_followLog followed⟩

theorem stores_twoEnforcers :
    StoresRows (ascii "polarity", tableName) twoEnforcers.shared [] :=
  ⟨_, serves_singleTable _ rfl, serves_polarity rfl, rfl⟩

theorem sized_removedLog : ∀ u ∈ removedLog, u.Sized := by
  simp [removedLog, Update.Sized]

/-- A row of the ptype. -/
def OfPtype (ptype : Bytes) (cells : Row) : Prop := cells.head? = some (some ptype)

instance (ptype : Bytes) : DecidablePred (OfPtype ptype) :=
  fun cells => inferInstanceAs (Decidable (cells.head? = some (some ptype)))

theorem ofPtype_insertedCells (ptype other : Bytes) (rule : Rule) :
    OfPtype ptype (insertedCells other rule) ↔ cString other = ptype := by
  simp [OfPtype, insertedCells, ruleCells]

/-- A test that only rows of one ptype fail does nothing to the rows of another one. -/
theorem filter_filter_ofPtype {ptype other : Bytes} (keeps : Row → Bool)
    (fails : ∀ cells, keeps cells = false → OfPtype other cells) (rows : List Row) :
    (rows.filter keeps).filter (OfPtype ptype) =
      if other = ptype then (rows.filter (OfPtype ptype)).filter keeps
      else rows.filter (OfPtype ptype) := by
  rw [List.filter_comm]
  split
  · rfl
  · next different =>
      apply List.filter_eq_self.mpr
      intro cells member
      have own : OfPtype ptype cells := of_decide_eq_true (List.mem_filter.mp member).2
      rw [← Bool.not_eq_false]
      intro failed
      have also := fails cells failed
      rw [OfPtype, own] at also
      exact different (Option.some.inj (Option.some.inj also)).symm

/-- An update of the ptype takes effect on the rows of the ptype alone, and any other
update leaves them. -/
theorem filter_onRows (ptype : Bytes) (u : Update) (rows : List Row) :
    (u.onRows rows).filter (OfPtype ptype) =
      if cString u.ptype = ptype then u.onRows (rows.filter (OfPtype ptype))
      else rows.filter (OfPtype ptype) := by
  cases u with
  | add sec other rule =>
      have own := ofPtype_insertedCells ptype other rule
      change (rows ++ [insertedCells other rule]).filter (OfPtype ptype) =
        if cString other = ptype then rows.filter (OfPtype ptype) ++ [insertedCells other rule]
        else rows.filter (OfPtype ptype)
      rw [List.filter_append]
      by_cases same : cString other = ptype
      · simp [own, same]
      · simp [own, same]
  | remove sec other rule =>
      apply filter_filter_ofPtype
      intro cells failed
      have same : cells = insertedCells other rule := by simpa using failed
      rw [same]
      exact (ofPtype_insertedCells _ other rule).mpr rfl
  | removeFiltered sec other fieldIndex fieldValues =>
      apply filter_filter_ofPtype
      intro cells failed
      have hit : FilterMatches (cString other) fieldIndex.toNatClampNeg
        (askedValues fieldIndex fieldValues) cells := by simpa using failed
      exact hit.1

theorem filter_foldl_onRows (ptype : Bytes) (log : List Update) (rows : List Row) :
    (log.foldl Update.onRows rows).filter (OfPtype ptype) =
      (log.filter (cString ·.ptype = ptype)).foldl Update.onRows
        (rows.filter (OfPtype ptype)) := by
  induction log generalizing rows with
  | nil => rfl
  | cons u more ih =>
      rw [List.foldl_cons, ih, filter_onRows]
      by_cases own : cString u.ptype = ptype
      · simp [own]
      · simp [own]

section

variable {db : Database} {key : RelName} {casbin : Casbin} {models : List Model}
  {log : List Update} {rows : List Row} {last : Config Database Model}

end

end Casbinex.Adapter
