import Casbinex.Sql.Database

/-!
# What a statement leaves alone

A statement changes relations of one name at most.  There it deletes rows, adds rows
behind those that are left, and adds columns, which are NULL in the rows that are left.
-/

namespace Casbinex.Sql

/-- The later relation has the columns of the first one, and the extra one perhaps.  Some of
the rows are left, in their order and as they were; the others are new and stand behind
them. -/
def Follows (extra : Name) (first later : Relation) : Prop :=
  ∃ (more : List Column) (kept added : List Row),
    (more = [] ∨ more = [⟨extra, false⟩] ∧ first.knows extra = false) ∧
      later.columns = first.columns ++ more ∧ kept.Sublist first.rows ∧
      later.rows = kept.map (· ++ List.replicate more.length none) ++ added

namespace Follows

variable {extra : Name} {first middle later : Relation}

theorem of_rows (columns : later.columns = first.columns) {kept added : List Row}
    (sublist : kept.Sublist first.rows) (rows : later.rows = kept ++ added) :
    Follows extra first later := by
  refine ⟨[], kept, added, Or.inl rfl, ?_, sublist, ?_⟩
  · rw [columns, List.append_nil]
  · rw [rows]
    simp

theorem refl (relation : Relation) : Follows extra relation relation :=
  of_rows rfl (List.Sublist.refl _) (List.append_nil _).symm

theorem trans (early : Follows extra first middle) (late : Follows extra middle later) :
    Follows extra first later := by
  obtain ⟨more, kept, added, few, columns, sublist, rows⟩ := early
  obtain ⟨again, left, fresh, fewer, wider, below, after⟩ := late
  have gained : more ++ again = [] ∨
      more ++ again = [⟨extra, false⟩] ∧ first.knows extra = false := by
    rcases few with rfl | ⟨rfl, absent⟩
    · have same : middle.knows extra = first.knows extra := by
        simp only [Relation.knows, Relation.names, columns, List.append_nil]
      exact same ▸ fewer
    · rcases fewer with rfl | ⟨rfl, unknown⟩
      · exact Or.inr ⟨rfl, absent⟩
      · -- the column is there already
        have known : middle.knows extra = true := by
          simp [Relation.knows, Relation.names, columns]
        rw [known] at unknown
        cases unknown
  rw [rows] at below
  obtain ⟨old, new, rfl, inKept, _⟩ := List.sublist_append_iff.mp below
  obtain ⟨still, inFirst, rfl⟩ := List.sublist_map_iff.mp inKept
  refine ⟨more ++ again, still,
    new.map (· ++ List.replicate again.length none) ++ fresh, gained, ?_,
    inFirst.trans sublist, ?_⟩
  · rw [wider, columns, List.append_assoc]
  · rw [after, List.map_append, List.map_map, List.append_assoc]
    simp only [List.length_append, List.replicate_add, Function.comp_def, List.append_assoc]

end Follows

namespace Relation

variable {extra : Name} {relation later : Relation}

theorem follows_restrict (relation : Relation) (keep : Row → Bool) :
    Follows extra relation (relation.restrict keep) :=
  .of_rows rfl List.filter_sublist (List.append_nil _).symm

theorem follows_insert {columns : List Name} {values : List Cell}
    (ok : relation.insert columns values = .ok later) : Follows extra relation later := by
  unfold insert at ok
  split at ok
  · split at ok
    · cases ok
      exact .of_rows rfl (List.Sublist.refl _) rfl
    · cases ok
  · cases ok

theorem follows_delete {conds : List Cond} (ok : relation.delete conds = .ok later) :
    Follows extra relation later := by
  obtain ⟨keep, rfl⟩ := delete_cases ok
  exact relation.follows_restrict keep

theorem follows_addColumn (ok : relation.addColumn extra = .ok later) :
    Follows extra relation later := by
  unfold addColumn at ok
  split at ok
  · cases ok
  · next absent =>
      cases ok
      exact ⟨[⟨extra, false⟩], relation.rows, [], Or.inr ⟨rfl, Bool.eq_false_iff.mpr absent⟩,
        rfl, List.Sublist.refl _, by simp⟩

end Relation

theorem Session.follows_appendLines {extra : Name} {columns : List Name} {lines : List (List Cell)}
    {relation later : Relation} (ok : appendLines columns lines relation = .ok later) :
    Follows extra relation later := by
  induction lines generalizing relation with
  | nil =>
      cases ok
      exact .refl _
  | cons line more ih =>
      unfold appendLines at ok
      cases inserted : relation.insert columns line with
      | error error =>
          rw [inserted] at ok
          cases ok
      | ok middle =>
          rw [inserted] at ok
          exact (Relation.follows_insert inserted).trans (ih ok)

/-! ## Databases -/

/-- What a program may write: relations of one name.  It creates them with these columns,
and the extra column is the only one that it may add. -/
structure Footprint where
  name : Name
  columns : List Column
  extra : Name

/-- Nothing outside the footprint is changed.  The relations inside follow on from what they
were, and those that are created begin empty. -/
structure Confined (print : Footprint) (first later : Database) : Prop where
  schemas : later.schemas = first.schemas
  searchPath : later.searchPath = first.searchPath
  others : ∀ key : RelName, key.2 ≠ print.name → later.table key = first.table key
  kept : ∀ key relation, first.table key = some relation →
    ∃ after, later.table key = some after ∧ Follows print.extra relation after
  created : ∀ key after, first.table key = none → later.table key = some after →
    Follows print.extra (Relation.empty print.columns) after

namespace Confined

variable {print : Footprint} {first middle later db changed : Database}

theorem refl (db : Database) : Confined print db db where
  schemas := rfl
  searchPath := rfl
  others _ _ := rfl
  kept _ relation found := ⟨relation, found, .refl relation⟩
  created _ _ absent found := by
    rw [absent] at found
    cases found

theorem trans (early : Confined print first middle)
    (late : Confined print middle later) : Confined print first later where
  schemas := late.schemas.trans early.schemas
  searchPath := late.searchPath.trans early.searchPath
  others key other := (late.others key other).trans (early.others key other)
  kept key relation found := by
    obtain ⟨between, there, follows⟩ := early.kept key relation found
    obtain ⟨after, still, again⟩ := late.kept key between there
    exact ⟨after, still, follows.trans again⟩
  created key after absent found := by
    cases between : middle.table key with
    | none => exact late.created key after between found
    | some relation =>
        obtain ⟨last, still, follows⟩ := late.kept key relation between
        obtain rfl := Option.some.inj (still.symm.trans found)
        exact (early.created key relation absent between).trans follows

/-- Putting a relation under the name. -/
theorem put {key : RelName} {relation : Relation} (named : key.2 = print.name)
    (follows : ∀ before, db.table key = some before → Follows print.extra before relation)
    (begins : db.table key = none → Follows print.extra (Relation.empty print.columns) relation) :
    Confined print db (db.put key relation) where
  schemas := rfl
  searchPath := rfl
  others other apart := Database.table_put_of_ne _ _ fun same => apart (same ▸ named)
  kept other before found := by
    by_cases same : other = key
    · subst same
      exact ⟨relation, Database.table_put_self _ _ _, follows before found⟩
    · exact ⟨before, (Database.table_put_of_ne _ _ same).trans found, .refl before⟩
  created other after absent found := by
    by_cases same : other = key
    · subst same
      rw [Database.table_put_self, Option.some.injEq] at found
      exact found ▸ begins absent
    · rw [Database.table_put_of_ne _ _ same, absent] at found
      cases found

end Confined

namespace Database

variable {print : Footprint} {db changed : Database} {ref : TableRef}

theorem snd_of_resolve {key : RelName} (resolved : db.resolve ref = some key) :
    key.2 = ref.name := by
  unfold resolve at resolved
  split at resolved
  · split at resolved
    · cases resolved
      rfl
    · cases resolved
  · obtain ⟨schema, _, rfl⟩ := Option.map_eq_some_iff.mp resolved
    rfl

theorem confined_update {change : Relation → Except SqlError Relation}
    (named : ref.name = print.name)
    (follows : ∀ relation later, change relation = .ok later →
      Follows print.extra relation later)
    (ok : db.update ref change = .ok changed) : Confined print db changed := by
  obtain ⟨key, relation, after, resolved, stored, applied, rfl⟩ := update_cases ok
  refine .put ((snd_of_resolve resolved).trans named) (fun before found => ?_) fun absent => ?_
  · obtain rfl := Option.some.inj (stored.symm.trans found)
    exact follows relation after applied
  · rw [stored] at absent
    cases absent

end Database

/-- The statement writes inside the footprint at most. -/
def Statement.Writes (print : Footprint) : Statement → Prop
  | .select _ _ _ => True
  | .insert ref _ _ => ref.name = print.name
  | .delete ref _ => ref.name = print.name
  | .truncate ref => ref.name = print.name
  | .createTable ref columns => ref.name = print.name ∧ columns = print.columns
  | .addColumn ref column => ref.name = print.name ∧ column = print.extra

namespace Database

variable {print : Footprint} {db changed : Database} {rows : List Row}

/-- A query changes nothing. -/
theorem read_only {selected : Except SqlError (List Row)}
    (ok : (selected >>= fun rows => (pure (rows, db) : Except SqlError (List Row × Database))) =
      .ok (rows, changed)) : changed = db := by
  cases selected with
  | error error => cases ok
  | ok rows =>
      cases ok
      rfl

/-- Step: a statement is confined to what it writes. -/
theorem confined_exec {statement : Statement} (writes : statement.Writes print)
    (ok : db.exec statement = .ok (rows, changed)) : Confined print db changed := by
  have updated {ref : TableRef} {change : Relation → Except SqlError Relation}
      (named : ref.name = print.name)
      (follows : ∀ relation later, change relation = .ok later →
          Follows print.extra relation later)
      (done : (db.update ref change >>= fun changed =>
        (pure ([], changed) : Except SqlError (List Row × Database))) = .ok (rows, changed)) :
      Confined print db changed := by
    cases ended : db.update ref change with
    | error error =>
        rw [ended] at done
        cases done
    | ok after =>
        rw [ended] at done
        cases done
        exact confined_update named follows ended
  cases statement with
  | select asked ref conds =>
      have same : changed = db := by
        simp only [exec] at ok
        split at ok
        · exact read_only ok
        · cases found : db.fetch ref with
          | error error =>
              rw [found] at ok
              cases ok
          | ok pair =>
              rw [found] at ok
              exact read_only ok
      rw [same]
      exact .refl db
  | insert ref asked values =>
      exact updated writes (fun _ _ done => Relation.follows_insert done) ok
  | delete ref conds => exact updated writes (fun _ _ done => Relation.follows_delete done) ok
  | truncate ref =>
      refine updated writes (fun relation later done => ?_) ok
      cases done
      exact relation.follows_restrict _
  | createTable ref created =>
      obtain ⟨named, rfl⟩ := writes
      simp only [exec] at ok
      split at ok
      · cases ok
      · next schema _ =>
          split at ok
          · cases ok
            exact .refl _
          · next absent =>
              cases ok
              refine .put named (fun before found => ?_) fun _ => .refl _
              exact absurd ((db.mem_relations_iff _).mpr ⟨before, found⟩) absent
  | addColumn ref column =>
      obtain ⟨named, rfl⟩ := writes
      exact updated named (fun _ _ done => Relation.follows_addColumn done) ok

/-- A text is confined if whatever it reads as is. -/
theorem confined_execText {query : Bytes}
    (writes : ∀ statement ∈ parse (cString query), statement.Writes print)
    (ok : db.execText query = .ok (rows, changed)) : Confined print db changed := by
  unfold execText at ok
  split at ok
  · cases ok
  · next statement parsed => exact confined_exec (writes statement parsed) ok

end Database

/-! ## Sessions -/

/-- What is committed and what is being done are confined. -/
structure Session.Confined (print : Footprint) (first : Database)
    (session : Session) : Prop where
  db : Sql.Confined print first session.db
  work : ∀ work ∈ session.work, Sql.Confined print first work
  stream : ∀ stream ∈ session.stream, stream.ref.name = print.name

namespace Session.Confined

variable {print : Footprint} {first : Database} {session after : Session}

theorem idle {db : Database} (confined : Sql.Confined print first db) :
    Session.Confined print first (Session.idle db) where
  db := confined
  work _ absent := by cases absent
  stream _ absent := by cases absent

theorem beginWork (confined : session.Confined print first)
    (done : session.beginWork = .ok after) : after.Confined print first := by
  cases done
  refine ⟨confined.db, fun work same => ?_, confined.stream⟩
  cases same
  exact confined.db

theorem exec (confined : session.Confined print first) {query : Bytes} {rows : List Row}
    (writes : ∀ statement ∈ parse (cString query), statement.Writes print)
    (done : session.exec query = .ok (rows, after)) : after.Confined print first := by
  unfold Session.exec at done
  split at done
  · cases done
  · next working =>
      split at done
      · cases done
      · next executed =>
          cases done
          refine ⟨confined.db, fun work same => ?_, confined.stream⟩
          cases same
          exact (confined.work _ working).trans (Database.confined_execText writes executed)

theorem openStream (confined : session.Confined print first) {ref : TableRef}
    {asked : List Name} (named : ref.name = print.name)
    (done : session.openStream ref asked = .ok after) : after.Confined print first := by
  unfold Session.openStream at done
  split at done
  · cases done
  · split at done
    · cases done
    · split at done
      · cases done
        refine ⟨confined.db, confined.work, fun stream same => ?_⟩
        cases same
        exact named
      · cases done

theorem write (confined : session.Confined print first) {line : List Cell}
    (done : session.write line = .ok after) : after.Confined print first := by
  unfold Session.write at done
  split at done
  · cases done
  · next stream opened =>
      cases done
      refine ⟨confined.db, confined.work, fun longer same => ?_⟩
      cases same
      exact confined.stream stream opened

theorem complete (confined : session.Confined print first)
    (done : session.complete = .ok after) : after.Confined print first := by
  unfold Session.complete at done
  split at done
  · next working opened =>
      split at done
      · cases done
      · next updated =>
          cases done
          refine ⟨confined.db, fun work same => ?_, fun stream absent => by cases absent⟩
          cases same
          exact (confined.work _ working).trans (Database.confined_update
            (confined.stream _ opened) (fun _ _ ok => follows_appendLines ok) updated)
  · cases done

theorem commit (confined : session.Confined print first)
    (done : session.commit = .ok after) : after.Confined print first := by
  unfold Session.commit at done
  split at done
  · cases done
  · next working =>
      cases done
      refine ⟨confined.work _ working, fun work absent => ?_, confined.stream⟩
      cases absent

theorem rollback (confined : session.Confined print first) :
    session.rollback.Confined print first :=
  idle confined.db

end Session.Confined

end Casbinex.Sql
