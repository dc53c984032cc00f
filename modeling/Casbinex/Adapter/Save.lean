import Casbinex.Adapter.Mirror

/-!
# Saving a policy and loading it again

`SavePolicy` escapes every field before it hands it to a COPY stream, which
stores fields as they are.  The saved table therefore loads as the escaped
policy, which is the policy itself exactly when no field holds a quote.
-/

namespace Casbinex.Adapter

open Casbinex.Program
open Casbinex.Program.Prog
open Casbinex.Sql
open Casbinex.Sql.Lexer (doubleQuotes doubleQuotes_nil doubleQuotes_cons)

/-! ## Escaping -/

/-- What `esc` returns for a field. -/
def escaped (field : Bytes) : Bytes := doubleQuotes (cString field)

theorem doubleQuotes_append (first second : Bytes) :
    doubleQuotes (first ++ second) = doubleQuotes first ++ doubleQuotes second :=
  List.flatMap_append

theorem head?_doubleQuotes (field : Bytes) : (doubleQuotes field).head? = field.head? := by
  cases field with
  | nil => rfl
  | cons byte rest =>
      rw [doubleQuotes_cons]
      split
      · next quote => simp [quote]
      · rfl

theorem getLast?_doubleQuotes (field : Bytes) : (doubleQuotes field).getLast? = field.getLast? := by
  cases field using List.reverseRecOn with
  | nil => rfl
  | append_singleton rest byte =>
      rw [doubleQuotes_append, doubleQuotes_cons, doubleQuotes_nil, List.append_nil]
      split
      · next quote => simp [quote]
      · simp

theorem trim_doubleQuotes {field : Bytes} (trimmed : trim field = field) :
    trim (doubleQuotes field) = doubleQuotes field := by
  apply (strip_eq_self_iff _).mpr
  rw [head?_doubleQuotes, getLast?_doubleQuotes]
  exact (strip_eq_self_iff field).mp trimmed

/-- Escaping doubles the number of quotes. -/
theorem count_doubleQuotes (field : Bytes) :
    (doubleQuotes field).count 39 = 2 * field.count 39 := by
  induction field with
  | nil => rfl
  | cons byte rest ih =>
      rw [doubleQuotes_cons, List.count_append, ih]
      split
      · next quote =>
          subst quote
          simp only [List.count_cons_self, List.count_nil]
          omega
      · next plain => simp [plain]

theorem doubleQuotes_of_notMem {field : Bytes} (plain : (39 : UInt8) ∉ field) :
    doubleQuotes field = field := by
  induction field with
  | nil => rfl
  | cons byte rest ih =>
      rw [List.mem_cons, not_or] at plain
      rw [doubleQuotes_cons, if_neg (Ne.symm plain.1), ih plain.2]
      rfl

theorem doubleQuotes_flatten (fields : List Bytes) :
    doubleQuotes fields.flatten = (fields.map doubleQuotes).flatten := by
  induction fields with
  | nil => rfl
  | cons field more ih =>
      rw [List.flatten_cons, doubleQuotes_append, ih, List.map_cons, List.flatten_cons]

/-- The number of quotes in a policy. -/
def quotes (rules : List Rule) : Nat := rules.flatten.flatten.count 39

theorem quotes_perm {rules others : List Rule} (same : rules.Perm others) :
    quotes rules = quotes others :=
  same.flatten.flatten.count_eq 39

theorem quotes_doubleQuotes (rules : List Rule) :
    quotes (rules.map (List.map doubleQuotes)) = 2 * quotes rules := by
  unfold quotes
  rw [← List.map_flatten, ← doubleQuotes_flatten, count_doubleQuotes]

theorem quotes_eq_zero_iff (rules : List Rule) :
    quotes rules = 0 ↔ ∀ rule ∈ rules, ∀ field ∈ rule, (39 : UInt8) ∉ field := by
  unfold quotes
  rw [List.count_eq_zero]
  constructor
  · intro none rule inRules field inRule quote
    exact none (List.mem_flatten_of_mem (List.mem_flatten_of_mem inRules inRule) quote)
  · intro none member
    obtain ⟨field, inFields, quote⟩ := List.mem_flatten.mp member
    obtain ⟨rule, inRules, inRule⟩ := List.mem_flatten.mp inFields
    exact none rule inRules field inRule quote

/-! ## The rows that are streamed -/

/-- The line of one rule. -/
def savedCells (ptype : Bytes) (rule : Rule) : Row := ruleCells ptype (rule.map escaped)

def assertionLines (entries : List (Σ _ : Bytes, List Rule)) : List Row :=
  entries.flatMap fun entry => entry.2.map (savedCells entry.1)

/-- The lines of one section. -/
def sectionLines (model : Model) (sec : Bytes) : List Row :=
  assertionLines ((model.lookup sec).getD ∅).entries

/-- A session that has streamed some lines. -/
def streaming (db work : Database) (lines : List Row) : Session :=
  ⟨db, some work, some ⟨⟨none, ascii "casbin_rule"⟩, streamColumns, lines⟩⟩

theorem run_saveField (rule : Rule) (row : Row) (ii : Nat) (store : Store) :
    run machine (saveField rule row ii) [] store =
      ⟨.ok (row ++ [(rule.map escaped)[ii]?]), store, []⟩ := by
  unfold saveField
  rw [List.getElem?_map]
  cases rule[ii]? with
  | none => rfl
  | some field => rfl

theorem run_saveRule (ptype : Bytes) (rule : Rule) (model : Model) (db work : Database)
    (lines : List Row) :
    run machine (saveRule ptype rule) [] ⟨model, streaming db work lines⟩ =
      ⟨.ok (), ⟨model, streaming db work (lines ++ [savedCells ptype rule])⟩, []⟩ := by
  have row : run machine ((List.range 7).foldlM (saveField rule) [some ptype]) []
        ⟨model, streaming db work lines⟩ =
      ⟨.ok (savedCells ptype rule), ⟨model, streaming db work lines⟩, []⟩ := by
    have turn (row : Row) (ii : Nat) := run_saveField rule row ii ⟨model, streaming db work lines⟩
    rw [run_foldlM_of_yields machine turn]
    rfl
  unfold saveRule
  rw [run_bind_of_yields machine row]
  rfl

theorem run_saveRules (ptype : Bytes) (rules : List Rule) (model : Model) (db work : Database)
    (lines : List Row) :
    run machine (saveRules ptype rules) [] ⟨model, streaming db work lines⟩ =
      ⟨.ok (), ⟨model, streaming db work (lines ++ rules.map (savedCells ptype))⟩, []⟩ := by
  induction rules generalizing lines with
  | nil => simp [saveRules]
  | cons rule more ih =>
      rw [saveRules, run_bind, run_saveRule]
      simp [ih]

theorem run_saveAssertions (entries : List (Σ _ : Bytes, List Rule)) (model : Model)
    (db work : Database) (lines : List Row) :
    run machine (saveAssertions entries) [] ⟨model, streaming db work lines⟩ =
      ⟨.ok (), ⟨model, streaming db work (lines ++ assertionLines entries)⟩, []⟩ := by
  induction entries generalizing lines with
  | nil => simp [saveAssertions, assertionLines]
  | cons entry more ih =>
      rw [saveAssertions, run_bind, run_saveRules]
      simp [ih, assertionLines]

theorem sectionLines_touch (model : Model) (sec s : Bytes) :
    sectionLines (model.touch sec) s = sectionLines model s := by
  have same : ((model.touch sec).lookup s).getD ∅ = (model.lookup s).getD ∅ := by
    unfold Model.touch
    split
    · rfl
    · next absent =>
        by_cases own : s = sec
        · subst own
          rw [AList.lookup_insert, AList.lookup_eq_none.mpr absent]
          rfl
        · rw [AList.lookup_insert_ne own]
  unfold sectionLines
  rw [same]

theorem run_saveSection (sec : Bytes) (model : Model) (db work : Database) (lines : List Row) :
    run machine (saveSection sec) [] ⟨model, streaming db work lines⟩ =
      ⟨.ok (), ⟨model.touch sec, streaming db work (lines ++ sectionLines model sec)⟩, []⟩ := by
  have touched : run machine (saveSection sec) [] ⟨model, streaming db work lines⟩ =
      run machine (saveAssertions (((model.touch sec).lookup sec).getD ∅).entries) []
        ⟨model.touch sec, streaming db work lines⟩ := rfl
  rw [touched, run_saveAssertions, ← sectionLines_touch model sec sec]
  rfl

/-! ## The table after a save -/

theorem newRow_cells {relation : Relation} (shape : relation.columns = tableColumns) {line : Row}
    (eight : line.length = 8) :
    (relation.newRow streamColumns line).tail = line := by
  rw [Relation.newRow, shape]
  -- only a line of eight cells is left
  rcases line with _ | ⟨_, _ | ⟨_, _ | ⟨_, _ | ⟨_, _ | ⟨_, _ | ⟨_, _ | ⟨_, _ | ⟨_, _ | _⟩⟩⟩⟩⟩⟩⟩⟩
  case cons.cons.cons.cons.cons.cons.cons.cons.nil => rfl
  all_goals simp at eight

theorem knows_streamColumns {relation : Relation} (shape : relation.columns = tableColumns) :
    streamColumns.all relation.knows = true := by
  unfold Relation.knows
  rw [names_of_columns shape]
  decide

/-- Completing the stream appends its lines. -/
theorem appendLines_content {lines : List Row} (eight : ∀ line ∈ lines, line.length = 8)
    {relation : Relation} (shape : relation.columns = tableColumns) :
    ∃ filled, Session.appendLines streamColumns lines relation = .ok filled ∧
      filled.columns = tableColumns ∧ content filled = content relation ++ lines := by
  induction lines generalizing relation with
  | nil => exact ⟨relation, rfl, shape, by simp⟩
  | cons line more ih =>
      obtain ⟨first, rest⟩ := List.forall_mem_cons.mp eight
      have arity : streamColumns.length = line.length := first.symm
      have inserted : relation.insert streamColumns line =
          .ok (relation.append streamColumns line) := by
        simp only [Relation.insert, knows_streamColumns shape, arity, if_true]
      have longer : (relation.append streamColumns line).columns = tableColumns := shape
      obtain ⟨filled, ok, columns, stored⟩ := ih rest longer
      refine ⟨filled, ?_, columns, ?_⟩
      · rw [Session.appendLines, inserted]
        exact ok
      · rw [stored]
        simp [content, newRow_cells shape first]

theorem length_savedCells (ptype : Bytes) (rule : Rule) : (savedCells ptype rule).length = 8 := by
  simp [savedCells, ruleCells]

theorem eight_sectionLines (model : Model) (sec : Bytes) :
    ∀ line ∈ sectionLines model sec, line.length = 8 := by
  intro line member
  obtain ⟨entry, _, inRules⟩ := List.mem_flatMap.mp member
  obtain ⟨rule, _, rfl⟩ := List.mem_map.mp inRules
  exact length_savedCells entry.1 rule

section Call

variable {db work : Database} {key : RelName} {relation filled : Relation}

/-- Up to its first section `SavePolicy` empties the table and opens the stream. -/
theorem run_openSave (serves : Serves db plainRef key relation) (model : Model) :
    run machine (savePolicy .live) [] (Store.idle model db) =
      run machine (saveSection (ascii "p") >>= fun _ => saveSection (ascii "g") >>= fun _ =>
        issue .complete >>= fun _ => issue .commit) []
        ⟨model, streaming db (db.put key relation.truncate) []⟩ := by
  have empty : Serves (db.put key relation.truncate) plainRef key relation.truncate :=
    serves.put serves.shape
  have truncated : db.execText truncateQuery = .ok ([], db.put key relation.truncate) := by
    have updated : db.update plainRef (fun relation => .ok relation.truncate) =
        .ok (db.put key relation.truncate) :=
      Database.update_of_resolve serves.resolved serves.stored rfl
    simp only [Database.execText, parse_truncateQuery, Database.exec, updated]
    rfl
  have fetched : (db.put key relation.truncate).fetch ⟨none, ascii "casbin_rule"⟩ =
      .ok (key, relation.truncate) :=
    Database.fetch_of_resolve empty.resolved empty.stored
  have begun : run machine (savePolicy .live) [] (Store.idle model db) =
      run machine (issue (.exec truncateQuery) >>= fun _ =>
        issue (.openStream (ascii "casbin_rule") streamColumns) >>= fun _ =>
        saveSection (ascii "p") >>= fun _ => saveSection (ascii "g") >>= fun _ =>
        issue .complete >>= fun _ => issue .commit) [] ⟨model, ⟨db, some db, none⟩⟩ := rfl
  rw [begun]
  simp only [issue, perform_bind, run_op_nil, machine, Store.step, Session.exec, truncated,
    Session.openStream, fetched, knows_streamColumns empty.shape, if_true, Store.onSession]
  rfl

/-- After its last section `SavePolicy` ends the stream and commits. -/
theorem run_closeSave (serves : Serves work plainRef key relation) {lines : List Row}
    (appended : Session.appendLines streamColumns lines relation = .ok filled) (model : Model) :
    run machine (issue .complete >>= fun _ => issue .commit) []
        ⟨model, streaming db work lines⟩ =
      ⟨.ok (), ⟨model, ⟨work.put key filled, none, none⟩⟩, []⟩ := by
  have completed : work.update ⟨none, ascii "casbin_rule"⟩
      (Session.appendLines streamColumns lines) = .ok (work.put key filled) :=
    Database.update_of_resolve serves.resolved serves.stored appended
  simp only [issue, perform_bind, run_op_nil, machine, Store.step, Session.complete, streaming,
    completed, Store.onSession]
  rfl

/-- `SavePolicy` replaces the content of the table by the lines of the sections. -/
theorem call_savePolicy (serves : Serves db plainRef key relation) (model : Model) :
    ∃ filled, filled.columns = tableColumns ∧
      content filled = sectionLines model (ascii "p") ++ sectionLines model (ascii "g") ∧
      call (savePolicy .live) [] model db =
        ⟨.ok (), (model.touch (ascii "p")).touch (ascii "g"), db.put key filled, []⟩ := by
  have empty : Serves (db.put key relation.truncate) plainRef key relation.truncate :=
    serves.put serves.shape
  have eight : ∀ line ∈ sectionLines model (ascii "p") ++ sectionLines model (ascii "g"),
      line.length = 8 := by
    intro line member
    rcases List.mem_append.mp member with inP | inG
    · exact eight_sectionLines model _ line inP
    · exact eight_sectionLines model _ line inG
  obtain ⟨filled, appended, columns, stored⟩ := appendLines_content eight empty.shape
  refine ⟨filled, columns, by simpa [content] using stored, ?_⟩
  unfold call
  rw [run_openSave serves, run_bind, run_saveSection]
  dsimp only
  rw [run_bind, run_saveSection, sectionLines_touch, List.nil_append]
  dsimp only
  rw [run_closeSave empty appended, Database.put_put]

end Call

/-! ## What the saved rows denote -/

/-- Rules only in the sections `p` and `g`, under ptypes of these sections, in the
form the loader itself produces. -/
structure Saveable (model : Model) : Prop where
  sections : ∀ s t, model.policy s t ≠ [] → s = ascii "p" ∨ s = ascii "g"
  ptypes : ∀ s t, s = ascii "p" ∨ s = ascii "g" → model.Declares s t → Plain t ∧ t.take 1 = s
  rules : ∀ s t, ∀ rule ∈ model.policy s t, StorableRule rule

theorem rulesUnder_append (ptype : Bytes) (first second : List Row) :
    rulesUnder ptype (first ++ second) = rulesUnder ptype first ++ rulesUnder ptype second := by
  simp [rulesUnder]

theorem escaped_of_plain {field : Bytes} (plain : Plain field) :
    escaped field = doubleQuotes field := by
  rw [escaped, cString_of_notMem plain.clean]

/-- A saved row denotes the rule with every quote doubled. -/
theorem entryOf_savedCells {ptype : Bytes} (plain : Plain ptype) {rule : Rule}
    (storable : StorableRule rule) :
    entryOf (savedCells ptype rule) = some (ptype, rule.map doubleQuotes) := by
  have fields : rule.map escaped = rule.map doubleQuotes :=
    List.map_congr_left fun field member => escaped_of_plain (storable.plain field member)
  have short : (rule.map doubleQuotes).length ≤ 7 := by
    rw [List.length_map]
    exact storable.short
  have trimmed : (rule.map doubleQuotes).map trim = rule.map doubleQuotes := by
    rw [List.map_map]
    exact List.map_congr_left fun field member =>
      trim_doubleQuotes (storable.plain field member).trimmed
  rw [savedCells, fields, entryOf_ruleCells, plain.trimmed, List.take_of_length_le short, trimmed]

section

variable {model : Model}

theorem assertion_of_mem_section {sec : Bytes} {entry : Σ _ : Bytes, List Rule}
    (member : entry ∈ ((model.lookup sec).getD ∅).entries) :
    model.assertion sec entry.1 = some entry.2 := by
  unfold Model.assertion
  cases found : model.lookup sec with
  | none =>
      rw [found] at member
      cases member
  | some assertions =>
      rw [found] at member
      exact AList.mem_lookup_iff.mpr member

theorem Saveable.entry (saveable : Saveable model) {sec : Bytes}
    (saved : sec = ascii "p" ∨ sec = ascii "g") {entry : Σ _ : Bytes, List Rule}
    (member : entry ∈ ((model.lookup sec).getD ∅).entries) :
    model.Declares sec entry.1 ∧ Plain entry.1 ∧ ∀ rule ∈ entry.2, StorableRule rule := by
  have found := assertion_of_mem_section member
  have declared : model.Declares sec entry.1 := by
    rw [Model.Declares, found]
    rfl
  refine ⟨declared, (saveable.ptypes _ _ saved declared).1, fun rule inRules => ?_⟩
  apply saveable.rules sec entry.1 rule
  rw [Model.policy, found]
  exact inRules

theorem rulesUnder_savedRules {key : Bytes} (plain : Plain key) {rules : List Rule}
    (storable : ∀ rule ∈ rules, StorableRule rule) (ptype : Bytes) :
    rulesUnder ptype (rules.map (savedCells key)) =
      if key = ptype then rules.map (List.map doubleQuotes) else [] := by
  induction rules with
  | nil => simp [rulesUnder]
  | cons rule more ih =>
      obtain ⟨first, rest⟩ := List.forall_mem_cons.mp storable
      rw [List.map_cons, rulesUnder_cons (entryOf_savedCells plain first), ih rest]
      split <;> rfl

/-- The lines of a section put its policies, with quotes doubled, under their ptypes. -/
theorem rulesUnder_sectionLines (saveable : Saveable model) {sec : Bytes}
    (saved : sec = ascii "p" ∨ sec = ascii "g") (ptype : Bytes) :
    rulesUnder ptype (sectionLines model sec) =
      (model.policy sec ptype).map (List.map doubleQuotes) := by
  have collect (entries : List (Σ _ : Bytes, List Rule))
      (sound : ∀ entry ∈ entries, Plain entry.1 ∧ ∀ rule ∈ entry.2, StorableRule rule) :
      rulesUnder ptype (assertionLines entries) =
        entries.flatMap fun entry =>
          if entry.1 = ptype then entry.2.map (List.map doubleQuotes) else [] := by
    induction entries with
    | nil => rfl
    | cons entry more ih =>
        obtain ⟨⟨plain, storable⟩, rest⟩ := List.forall_mem_cons.mp sound
        rw [List.flatMap_cons, ← ih rest, ← rulesUnder_savedRules plain storable,
          ← rulesUnder_append]
        rfl
  unfold sectionLines
  rw [collect _ fun entry member => (saveable.entry saved member).2,
    flatMap_entries_of_key (List.map (List.map doubleQuotes))]
  unfold Model.policy Model.assertion
  cases model.lookup sec with
  | none => rfl
  | some assertions =>
      change ((assertions.lookup ptype).map _).getD [] = ((assertions.lookup ptype).getD []).map _
      cases assertions.lookup ptype <;> rfl

theorem Saveable.policy_nil (saveable : Saveable model) {s t : Bytes} (away : s ≠ t.take 1) :
    model.policy s t = [] := by
  by_contra held
  have declared : model.Declares s t := by
    unfold Model.Declares
    cases found : model.assertion s t with
    | none => exact absurd (by rw [Model.policy, found]; rfl) held
    | some rules => rfl
  exact away (saveable.ptypes s t (saveable.sections s t held) declared).2.symm

/-- Every saved row loads where the definitions are the same. -/
theorem loadable_sectionLines (saveable : Saveable model) {fresh : Model}
    (same : ∀ s t, fresh.Declares s t ↔ model.Declares s t) {sec : Bytes}
    (saved : sec = ascii "p" ∨ sec = ascii "g") : Loadable fresh (sectionLines model sec) := by
  intro row member
  obtain ⟨entry, inSection, inRules⟩ := List.mem_flatMap.mp member
  obtain ⟨rule, inEntry, rfl⟩ := List.mem_map.mp inRules
  obtain ⟨declared, plain, storable⟩ := saveable.entry saved inSection
  refine ⟨entry.1, _, entryOf_savedCells plain (storable rule inEntry), (same _ _).mpr ?_⟩
  rw [(saveable.ptypes _ _ saved declared).2]
  exact declared

variable {fresh : Model} {db : Database} {key : RelName} {relation : Relation}

/-- Saving and loading doubles the quotes of every field and changes nothing else. -/
theorem load_after_save (named : Serves db plainRef key relation) (saveable : Saveable model)
    (same : ∀ s t, fresh.Declares s t ↔ model.Declares s t) :
    ∃ stored loaded, (call (savePolicy .live) [] model db).db = stored ∧
      call loadPolicy [] fresh stored = ⟨.ok (), loaded, stored, []⟩ ∧
      ∀ s t, loaded.policy s t = (model.policy s t).map (List.map doubleQuotes) := by
  obtain ⟨filled, shape, stored, saves⟩ := call_savePolicy named model
  have served := named.put shape
  have inP : ascii "p" = ascii "p" ∨ ascii "p" = ascii "g" := Or.inl rfl
  have inG : ascii "g" = ascii "p" ∨ ascii "g" = ascii "g" := Or.inr rfl
  have loadable : Loadable fresh.clearPolicy (content filled) := by
    have known : ∀ s t, fresh.clearPolicy.Declares s t ↔ model.Declares s t := fun s t =>
      (fresh.declares_clearPolicy s t).trans (same s t)
    rw [stored]
    intro row member
    rcases List.mem_append.mp member with first | second
    · exact loadable_sectionLines saveable known inP row first
    · exact loadable_sectionLines saveable known inG row second
  obtain ⟨loaded, ok, spec⟩ := loadRows_spec loadable
  refine ⟨_, loaded, congrArg Outcome.db saves, call_loadPolicy_ok served ok, fun s t => ?_⟩
  rw [spec.policy_of_clear, stored, rulesUnder_append, rulesUnder_sectionLines saveable inP,
    rulesUnder_sectionLines saveable inG]
  by_cases own : s = t.take 1
  · subst own
    rw [if_pos rfl]
    by_cases isP : ascii "p" = t.take 1
    · have notG : ascii "g" ≠ t.take 1 := isP ▸ by decide
      rw [saveable.policy_nil notG, ← isP]
      simp
    · rw [saveable.policy_nil isP]
      by_cases isG : ascii "g" = t.take 1
      · rw [← isG]
        simp
      · have nothing : model.policy (t.take 1) t = [] := by
          by_contra held
          rcases saveable.sections _ _ held with atP | atG
          · exact isP atP.symm
          · exact isG atG.symm
        rw [saveable.policy_nil isG, nothing]
        rfl
  · rw [if_neg own, saveable.policy_nil own]
    rfl

/-- A policy that was saved loads as itself exactly when no field holds a quote. -/
theorem save_load_iff (named : Serves db plainRef key relation) (saveable : Saveable model)
    (same : ∀ s t, fresh.Declares s t ↔ model.Declares s t) {faults : List Bool}
    (saved : (call (savePolicy .live) faults model db).result = .ok ()) :
    let reloaded := call loadPolicy [] fresh (call (savePolicy .live) faults model db).db
    (reloaded.result = .ok () ∧ ∀ s t, (reloaded.model.policy s t).Perm (model.policy s t)) ↔
      ∀ s t, ∀ rule ∈ model.policy s t, ∀ field ∈ rule, (39 : UInt8) ∉ field := by
  intro reloaded
  obtain ⟨stored, loaded, saves, loads, doubled⟩ := load_after_save named saveable same
  have database : (call (savePolicy .live) faults model db).db = stored := by
    rw [← saves, call_nil_of_ok saved]
  have ended : reloaded = ⟨.ok (), loaded, stored, []⟩ := by
    rw [← loads, ← database]
  rw [ended]
  constructor
  · rintro ⟨_, perm⟩ s t
    have counted := quotes_perm (perm s t)
    rw [doubled, quotes_doubleQuotes] at counted
    apply (quotes_eq_zero_iff (model.policy s t)).mp
    omega
  · intro none
    refine ⟨rfl, fun s t => ?_⟩
    have plain : (model.policy s t).map (List.map doubleQuotes) = model.policy s t := by
      refine (List.map_congr_left fun rule inRules => ?_).trans (List.map_id _)
      refine (List.map_congr_left fun field inRule => ?_).trans (List.map_id rule)
      exact doubleQuotes_of_notMem (none s t rule inRules field inRule)
    rw [doubled, plain]

end

theorem saveable_rbacModel {permissions roles : List Rule}
    (storable : ∀ rule ∈ permissions ++ roles, StorableRule rule) :
    Saveable (rbacModel permissions roles) where
  sections s t held := by
    by_contra neither
    rw [not_or] at neither
    apply held
    rw [Model.policy, assertion_rbacModel, if_neg (fun both => neither.1 both.1),
      if_neg (fun both => neither.2 both.1)]
    rfl
  ptypes s t _ declared := by
    rw [Model.Declares, assertion_rbacModel] at declared
    split at declared
    · next both =>
        obtain ⟨rfl, rfl⟩ := both
        decide
    · split at declared
      · next both =>
          obtain ⟨rfl, rfl⟩ := both
          decide
      · cases declared
  rules s t rule member := by
    rw [Model.policy, assertion_rbacModel] at member
    apply storable rule
    rw [List.mem_append]
    split at member
    · exact Or.inl member
    · split at member
      · exact Or.inr member
      · cases member

/-- A policy without quotes comes back. -/
theorem save_load_rbacModel :
    let model := rbacModel [[ascii "alice", ascii "data1", ascii "read"]] []
    let db := singleTable (ascii "polarity") (Relation.empty tableColumns)
    let reloaded := call loadPolicy [] (rbacModel [] []) (call (savePolicy .live) [] model db).db
    reloaded.result = .ok () ∧ ∀ s t, (reloaded.model.policy s t).Perm (model.policy s t) := by
  intro model db
  have named : Serves db plainRef (ascii "polarity", tableName) _ := serves_singleTable _ rfl
  have saveable : Saveable model := saveable_rbacModel (by decide)
  have same (s t : Bytes) : (rbacModel [] []).Declares s t ↔ model.Declares s t := by
    rw [Model.Declares, Model.Declares, assertion_rbacModel, assertion_rbacModel]
    split
    · rfl
    · rfl
  obtain ⟨filled, _, _, saves⟩ := call_savePolicy named model
  apply (save_load_iff named saveable same (congrArg Outcome.result saves)).mpr
  intro s t rule member
  rw [Model.policy, assertion_rbacModel] at member
  split at member
  · obtain rfl := List.mem_singleton.mp member
    decide
  · split at member
    · cases member
    · cases member

/-- An apostrophe comes back doubled. -/
theorem save_load_apostrophe :
    let model := rbacModel [[ascii "o'brien", ascii "data1", ascii "read"]] []
    let db := singleTable (ascii "polarity") (Relation.empty tableColumns)
    let saved := call (savePolicy .live) [] model db
    let reloaded := call loadPolicy [] (rbacModel [] []) saved.db
    saved.result = .ok () ∧ reloaded.result = .ok () ∧
      reloaded.model.policy (ascii "p") (ascii "p") =
        [[ascii "o''brien", ascii "data1", ascii "read"]] ∧
      ¬ (reloaded.model.policy (ascii "p") (ascii "p")).Perm
        (model.policy (ascii "p") (ascii "p")) := by
  decide +kernel

end Casbinex.Adapter
