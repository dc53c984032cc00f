import Mathlib.Data.List.AList

/-!
# Mapping the values of an association list

`mapEntries` rewrites every value in place, by its key, and keeps the keys.
-/

namespace Casbinex.Program

variable {α β γ : Type} [DecidableEq α]

def mapEntries (f : α → β → γ) (table : AList fun _ : α => β) : AList fun _ : α => γ where
  entries := table.entries.map fun entry => ⟨entry.1, f entry.1 entry.2⟩
  nodupKeys := by
    have nodup : (table.entries.map Sigma.fst).Nodup := table.nodupKeys
    unfold List.NodupKeys List.keys
    rwa [List.map_map]

@[simp]
theorem lookup_mapEntries (f : α → β → γ) (table : AList fun _ : α => β) (key : α) :
    (mapEntries f table).lookup key = (table.lookup key).map (f key) :=
  List.dlookup_map₂ (l := table.entries) (f := f) key

/-- Collecting from the entry of one key is collecting from its value. -/
theorem flatMap_entries_of_key (f : β → List γ) (table : AList fun _ : α => β) (key : α) :
    (table.entries.flatMap fun entry => if entry.1 = key then f entry.2 else []) =
      ((table.lookup key).map f).getD [] := by
  obtain ⟨entries, nodup⟩ := table
  change _ = ((entries.dlookup key).map f).getD []
  induction entries with
  | nil => rfl
  | cons entry more ih =>
      obtain ⟨fresh, rest⟩ := List.nodupKeys_cons.mp nodup
      rw [List.flatMap_cons, ih rest]
      by_cases same : entry.1 = key
      · subst same
        rw [if_pos rfl, List.dlookup_cons_eq, List.dlookup_eq_none.mpr fresh]
        simp
      · rw [if_neg same, List.dlookup_cons_ne _ _ (Ne.symm same)]
        rfl

end Casbinex.Program
