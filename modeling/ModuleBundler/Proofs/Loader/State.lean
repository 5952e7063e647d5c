import Mathlib.Data.List.Nodup
import Mathlib.Data.Set.Card
import ModuleBundler.Loader.Run

/-!
# What a loader state says of a module

A loader state is read through `LoaderState.phase?` alone.  Putting a module into a phase and
forgetting it change what is read of that module and of no other (`LoaderState.phase?_put` and
`LoaderState.phase?_erase`), and neither leaves two entries for one module (`LoaderState.Keyed`).

`LoaderState.Grown before after` compares two states: every entry is kept, and the new ones are of
modules that are loaded.  So the modules that are loading are the same in both
(`LoaderState.Grown.loading_iff`).
-/

namespace ModuleBundler.Loader

namespace LoaderState

variable {s t u : LoaderState} {id other : ModuleId} {phase : Phase}

/-- A module is loading. -/
def Loading (s : LoaderState) (id : ModuleId) : Prop := ∃ o, s.phase? id = some (.loading o)

/-- A module is loaded. -/
def Loaded (s : LoaderState) (id : ModuleId) : Prop := ∃ o, s.phase? id = some (.loaded o)

/-- No module has two entries. -/
def Keyed (s : LoaderState) : Prop := (s.map (·.1)).Nodup

/-! ## Reading a state -/

theorem phase?_nil (id : ModuleId) : phase? [] id = none := rfl

theorem phase?_cons (entry : ModuleId × Phase) (s : LoaderState) (id : ModuleId) :
    phase? (entry :: s) id = if entry.1 = id then some entry.2 else phase? s id := by
  unfold phase?
  by_cases h : entry.1 = id
  · rw [if_pos h, List.find?_cons_of_pos (by rw [h]; exact beq_self_eq_true _)]
    rfl
  · rw [if_neg h, List.find?_cons_of_neg (by rw [beq_iff_eq]; exact h)]

theorem phase?_append (s t : LoaderState) (id : ModuleId) :
    phase? (s ++ t) id = (phase? s id).or (phase? t id) := by
  unfold phase?
  rw [List.find?_append, Option.map_or]

theorem phase?_erase (s : LoaderState) (id other : ModuleId) :
    (s.erase id).phase? other = if other = id then none else s.phase? other := by
  induction s with
  | nil => split <;> rfl
  | cons entry rest ih =>
    unfold erase at ih ⊢
    by_cases hkey : entry.1 = id
    · rw [List.filter_cons_of_neg (by simpa using hkey), ih, phase?_cons, hkey]
      by_cases h : other = id
      · rw [if_pos h, if_pos h]
      · rw [if_neg h, if_neg h, if_neg (Ne.symm h)]
    · rw [List.filter_cons_of_pos (by simpa using hkey), phase?_cons, phase?_cons, ih]
      by_cases h : other = id
      · rw [if_pos h, if_pos h, h, if_neg hkey]
      · rw [if_neg h, if_neg h]

theorem phase?_put (s : LoaderState) (id : ModuleId) (phase : Phase) (other : ModuleId) :
    (s.put id phase).phase? other = if other = id then some phase else s.phase? other := by
  unfold put
  rw [phase?_append, phase?_erase, phase?_cons, phase?_nil]
  by_cases h : other = id
  · rw [if_pos h, if_pos h, if_pos h.symm]
    rfl
  · rw [if_neg h, if_neg h, if_neg (Ne.symm h), Option.or_none]

/-- Putting a module into the phase `loading` adds it to those that are loading. -/
theorem loading_put (s : LoaderState) (id : ModuleId) (o : ObjectId) (other : ModuleId) :
    (s.put id (.loading o)).Loading other ↔ other = id ∨ s.Loading other := by
  unfold Loading
  rw [phase?_put]
  by_cases h : other = id
  · rw [if_pos h]
    exact ⟨fun _ => Or.inl h, fun _ => ⟨o, rfl⟩⟩
  · rw [if_neg h]
    exact ⟨Or.inr, fun h' => h'.resolve_left h⟩

theorem Loading.not_loaded (h : s.Loading id) : ¬ s.Loaded id := by
  rintro ⟨o, ho⟩
  obtain ⟨p, hp⟩ := h
  rw [hp] at ho
  cases ho

/-! ## Entries and modules -/

theorem keyed_nil : Keyed [] := List.nodup_nil

theorem Keyed.erase (h : s.Keyed) (id : ModuleId) : (s.erase id).Keyed :=
  h.sublist (List.filter_sublist.map _)

theorem Keyed.put (h : s.Keyed) (id : ModuleId) (phase : Phase) : (s.put id phase).Keyed := by
  unfold Keyed LoaderState.put
  rw [List.map_append, List.nodup_append]
  refine ⟨h.erase id, List.nodup_singleton _, ?_⟩
  intro a ha b hb heq
  obtain ⟨entry, hentry, rfl⟩ := List.mem_map.1 ha
  have hne := (List.mem_filter.1 hentry).2
  rw [heq, List.mem_singleton.1 hb] at hne
  simp at hne

theorem phase?_isSome_iff : (s.phase? id).isSome ↔ id ∈ s.map (·.1) := by
  unfold phase?
  rw [Option.isSome_map, List.find?_isSome]
  simp

/-- The number of entries is the number of modules that have a phase. -/
theorem Keyed.length_eq (h : s.Keyed) : s.length = {id | (s.phase? id).isSome}.ncard := by
  have hset : {id | (s.phase? id).isSome} = ((s.map (·.1)).toFinset : Set ModuleId) := by
    ext id
    rw [Set.mem_ofPred_eq, phase?_isSome_iff, Finset.mem_coe, List.mem_toFinset]
  rw [hset, Set.ncard_coe_finset, List.toFinset_card_of_nodup h, List.length_map]

/-! ## States that have grown -/

/-- Every entry of `before` is kept, and the new ones are of loaded modules. -/
def Grown (before after : LoaderState) : Prop :=
  ∀ id, after.phase? id = before.phase? id ∨ before.phase? id = none ∧ after.Loaded id

theorem Grown.refl (s : LoaderState) : s.Grown s := fun _ => Or.inl rfl

theorem Grown.trans (h : s.Grown t) (h' : t.Grown u) : s.Grown u := by
  intro id
  rcases h id with heq | ⟨hnone, o, ho⟩
  · rcases h' id with heq' | ⟨hnone', hloaded⟩
    · exact Or.inl (heq'.trans heq)
    · exact Or.inr ⟨heq.symm.trans hnone', hloaded⟩
  · rcases h' id with heq' | ⟨hnone', _⟩
    · exact Or.inr ⟨hnone, o, heq'.trans ho⟩
    · rw [hnone'] at ho
      cases ho

/-- A phase is kept. -/
theorem Grown.phase?_eq (h : s.Grown t) (hs : s.phase? id = some phase) :
    t.phase? id = some phase := by
  rcases h id with heq | ⟨hnone, _⟩
  · exact heq.trans hs
  · rw [hnone] at hs
    cases hs

/-- The same modules are loading. -/
theorem Grown.loading_iff (h : s.Grown t) (id : ModuleId) : t.Loading id ↔ s.Loading id := by
  constructor
  · rintro ⟨o, ho⟩
    rcases h id with heq | ⟨_, hloaded⟩
    · exact ⟨o, heq.symm.trans ho⟩
    · exact absurd hloaded (Loading.not_loaded ⟨o, ho⟩)
  · rintro ⟨o, ho⟩
    exact ⟨o, h.phase?_eq ho⟩

/-- Running a body that succeeds: the module is put into the phase `loading`, the state grows, and
the module is put into the phase `loaded`. -/
theorem Grown.put_loaded {o : ObjectId} (hnone : s.phase? id = none)
    (h : (s.put id (.loading o)).Grown t) : s.Grown (t.put id (.loaded o)) := by
  intro other
  by_cases heq : other = id
  · refine Or.inr ⟨by rw [heq]; exact hnone, o, ?_⟩
    rw [phase?_put, if_pos heq]
  · have hother := h other
    rw [phase?_put, if_neg heq] at hother
    unfold Loaded at hother ⊢
    rw [phase?_put, if_neg heq]
    exact hother

/-- Running a body that fails: the module is put into the phase `loading`, the state grows, and
the module is forgotten. -/
theorem Grown.erase (hnone : s.phase? id = none) (h : (s.put id phase).Grown t) :
    s.Grown (t.erase id) := by
  intro other
  by_cases heq : other = id
  · refine Or.inl ?_
    rw [phase?_erase, if_pos heq, heq, hnone]
  · have hother := h other
    rw [phase?_put, if_neg heq] at hother
    unfold Loaded at hother ⊢
    rw [phase?_erase, if_neg heq]
    exact hother

end LoaderState

end ModuleBundler.Loader
