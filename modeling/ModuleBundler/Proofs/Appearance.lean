import Mathlib.Data.List.Basic
import Mathlib.Data.List.Nodup
import Mathlib.Data.List.Perm.Basic

/-!
# Order of first appearance

A list is *listed in order of first appearance* by another one that has the same members, each
once, ordered by the place where each of them is met first (`FirstAppearances`).  The worklist of a
discovery and the links of a module are both made this way: something that is met is put at the end
unless it is there already.

* `FirstAppearances.eq` — there is one such list;
* `FirstAppearances.skip` and `FirstAppearances.add` are the two steps of that;
* `FirstAppearances.prefix_of_append` — what is listed stays where it is when more is met;
* `FirstAppearances.head?_eq`, `FirstAppearances.nodup` and `FirstAppearances.idxOf_lt` read the
  order off.
-/

namespace ModuleBundler

variable {α : Type} [BEq α]

/-- `listed` has the members of `met`, each once, in the order of their first appearance. -/
structure FirstAppearances (met listed : List α) : Prop where
  mem_iff : ∀ a, a ∈ listed ↔ a ∈ met
  ordered : listed.Pairwise fun a b => met.idxOf a < met.idxOf b

namespace FirstAppearances

variable {met listed : List α} {a b : α}

theorem nil : FirstAppearances ([] : List α) [] :=
  ⟨fun _ => Iff.rfl, List.Pairwise.nil⟩

theorem singleton (a : α) : FirstAppearances [a] [a] :=
  ⟨fun _ => Iff.rfl, List.pairwise_singleton _ _⟩

theorem nodup (h : FirstAppearances met listed) : listed.Nodup :=
  h.ordered.imp fun hlt heq => by rw [heq] at hlt; exact Nat.lt_irrefl _ hlt

/-- The order of first appearance is determined. -/
theorem eq {other : List α} (h : FirstAppearances met listed) (h' : FirstAppearances met other) :
    listed = other := by
  have hperm : listed.Perm other :=
    (List.perm_ext_iff_of_nodup h.nodup h'.nodup).2 fun a =>
      (h.mem_iff a).trans (h'.mem_iff a).symm
  refine List.Perm.eq_of_pairwise ?_ h.ordered h'.ordered hperm
  intro a b _ _ hab hba
  exact absurd hba (Nat.lt_asymm hab)

variable [LawfulBEq α]

/-- What has been met keeps its place when more is met. -/
theorem ordered_append (h : FirstAppearances met listed) (more : List α) :
    listed.Pairwise fun a b => (met ++ more).idxOf a < (met ++ more).idxOf b := by
  refine h.ordered.imp_of_mem fun {a b} ha hb hlt => ?_
  rw [List.idxOf_append_of_mem ((h.mem_iff a).1 ha), List.idxOf_append_of_mem ((h.mem_iff b).1 hb)]
  exact hlt

/-- Meeting something again adds nothing. -/
theorem skip (h : FirstAppearances met listed) (ha : a ∈ listed) :
    FirstAppearances (met ++ [a]) listed where
  mem_iff b := by
    rw [List.mem_append, List.mem_singleton, h.mem_iff b]
    refine ⟨Or.inl, ?_⟩
    rintro (hb | rfl)
    · exact hb
    · exact (h.mem_iff _).1 ha
  ordered := h.ordered_append [a]

/-- Something new is added at the end. -/
theorem add (h : FirstAppearances met listed) (ha : a ∉ listed) :
    FirstAppearances (met ++ [a]) (listed ++ [a]) where
  mem_iff b := by rw [List.mem_append, List.mem_append, h.mem_iff b]
  ordered := by
    rw [List.pairwise_append]
    refine ⟨h.ordered_append [a], List.pairwise_singleton _ _, ?_⟩
    intro b hb c hc
    rw [List.mem_singleton] at hc
    subst hc
    have hmet : c ∉ met := fun hc => ha ((h.mem_iff c).2 hc)
    rw [List.idxOf_append_of_mem ((h.mem_iff b).1 hb), List.idxOf_append_of_notMem hmet]
    have := List.idxOf_lt_length_of_mem ((h.mem_iff b).1 hb)
    omega

/-- When more is met, more is put at the end. -/
theorem exists_append (h : FirstAppearances met listed) (more : List α) :
    ∃ added, FirstAppearances (met ++ more) (listed ++ added) := by
  induction more generalizing met listed with
  | nil => exact ⟨[], by rwa [List.append_nil, List.append_nil]⟩
  | cons a rest ih =>
    rw [List.append_cons met a rest]
    by_cases ha : a ∈ listed
    · exact ih (h.skip ha)
    · obtain ⟨added, hadded⟩ := ih (h.add ha)
      exact ⟨a :: added, by rwa [List.append_cons listed a added]⟩

theorem exists_listed (met : List α) : ∃ listed : List α, FirstAppearances met listed :=
  nil.exists_append met

/-- What is listed stays at the beginning when more is met. -/
theorem prefix_of_append {more all : List α} (h : FirstAppearances met listed)
    (hall : FirstAppearances (met ++ more) all) : listed <+: all := by
  obtain ⟨added, hadded⟩ := h.exists_append more
  exact ⟨added, hadded.eq hall⟩

theorem head?_eq {met listed : List α} {a : α} (h : FirstAppearances (a :: met) listed) :
    listed.head? = some a := by
  have ha : a ∈ listed := (h.mem_iff a).2 List.mem_cons_self
  cases listed with
  | nil => cases ha
  | cons b rest =>
    rcases List.mem_cons.1 ha with rfl | hrest
    · rfl
    · -- nothing can stand before what is met first
      have hlt := (List.pairwise_cons.1 h.ordered).1 a hrest
      rw [List.idxOf_cons_self] at hlt
      omega

/-- What is listed earlier is met earlier. -/
theorem idxOf_lt (h : FirstAppearances met listed) (hb : b ∈ listed)
    (hlt : listed.idxOf a < listed.idxOf b) : met.idxOf a < met.idxOf b := by
  have hbl := List.idxOf_lt_length_of_mem hb
  have hpair := List.pairwise_iff_getElem.1 h.ordered _ _ (Nat.lt_trans hlt hbl) hbl hlt
  rw [List.getElem_idxOf, List.getElem_idxOf] at hpair
  exact hpair

end FirstAppearances

end ModuleBundler
