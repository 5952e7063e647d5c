import Mathlib.Data.List.Chain
import Mathlib.Data.List.Duplicate
import Mathlib.Data.List.Perm.Subperm
import Mathlib.Logic.Relation
import ModuleBundler.Loader.Heap

/-!
# Reading through forwards

A getter that forwards reads another place, which may forward again.  Such a chain ends at a place
that does not forward (`Heap.Reads`), or it comes to a place that leads back to itself
(`Heap.Circular`).  `Heap.read` follows a chain for a number of steps, and gives up.

* `Heap.exists_places_of_endless` — if it gives up, it has met as many places as it was given steps,
  each of which leads to those behind it;
* `Heap.circular_of_endless` — so if there are fewer slots than steps, one place was met twice;
* `Heap.get_eq_endless_iff` — reading a place has no end exactly if the place is circular;
* `Heap.read_eq_get` — more steps than there are slots make no difference;
* `Heap.reads_iff` — and a read that ends gives what stands at the end of the chain.
-/

namespace ModuleBundler.Loader

open Relation

/-- A name of an object. -/
abbrev Place := ObjectId × String

namespace Heap

variable {h : Heap} {n m : Nat} {p q : Place} {v : Reading}

/-! ## Chains of forwards -/

/-- The slot at a place is a getter that forwards to another place. -/
def Forwards (h : Heap) (p q : Place) : Prop :=
  slotOf (h.entries p.1) p.2 = some (.forwards q.1 q.2)

/-- Following forwards from a place comes to one that leads back to itself. -/
def Circular (h : Heap) (p : Place) : Prop :=
  ∃ q, ReflTransGen h.Forwards p q ∧ TransGen h.Forwards q q

/-- What a place reads as, if following forwards from it comes to an end. -/
inductive Reads (h : Heap) : Place → Reading → Prop
  | undefined {p : Place} : slotOf (h.entries p.1) p.2 = none → Reads h p .absent
  | plain {p : Place} {v : Value} :
      slotOf (h.entries p.1) p.2 = some (.plain v) → Reads h p (.value v)
  | assigned {p : Place} {c : Cell} {v : Value} :
      slotOf (h.entries p.1) p.2 = some (.reads c) → h.cell? c = some v → Reads h p (.value v)
  | unassigned {p : Place} {c : Cell} :
      slotOf (h.entries p.1) p.2 = some (.reads c) → h.cell? c = none → Reads h p .absent
  | forwarded {p q : Place} {v : Reading} : h.Forwards p q → Reads h q v → Reads h p v

theorem read_of_forwards (hq : h.Forwards p q) (n : Nat) :
    h.read (n + 1) p.1 p.2 = h.read n q.1 q.2 := by
  rw [read, hq]

/-- A place from which no forward leads on is read in one step. -/
theorem reads_read_of_not_forwards (hp : ∀ q, ¬ h.Forwards p q) (n : Nat) :
    h.Reads p (h.read (n + 1) p.1 p.2) := by
  rw [read]
  cases hslot : slotOf (h.entries p.1) p.2 with
  | none => exact .undefined hslot
  | some slot =>
    cases slot with
    | plain v => exact .plain hslot
    | forwards o name => exact absurd hslot (hp (o, name))
    | reads c =>
      dsimp only
      cases hc : h.cell? c with
      | none => exact .unassigned hslot hc
      | some v => exact .assigned hslot hc

/-- A read that comes to an end gives what the place reads as. -/
theorem reads_read (hend : h.read n p.1 p.2 ≠ .endless) : h.Reads p (h.read n p.1 p.2) := by
  induction n generalizing p with
  | zero => exact absurd rfl hend
  | succ n ih =>
    by_cases hp : ∃ q, h.Forwards p q
    · obtain ⟨q, hq⟩ := hp
      rw [read_of_forwards hq] at hend ⊢
      exact .forwarded hq (ih hend)
    · exact reads_read_of_not_forwards (not_exists.1 hp) n

theorem Reads.ne_endless (hv : h.Reads p v) : v ≠ .endless := by
  induction hv with
  | forwarded _ _ ih => exact ih
  | _ => simp

/-- What a place reads as is read in some number of steps, and in any greater number. -/
theorem Reads.exists_read (hv : h.Reads p v) : ∃ n, ∀ m, n ≤ m → h.read m p.1 p.2 = v := by
  have hlast : ∀ {q : Place} {u : Reading}, (∀ k, h.read (k + 1) q.1 q.2 = u) →
      ∃ n, ∀ m, n ≤ m → h.read m q.1 q.2 = u := by
    intro q u hread
    refine ⟨1, fun m hm => ?_⟩
    obtain ⟨k, rfl⟩ := Nat.exists_eq_add_of_le' hm
    exact hread k
  induction hv with
  | undefined hslot => exact hlast fun k => by rw [read, hslot]
  | plain hslot => exact hlast fun k => by rw [read, hslot]
  | assigned hslot hc => exact hlast fun k => by simp [read, hslot, hc]
  | unassigned hslot hc => exact hlast fun k => by simp [read, hslot, hc]
  | forwarded hq _ ih =>
    obtain ⟨n, hn⟩ := ih
    refine ⟨n + 1, fun m hm => ?_⟩
    obtain ⟨k, rfl⟩ := Nat.exists_eq_add_of_le' (Nat.le_of_add_left_le hm)
    rw [read_of_forwards hq]
    exact hn k (by omega)

/-- A place reads as one thing. -/
theorem Reads.eq {u : Reading} (hv : h.Reads p v) (hu : h.Reads p u) : v = u := by
  obtain ⟨n, hn⟩ := hv.exists_read
  obtain ⟨m, hm⟩ := hu.exists_read
  exact (hn (max n m) (Nat.le_max_left _ _)).symm.trans (hm (max n m) (Nat.le_max_right _ _))

/-! ## Chains that do not end -/

/-- Behind a circular place is another one. -/
theorem Circular.exists_forwards (hp : h.Circular p) : ∃ q, h.Forwards p q ∧ h.Circular q := by
  obtain ⟨c, hpc, hcc⟩ := hp
  rcases ReflTransGen.cases_head hpc with rfl | ⟨q, hq, hqc⟩
  · obtain ⟨q, hq, hqp⟩ := TransGen.head'_iff.1 hcc
    exact ⟨q, hq, p, hqp, hcc⟩
  · exact ⟨q, hq, c, hqc, hcc⟩

theorem Circular.read_eq (hp : h.Circular p) (n : Nat) : h.read n p.1 p.2 = .endless := by
  induction n generalizing p with
  | zero => rfl
  | succ n ih =>
    obtain ⟨q, hq, hcircular⟩ := hp.exists_forwards
    rw [read_of_forwards hq]
    exact ih hcircular

/-- All places that have a slot. -/
def places (h : Heap) : List Place :=
  h.objects.zipIdx.flatMap fun o => o.1.map fun e => (o.2, e.name)

theorem slotCount_eq_length (h : Heap) : h.slotCount = h.objects.flatten.length := by
  rw [List.length_flatten, List.sum_eq_foldl, List.foldl_map]
  rfl

theorem length_places (h : Heap) : h.places.length = h.slotCount := by
  have hobjects : h.objects.zipIdx.map (fun o => o.1.length) = h.objects.map List.length := by
    conv_rhs => rw [← List.zipIdx_map_fst 0 h.objects]
    rw [List.map_map]
    rfl
  simp only [places, List.length_flatMap, List.length_map]
  rw [hobjects, slotCount_eq_length, List.length_flatten]

theorem mem_places {slot : Slot} (hslot : slotOf (h.entries p.1) p.2 = some slot) :
    p ∈ h.places := by
  obtain ⟨e, he, -⟩ := Option.map_eq_some_iff.1 hslot
  have hname : e.name = p.2 := by simpa using List.find?_some he
  have hmem : e ∈ h.entries p.1 := List.mem_of_find?_eq_some he
  have hobject : p.1 < h.objects.length := by
    by_contra hge
    simp [entries, List.getElem?_eq_none (Nat.le_of_not_lt hge)] at hmem
  have hentries : h.entries p.1 = h.objects[p.1] := by simp [entries, hobject]
  rw [hentries] at hmem
  refine List.mem_flatMap.2 ⟨(h.objects[p.1], p.1), ?_, List.mem_map.2 ⟨e, hmem, ?_⟩⟩
  · exact List.mem_zipIdx_iff_getElem?.2 (List.getElem?_eq_getElem hobject)
  · exact Prod.ext rfl hname

/-- A read that does not come to an end meets a place in every step, and each leads to those
behind it. -/
theorem exists_places_of_endless (hread : h.read n p.1 p.2 = .endless) :
    ∃ met : List Place, met.length = n ∧ met ⊆ h.places ∧
      met.Pairwise (TransGen h.Forwards) ∧ ∀ q ∈ met, ReflTransGen h.Forwards p q := by
  induction n generalizing p with
  | zero => exact ⟨[], rfl, List.nil_subset _, List.Pairwise.nil, by simp⟩
  | succ n ih =>
    by_cases hp : ∃ q, h.Forwards p q
    · obtain ⟨q, hq⟩ := hp
      rw [read_of_forwards hq] at hread
      obtain ⟨met, hlength, hplaces, hpairs, hreach⟩ := ih hread
      refine ⟨p :: met, by rw [List.length_cons, hlength], ?_, ?_, ?_⟩
      · exact List.cons_subset.2 ⟨mem_places hq, hplaces⟩
      · exact List.pairwise_cons.2 ⟨fun c hc => TransGen.head' hq (hreach c hc), hpairs⟩
      · intro c hc
        rcases List.mem_cons.1 hc with rfl | hc
        · exact ReflTransGen.refl
        · exact ReflTransGen.head hq (hreach c hc)
    · exact absurd hread (reads_read_of_not_forwards (not_exists.1 hp) n).ne_endless

/-- A read that goes on for more steps than there are slots meets a place twice. -/
theorem circular_of_endless (hn : h.slotCount < n) (hread : h.read n p.1 p.2 = .endless) :
    h.Circular p := by
  obtain ⟨met, hlength, hplaces, hpairs, hreach⟩ := exists_places_of_endless hread
  have hrepeated : ¬ met.Nodup := by
    intro hnodup
    have hle := (List.subperm_of_subset hnodup hplaces).length_le
    rw [length_places] at hle
    omega
  obtain ⟨c, hc⟩ := List.exists_duplicate_iff_not_nodup.2 hrepeated
  have htwice := hpairs.sublist (List.duplicate_iff_sublist.1 hc)
  exact ⟨c, hreach c hc.mem, (List.pairwise_cons.1 htwice).1 c (List.mem_singleton_self c)⟩

/-! ## Reading a place -/

/-- Reading a place has no end exactly if following forwards from it comes back. -/
theorem get_eq_endless_iff : h.get p.1 p.2 = .endless ↔ h.Circular p :=
  ⟨circular_of_endless (Nat.lt_succ_self _), fun hp => hp.read_eq _⟩

/-- More steps than there are slots make no difference. -/
theorem read_eq_get (hn : h.slotCount < n) (p : Place) :
    h.read n p.1 p.2 = h.get p.1 p.2 := by
  by_cases hp : h.Circular p
  · rw [hp.read_eq n, get_eq_endless_iff.2 hp]
  · have hread : h.read n p.1 p.2 ≠ .endless := fun hend => hp (circular_of_endless hn hend)
    have hget : h.get p.1 p.2 ≠ .endless := fun hend => hp (get_eq_endless_iff.1 hend)
    exact (reads_read hread).eq (reads_read hget)

/-- A place reads as what is read there, unless the read has no end. -/
theorem reads_iff : h.Reads p v ↔ h.get p.1 p.2 = v ∧ v ≠ .endless := by
  constructor
  · intro hv
    refine ⟨?_, hv.ne_endless⟩
    obtain ⟨n, hn⟩ := hv.exists_read
    -- enough steps for the chain, and more than there are slots
    have hlast := hn (max n (h.slotCount + 1)) (Nat.le_max_left _ _)
    rwa [read_eq_get (by omega)] at hlast
  · rintro ⟨rfl, hend⟩
    exact reads_read hend

/-- A place that is not circular reads as something. -/
theorem exists_reads_iff : (∃ v, h.Reads p v) ↔ ¬ h.Circular p := by
  rw [← get_eq_endless_iff]
  constructor
  · rintro ⟨v, hv⟩
    rw [(reads_iff.1 hv).1]
    exact hv.ne_endless
  · intro hend
    exact ⟨_, reads_iff.2 ⟨rfl, hend⟩⟩

end Heap

end ModuleBundler.Loader
