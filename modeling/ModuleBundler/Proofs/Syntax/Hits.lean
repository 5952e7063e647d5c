import ModuleBundler.Proofs.Syntax.Scope

/-!
# How often references hit an offset

`Node.hits` counts the references in a tree that cover an offset; an empty one counts twice wherever
the offset is.  A tree that is hit at most once anywhere has references that are not empty and stand
apart, and where a tree is not hit no reference stands.

* `hits_openReferences_le` — the open references of a node are among those that are counted;
* **`apart_of_hits`** — spans that count at most once anywhere stand apart;
* **`Refers.same_or_apart`** — two paths to references that have a character in common are one path.
-/

namespace ModuleBundler.Syntax

/-! ## Counting -/

/-- How often a span counts at an offset. -/
def Span.hits (k : Nat) (s : Span) : Nat :=
  if s.stop ≤ s.start then 2 else if s.start ≤ k ∧ k < s.stop then 1 else 0

/-- How often some spans count at an offset. -/
def spanHits (k : Nat) : List Span → Nat
  | [] => 0
  | s :: rest => s.hits k + spanHits k rest

/-- How often a node counts itself, apart from its children. -/
def Label.hits (k : Nat) (span : Span) : Label → Nat
  | .reference _ => span.hits k
  | _ => 0

mutual

/-- How often the references in a node count at an offset. -/
def Node.hits (k : Nat) : Node → Nat
  | .mk label span children => label.hits k span + hitsEach k children

/-- How often the references in some nodes count at an offset. -/
def hitsEach (k : Nat) : List Node → Nat
  | [] => 0
  | n :: rest => n.hits k + hitsEach k rest

end

section Lists

variable (k : Nat)

@[simp] theorem spanHits_append (a b : List Span) :
    spanHits k (a ++ b) = spanHits k a + spanHits k b := by
  induction a with
  | nil => exact (Nat.zero_add _).symm
  | cons s a ih => rw [List.cons_append, spanHits, ih, spanHits, Nat.add_assoc]

@[simp] theorem hitsEach_append (a b : List Node) :
    hitsEach k (a ++ b) = hitsEach k a + hitsEach k b := by
  induction a with
  | nil => exact (Nat.zero_add _).symm
  | cons n a ih => rw [List.cons_append, hitsEach, ih, hitsEach, Nat.add_assoc]

@[simp] theorem hitsEach_reverse (nodes : List Node) :
    hitsEach k nodes.reverse = hitsEach k nodes := by
  induction nodes with
  | nil => rfl
  | cons n nodes ih =>
    rw [List.reverse_cons, hitsEach_append, ih, hitsEach, hitsEach, hitsEach, Nat.add_comm,
      Nat.add_zero]

theorem hitsEach_children_le (n : Node) : hitsEach k n.children ≤ n.hits k := by
  obtain ⟨label, span, children⟩ := n
  exact Nat.le_add_left _ _

end Lists

/-! ## Open references -/

/-- How often some open references count at an offset. -/
def openHits (k : Nat) (references : List OpenReference) : Nat :=
  spanHits k (references.map (·.span))

@[simp] theorem openHits_append (k : Nat) (a b : List OpenReference) :
    openHits k (a ++ b) = openHits k a + openHits k b := by
  unfold openHits
  rw [List.map_append, spanHits_append]

section Open

variable {k : Nat} {nodes : List Node}
  (h : ∀ n ∈ nodes, ∀ role bound, openHits k (n.openReferences role bound) ≤ n.hits k)
include h

theorem hits_openReferencesEach_le (bound : List String) :
    openHits k (openReferences bound nodes) ≤ hitsEach k nodes := by
  induction nodes with
  | nil => exact Nat.le_refl _
  | cons n rest ih =>
    obtain ⟨hn, hrest⟩ := List.forall_mem_cons.1 h
    rw [openReferences, openHits_append, hitsEach]
    exact Nat.add_le_add (hn _ _) (ih hrest)

theorem hits_firstOpen_le (role : Role) (bound : List String) :
    openHits k (firstOpen role bound nodes) ≤ hitsEach k nodes := by
  cases nodes with
  | nil => exact Nat.le_refl _
  | cons n rest =>
    obtain ⟨hn, hrest⟩ := List.forall_mem_cons.1 h
    rw [firstOpen, openHits_append, hitsEach]
    exact Nat.add_le_add (hn _ _) (hits_openReferencesEach_le hrest bound)

theorem hits_lastOpen_le (role : Role) (bound : List String) :
    openHits k (lastOpen role bound nodes) ≤ hitsEach k nodes := by
  induction nodes with
  | nil => exact Nat.le_refl _
  | cons n rest ih =>
    obtain ⟨hn, hrest⟩ := List.forall_mem_cons.1 h
    cases rest with
    | nil => exact hn _ _
    | cons m rest =>
      rw [lastOpen, openHits_append, hitsEach]
      · exact Nat.add_le_add (hn _ _) (ih hrest)
      · exact List.cons_ne_nil m rest

theorem hits_arrowOpen_le (bound : List String) :
    openHits k (arrowOpen bound nodes) ≤ hitsEach k nodes := by
  match nodes, h with
  | [], _ => exact Nat.le_refl _
  | [params], h => exact h params List.mem_cons_self _ _
  | params :: body :: rest, h =>
    obtain ⟨hparams, h⟩ := List.forall_mem_cons.1 h
    rw [arrowOpen, openHits_append, hitsEach, hitsEach]
    exact Nat.add_le_add (hparams _ _)
      (Nat.le_trans (h body List.mem_cons_self _ _) (Nat.le_add_right _ _))

theorem hits_functionOpen_le (ownName : Bool) (bound : List String) :
    openHits k (functionOpen ownName bound nodes) ≤ hitsEach k nodes := by
  cases nodes with
  | nil => exact Nat.le_refl _
  | cons name rest =>
    exact Nat.le_trans (hits_arrowOpen_le (List.forall_mem_cons.1 h).2 _) (Nat.le_add_left _ _)

theorem hits_switchOpen_le (bound : List String) :
    openHits k (switchOpen bound nodes) ≤ hitsEach k nodes := by
  cases nodes with
  | nil => exact Nat.le_refl _
  | cons discriminant cases =>
    obtain ⟨hdiscriminant, hcases⟩ := List.forall_mem_cons.1 h
    rw [switchOpen, openHits_append, hitsEach]
    exact Nat.add_le_add (hdiscriminant _ _) (hits_openReferencesEach_le hcases _)

end Open

/-- The open references of a node are among the references that are counted. -/
theorem hits_openReferences_le (k : Nat) (n : Node) (role : Role) (bound : List String) :
    openHits k (n.openReferences role bound) ≤ n.hits k := by
  induction n using Node.induct_children generalizing role bound with
  | h label span children ih =>
    have hown : ∀ {references : List OpenReference},
        openHits k references ≤ hitsEach k children →
        openHits k references ≤ label.hits k span + hitsEach k children :=
      fun hle => Nat.le_trans hle (Nat.le_add_left _ _)
    unfold Node.openReferences Node.hits
    split
    · split
      · exact Nat.zero_le _
      · exact Nat.le_add_right _ _
    · exact hown (hits_lastOpen_le ih _ _)
    · exact hown (hits_firstOpen_le ih _ _)
    · exact hown (hits_firstOpen_le ih _ _)
    · exact hown (hits_functionOpen_le ih _ _)
    · exact hown (hits_arrowOpen_le ih _)
    all_goals first
      | exact hown (hits_openReferencesEach_le ih _)
      | exact hown (hits_switchOpen_le ih _)

/-! ## Places -/

/-- Two spans have no character in common, and none of them lies inside the other. -/
def Span.Apart (a b : Span) : Prop := a.stop ≤ b.start ∨ b.stop ≤ a.start

theorem Span.Apart.symm {a b : Span} (h : a.Apart b) : b.Apart a := Or.symm h

/-- A span counts where it stands. -/
theorem Span.hits_pos {k : Nat} {s : Span} (hstart : s.start ≤ k) (hstop : k < s.stop) :
    0 < s.hits k := by
  unfold Span.hits
  split
  · exact Nat.two_pos
  · rw [if_pos ⟨hstart, hstop⟩]
    exact Nat.one_pos

theorem hits_le_spanHits {k : Nat} {s : Span} {spans : List Span} (h : s ∈ spans) :
    s.hits k ≤ spanHits k spans := by
  induction spans with
  | nil => cases h
  | cons t spans ih =>
    rcases List.mem_cons.1 h with rfl | h
    · exact Nat.le_add_right _ _
    · exact Nat.le_trans (ih h) (Nat.le_add_left _ _)

/-- Spans that are left out count no more. -/
theorem spanHits_le_of_sublist {k : Nat} {a b : List Span} (h : a.Sublist b) :
    spanHits k a ≤ spanHits k b := by
  induction h with
  | slnil => exact Nat.le_refl _
  | cons s _ ih => exact Nat.le_trans ih (Nat.le_add_left _ _)
  | cons_cons s _ ih => exact Nat.add_le_add_left ih _

section Places

variable {spans : List Span} (h : ∀ k, spanHits k spans ≤ 1)
include h

/-- A span that counts at most once anywhere is not empty. -/
theorem start_lt_stop_of_hits {s : Span} (hs : s ∈ spans) : s.start < s.stop := by
  by_contra hempty
  have htwo : s.hits 0 = 2 := if_pos (Nat.le_of_not_lt hempty)
  have hle := Nat.le_trans (hits_le_spanHits hs) (h 0)
  rw [htwo] at hle
  exact absurd hle (by decide)

/-- Spans that count at most once anywhere stand apart. -/
theorem apart_of_hits : spans.Pairwise Span.Apart := by
  induction spans with
  | nil => exact .nil
  | cons s spans ih =>
    refine .cons (fun t ht => ?_) (ih fun k => Nat.le_trans (Nat.le_add_left _ _) (h k))
    by_contra happart
    unfold Span.Apart at happart
    rw [not_or, Nat.not_le, Nat.not_le] at happart
    -- both would count at the offset at which the later of them begins
    have hs := start_lt_stop_of_hits h List.mem_cons_self
    have ht' := start_lt_stop_of_hits h (List.mem_cons_of_mem s ht)
    have hfirst : 0 < s.hits (max s.start t.start) :=
      Span.hits_pos (Nat.le_max_left _ _) (Nat.max_lt.2 ⟨hs, happart.1⟩)
    have hsecond : 0 < t.hits (max s.start t.start) :=
      Span.hits_pos (Nat.le_max_right _ _) (Nat.max_lt.2 ⟨happart.2, ht'⟩)
    have hboth := Nat.add_le_add hfirst (Nat.le_trans hsecond (hits_le_spanHits ht))
    exact absurd (Nat.le_trans hboth (h _)) (by decide)

end Places

/-! ## References by their paths -/

/-- A span counts in a node wherever it counts by itself. -/
def Node.Covers (n : Node) (s : Span) : Prop := ∀ k, s.hits k ≤ n.hits k

theorem Node.Covers.hits_pos {n : Node} {s : Span} (h : n.Covers s) {k : Nat} (hstart : s.start ≤ k)
    (hstop : k < s.stop) : 0 < n.hits k :=
  Nat.lt_of_lt_of_le (Span.hits_pos hstart hstop) (h k)

theorem hits_le_hitsEach (k : Nat) {nodes : List Node} {n : Node} (h : n ∈ nodes) :
    n.hits k ≤ hitsEach k nodes := by
  induction nodes with
  | nil => cases h
  | cons m nodes ih =>
    rw [hitsEach]
    rcases List.mem_cons.1 h with rfl | h
    · exact Nat.le_add_right _ _
    · exact Nat.le_trans (ih h) (Nat.le_add_left _ _)

/-- Nodes at two places both count. -/
theorem hits_add_le_hitsEach (k : Nat) {nodes : List Node} {i j : Nat} {a b : Node}
    (ha : nodes[i]? = some a) (hb : nodes[j]? = some b) (hij : i < j) :
    a.hits k + b.hits k ≤ hitsEach k nodes := by
  induction nodes generalizing i j with
  | nil => cases ha
  | cons n nodes ih =>
    obtain ⟨j, rfl⟩ := Nat.exists_eq_succ_of_ne_zero (Nat.ne_of_gt (Nat.zero_lt_of_lt hij))
    rw [List.getElem?_cons_succ] at hb
    rw [hitsEach]
    cases i with
    | zero =>
      cases ha
      exact Nat.add_le_add_left (hits_le_hitsEach k (List.mem_of_getElem? hb)) _
    | succ i =>
      rw [List.getElem?_cons_succ] at ha
      exact Nat.le_trans (ih ha hb (Nat.lt_of_succ_lt_succ hij)) (Nat.le_add_left _ _)

namespace Node.Refers

variable {role : Role} {n : Node} {scopes scopes' : List String} {r r' : OpenReference}

/-- A reference counts in every node on the way to it. -/
theorem covers (h : n.Refers role scopes r) : n.Covers r.span := by
  induction h with
  | here => exact fun k => Nat.le_add_right _ _
  | @within _ _ _ children _ child _ _ _ hchild _ _ ih =>
    intro k
    have hnode : child.hits k ≤ hitsEach k children := hits_le_hitsEach k (List.mem_of_getElem? hchild)
    exact Nat.le_trans (ih k) (Nat.le_trans hnode (Nat.le_add_left _ _))

/-- Different references both count, and so does one that is found on two ways. -/
theorem hits_add_le (h : n.Refers role scopes r) (h' : n.Refers role scopes' r')
    (hne : r = r' → scopes ≠ scopes') (k : Nat) : r.span.hits k + r'.span.hits k ≤ n.hits k := by
  induction h generalizing scopes' r' with
  | here =>
    cases h' with
    | here => exact absurd rfl (hne rfl)
    | within _ hnames _ => cases hnames
  | @within _ label _ children i child names inner r hchild hnames hrefers ih =>
    cases h' with
    | here => cases hnames
    | @within _ _ _ _ j child' names' inner' _ hchild' hnames' hrefers' =>
      refine Nat.le_trans ?_ (Nat.le_add_left (hitsEach k children) _)
      -- the two ways part here, or they go on in the same child
      rcases Nat.lt_trichotomy i j with hij | rfl | hji
      · have hboth := hits_add_le_hitsEach k hchild hchild' hij
        exact Nat.le_trans (Nat.add_le_add (hrefers.covers k) (hrefers'.covers k)) hboth
      · cases hchild.symm.trans hchild'
        cases hnames.symm.trans hnames'
        have hchildHits := ih hrefers' fun hr heq => hne hr (congrArg (· ++ names) heq)
        exact Nat.le_trans hchildHits (hits_le_hitsEach k (List.mem_of_getElem? hchild))
      · have hboth := hits_add_le_hitsEach k hchild' hchild hji
        rw [Nat.add_comm]
        exact Nat.le_trans (Nat.add_le_add (hrefers'.covers k) (hrefers.covers k)) hboth

/-- Where a node is hit at most once, two ways to references are one way, or the references stand
apart. -/
theorem same_or_apart (h : n.Refers role scopes r) (h' : n.Refers role scopes' r')
    (hhits : ∀ k, n.hits k ≤ 1) : (r = r' ∧ scopes = scopes') ∨ r.span.Apart r'.span := by
  by_cases hsame : r = r' ∧ scopes = scopes'
  · exact .inl hsame
  have hcount : ∀ k, spanHits k [r.span, r'.span] ≤ 1 := by
    intro k
    have hadd := h.hits_add_le h' (fun hr heq => hsame ⟨hr, heq⟩) k
    exact Nat.le_trans hadd (hhits k)
  have hapart := apart_of_hits hcount
  exact .inr (List.rel_of_pairwise_cons hapart (List.mem_singleton_self _))

end Node.Refers

end ModuleBundler.Syntax
