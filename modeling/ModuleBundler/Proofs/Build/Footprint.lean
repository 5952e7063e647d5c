import ModuleBundler.Proofs.Build.BreadthFirst
import ModuleBundler.Proofs.Build.Moment

/-!
# Builds depend on what they ask for

A discovery notes every id whose existence it asks and every id whose text it loads.  Sources that
give the same answers there (`Sources.AgreeOn`) cannot be told apart by the build that asked:

* `Resolver.resolve_congr` and `Resolver.resolveFromRoot_congr` — a resolver sees nothing but the
  answers to its probes;
* `Discovery.Moment.Next.transfer` — a step of a build is also one over the other sources, and
  `Discovery.Moment.Leads.transfer` follows it step by step;
* `buildWith_eq_of_agreeOn` — so both builds are the same, with all that they asked and did;
* `buildWith_eq_of_same` — what is loaded exists, so sources with the same ids and texts cannot be
  told apart, whatever they answer about ids that do not exist;
* **`buildWith_observed`** — in particular, files that were neither probed nor loaded do not matter,
  and neither does the order of the files.
-/

namespace ModuleBundler

open Relation ModuleBundler.Text

variable {sources sources' : Sources} {transformer : Transformer}

/-! ## Look-ups -/

section Resolver

variable {has has' : ModuleId → Bool} {r : Resolver}

theorem probe_congr {ids : List ModuleId} (h : ∀ id ∈ (probe has ids).2, has' id = has id) :
    probe has' ids = probe has ids := by
  induction ids with
  | nil => rfl
  | cons id rest ih =>
    unfold probe at h ⊢
    by_cases hid : has id = true
    · rw [if_pos hid] at h
      rw [h id List.mem_cons_self, if_pos hid, if_pos hid]
    · rw [if_neg hid] at h
      rw [h id List.mem_cons_self, if_neg hid, if_neg hid,
        ih fun a ha => h a (List.mem_cons_of_mem _ ha)]

namespace Resolver

theorem find_congr {base : ModuleId} (h : ∀ id ∈ (r.find has base).probes, has' id = has id) :
    r.find has' base = r.find has base := by
  unfold find at h ⊢
  split
  · rfl
  · rename_i hunknown
    rw [hunknown] at h
    rw [probe_congr h]

theorem findFor_congr {importer : Importer} {specifier : String} {base : ModuleId}
    (h : ∀ id ∈ (r.findFor has importer specifier base).probes, has' id = has id) :
    r.findFor has' importer specifier base = r.findFor has importer specifier base := by
  have hprobes : (r.findFor has importer specifier base).probes = (r.find has base).probes := by
    unfold findFor
    dsimp only
    split <;> rfl
  rw [hprobes] at h
  unfold findFor
  rw [find_congr h]

/-- A look-up is the same where its probes get the same answers. -/
theorem resolve_congr {importer : ModuleId} {specifier : String}
    (h : ∀ id ∈ (r.resolve has importer specifier).probes, has' id = has id) :
    r.resolve has' importer specifier = r.resolve has importer specifier := by
  unfold resolve at h ⊢
  split
  · rename_i base hbase
    rw [hbase] at h
    exact findFor_congr h
  · rfl

theorem resolveFromRoot_congr {specifier : String}
    (h : ∀ id ∈ (r.resolveFromRoot has specifier).probes, has' id = has id) :
    r.resolveFromRoot has' specifier = r.resolveFromRoot has specifier := by
  unfold resolveFromRoot at h ⊢
  split
  · rfl
  · rename_i hblank
    rw [if_neg hblank] at h
    exact findFor_congr h

end Resolver

end Resolver

/-! ## Steps -/

/-- Two sources give the same answers to all that a discovery has asked of the first. -/
structure Sources.AgreeOn (sources sources' : Sources) (d : Discovery) : Prop where
  has_eq : ∀ id ∈ d.probes, sources'.has id = sources.has id
  load_eq : ∀ id ∈ d.loads, sources'.load id = sources.load id

namespace Discovery

@[simp] theorem enqueue_probes (d : Discovery) (id : ModuleId) :
    (d.enqueue id).probes = d.probes := by
  unfold enqueue
  split <;> rfl

@[simp] theorem enqueue_loads (d : Discovery) (id : ModuleId) :
    (d.enqueue id).loads = d.loads := by
  unfold enqueue
  split <;> rfl

namespace Moment

/-- What was asked stays on record. -/
theorem Next.grown {p q : Moment} (h : Next sources transformer p q) :
    p.state.probes <+: q.state.probes ∧ p.state.loads <+: q.state.loads := by
  cases h with
  | done | skip | known | linked => exact ⟨List.prefix_refl _, List.prefix_refl _⟩
  | unread | refused | opened => exact ⟨List.prefix_refl _, List.prefix_append _ _⟩
  | unresolved => exact ⟨List.prefix_append _ _, List.prefix_refl _⟩
  | resolved =>
    simp only [enqueue_probes, enqueue_loads]
    exact ⟨List.prefix_append _ _, List.prefix_refl _⟩

theorem Next.agreeOn {p q : Moment} (h : Next sources transformer p q)
    (hq : sources.AgreeOn sources' q.state) : sources.AgreeOn sources' p.state :=
  ⟨fun id hid => hq.has_eq id (h.grown.1.subset hid),
    fun id hid => hq.load_eq id (h.grown.2.subset hid)⟩

/-- A step is also one over sources that give the same answers to all that it has asked. -/
theorem Next.transfer {p q : Moment} (h : Next sources transformer p q)
    (hq : sources.AgreeOn sources' q.state) : Next sources' transformer p q := by
  cases h with
  | done hwork => exact .done hwork
  | skip hwork hvisited => exact .skip hwork hvisited
  | @unread d id rest e hwork hnew hload =>
    have hsame := hq.load_eq id (List.mem_append_right d.loads (List.mem_singleton_self id))
    exact .unread hwork hnew (hsame.trans hload)
  | @refused d id rest text e hwork hnew hload hmade =>
    have hsame := hq.load_eq id (List.mem_append_right d.loads (List.mem_singleton_self id))
    exact .refused hwork hnew (hsame.trans hload) hmade
  | @opened d id rest text made hwork hnew hload hmade =>
    have hsame := hq.load_eq id (List.mem_append_right d.loads (List.mem_singleton_self id))
    exact .opened hwork hnew (hsame.trans hload) hmade
  | known hmem => exact .known hmem
  | @unresolved d importer links specifier remaining code e hnew hresult =>
    have hsame : d.resolver.resolve sources'.has importer specifier =
        d.resolver.resolve sources.has importer specifier :=
      Resolver.resolve_congr fun id hid => hq.has_eq id (List.mem_append_right d.probes hid)
    rw [← hsame] at hresult ⊢
    exact .unresolved hnew hresult
  | @resolved d importer links specifier remaining code target hnew hresult =>
    have hsame : d.resolver.resolve sources'.has importer specifier =
        d.resolver.resolve sources.has importer specifier := by
      refine Resolver.resolve_congr fun id hid => hq.has_eq id ?_
      rw [enqueue_probes]
      exact List.mem_append_right d.probes hid
    rw [← hsame] at hresult ⊢
    exact .resolved hnew hresult
  | linked => exact .linked

theorem Leads.transfer {p q : Moment} (h : Leads sources transformer p q)
    (hq : sources.AgreeOn sources' q.state) : Leads sources' transformer p q := by
  induction h with
  | refl => exact ReflTransGen.refl
  | tail _ hnext ih => exact (ih (hnext.agreeOn hq)).tail (hnext.transfer hq)

theorem Leads.agreeOn {p q : Moment} (h : Leads sources transformer p q)
    (hq : sources.AgreeOn sources' q.state) : sources.AgreeOn sources' p.state := by
  induction h with
  | refl => exact hq
  | tail _ hnext ih => exact ih (hnext.agreeOn hq)

theorem first_congr {resolver : Resolver} {entrySpecifier : String}
    (h : sources.AgreeOn sources' (first sources resolver entrySpecifier).state) :
    first sources' resolver entrySpecifier = first sources resolver entrySpecifier := by
  have hprobes : (first sources resolver entrySpecifier).state.probes =
      (resolver.resolveFromRoot sources.has entrySpecifier).probes := by
    unfold first
    dsimp only
    split <;> rfl
  have hasked := h.has_eq
  rw [hprobes] at hasked
  unfold first
  rw [Resolver.resolveFromRoot_congr hasked]

end Moment

end Discovery

/-! ## Builds -/

open Discovery

/-- A build is the same over sources that give the same answers to all that it has asked. -/
theorem buildWith_eq_of_agreeOn (hs : sources.Consistent) (hb : sources.Bounded)
    (hs' : sources'.Consistent) (hb' : sources'.Bounded) {resolver : Resolver}
    {entrySpecifier : String}
    (h : sources.AgreeOn sources' (buildWith sources transformer resolver entrySpecifier).2) :
    buildWith sources' transformer resolver entrySpecifier =
      buildWith sources transformer resolver entrySpecifier := by
  have hend := buildWith_leads hs hb transformer resolver entrySpecifier
  have hend' := buildWith_leads hs' hb' transformer resolver entrySpecifier
  rw [Moment.first_congr (hend.agreeOn h)] at hend'
  obtain ⟨hresult, hstate⟩ := hend'.ended_unique (hend.transfer h)
  exact Prod.ext hresult hstate

/-! ## What is loaded exists -/

namespace Discovery.Moment

variable {extensions : List String}

/-- What was ever put on the worklist exists. -/
structure Present (sources : Sources) (extensions : List String) (p : Moment) : Prop where
  faithful : p.state.resolver.Faithful sources.has extensions
  queued : ∀ id ∈ p.state.queued, sources.has id = true

theorem Next.present {p q : Moment} (h : Next sources transformer p q)
    (hp : p.Present sources extensions) : q.Present sources extensions := by
  obtain ⟨hfaithful, hqueued⟩ := hp
  cases h with
  | done | skip | known | linked | unread | refused | opened => exact ⟨hfaithful, hqueued⟩
  | unresolved => exact ⟨Resolver.resolve_faithful hfaithful _ _, hqueued⟩
  | @resolved d importer links specifier remaining code target hnew hresult =>
    have hafter := Resolver.resolve_faithful hfaithful importer specifier
    have htarget := Resolver.has_of_resolve hfaithful hresult
    by_cases hin : target ∈ d.queued
    · rw [enqueue_of_mem (d := d.asked _) hin]
      exact ⟨hafter, hqueued⟩
    · rw [enqueue_of_notMem (d := d.asked _) hin]
      refine ⟨hafter, ?_⟩
      intro id hid
      rcases List.mem_append.1 hid with hid | hid
      · exact hqueued id hid
      · rw [List.mem_singleton.1 hid]
        exact htarget

theorem Leads.present {p q : Moment} (h : Leads sources transformer p q)
    (hp : p.Present sources extensions) : q.Present sources extensions := by
  induction h with
  | refl => exact hp
  | tail _ hnext ih => exact hnext.present ih

theorem first_present {resolver : Resolver} (hr : resolver.Faithful sources.has extensions)
    (entrySpecifier : String) :
    (first sources resolver entrySpecifier).Present sources extensions := by
  have hafter := Resolver.resolveFromRoot_faithful hr entrySpecifier
  unfold first
  dsimp only
  split
  · exact ⟨hafter, fun id hid => by cases hid⟩
  · rename_i entry hentry
    refine ⟨hafter, fun id hid => ?_⟩
    rw [List.mem_singleton.1 hid]
    exact Resolver.has_of_resolveFromRoot hr hentry

end Discovery.Moment

/-- What a build loads exists. -/
theorem has_of_mem_loads {extensions : List String} (hs : sources.Consistent)
    (hb : sources.Bounded) {resolver : Resolver} (hr : resolver.Faithful sources.has extensions)
    {entrySpecifier : String} {id : ModuleId}
    (hid : id ∈ (buildWith sources transformer resolver entrySpecifier).2.loads) :
    sources.has id = true := by
  have hend := buildWith_leads hs hb transformer resolver entrySpecifier
  have hordered := (hend.kept hs (Moment.first_kept sources resolver entrySpecifier)).ordered
  have hpresent := hend.present (Moment.first_present hr entrySpecifier)
  refine hpresent.queued id ?_
  rw [hordered.queued_eq]
  rw [hordered.loads_eq] at hid
  exact List.mem_append_left _ hid

/-- A build is the same over sources with the same ids and the same texts. -/
theorem buildWith_eq_of_same {extensions : List String} (hs : sources.Consistent)
    (hb : sources.Bounded) (hs' : sources'.Consistent) (hb' : sources'.Bounded)
    {resolver : Resolver} (hr : resolver.Faithful sources.has extensions)
    (hhas : ∀ id, sources'.has id = sources.has id)
    (hload : ∀ id, sources.has id = true → sources'.load id = sources.load id)
    (entrySpecifier : String) :
    buildWith sources' transformer resolver entrySpecifier =
      buildWith sources transformer resolver entrySpecifier :=
  buildWith_eq_of_agreeOn hs hb hs' hb'
    ⟨fun id _ => hhas id, fun id hid => hload id (has_of_mem_loads hs hb hr hid)⟩

/-! ## Files -/

/-- Takes the module with an id away. -/
def removeFile (id : ModuleId) (files : List (ModuleId × String)) : List (ModuleId × String) :=
  files.filter fun f => f.1 != id

section Files

variable {files files' : List (ModuleId × String)} {a id : ModuleId} {text : String}

/-- Files in which an id has the same text, or none, give the same answers about it. -/
theorem Sources.has_ofFiles_congr
    (h : (Sources.ofFiles files').load id = (Sources.ofFiles files).load id) :
    (Sources.ofFiles files').has id = (Sources.ofFiles files).has id := by
  rw [Bool.eq_iff_iff, consistent_ofFiles files' id, consistent_ofFiles files id, h]

/-- A text is loaded if it is found, so what is found alike is loaded alike. -/
theorem Sources.load_ofFiles_congr
    (h : (files'.find? fun f => f.1 == a) = files.find? fun f => f.1 == a) :
    (Sources.ofFiles files').load a = (Sources.ofFiles files).load a := by
  unfold ofFiles
  dsimp only
  rw [h]

theorem find?_putFile (h : a ≠ id) :
    ((putFile id text files).find? fun f => f.1 == a) = files.find? fun f => f.1 == a := by
  have hother : ((id, text).1 == a) = false := beq_false_of_ne h.symm
  induction files with
  | nil => exact List.find?_cons_of_neg (by simpa using h.symm)
  | cons f rest ih =>
    unfold putFile
    split
    · rename_i hf
      rw [List.find?_cons, List.find?_cons, hother, hf, hother]
    · rw [List.find?_cons, List.find?_cons, ih]

theorem find?_removeFile (h : a ≠ id) :
    ((removeFile id files).find? fun f => f.1 == a) = files.find? fun f => f.1 == a := by
  unfold removeFile
  rw [List.find?_filter]
  congr 1
  funext f
  by_cases hf : f.1 = a
  · simp [hf, h]
  · simp [hf]

/-- Files with different ids are found by their ids. -/
theorem find?_eq_some_iff (hnodup : (files.map (·.1)).Nodup) {f : ModuleId × String} :
    (files.find? fun f => f.1 == a) = some f ↔ f ∈ files ∧ f.1 = a := by
  constructor
  · intro hf
    exact ⟨List.mem_of_find?_eq_some hf, by simpa using List.find?_some hf⟩
  · rintro ⟨hf, rfl⟩
    cases hfind : files.find? fun k => k.1 == f.1 with
    | none => exact absurd (beq_self_eq_true f.1) (List.find?_eq_none.1 hfind f hf)
    | some k =>
      have hid : k.1 = f.1 := by simpa using List.find?_some hfind
      rw [List.inj_on_of_nodup_map hnodup (List.mem_of_find?_eq_some hfind) hf hid]

/-- What is found in files with different ids does not depend on their order. -/
theorem find?_perm (hnodup : (files.map (·.1)).Nodup) (h : files'.Perm files) :
    (files'.find? fun f => f.1 == a) = files.find? fun f => f.1 == a := by
  have hnodup' : (files'.map (·.1)).Nodup := (h.map _).nodup_iff.2 hnodup
  refine Option.ext fun f => ?_
  rw [find?_eq_some_iff hnodup', find?_eq_some_iff hnodup, h.mem_iff]

end Files

/-- A build from files depends on nothing but the existence of the ids that it probes and the texts
that it loads: it ends in the same way, and asks, loads and transforms the same, over all files that
agree there.  So it does not matter whether a file that was neither probed nor loaded is added,
changed or taken away, nor in which order the files are given. -/
theorem buildWith_observed (files : List (ModuleId × String)) (transformer : Transformer)
    (resolver : Resolver) (entrySpecifier : String) :
    let step := buildWith (.ofFiles files) transformer resolver entrySpecifier
    (∀ files', (Sources.ofFiles files).AgreeOn (.ofFiles files') step.2 →
      buildWith (.ofFiles files') transformer resolver entrySpecifier = step) ∧
    (∀ id, id ∉ step.2.probes → id ∉ step.2.loads →
      (∀ text, buildWith (.ofFiles (putFile id text files)) transformer resolver entrySpecifier =
        step) ∧
      buildWith (.ofFiles (removeFile id files)) transformer resolver entrySpecifier = step) ∧
    ∀ files', (files.map (·.1)).Nodup → files'.Perm files →
      buildWith (.ofFiles files') transformer resolver entrySpecifier = step := by
  intro step
  have hagree : ∀ files', (Sources.ofFiles files).AgreeOn (.ofFiles files') step.2 →
      buildWith (.ofFiles files') transformer resolver entrySpecifier = step := fun files' =>
    buildWith_eq_of_agreeOn (Sources.consistent_ofFiles files) (Sources.bounded_ofFiles files)
      (Sources.consistent_ofFiles files') (Sources.bounded_ofFiles files')
  -- where the same file is found, the answers are the same
  have hfound : ∀ files' : List (ModuleId × String), (∀ a, a ∈ step.2.probes ∨ a ∈ step.2.loads →
      (files'.find? fun f => f.1 == a) = files.find? fun f => f.1 == a) →
      buildWith (.ofFiles files') transformer resolver entrySpecifier = step := by
    intro files' hfiles
    exact hagree files'
      ⟨fun a ha => Sources.has_ofFiles_congr (Sources.load_ofFiles_congr (hfiles a (Or.inl ha))),
        fun a ha => Sources.load_ofFiles_congr (hfiles a (Or.inr ha))⟩
  refine ⟨hagree, fun id hprobes hloads => ?_, fun files' hnodup hperm => ?_⟩
  · have hne : ∀ a, a ∈ step.2.probes ∨ a ∈ step.2.loads → a ≠ id := by
      rintro a (ha | ha) rfl
      · exact hprobes ha
      · exact hloads ha
    exact ⟨fun text => hfound _ fun a ha => find?_putFile (hne a ha),
      hfound _ fun a ha => find?_removeFile (hne a ha)⟩
  · exact hfound files' fun a _ => find?_perm hnodup hperm

/-- The files of `circularFiles` in another order, and a file that no module asks for. -/
def reorderedFiles : List (ModuleId × String) :=
  (.ofPath "/c.js", "lodash") :: circularFiles.reverse

theorem reorderedFiles_observed :
    (Sources.ofFiles circularFiles).AgreeOn (.ofFiles reorderedFiles)
      (buildWith (.ofFiles circularFiles) requestLines (.fresh defaultExtensions) "main").2 ∧
    buildWith (.ofFiles reorderedFiles) requestLines (.fresh defaultExtensions) "main" =
      buildWith (.ofFiles circularFiles) requestLines (.fresh defaultExtensions) "main" := by
  have hagree : (Sources.ofFiles circularFiles).AgreeOn (.ofFiles reorderedFiles)
      (buildWith (.ofFiles circularFiles) requestLines (.fresh defaultExtensions) "main").2 :=
    ⟨by decide +kernel, by decide +kernel⟩
  exact ⟨hagree, (buildWith_observed circularFiles requestLines (.fresh defaultExtensions)
    "main").1 reorderedFiles hagree⟩

end ModuleBundler
