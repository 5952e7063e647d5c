import ModuleBundler.Proofs.Build.BreadthFirst

/-!
# What a module is read as

A discovery loads a module, transforms it and resolves its specifiers one by one, with a resolver
that remembers and links that are there already.  None of this shows in the result, which the
sources alone determine (`Sources.read`):

* `Discovery.process_result` — processing a module gives what it is read as, or the same failure;
* `Sources.read_eq_ok_iff` — a module is read if the sources have it (`Module.ReadFrom`);
* `Sources.accepts_iff` — that is so if its text is accepted and all its specifiers lead to modules
  (`Sources.Accepts`);
* `Sources.refuses_of_read` — and otherwise the failure is that of its text, or that of the first
  specifier that leads nowhere (`Sources.Refuses`).
-/

namespace ModuleBundler

open ModuleBundler.Text

variable {sources : Sources} {transformer : Transformer} {extensions : List String}
  {id importer : ModuleId}

/-! ## Reading -/

/-- Links for specifiers of a module, or the failure of the first one that leads nowhere. -/
def Sources.resolveAll (sources : Sources) (extensions : List String) (importer : ModuleId) :
    List String → Except BuildFailure (List Link)
  | [] => .ok []
  | specifier :: rest =>
    match sources.resolve extensions importer specifier with
    | .error e => .error e
    | .ok target =>
      (resolveAll sources extensions importer rest).map (Link.mk specifier target :: ·)

/-- The module that the sources have under an id, or why they have none. -/
def Sources.read (sources : Sources) (transformer : Transformer) (extensions : List String)
    (id : ModuleId) : Except BuildFailure Module :=
  match sources.load id with
  | .error e => .error e
  | .ok text =>
    match transformer id (String.ofList (unifyLineEnds text.toList)) with
    | .error e => .error e
    | .ok made =>
      (sources.resolveAll extensions id made.requested).map fun links =>
        ⟨id, linksOf links, made.code⟩

theorem addLink_of_notMem {l : Link} {links : List Link}
    (h : l.specifier ∉ links.map (·.specifier)) : addLink l links = links ++ [l] := by
  induction links with
  | nil => rfl
  | cons k rest ih =>
    rw [List.map_cons, List.mem_cons, not_or] at h
    unfold addLink
    rw [if_neg fun heq => h.1 heq.symm, ih h.2, List.cons_append]

/-- Adding a link that is there changes nothing, if it is the one for its specifier. -/
theorem addLink_of_mem {l : Link} {links : List Link} (h : l ∈ links)
    (hunique : ∀ k ∈ links, k.specifier = l.specifier → k = l) : addLink l links = links := by
  induction links with
  | nil => cases h
  | cons k rest ih =>
    unfold addLink
    by_cases hk : k.specifier = l.specifier
    · rw [if_pos hk, hunique k List.mem_cons_self hk]
    · have hrest : l ∈ rest := (List.mem_cons.1 h).resolve_left fun heq => hk (heq ▸ rfl)
      rw [if_neg hk, ih hrest fun a ha => hunique a (List.mem_cons_of_mem _ ha)]

namespace Discovery

/-- Linking gives the links of the specifiers, behind those made before. -/
theorem linkAll_result (specifiers : List String) {links : List Link} {d : Discovery}
    (hd : d.resolver.Faithful sources.has extensions)
    (hlinks : ∀ l ∈ links, sources.resolve extensions importer l.specifier = .ok l.target) :
    (linkAll sources importer links specifiers d).1 =
      (sources.resolveAll extensions importer specifiers).map fun made =>
        made.foldl (fun all l => addLink l all) links := by
  induction specifiers generalizing links d with
  | nil => rfl
  | cons specifier rest ih =>
    have hanswer : (d.resolver.resolve sources.has importer specifier).result =
        sources.resolve extensions importer specifier := Resolver.resolve_result hd _ _
    unfold linkAll Sources.resolveAll
    split
    · -- the specifier has a link, and that is the one it gets now
      rename_i hany
      obtain ⟨l, hl, rfl⟩ := List.mem_map.1 (any_specifier_iff.1 hany)
      have hunique : ∀ k ∈ links, k.specifier = l.specifier → k = l := by
        intro k hk hsame
        have htarget := hlinks k hk
        rw [hsame, hlinks l hl, Except.ok.injEq] at htarget
        cases k
        cases l
        cases hsame
        cases htarget
        rfl
      rw [hlinks l hl, ih hd hlinks]
      cases sources.resolveAll extensions importer rest with
      | error e => rfl
      | ok made =>
        show Except.ok _ = Except.ok (made.foldl _ (addLink l links))
        rw [addLink_of_mem hl hunique]
    · rename_i hany
      have hnew := fun hmem => hany (any_specifier_iff.2 hmem)
      dsimp only
      rw [hanswer]
      cases htarget : sources.resolve extensions importer specifier with
      | error e => rfl
      | ok target =>
        dsimp only
        rw [ih]
        · cases sources.resolveAll extensions importer rest with
          | error e => rfl
          | ok made =>
            show Except.ok _ = Except.ok (made.foldl _ (addLink ⟨specifier, target⟩ links))
            rw [addLink_of_notMem hnew]
        · have hresolved := Resolver.resolve_faithful hd importer specifier
          unfold Discovery.enqueue
          split <;> exact hresolved
        · intro l hl
          rcases List.mem_append.1 hl with hl | hl
          · exact hlinks l hl
          · rw [List.mem_singleton.1 hl]
            exact htarget

/-- Processing a module gives what it is read as. -/
theorem process_result {d : Discovery} (hd : d.resolver.Faithful sources.has extensions)
    (transformer : Transformer) (id : ModuleId) :
    (process sources transformer id d).1 = sources.read transformer extensions id := by
  unfold process Sources.read
  dsimp only
  cases sources.load id with
  | error e => rfl
  | ok text =>
    dsimp only
    cases transformer id (String.ofList (unifyLineEnds text.toList)) with
    | error e => rfl
    | ok made =>
      have hnone : ∀ l ∈ ([] : List Link),
          sources.resolve extensions id l.specifier = .ok l.target := fun l hl => by cases hl
      have hlinks := linkAll_result made.requested
        (d := { d with loads := d.loads ++ [id], transforms := d.transforms ++ [id] }) hd hnone
      dsimp only
      rcases hpair : linkAll sources id [] made.requested
        { d with loads := d.loads ++ [id], transforms := d.transforms ++ [id] } with ⟨result, after⟩
      rw [hpair] at hlinks
      dsimp only at hlinks
      subst hlinks
      cases sources.resolveAll extensions id made.requested <;> rfl

end Discovery

/-- A transformer that refuses a text says where the text is no program. -/
def Transformer.FailsByParsing (transformer : Transformer) : Prop :=
  ∀ id text e, transformer id text = .error e → ∃ d, e = .parse id d

theorem failsByParsing_toLoaderForm : Transformer.FailsByParsing toLoaderForm := by
  intro id text e h
  unfold toLoaderForm at h
  split at h
  · cases h
  · rename_i d _
    cases h
    exact ⟨d, rfl⟩

theorem failsByParsing_transformerFor (target : Option Target) :
    (transformerFor target).FailsByParsing := by
  cases target with
  | none => exact failsByParsing_toLoaderForm
  | some target =>
    intro id text e h
    unfold transformerFor adaptedLoaderForm at h
    dsimp only at h
    split at h
    · exact failsByParsing_toLoaderForm _ _ _ h
    · rename_i d _
      cases h
      exact ⟨d, rfl⟩

namespace Sources

/-! ## Modules that are read -/

/-- Links are made for all specifiers if each of them leads to a module. -/
theorem exists_resolveAll {specifiers : List String}
    (h : ∀ s ∈ specifiers, ∃ target, sources.resolve extensions importer s = .ok target) :
    ∃ links, sources.resolveAll extensions importer specifiers = .ok links := by
  induction specifiers with
  | nil => exact ⟨[], rfl⟩
  | cons specifier rest ih =>
    obtain ⟨target, htarget⟩ := h specifier List.mem_cons_self
    obtain ⟨links, hlinks⟩ := ih fun s hs => h s (List.mem_cons_of_mem _ hs)
    refine ⟨⟨specifier, target⟩ :: links, ?_⟩
    unfold resolveAll
    rw [htarget, hlinks]
    rfl

/-- The failure of specifiers is that of the first one that leads nowhere. -/
theorem first_of_resolveAll {specifiers : List String} {e : BuildFailure}
    (h : sources.resolveAll extensions importer specifiers = .error e) :
    ∃ before specifier behind, specifiers = before ++ specifier :: behind ∧
      (∀ s ∈ before, ∃ target, sources.resolve extensions importer s = .ok target) ∧
      sources.resolve extensions importer specifier = .error e := by
  induction specifiers with
  | nil => cases h
  | cons specifier rest ih =>
    unfold resolveAll at h
    cases hresolve : sources.resolve extensions importer specifier with
    | error e' =>
      rw [hresolve] at h
      cases h
      exact ⟨[], specifier, rest, rfl, by simp, hresolve⟩
    | ok target =>
      rw [hresolve] at h
      cases hrest : sources.resolveAll extensions importer rest with
      | ok links =>
        rw [hrest] at h
        cases h
      | error e' =>
        rw [hrest] at h
        cases h
        obtain ⟨before, last, behind, rfl, hbefore, hlast⟩ := ih hrest
        refine ⟨specifier :: before, last, behind, rfl, ?_, hlast⟩
        intro s hs
        rcases List.mem_cons.1 hs with rfl | hs
        · exact ⟨target, hresolve⟩
        · exact hbefore s hs

/-- A module that is read is as the sources give it. -/
theorem readFrom_of_read {m : Module} (h : sources.read transformer extensions id = .ok m) :
    m.id = id ∧ m.ReadFrom sources transformer extensions := by
  -- a discovery that has done nothing processes the module
  let blank : Discovery := ⟨.fresh extensions, [], [], [], [], [], [], ⟨id, []⟩⟩
  have hblank : blank.Queue sources extensions [] :=
    ⟨Resolver.faithful_fresh sources.has extensions, rfl, FirstAppearances.nil,
      fun a ha => by cases ha⟩
  have hresult := Discovery.process_result hblank.faithful transformer id
  rw [h] at hresult
  obtain ⟨hid, hread, -⟩ := Discovery.process_ok hblank (Prod.ext hresult rfl)
  exact ⟨hid, hread⟩

/-- A module can be read if its text is accepted and all its specifiers lead to modules. -/
def Accepts (sources : Sources) (transformer : Transformer) (extensions : List String)
    (id : ModuleId) : Prop :=
  ∃ text made, sources.load id = .ok text ∧
    transformer id (String.ofList (unifyLineEnds text.toList)) = .ok made ∧
    ∀ s ∈ made.requested, ∃ target, sources.resolve extensions id s = .ok target

theorem exists_read_of_accepts (h : sources.Accepts transformer extensions id) :
    ∃ m, sources.read transformer extensions id = .ok m := by
  obtain ⟨text, made, hload, hmade, hresolved⟩ := h
  obtain ⟨links, hlinks⟩ := exists_resolveAll hresolved
  refine ⟨⟨id, linksOf links, made.code⟩, ?_⟩
  unfold read
  rw [hload]
  dsimp only
  rw [hmade]
  dsimp only
  rw [hlinks]
  rfl

end Sources

/-- What the sources give can be read. -/
theorem Module.ReadFrom.accepts {m : Module} (h : m.ReadFrom sources transformer extensions) :
    sources.Accepts transformer extensions m.id := by
  obtain ⟨text, made, hload, hmade, -, hfirst⟩ := h.transformed
  refine ⟨text, made, hload, hmade, fun s hs => ?_⟩
  obtain ⟨l, hl, rfl⟩ := List.mem_map.1 ((hfirst.mem_iff s).2 hs)
  exact ⟨l.target, h.resolved l hl⟩

namespace Sources

/-- A module is read exactly if the sources give it. -/
theorem read_eq_ok_iff {m : Module} :
    sources.read transformer extensions id = .ok m ↔
      m.id = id ∧ m.ReadFrom sources transformer extensions := by
  refine ⟨readFrom_of_read, ?_⟩
  rintro ⟨rfl, hm⟩
  obtain ⟨m', hread⟩ := exists_read_of_accepts hm.accepts
  obtain ⟨hid, hm'⟩ := readFrom_of_read hread
  rw [hread, hm'.eq hm hid]

theorem accepts_iff :
    sources.Accepts transformer extensions id ↔
      ∃ m, sources.read transformer extensions id = .ok m := by
  refine ⟨exists_read_of_accepts, ?_⟩
  rintro ⟨m, hread⟩
  obtain ⟨rfl, hm⟩ := readFrom_of_read hread
  exact hm.accepts

/-! ## Modules that are not read -/

/-- Why a module cannot be read. -/
inductive Refuses (sources : Sources) (transformer : Transformer) (extensions : List String)
    (id : ModuleId) : BuildFailure → Prop
  /-- Its text is not accepted. -/
  | unparsed {text : String} {d : Syntax.Diagnostic} : sources.load id = .ok text →
      transformer id (String.ofList (unifyLineEnds text.toList)) = .error (.parse id d) →
      Refuses sources transformer extensions id (.parse id d)
  /-- A specifier leads nowhere, and all before it lead to modules. -/
  | unresolved {text : String} {made : Transformed} {before behind : List String}
      {specifier : String} {reason : Unresolved} : sources.load id = .ok text →
      transformer id (String.ofList (unifyLineEnds text.toList)) = .ok made →
      made.requested = before ++ specifier :: behind →
      (∀ s ∈ before, ∃ target, sources.resolve extensions id s = .ok target) →
      sources.resolve extensions id specifier =
        .error (.resolution (.module id) specifier reason) →
      Refuses sources transformer extensions id (.resolution (.module id) specifier reason)

/-- A failure to resolve a specifier names the module and the specifier. -/
theorem reason_of_resolve {specifier : String} {e : BuildFailure}
    (h : sources.resolve extensions importer specifier = .error e) :
    ∃ reason, e = .resolution (.module importer) specifier reason := by
  unfold Sources.resolve Resolver.resolve at h
  split at h
  · rename_i base _
    unfold Resolver.findFor at h
    dsimp only at h
    split at h
    · cases h
    · cases h
      exact ⟨.notFound base, rfl⟩
  · rename_i reason _
    cases h
    exact ⟨reason, rfl⟩

theorem Refuses.not_accepts {e : BuildFailure} (h : sources.Refuses transformer extensions id e) :
    ¬ sources.Accepts transformer extensions id := by
  rintro ⟨text, made, hload, hmade, hresolved⟩
  cases h with
  | unparsed hload' hmade' =>
    cases hload'.symm.trans hload
    cases hmade'.symm.trans hmade
  | @unresolved _ _ before behind specifier reason hload' hmade' hsplit hbefore hresolve =>
    cases hload'.symm.trans hload
    cases hmade'.symm.trans hmade
    have hmem : specifier ∈ made.requested := by
      rw [hsplit]
      exact List.mem_append_right _ List.mem_cons_self
    obtain ⟨target, htarget⟩ := hresolved specifier hmem
    cases hresolve.symm.trans htarget

theorem refuses_of_read (hparse : transformer.FailsByParsing)
    (hload : ∃ text, sources.load id = .ok text) {e : BuildFailure}
    (h : sources.read transformer extensions id = .error e) :
    sources.Refuses transformer extensions id e := by
  obtain ⟨text, hload⟩ := hload
  unfold read at h
  rw [hload] at h
  dsimp only at h
  cases hmade : transformer id (String.ofList (unifyLineEnds text.toList)) with
  | error e' =>
    rw [hmade] at h
    cases h
    obtain ⟨d, rfl⟩ := hparse _ _ _ hmade
    exact .unparsed hload hmade
  | ok made =>
    rw [hmade] at h
    dsimp only at h
    cases hlinks : sources.resolveAll extensions id made.requested with
    | ok links =>
      rw [hlinks] at h
      cases h
    | error e' =>
      rw [hlinks] at h
      cases h
      obtain ⟨before, specifier, behind, hsplit, hbefore, hresolve⟩ := first_of_resolveAll hlinks
      obtain ⟨reason, rfl⟩ := reason_of_resolve hresolve
      exact .unresolved hload hmade hsplit hbefore hresolve

/-! ## The table of modules -/

/-- The module that is read under an id, or one without links. -/
def outlined (sources : Sources) (transformer : Transformer) (extensions : List String)
    (id : ModuleId) : Module :=
  match sources.read transformer extensions id with
  | .ok m => m
  | .error _ => ⟨id, [], ""⟩

theorem outlined_id (sources : Sources) (transformer : Transformer) (extensions : List String)
    (id : ModuleId) : (sources.outlined transformer extensions id).id = id := by
  unfold outlined
  split
  · rename_i m hread
    exact (readFrom_of_read hread).1
  · rfl

theorem outlined_of_readFrom {m : Module} (h : m.ReadFrom sources transformer extensions) :
    sources.outlined transformer extensions m.id = m := by
  unfold outlined
  rw [read_eq_ok_iff.2 ⟨rfl, h⟩]

/-- A module with a link can be read. -/
theorem readFrom_outlined {target : ModuleId}
    (h : target ∈ (sources.outlined transformer extensions id).targets) :
    (sources.outlined transformer extensions id).ReadFrom sources transformer extensions := by
  unfold outlined at h ⊢
  split at h
  · rename_i m hread
    exact (readFrom_of_read hread).2
  · cases h

/-- What a module leads to exists. -/
theorem has_of_mem_targets {m : Module} (h : m.ReadFrom sources transformer extensions)
    {target : ModuleId} (htarget : target ∈ m.targets) : sources.has target = true := by
  obtain ⟨l, hl, rfl⟩ := List.mem_map.1 htarget
  exact Resolver.has_of_resolve (Resolver.faithful_fresh sources.has extensions) (h.resolved l hl)

end Sources

end ModuleBundler
