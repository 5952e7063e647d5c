import ModuleBundler.Build.Transformer
import ModuleBundler.Proofs.Build.BreadthFirst
import ModuleBundler.Proofs.Loader.Linked
import ModuleBundler.Proofs.LoaderForm.Header

/-!
# The requests of built modules

Four places keep the specifiers of a module: the calls in the header of its code, the list that
loader form gives with it, the links that a build makes from that list, and the loader that follows
the links.  This file shows that they agree.

* `Module.ReadFrom.hoists` — a built module begins with its header, whose calls are the requests of
  its source, in order; and the specifiers of its links are those of the calls;
* `Registry.linked_ofGraph` — in a registry of a closed graph, a body that requires nothing but the
  specifiers of its module's links requires what is linked to a registered module;
* **`buildWith_requestsMet`** — so no request of a built module is left open, neither in the graph
  nor when it runs.
-/

namespace ModuleBundler

open LoaderForm Text

/-! ## Headers of modules -/

/-- The lines that loader form puts in front of the module of an id, if the sources have a program
under it. -/
def Sources.headerOf (sources : Sources) (id : ModuleId) : List String :=
  match sources.load id with
  | .error _ => []
  | .ok text =>
    match checkedProgram (unifyLineEnds text.toList) with
    | .error _ => []
    | .ok program => header program

/-- The specifiers that the calls in the header of a module require. -/
def Sources.hoisted (sources : Sources) (id : ModuleId) : List String :=
  hoistedRequires (sources.headerOf id)

/-- A module begins with its header, the calls in it are the requests that loader form finds in the
source of the module, and the links of the module are for the specifiers of the calls. -/
structure Module.Hoists (sources : Sources) (m : Module) : Prop where
  kept : (endLines (sources.headerOf m.id)).toList <+: m.code.toList
  requested : ∃ text form, sources.load m.id = .ok text ∧
    LoaderForm.ofSource (String.ofList (unifyLineEnds text.toList)) = .ok form ∧
    m.code = String.ofList (dropSourceMapComment form.code.toList) ∧
    sources.hoisted m.id = form.requested
  linked : ∀ specifier, specifier ∈ m.imports.map (·.specifier) ↔ specifier ∈ sources.hoisted m.id

/-- A module that is read from sources begins with its header. -/
theorem Module.ReadFrom.hoists {sources : Sources} {extensions : List String} {m : Module}
    (h : m.ReadFrom sources toLoaderForm extensions) : m.Hoists sources := by
  obtain ⟨text, made, hload, hmade, hcode, hfirst⟩ := h.transformed
  unfold toLoaderForm LoaderForm.ofSource at hmade
  dsimp only at hmade
  rw [String.toList_ofList] at hmade
  split at hmade
  · rename_i form hform
    split at hform
    · rename_i program hprogram
      cases hform
      cases hmade
      have hheader : sources.headerOf m.id = header program := by
        unfold Sources.headerOf
        rw [hload]
        dsimp only
        rw [hprogram]
      have hhoisted : sources.hoisted m.id = (requests program).map (·.source) := by
        unfold Sources.hoisted
        rw [hheader, hoistedRequires_header]
      refine ⟨?_, ⟨text, ofProgram (unifyLineEnds text.toList) program, hload, ?_, hcode,
        hhoisted⟩, ?_⟩
      · rw [hheader, hcode, String.toList_ofList]
        exact header_prefix_drop _ program
      · unfold LoaderForm.ofSource
        dsimp only
        rw [String.toList_ofList, hprogram]
      · intro specifier
        rw [hhoisted]
        exact hfirst.mem_iff specifier
    · cases hform
  · cases hmade

/-! ## Running built modules -/

namespace Loader

/-- A body requires none but the given specifiers. -/
def RequiresOnly (specifiers : List String) (body : List Statement) : Prop :=
  ∀ s ∈ body, ∀ specifier, s.requested = some specifier → specifier ∈ specifiers

namespace Registry

variable {r : Registry} {g : ModuleGraph} {compile : Module → Except RunFailure (List Statement)}

/-- A registered module is a compiled one of the graph. -/
theorem exists_compiled (h : (ofGraph g compile).1 = .ok r) {m : Registered} (hm : m ∈ r.modules) :
    ∃ m' ∈ g.modules, m'.id = m.id ∧ m'.imports = m.imports ∧ compile m' = .ok m.body := by
  unfold ofGraph at h
  dsimp only at h
  cases hmade : (compileAll compile g.modules).1 with
  | error e =>
    rw [hmade] at h
    cases h
  | ok made =>
    rw [hmade] at h
    cases h
    have hcompiled := compileAll_forall₂ hmade
    obtain ⟨i, hi, rfl⟩ := List.getElem_of_mem hm
    have hi' : i < g.modules.length := by
      rw [hcompiled.length_eq]
      exact hi
    obtain ⟨hid, himports, hbody⟩ := (List.forall₂_iff_get.1 hcompiled).2 i hi' hi
    exact ⟨_, List.getElem_mem hi', hid.symm, himports.symm, hbody⟩

/-- Bodies that require only what their modules link to require what is registered. -/
theorem linked_ofGraph (hg : g.Closed) (h : (ofGraph g compile).1 = .ok r)
    (hbody : ∀ m ∈ g.modules, ∀ body, compile m = .ok body →
      RequiresOnly (m.imports.map (·.specifier)) body) : r.Linked := by
  have hmirrors := mirrors_ofGraph h
  intro m hm s hs specifier hspecifier
  obtain ⟨m', hm', -, himports, hcompile⟩ := exists_compiled h hm
  have hmem := hbody m' hm' m.body hcompile s hs specifier hspecifier
  rw [himports] at hmem
  obtain ⟨l, hl, rfl⟩ := List.mem_map.1 hmem
  obtain ⟨target, htarget⟩ :=
    hmirrors.exists_registered (hg.target_mem (hmirrors.linksTo hm hl))
  exact ⟨l.target, target, hmirrors.targetOf_eq hg hm hl, htarget⟩

end Registry

/-- A loader fails with nothing but the messages of bodies, apart from calls for modules that are not
registered. -/
structure Session.Met (s : Session) : Prop where
  /-- What the bodies of a call require, whether they pass a failure on or log it. -/
  inside : ∀ c p, s.Passes c p → ∀ statement rest specifier e v,
    p.rest = statement :: rest → statement.requested = some specifier →
    p.frame.requireSpecifier (Point.requiring s.registry p.waiting) specifier p.world =
      (.error e, v) → e.InBody
  /-- The calls themselves. -/
  outside : ∀ c e, (s.call c).1 = .error e → e.InBody ∨
    e = .unknownModule (c.target s.registry) ∧ s.registry.get? (c.target s.registry) = none

theorem Session.met_of_linked {s : Session} (h : s.registry.Linked) : s.Met := by
  refine ⟨?_, fun c e herror => call_error h herror⟩
  rintro c ⟨waiting, f, _, w⟩ hp statement rest specifier e v rfl hrequested herror
  exact Registry.Passes.require_error h hp hrequested herror

end Loader

/-! ## Built graphs -/

open Loader

/-- No request of a graph is left open. -/
structure ModuleGraph.RequestsMet (sources : Sources) (g : ModuleGraph) : Prop where
  hoists : ∀ m ∈ g.modules, m.Hoists sources
  /-- Links lead to registered modules. -/
  registered : ∀ compile r, (Registry.ofGraph g compile).1 = .ok r →
    ∀ m ∈ g.modules, ∀ l ∈ m.imports, ∃ target ∈ r.modules, target.id = l.target
  /-- Bodies that require only what the header of their module requires are never refused. -/
  met : ∀ compile (s : Session), (Registry.ofGraph g compile).1 = .ok s.registry →
    (∀ m ∈ g.modules, ∀ body, compile m = .ok body → RequiresOnly (sources.hoisted m.id) body) →
    s.Met

/-- No request of a graph that is built from files is left open. -/
theorem buildWith_requestsMet (files : List (ModuleId × String)) (extensions earlier : List String)
    (entrySpecifier : String) (g : ModuleGraph)
    (h : (buildWith (.ofFiles files) toLoaderForm
      ((Resolver.fresh extensions).afterBuilds (.ofFiles files) toLoaderForm earlier)
      entrySpecifier).1 = .ok g) : g.RequestsMet (.ofFiles files) := by
  have hr := Resolver.faithful_afterBuilds toLoaderForm
    (Resolver.faithful_fresh (Sources.ofFiles files).has extensions) earlier
  obtain ⟨-, hread, -⟩ := buildWith_found (Sources.bounded_ofFiles files) hr h
  have hclosed := buildWith_closed h
  refine ⟨fun m hm => (hread m hm).hoists, ?_, ?_⟩
  · intro compile r hregistry m hm l hl
    have hmirrors := Registry.mirrors_ofGraph hregistry
    have hmem := hclosed.target_mem ⟨m, hm, rfl, List.mem_map_of_mem hl⟩
    obtain ⟨target, htarget⟩ := hmirrors.exists_registered hmem
    exact ⟨target, Registry.mem_of_get? htarget, Registry.id_of_get? htarget⟩
  · intro compile s hregistry hbody
    refine Session.met_of_linked (Registry.linked_ofGraph hclosed hregistry ?_)
    intro m hm body hcompile statement hstatement specifier hspecifier
    exact ((hread m hm).hoists.linked specifier).2
      (hbody m hm body hcompile statement hstatement specifier hspecifier)

/-- Two modules that request each other; the first names the second twice, once with an escape in the
specifier, and the second ends in a comment that names its source map. -/
def escapedFiles : List (ModuleId × String) :=
  [(.ofPath "/main.js", "import \x7ba\x7d from './a\\x2ejs';\nimport './a.js';\n"),
    (.ofPath "/a.js", "import './main';\nexport const a = 1;\n//# sourceMappingURL=a.js.map\n")]

theorem escapedFiles_requestsMet :
    ∃ g, (buildWith (.ofFiles escapedFiles) toLoaderForm
        ((Resolver.fresh defaultExtensions).afterBuilds (.ofFiles escapedFiles) toLoaderForm [])
        "main").1 = .ok g ∧
      g.modules.map (fun m => (m.id, m.imports.map (·.specifier))) =
        [(.ofPath "/main.js", ["./a.js"]), (.ofPath "/a.js", ["./main"])] ∧
      (Sources.ofFiles escapedFiles).hoisted (.ofPath "/main.js") = ["./a.js", "./a.js"] ∧
      g.RequestsMet (.ofFiles escapedFiles) := by
  have hlinks : (buildWith (.ofFiles escapedFiles) toLoaderForm
        ((Resolver.fresh defaultExtensions).afterBuilds (.ofFiles escapedFiles) toLoaderForm [])
        "main").1.map (fun g => g.modules.map fun m => (m.id, m.imports.map (·.specifier))) =
      .ok [(.ofPath "/main.js", ["./a.js"]), (.ofPath "/a.js", ["./main"])] := by decide +kernel
  have hhoisted : (Sources.ofFiles escapedFiles).hoisted (.ofPath "/main.js") =
      ["./a.js", "./a.js"] := by decide +kernel
  rcases hbuild : (buildWith (.ofFiles escapedFiles) toLoaderForm
      ((Resolver.fresh defaultExtensions).afterBuilds (.ofFiles escapedFiles) toLoaderForm [])
      "main").1 with e | g <;> rw [hbuild] at hlinks
  · cases hlinks
  · exact ⟨g, rfl, Except.ok.inj hlinks, hhoisted,
      buildWith_requestsMet escapedFiles defaultExtensions [] "main" g hbuild⟩

end ModuleBundler
