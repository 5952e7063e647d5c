import ModuleBundler.Build.Discovery

/-!
# Resolving with a memory

A resolver remembers what each base led to.  As long as everything it remembers was found among
the ids it is asked about (`Resolver.Faithful`), its memory cannot be told from the outside:

* `Resolver.find_result` — a look-up gives the first candidate that exists, remembered or not;
* `Resolver.resolve_result` and `Resolver.resolveFromRoot_result` — a resolver answers what one
  that knows nothing answers, which is named `Sources.resolve` and `Sources.resolveEntry`;
* `Resolver.resolve_faithful` and `Resolver.resolveFromRoot_faithful` — it stays faithful;
* `Resolver.has_of_resolve` and `Resolver.has_of_resolveFromRoot` — what is answered exists.
-/

namespace ModuleBundler

variable {has : ModuleId → Bool} {extensions : List String} {r : Resolver}

/-! ## Probing -/

/-- An id that a probe finds is one of those probed, and exists. -/
theorem probe_some {ids : List ModuleId} {id : ModuleId} (h : (probe has ids).1 = some id) :
    id ∈ ids ∧ has id = true := by
  induction ids with
  | nil => simp [probe] at h
  | cons a rest ih =>
    unfold probe at h
    by_cases ha : has a = true
    · rw [if_pos ha, Option.some.injEq] at h
      subst h
      exact ⟨List.mem_cons_self, ha⟩
    · rw [if_neg ha] at h
      exact ⟨List.mem_cons_of_mem _ (ih h).1, (ih h).2⟩

/-! ## Faithful memories -/

/-- A resolver tries the given extensions, and what it remembers is what a look-up finds. -/
structure Resolver.Faithful (has : ModuleId → Bool) (extensions : List String) (r : Resolver) :
    Prop where
  extensions_eq : r.extensions = extensions
  known_eq : ∀ entry ∈ r.known, entry.2 = (probe has (candidates extensions entry.1)).1

namespace Resolver

theorem faithful_fresh (has : ModuleId → Bool) (extensions : List String) :
    (Resolver.fresh extensions).Faithful has extensions := by
  refine ⟨rfl, ?_⟩
  intro entry h
  cases h

theorem find_result (hr : r.Faithful has extensions) (base : ModuleId) :
    (r.find has base).result = (probe has (candidates extensions base)).1 := by
  unfold find
  split
  · rename_i key found hfind
    have hkey : key = base := by simpa using List.find?_some hfind
    have hknown := hr.known_eq _ (List.mem_of_find?_eq_some hfind)
    rw [hkey] at hknown
    exact hknown
  · rw [hr.extensions_eq]

theorem find_faithful (hr : r.Faithful has extensions) (base : ModuleId) :
    (r.find has base).resolver.Faithful has extensions := by
  unfold find
  split
  · exact hr
  · refine ⟨hr.extensions_eq, ?_⟩
    intro entry h
    rcases List.mem_cons.1 h with rfl | h
    · show (probe has (candidates r.extensions base)).1 = _
      rw [hr.extensions_eq]
    · exact hr.known_eq entry h

/-! ## Answers -/

theorem findFor_result (hr : r.Faithful has extensions) (importer : Importer)
    (specifier : String) (base : ModuleId) :
    (r.findFor has importer specifier base).result =
      ((fresh extensions).findFor has importer specifier base).result := by
  have hfind : (r.find has base).result = ((fresh extensions).find has base).result :=
    (find_result hr base).trans (find_result (faithful_fresh has extensions) base).symm
  unfold findFor
  simp only [hfind]
  split <;> rfl

theorem findFor_faithful (hr : r.Faithful has extensions) (importer : Importer)
    (specifier : String) (base : ModuleId) :
    (r.findFor has importer specifier base).resolver.Faithful has extensions := by
  unfold findFor
  dsimp only
  split <;> exact find_faithful hr base

theorem has_of_findFor (hr : r.Faithful has extensions) {importer : Importer}
    {specifier : String} {base id : ModuleId}
    (h : (r.findFor has importer specifier base).result = .ok id) : has id = true := by
  unfold findFor at h
  dsimp only at h
  rw [find_result hr] at h
  cases hprobe : (probe has (candidates extensions base)).1 with
  | none => simp [hprobe] at h
  | some found =>
    simp only [hprobe, Except.ok.injEq] at h
    rw [← h]
    exact (probe_some hprobe).2

/-- A resolver answers what one that knows nothing answers. -/
theorem resolve_result (hr : r.Faithful has extensions) (importer : ModuleId)
    (specifier : String) :
    (r.resolve has importer specifier).result =
      ((fresh extensions).resolve has importer specifier).result := by
  unfold resolve
  cases baseOf importer specifier with
  | ok base => exact findFor_result hr _ _ base
  | error reason => rfl

theorem resolve_faithful (hr : r.Faithful has extensions) (importer : ModuleId)
    (specifier : String) :
    (r.resolve has importer specifier).resolver.Faithful has extensions := by
  unfold resolve
  cases baseOf importer specifier with
  | ok base => exact findFor_faithful hr _ _ base
  | error reason => exact hr

theorem has_of_resolve (hr : r.Faithful has extensions) {importer : ModuleId}
    {specifier : String} {id : ModuleId}
    (h : (r.resolve has importer specifier).result = .ok id) : has id = true := by
  unfold resolve at h
  cases hbase : baseOf importer specifier with
  | ok base =>
    rw [hbase] at h
    exact has_of_findFor hr h
  | error reason => simp [hbase] at h

/-- The same for the specifier of an entry. -/
theorem resolveFromRoot_result (hr : r.Faithful has extensions) (specifier : String) :
    (r.resolveFromRoot has specifier).result =
      ((fresh extensions).resolveFromRoot has specifier).result := by
  unfold resolveFromRoot
  split
  · rfl
  · exact findFor_result hr _ _ _

theorem resolveFromRoot_faithful (hr : r.Faithful has extensions) (specifier : String) :
    (r.resolveFromRoot has specifier).resolver.Faithful has extensions := by
  unfold resolveFromRoot
  split
  · exact hr
  · exact findFor_faithful hr _ _ _

theorem has_of_resolveFromRoot (hr : r.Faithful has extensions) {specifier : String}
    {id : ModuleId} (h : (r.resolveFromRoot has specifier).result = .ok id) : has id = true := by
  unfold resolveFromRoot at h
  split at h
  · cases h
  · exact has_of_findFor hr h

end Resolver

/-- What a specifier means in a module, for a resolver that knows nothing. -/
def Sources.resolve (sources : Sources) (extensions : List String) (importer : ModuleId)
    (specifier : String) : Except BuildFailure ModuleId :=
  ((Resolver.fresh extensions).resolve sources.has importer specifier).result

/-- What the specifier of an entry means, for a resolver that knows nothing. -/
def Sources.resolveEntry (sources : Sources) (extensions : List String) (specifier : String) :
    Except BuildFailure ModuleId :=
  ((Resolver.fresh extensions).resolveFromRoot sources.has specifier).result

end ModuleBundler
