import Mathlib.Logic.Relation
import ModuleBundler.Proofs.Build.Discovery

/-!
# The moments of a build

A build is a loop within a loop: modules are taken from a worklist, and the specifiers of each are
resolved one after the other.  A `Discovery.Moment` is a place in the two loops, with the state of
the discovery there, and `Moment.Next` says which moment comes next.  Nothing here counts how many
modules may be taken, so a build that begins at `Moment.first` ends exactly if it comes to a moment
at which it has ended.

* `Moment.Next.unique` — what comes next is determined, and so is how a build ends
  (`Moment.Leads.ended_unique`);
* `Moment.Next.kept` and `Moment.Leads.kept` — every step keeps the books in order
  (`Moment.Kept`), and so does every build;
* `Moment.leads_run` and `buildWith_leads` — a build ends, and `buildWith` is what it ends with;
* **`buildWith_orderly`** — builds from files end, whatever the modules import, and never do
  anything twice on the way.
-/

namespace ModuleBundler

open Relation ModuleBundler.Text

variable {sources : Sources} {transformer : Transformer}

/-- The graph, unless a link leads to no module of it. -/
def ModuleGraph.verified (g : ModuleGraph) : Except BuildFailure ModuleGraph :=
  match g.firstMissing with
  | some flaw => .error flaw.failure
  | none => .ok g

theorem ModuleGraph.eq_of_verified {g h : ModuleGraph} (hg : g.verified = .ok h) : h = g := by
  unfold verified at hg
  split at hg
  · cases hg
  · exact (Except.ok.inj hg).symm

/-- The ids that exist are those that have a text. -/
def Sources.Consistent (sources : Sources) : Prop :=
  ∀ id, sources.has id = true ↔ ∃ text, sources.load id = .ok text

theorem Sources.consistent_ofFiles (files : List (ModuleId × String)) :
    (Sources.ofFiles files).Consistent := by
  intro id
  show (files.any fun f => f.1 == id) = true ↔ _
  unfold ofFiles
  dsimp only
  cases hfind : files.find? fun f => f.1 == id with
  | none =>
    have hnone := List.find?_eq_none.1 hfind
    simp only [List.any_eq_true, reduceCtorEq, exists_false, iff_false, not_exists, not_and]
    exact hnone
  | some f =>
    have hfound : (f.1 == id) = true := by simpa using List.find?_some hfind
    have hany : (files.any fun f => f.1 == id) = true :=
      List.any_eq_true.2 ⟨f, List.mem_of_find?_eq_some hfind, hfound⟩
    exact iff_of_true hany ⟨f.2, rfl⟩

namespace Discovery

/-! ## Parts of a step -/

/-- The state after a look-up was answered. -/
def asked {α : Type} (d : Discovery) (a : Answer α) : Discovery :=
  { d with resolver := a.resolver, probes := d.probes ++ a.probes }

/-- The state after `id` was taken from the worklist, which leaves `rest`, and its text was asked
for. -/
def taken (d : Discovery) (id : ModuleId) (rest : List ModuleId) : Discovery :=
  { d with worklist := rest, visited := d.visited ++ [id], loads := d.loads ++ [id] }

/-- The state after the text of `id` was given to the transformer. -/
def given (d : Discovery) (id : ModuleId) : Discovery :=
  { d with transforms := d.transforms ++ [id] }

theorem enqueue_of_mem {d : Discovery} {id : ModuleId} (h : id ∈ d.queued) : d.enqueue id = d := by
  unfold enqueue
  rw [if_pos (List.contains_iff_mem.2 h)]

theorem enqueue_of_notMem {d : Discovery} {id : ModuleId} (h : id ∉ d.queued) :
    d.enqueue id = { d with queued := d.queued ++ [id], worklist := d.worklist ++ [id] } := by
  unfold enqueue
  rw [if_neg fun hc => h (List.contains_iff_mem.1 hc)]

@[simp] theorem enqueue_visited (d : Discovery) (id : ModuleId) :
    (d.enqueue id).visited = d.visited := by
  unfold enqueue
  split <;> rfl

@[simp] theorem enqueue_transforms (d : Discovery) (id : ModuleId) :
    (d.enqueue id).transforms = d.transforms := by
  unfold enqueue
  split <;> rfl

@[simp] theorem enqueue_graph (d : Discovery) (id : ModuleId) :
    (d.enqueue id).graph = d.graph := by
  unfold enqueue
  split <;> rfl

/-- Processing a module touches neither the modules visited nor the graph. -/
theorem process_frame (sources : Sources) (transformer : Transformer) (id : ModuleId)
    (d : Discovery) :
    (process sources transformer id d).2.visited = d.visited ∧
      (process sources transformer id d).2.graph = d.graph := by
  unfold process
  dsimp only
  split
  · exact ⟨rfl, rfl⟩
  split
  · exact ⟨rfl, rfl⟩
  rename_i text _ made _
  have hbooks := sameBooks_linkAll sources id made.requested []
    { d with loads := d.loads ++ [id], transforms := d.transforms ++ [id] }
  split <;> rename_i heq <;> rw [heq] at hbooks <;> exact ⟨hbooks.visited_eq, hbooks.graph_eq⟩

/-- What was ever queued was visited or is waiting, none of it twice, and what was visited is what
was loaded. -/
structure Ordered (d : Discovery) : Prop where
  queued_eq : d.queued = d.visited ++ d.worklist
  nodup : d.queued.Nodup
  loads_eq : d.loads = d.visited

namespace Ordered

variable {d : Discovery} {id : ModuleId} {rest : List ModuleId}

/-- What is taken from the worklist was not visited before. -/
theorem notMem_visited (h : d.Ordered) (hwork : d.worklist = id :: rest) : id ∉ d.visited := by
  have hnodup := h.nodup
  rw [h.queued_eq, hwork] at hnodup
  exact fun hin => List.disjoint_of_nodup_append hnodup hin List.mem_cons_self

theorem taken (h : d.Ordered) (hwork : d.worklist = id :: rest) : (d.taken id rest).Ordered where
  queued_eq := by
    show d.queued = (d.visited ++ [id]) ++ rest
    rw [h.queued_eq, hwork, List.append_assoc, List.singleton_append]
  nodup := h.nodup
  loads_eq := by
    show d.loads ++ [id] = d.visited ++ [id]
    rw [h.loads_eq]

theorem enqueue (h : d.Ordered) : (d.enqueue id).Ordered := by
  by_cases hin : id ∈ d.queued
  · rw [enqueue_of_mem hin]
    exact h
  · rw [enqueue_of_notMem hin]
    refine ⟨?_, ?_, h.loads_eq⟩
    · show d.queued ++ [id] = d.visited ++ (d.worklist ++ [id])
      rw [h.queued_eq, List.append_assoc]
    · show (d.queued ++ [id]).Nodup
      rw [← List.concat_eq_append]
      exact List.Nodup.concat hin h.nodup

/-- The module that was visited last is new to the graph, and comes to its end. -/
theorem ids_insert (h : d.Ordered) {importer : ModuleId}
    (hvisited : d.visited = d.graph.ids ++ [importer]) (links : List Link) (code : String) :
    (d.graph.insert ⟨importer, links, code⟩).ids = d.visited := by
  have hnodup := h.nodup
  rw [h.queued_eq, hvisited] at hnodup
  have hnew : importer ∉ d.graph.ids := by
    have hids := List.nodup_append.1 (List.nodup_append.1 hnodup).1
    exact fun hmem => hids.2.2 importer hmem importer (List.mem_singleton_self _) rfl
  rw [ModuleGraph.insert_of_notMem hnew, hvisited]
  exact List.map_append

end Ordered

/-! ## Moments -/

/-- What a build is about to do. -/
inductive Task where
  /-- To take the next module from the worklist. -/
  | take
  /-- To resolve the remaining specifiers of a module, for which some links are made. -/
  | link (importer : ModuleId) (links : List Link) (remaining : List String) (code : String)
  /-- Nothing; the build has ended. -/
  | ended (result : Except BuildFailure ModuleGraph)

/-- How far the books of a build are kept, for each task. -/
def Task.Booked (sources : Sources) (d : Discovery) : Task → Prop
  | .take => d.transforms = d.visited ∧ d.graph.ids = d.visited ∧
      ∀ id ∈ d.visited, sources.has id = true
  | .link importer _ _ _ => d.transforms = d.visited ∧ d.visited = d.graph.ids ++ [importer] ∧
      ∀ id ∈ d.visited, sources.has id = true
  | .ended (.ok g) => d.transforms = d.visited ∧ g.ids = d.visited
  | .ended (.error _) => d.transforms <+: d.visited

theorem Task.Booked.transforms_prefix {d : Discovery} {task : Task} (h : task.Booked sources d) :
    d.transforms <+: d.visited := by
  have hequal : d.transforms = d.visited → d.transforms <+: d.visited :=
    fun heq => ⟨[], (List.append_nil _).trans heq⟩
  cases task with
  | take => exact hequal h.1
  | link => exact hequal h.1
  | ended result =>
    cases result with
    | ok g => exact hequal h.1
    | error e => exact h

/-- A place in the loops of a build. -/
structure Moment where
  task : Task
  state : Discovery

namespace Moment

/-- One moment of a build comes next after another. -/
inductive Next (sources : Sources) (transformer : Transformer) : Moment → Moment → Prop
  /-- The worklist is empty. -/
  | done {d : Discovery} : d.worklist = [] → Next sources transformer
      ⟨.take, d⟩ ⟨.ended d.graph.verified, d⟩
  /-- A module that was visited before is skipped. -/
  | skip {d : Discovery} {id : ModuleId} {rest : List ModuleId} :
      d.worklist = id :: rest → id ∈ d.visited → Next sources transformer
        ⟨.take, d⟩ ⟨.take, { d with worklist := rest }⟩
  /-- A module has no text. -/
  | unread {d : Discovery} {id : ModuleId} {rest : List ModuleId} {e : BuildFailure} :
      d.worklist = id :: rest → id ∉ d.visited → sources.load id = .error e →
      Next sources transformer ⟨.take, d⟩ ⟨.ended (.error e), d.taken id rest⟩
  /-- The text of a module is not accepted. -/
  | refused {d : Discovery} {id : ModuleId} {rest : List ModuleId} {text : String}
      {e : BuildFailure} :
      d.worklist = id :: rest → id ∉ d.visited → sources.load id = .ok text →
      transformer id (String.ofList (unifyLineEnds text.toList)) = .error e →
      Next sources transformer ⟨.take, d⟩ ⟨.ended (.error e), (d.taken id rest).given id⟩
  /-- The text of a module is accepted. -/
  | opened {d : Discovery} {id : ModuleId} {rest : List ModuleId} {text : String}
      {made : Transformed} :
      d.worklist = id :: rest → id ∉ d.visited → sources.load id = .ok text →
      transformer id (String.ofList (unifyLineEnds text.toList)) = .ok made →
      Next sources transformer
        ⟨.take, d⟩ ⟨.link id [] made.requested made.code, (d.taken id rest).given id⟩
  /-- There is a link for the specifier. -/
  | known {d : Discovery} {importer : ModuleId} {links : List Link} {specifier : String}
      {remaining : List String} {code : String} :
      specifier ∈ links.map (·.specifier) → Next sources transformer
        ⟨.link importer links (specifier :: remaining) code, d⟩
        ⟨.link importer links remaining code, d⟩
  /-- The specifier leads nowhere. -/
  | unresolved {d : Discovery} {importer : ModuleId} {links : List Link} {specifier : String}
      {remaining : List String} {code : String} {e : BuildFailure} :
      specifier ∉ links.map (·.specifier) →
      (d.resolver.resolve sources.has importer specifier).result = .error e →
      Next sources transformer
        ⟨.link importer links (specifier :: remaining) code, d⟩
        ⟨.ended (.error e), d.asked (d.resolver.resolve sources.has importer specifier)⟩
  /-- A link is made for the specifier, and its target is put on the worklist. -/
  | resolved {d : Discovery} {importer : ModuleId} {links : List Link} {specifier : String}
      {remaining : List String} {code : String} {target : ModuleId} :
      specifier ∉ links.map (·.specifier) →
      (d.resolver.resolve sources.has importer specifier).result = .ok target →
      Next sources transformer
        ⟨.link importer links (specifier :: remaining) code, d⟩
        ⟨.link importer (links ++ [⟨specifier, target⟩]) remaining code,
          (d.asked (d.resolver.resolve sources.has importer specifier)).enqueue target⟩
  /-- All specifiers of the module have links. -/
  | linked {d : Discovery} {importer : ModuleId} {links : List Link} {code : String} :
      Next sources transformer ⟨.link importer links [] code, d⟩
        ⟨.take, { d with graph := d.graph.insert ⟨importer, links, code⟩ }⟩

/-- A build comes from one moment to another. -/
def Leads (sources : Sources) (transformer : Transformer) : Moment → Moment → Prop :=
  ReflTransGen (Next sources transformer)

/-- The first moment of a build. -/
def first (sources : Sources) (resolver : Resolver) (entrySpecifier : String) : Moment :=
  let a := resolver.resolveFromRoot sources.has entrySpecifier
  match a.result with
  | .error e => ⟨.ended (.error e), ⟨a.resolver, a.probes, [], [], [], [], [], ⟨.root, []⟩⟩⟩
  | .ok entry => ⟨.take, ⟨a.resolver, a.probes, [], [], [], [entry], [entry], ⟨entry, []⟩⟩⟩

/-! ## Builds are determined -/

theorem Next.unique {p q q' : Moment} (h : Next sources transformer p q)
    (h' : Next sources transformer p q') : q = q' := by
  cases h <;> cases h' <;> simp_all

/-- A build that has ended stays as it is. -/
theorem Leads.eq_of_ended {d : Discovery} {result : Except BuildFailure ModuleGraph} {q : Moment}
    (h : Leads sources transformer ⟨.ended result, d⟩ q) : q = ⟨.ended result, d⟩ := by
  induction h with
  | refl => rfl
  | tail _ hnext ih =>
    subst ih
    cases hnext

/-- Every moment on the way leads to the end. -/
theorem Leads.leads_ended {p q : Moment} {d : Discovery}
    {result : Except BuildFailure ModuleGraph} (h : Leads sources transformer p q)
    (hend : Leads sources transformer p ⟨.ended result, d⟩) :
    Leads sources transformer q ⟨.ended result, d⟩ := by
  have hunique : Relator.RightUnique (Next sources transformer) := fun _ _ _ => Next.unique
  rcases ReflTransGen.total_of_right_unique hunique h hend with hlater | hearlier
  · exact hlater
  · rw [Leads.eq_of_ended hearlier]
    exact ReflTransGen.refl

/-- A build ends in one way. -/
theorem Leads.ended_unique {p : Moment} {d d' : Discovery}
    {result result' : Except BuildFailure ModuleGraph}
    (h : Leads sources transformer p ⟨.ended result, d⟩)
    (h' : Leads sources transformer p ⟨.ended result', d'⟩) : result = result' ∧ d = d' := by
  have hsame := Leads.eq_of_ended (h.leads_ended h')
  cases hsame
  exact ⟨rfl, rfl⟩

/-- A build that comes to an end does not go on forever. -/
theorem Leads.exists_last {p : Moment} {d : Discovery} {result : Except BuildFailure ModuleGraph}
    (h : Leads sources transformer p ⟨.ended result, d⟩) {moments : Nat → Moment}
    (hstart : moments 0 = p) : ∃ n, ¬ Next sources transformer (moments n) (moments (n + 1)) := by
  induction h using ReflTransGen.head_induction_on generalizing moments with
  | refl =>
    refine ⟨0, fun hnext => ?_⟩
    rw [hstart] at hnext
    cases hnext
  | @head p q hpq _ ih =>
    by_cases hnext : Next sources transformer (moments 0) (moments 1)
    · have hq : moments 1 = q := by
        rw [hstart] at hnext
        exact hnext.unique hpq
      obtain ⟨n, hn⟩ := @ih (fun n => moments (n + 1)) hq
      exact ⟨n + 1, hn⟩
    · exact ⟨0, hnext⟩

/-! ## What a step keeps -/

/-- The books of a build are in order. -/
structure Kept (sources : Sources) (p : Moment) : Prop where
  ordered : p.state.Ordered
  booked : p.task.Booked sources p.state

/-- Every step keeps the books in order. -/
theorem Next.kept {p q : Moment} (hs : sources.Consistent)
    (h : Next sources transformer p q) (hp : p.Kept sources) : q.Kept sources := by
  obtain ⟨hordered, hbooked⟩ := hp
  cases h with
  | @done d hwork =>
    obtain ⟨htransforms, hids, -⟩ := hbooked
    refine ⟨hordered, ?_⟩
    show Task.Booked sources d (.ended d.graph.verified)
    cases hverified : d.graph.verified with
    | error e => exact ⟨[], (List.append_nil _).trans htransforms⟩
    | ok g =>
      rw [ModuleGraph.eq_of_verified hverified]
      exact ⟨htransforms, hids⟩
  | skip hwork hvisited => exact absurd hvisited (hordered.notMem_visited hwork)
  | @unread d id rest e hwork hnew hload =>
    obtain ⟨htransforms, -⟩ := hbooked
    refine ⟨hordered.taken hwork, ?_⟩
    show d.transforms <+: d.visited ++ [id]
    rw [show d.transforms = d.visited from htransforms]
    exact List.prefix_append _ _
  | @refused d id rest text e hwork hnew hload hmade =>
    obtain ⟨htransforms, -⟩ := hbooked
    have htaken := hordered.taken hwork
    refine ⟨{ htaken with }, ?_⟩
    have hboth : d.transforms ++ [id] = d.visited ++ [id] := congrArg (· ++ [id]) htransforms
    exact ⟨[], (List.append_nil _).trans hboth⟩
  | @opened d id rest text made hwork hnew hload hmade =>
    obtain ⟨htransforms, hids, hhas⟩ := hbooked
    have htaken := hordered.taken hwork
    refine ⟨{ htaken with }, ?_, ?_, ?_⟩
    · show d.transforms ++ [id] = d.visited ++ [id]
      rw [show d.transforms = d.visited from htransforms]
    · show d.visited ++ [id] = d.graph.ids ++ [id]
      rw [show d.graph.ids = d.visited from hids]
    · intro a ha
      rcases List.mem_append.1 ha with ha | ha
      · exact hhas a ha
      · rw [List.mem_singleton.1 ha]
        exact (hs id).2 ⟨text, hload⟩
  | known hmem => exact ⟨hordered, hbooked⟩
  | @unresolved d importer links specifier remaining code e hnew hresult =>
    obtain ⟨htransforms, -⟩ := hbooked
    exact ⟨{ hordered with }, [], (List.append_nil _).trans htransforms⟩
  | @resolved d importer links specifier remaining code target hnew hresult =>
    obtain ⟨htransforms, hvisited, hhas⟩ := hbooked
    refine ⟨Ordered.enqueue { hordered with }, ?_⟩
    show Task.Booked sources (enqueue _ target) (.link importer _ remaining code)
    unfold Task.Booked
    simp only [enqueue_visited, enqueue_transforms, enqueue_graph]
    exact ⟨htransforms, hvisited, hhas⟩
  | @linked d importer links code =>
    obtain ⟨htransforms, hvisited, hhas⟩ := hbooked
    exact ⟨{ hordered with }, htransforms, hordered.ids_insert hvisited links code, hhas⟩

theorem Leads.kept {p q : Moment} (hs : sources.Consistent)
    (h : Leads sources transformer p q) (hp : p.Kept sources) : q.Kept sources := by
  induction h with
  | refl => exact hp
  | tail _ hnext ih => exact hnext.kept hs ih

theorem first_kept (sources : Sources) (resolver : Resolver) (entrySpecifier : String) :
    (first sources resolver entrySpecifier).Kept sources := by
  unfold first
  dsimp only
  split
  · exact ⟨⟨rfl, List.nodup_nil, rfl⟩, [], rfl⟩
  · rename_i entry _
    exact ⟨⟨rfl, List.nodup_singleton entry, rfl⟩, rfl, rfl, fun id hid => by cases hid⟩

/-! ## Builds end -/

/-- The moment behind the resolving of a module's specifiers. -/
def afterLinks (importer : ModuleId) (code : String) : Discovery.Step (List Link) → Moment
  | (.ok links, d) => ⟨.link importer links [] code, d⟩
  | (.error e, d) => ⟨.ended (.error e), d⟩

theorem leads_linkAll (importer : ModuleId) (code : String) (specifiers : List String)
    (links : List Link) (d : Discovery) :
    Leads sources transformer ⟨.link importer links specifiers code, d⟩
      (afterLinks importer code (linkAll sources importer links specifiers d)) := by
  induction specifiers generalizing links d with
  | nil => exact ReflTransGen.refl
  | cons specifier rest ih =>
    unfold linkAll
    split
    · rename_i hany
      exact ReflTransGen.head (.known (any_specifier_iff.1 hany)) (ih links d)
    · rename_i hany
      have hnew := fun hmem => hany (any_specifier_iff.2 hmem)
      dsimp only
      split
      · rename_i e hresult
        exact ReflTransGen.single (.unresolved hnew hresult)
      · rename_i target hresult
        exact ReflTransGen.head (.resolved hnew hresult) (ih _ _)

/-- The moment behind a module. -/
def afterModule : Discovery.Step Module → Moment
  | (.ok m, d) => ⟨.take, { d with graph := d.graph.insert m }⟩
  | (.error e, d) => ⟨.ended (.error e), d⟩

theorem leads_process {d : Discovery} {id : ModuleId} {rest : List ModuleId}
    (hwork : d.worklist = id :: rest) (hnew : id ∉ d.visited) :
    Leads sources transformer ⟨.take, d⟩ (afterModule (process sources transformer id
      { d with worklist := rest, visited := d.visited ++ [id] })) := by
  unfold process
  dsimp only
  split
  · rename_i e hload
    exact ReflTransGen.single (.unread hwork hnew hload)
  rename_i text hload
  split
  · rename_i e hmade
    exact ReflTransGen.single (.refused hwork hnew hload hmade)
  rename_i made hmade
  have hlinks : Leads sources transformer _ _ :=
    leads_linkAll id made.code made.requested [] ((d.taken id rest).given id)
  have hopened := ReflTransGen.head (Next.opened hwork hnew hload hmade) hlinks
  unfold taken given at hopened
  split <;> rename_i heq <;> rw [heq] at hopened
  · exact hopened
  · exact hopened.tail .linked

/-- The moment behind a run. -/
def afterRun : Discovery.Step ModuleGraph → Moment
  | (result, d) => ⟨.ended (result.bind ModuleGraph.verified), d⟩

/-- A run that may take more modules than exist comes to its end. -/
theorem leads_run (hs : sources.Consistent) (hb : sources.Bounded) {n : Nat} {d : Discovery}
    (hd : Kept sources ⟨.take, d⟩) (hn : sources.capacity < n + d.visited.length) :
    Leads sources transformer ⟨.take, d⟩ (afterRun (run sources transformer n d)) := by
  induction n generalizing d with
  | zero =>
    have hprefix : d.visited <+: d.queued := ⟨d.worklist, hd.ordered.queued_eq.symm⟩
    have hle := hb d.visited (hd.ordered.nodup.sublist hprefix.sublist) hd.booked.2.2
    omega
  | succ n ih =>
    unfold run
    split
    · rename_i hwork
      exact ReflTransGen.single (.done hwork)
    · rename_i id rest hwork
      have hnew := hd.ordered.notMem_visited hwork
      have hprocess : Leads sources transformer _ _ := leads_process hwork hnew
      have hframe := process_frame sources transformer id
        { d with worklist := rest, visited := d.visited ++ [id] }
      dsimp only
      rw [if_neg fun hc => hnew (List.contains_iff_mem.1 hc)]
      split <;> rename_i heq <;> rw [heq] at hprocess hframe
      · exact hprocess
      · refine ReflTransGen.trans hprocess (ih (Leads.kept hs hprocess hd) ?_)
        show sources.capacity < n + (Discovery.visited _).length
        rw [hframe.1, List.length_append, List.length_singleton]
        omega

end Moment

end Discovery

open Discovery

/-- A build ends, whatever its resolver remembers. -/
theorem buildWith_leads (hs : sources.Consistent) (hb : sources.Bounded)
    (transformer : Transformer) (resolver : Resolver) (entrySpecifier : String) :
    Moment.Leads sources transformer (.first sources resolver entrySpecifier)
      ⟨.ended (buildWith sources transformer resolver entrySpecifier).1,
        (buildWith sources transformer resolver entrySpecifier).2⟩ := by
  have hfirst := Moment.first_kept sources resolver entrySpecifier
  unfold buildWith
  unfold Moment.first at hfirst ⊢
  dsimp only at hfirst ⊢
  cases hresult : (resolver.resolveFromRoot sources.has entrySpecifier).result with
  | error e => exact ReflTransGen.refl
  | ok entry =>
    rw [hresult] at hfirst
    have hrun : Moment.Leads sources transformer _ _ :=
      Moment.leads_run hs hb hfirst (Nat.lt_succ_self sources.capacity)
    dsimp only
    split <;> rename_i heq
    · rw [heq] at hrun
      exact hrun
    · rw [heq] at hrun
      unfold Moment.afterRun Except.bind ModuleGraph.verified at hrun
      dsimp only at hrun
      split <;> rename_i hmissing <;> rw [hmissing] at hrun <;> exact hrun

/-! ## Nothing is done twice -/

namespace Discovery.Moment

/-- A moment of a build up to which nothing was done twice. -/
structure Orderly (sources : Sources) (transformer : Transformer) (p : Moment) : Prop where
  /-- What was ever put on the worklist was taken from it or is waiting, and not both. -/
  queued_eq : p.state.queued = p.state.visited ++ p.state.worklist
  disjoint : p.state.visited.Disjoint p.state.worklist
  /-- Nothing was put on the worklist, loaded or transformed twice. -/
  queued_nodup : p.state.queued.Nodup
  loads_nodup : p.state.loads.Nodup
  transforms_nodup : p.state.transforms.Nodup
  /-- What the next step puts on the worklist was never there. -/
  pushed_new : ∀ q id, Next sources transformer p q →
    q.state.worklist = p.state.worklist ++ [id] →
      id ∉ p.state.queued ∧ q.state.queued = p.state.queued ++ [id]
  /-- What the next step takes from the worklist was not visited. -/
  taken_new : p.task = .take → ∀ id rest, p.state.worklist = id :: rest → id ∉ p.state.visited
  /-- What is going to be put into the graph is not there. -/
  inserted_new : ∀ importer links remaining code,
    p.task = .link importer links remaining code → importer ∉ p.state.graph.ids

/-- A step that puts something on the worklist notes that, and does it for the first time. -/
theorem Next.pushed {p q : Moment} {id : ModuleId} (h : Next sources transformer p q)
    (hpush : q.state.worklist = p.state.worklist ++ [id]) :
    id ∉ p.state.queued ∧ q.state.queued = p.state.queued ++ [id] := by
  -- a step that takes something leaves fewer
  have hshorter : ∀ {taken : ModuleId} {rest : List ModuleId},
      p.state.worklist = taken :: rest → q.state.worklist = rest → False := by
    intro taken rest hp hq
    have hlength := congrArg List.length hpush
    rw [hp, hq, List.length_append, List.length_cons, List.length_singleton] at hlength
    omega
  have hother : q.state.worklist ≠ p.state.worklist := by
    rw [hpush]
    simp
  cases h with
  | done => exact absurd rfl hother
  | skip hwork => exact (hshorter hwork rfl).elim
  | unread hwork => exact (hshorter hwork rfl).elim
  | refused hwork => exact (hshorter hwork rfl).elim
  | opened hwork => exact (hshorter hwork rfl).elim
  | known => exact absurd rfl hother
  | unresolved => exact absurd rfl hother
  | linked => exact absurd rfl hother
  | @resolved d importer links specifier remaining code target _ _ =>
    by_cases hin : target ∈ d.queued
    · exact absurd (by dsimp only; rw [enqueue_of_mem (d := d.asked _) hin]; rfl) hother
    · dsimp only at hpush ⊢
      rw [enqueue_of_notMem (d := d.asked _) hin] at hpush ⊢
      have htarget : target = id := by simpa [asked] using hpush
      subst htarget
      exact ⟨hin, rfl⟩

theorem Kept.orderly {p : Moment} (h : p.Kept sources) : p.Orderly sources transformer := by
  have hqueued := h.ordered.queued_eq
  have hboth := h.ordered.nodup
  rw [hqueued] at hboth
  have hvisited : p.state.visited.Nodup := (List.nodup_append.1 hboth).1
  refine ⟨hqueued, List.disjoint_of_nodup_append hboth, h.ordered.nodup, ?_, ?_,
    fun q id hnext => hnext.pushed, fun _ id rest => h.ordered.notMem_visited, ?_⟩
  · rw [h.ordered.loads_eq]
    exact hvisited
  · exact hvisited.sublist h.booked.transforms_prefix.sublist
  · intro importer links remaining code htask
    have hbooked := h.booked
    rw [htask] at hbooked
    rw [hbooked.2.1] at hvisited
    exact fun hin => (List.nodup_append.1 hvisited).2.2 importer hin importer
      (List.mem_singleton_self importer) rfl

end Discovery.Moment

/-- A build from files comes to its end and does not go on forever, whatever the modules import and
its resolver remembers; nothing is put on the worklist, visited, loaded, transformed or inserted
twice on the way; and if it succeeds, the modules of the graph are those that were loaded and those
that were transformed, in order. -/
theorem buildWith_orderly (files : List (ModuleId × String)) (transformer : Transformer)
    (resolver : Resolver) (entrySpecifier : String) :
    let sources := Sources.ofFiles files
    let step := buildWith sources transformer resolver entrySpecifier
    let first := Moment.first sources resolver entrySpecifier
    (∀ moments : Nat → Moment, moments 0 = first →
      ∃ n, ¬ Moment.Next sources transformer (moments n) (moments (n + 1))) ∧
    (∀ p, Moment.Leads sources transformer first p → p.Orderly sources transformer ∧
      Moment.Leads sources transformer p ⟨.ended step.1, step.2⟩) ∧
    ∀ g, step.1 = .ok g → step.2.loads = g.ids ∧ step.2.transforms = g.ids := by
  intro sources step first
  have hs := Sources.consistent_ofFiles files
  have hfirst : first.Kept sources := Moment.first_kept sources resolver entrySpecifier
  have hend : Moment.Leads sources transformer first ⟨.ended step.1, step.2⟩ :=
    buildWith_leads hs (Sources.bounded_ofFiles files) transformer resolver entrySpecifier
  refine ⟨fun _ => hend.exists_last,
    fun p hp => ⟨(hp.kept hs hfirst).orderly, hp.leads_ended hend⟩, ?_⟩
  intro g hg
  have hkept := hend.kept hs hfirst
  rw [hg] at hkept
  obtain ⟨htransforms, hids⟩ := hkept.booked
  exact ⟨hkept.ordered.loads_eq.trans hids.symm, htransforms.trans hids.symm⟩

end ModuleBundler
