import ModuleBundler.Proofs.Build.Closed
import ModuleBundler.Proofs.Loader.Growth

/-!
# Graphs that are ready to run

Modules in loader form begin by requiring what they link to, one link after the other, and go on
with statements that are calm: they neither require anything nor end the body (`RequiresFirst`).

A registry of a graph has the modules of the graph with their links (`Registry.Mirrors`).  In one
whose graph is closed, a specifier of a module means the target of its link
(`Registry.Mirrors.targetOf_eq`), and that is registered (`Registry.Mirrors.exists_registered`).
-/

namespace ModuleBundler.Loader

/-! ## Bodies that require their links first -/

/-- A statement neither requires a module nor ends the body, in the execution with the given
number.  It may read any name: one that forwards to itself reads as null. -/
def Statement.Calm (attempt : Nat) : Statement → Prop
  | .require _ _ => False
  | .attempt _ _ => False
  | .throw _ => False
  | .throwFirst _ times => times < attempt
  | _ => True

/-- Statements require links, one after the other, and all others are calm. -/
def RequiresFirst (attempt : Nat) : List Link → List Statement → Prop
  | [], body => ∀ s ∈ body, s.Calm attempt
  | l :: links, .require specifier _ :: body =>
    specifier = l.specifier ∧ RequiresFirst attempt links body
  | _ :: _, _ => False

theorem Statement.Calm.requested_eq {attempt : Nat} {s : Statement} (h : s.Calm attempt) :
    s.requested = none := by
  cases s with
  | require specifier handle => exact h.elim
  | attempt specifier handle => exact h.elim
  | _ => rfl

/-- The first link that is left is required by the first statement. -/
theorem RequiresFirst.exists_require {attempt : Nat} {l : Link} {links : List Link}
    {body : List Statement} (h : RequiresFirst attempt (l :: links) body) :
    ∃ handle rest, body = .require l.specifier handle :: rest ∧
      RequiresFirst attempt links rest := by
  cases body with
  | nil => exact h.elim
  | cons s rest =>
    cases s with
    | require specifier handle =>
      obtain ⟨rfl, hrest⟩ := h
      exact ⟨handle, rest, rfl, hrest⟩
    | _ => exact h.elim

/-- Each link is required by one of the first statements. -/
theorem RequiresFirst.mem_take {attempt : Nat} {links : List Link} {body : List Statement}
    (h : RequiresFirst attempt links body) {l : Link} (hl : l ∈ links) :
    ∃ handle, Statement.require l.specifier handle ∈ body.take links.length := by
  induction links generalizing body with
  | nil => cases hl
  | cons k links ih =>
    obtain ⟨handle, rest, rfl, hrest⟩ := h.exists_require
    rw [List.length_cons, List.take_succ_cons]
    rcases List.mem_cons.1 hl with rfl | hl
    · exact ⟨handle, List.mem_cons_self⟩
    · obtain ⟨handle', hmem⟩ := ih hrest hl
      exact ⟨handle', List.mem_cons_of_mem _ hmem⟩

theorem RequiresFirst.length_le {attempt : Nat} {links : List Link} {body : List Statement}
    (h : RequiresFirst attempt links body) : links.length ≤ body.length := by
  induction links generalizing body with
  | nil => exact Nat.zero_le _
  | cons l links ih =>
    obtain ⟨handle, rest, rfl, hrest⟩ := h.exists_require
    exact Nat.succ_le_succ (ih hrest)

/-- Statements that require links, and calm ones after them. -/
theorem requiresFirst_append {attempt : Nat} (links : List Link) {body : List Statement}
    (h : ∀ s ∈ body, s.Calm attempt) : RequiresFirst attempt links
      (links.map (fun l => .require l.specifier l.specifier) ++ body) := by
  induction links with
  | nil => exact h
  | cons l links ih => exact ⟨rfl, ih⟩

namespace Frame

variable {requiring : Requiring} {f : Frame} {w v : World}

/-- A calm statement lets the body go on, and leaves the loader alone. -/
theorem step_calm (requiring : Requiring) (w : World) {s : Statement} (h : s.Calm f.attempt) :
    ∃ v, f.step requiring w s = (.ok f, v) ∧ w.SameLoader v := by
  have hsame := step_of_unrequested requiring f w h.requested_eq
  have hok : (f.step requiring w s).1 = .ok f := by
    cases s with
    | require specifier handle => exact h.elim
    | attempt specifier handle => exact h.elim
    | throw message => exact h.elim
    | throwFirst message times =>
      unfold step
      dsimp only
      rw [if_neg (Nat.not_le.2 h)]
    | _ => rfl
  exact ⟨(f.step requiring w s).2, Prod.ext hok rfl, hsame⟩

/-- And so do calm statements, one after the other. -/
theorem run_calm (requiring : Requiring) (w : World) {body : List Statement}
    (h : ∀ s ∈ body, s.Calm f.attempt) :
    ∃ v, f.run requiring body w = (.ok (), v) ∧ w.SameLoader v := by
  induction body generalizing w with
  | nil => exact ⟨w, rfl, World.SameLoader.refl w⟩
  | cons s rest ih =>
    obtain ⟨u, hstep, hsame⟩ := step_calm requiring w (h s List.mem_cons_self)
    obtain ⟨v, hrun, hrest⟩ := ih u fun s' hs' => h s' (List.mem_cons_of_mem _ hs')
    refine ⟨v, ?_, hsame.trans hrest⟩
    unfold run
    rw [hstep]
    exact hrun

/-- A require that succeeds keeps what it gives. -/
theorem step_require {specifier handle : String} {id : ModuleId} {o : ObjectId}
    (htarget : targetOf f.module.imports specifier = some id)
    (hok : requiring id w = (.ok o, v)) :
    f.step requiring w (.require specifier handle) = (.ok (f.keep handle o), v) := by
  unfold step
  dsimp only
  rw [requireSpecifier_of_target requiring htarget, hok]

/-- A require that lets the body go on has succeeded. -/
theorem exists_of_step_require {specifier handle : String} {f' : Frame}
    (h : f.step requiring w (.require specifier handle) = (.ok f', v)) :
    ∃ id o, targetOf f.module.imports specifier = some id ∧ requiring id w = (.ok o, v) := by
  cases htarget : targetOf f.module.imports specifier with
  | none =>
    unfold step at h
    dsimp only at h
    rw [requireSpecifier_of_target_none requiring htarget] at h
    cases h
  | some id =>
    unfold step at h
    dsimp only at h
    rw [requireSpecifier_of_target requiring htarget] at h
    rcases heq : requiring id w with ⟨_ | o, u⟩ <;> rw [heq] at h
    · cases h
    · cases h
      exact ⟨id, o, rfl, heq⟩

end Frame

/-! ## Registries of graphs -/

/-- In links with different specifiers, a specifier means the target of its link. -/
theorem targetOf_of_mem {links : List Link} (h : (links.map (·.specifier)).Nodup) {l : Link}
    (hl : l ∈ links) : targetOf links l.specifier = some l.target := by
  unfold targetOf
  rw [Option.map_eq_some_iff]
  cases hfind : links.find? fun k => k.specifier == l.specifier with
  | none => exact absurd (beq_self_eq_true l.specifier) (List.find?_eq_none.1 hfind l hl)
  | some k =>
    have hk : k ∈ links := List.mem_of_find?_eq_some hfind
    have heq : k.specifier = l.specifier := by simpa using List.find?_some hfind
    rw [List.inj_on_of_nodup_map h hk hl heq]
    exact ⟨l, rfl, rfl⟩

/-- A registry has the entry of a graph and its modules with their links. -/
structure Registry.Mirrors (r : Registry) (g : ModuleGraph) : Prop where
  entry_eq : r.entry = g.entry
  modules_eq : r.modules.map (fun m => (m.id, m.imports)) =
    g.modules.map fun m => (m.id, m.imports)

namespace Registry

variable {r : Registry} {g : ModuleGraph}

/-- Compiling modules keeps their ids and links, and gives each the body that it compiles to. -/
theorem compileAll_forall₂ {compile : Module → Except RunFailure (List Statement)}
    {modules : List Module} {made : List Registered}
    (h : (compileAll compile modules).1 = .ok made) :
    List.Forall₂ (fun m c => c.id = m.id ∧ c.imports = m.imports ∧ compile m = .ok c.body)
      modules made := by
  induction modules generalizing made with
  | nil =>
    cases h
    exact .nil
  | cons m rest ih =>
    unfold compileAll at h
    split at h
    · cases h
    · rename_i body hbody
      dsimp only at h
      cases hlater : (compileAll compile rest).1 with
      | error e =>
        rw [hlater] at h
        cases h
      | ok later =>
        rw [hlater] at h
        cases h
        exact .cons ⟨rfl, rfl, hbody⟩ (ih hlater)

theorem compileAll_modules {compile : Module → Except RunFailure (List Statement)}
    {modules : List Module} {made : List Registered}
    (h : (compileAll compile modules).1 = .ok made) :
    made.map (fun m => (m.id, m.imports)) = modules.map fun m => (m.id, m.imports) := by
  have hcompiled := compileAll_forall₂ h
  clear h
  induction hcompiled with
  | nil => rfl
  | cons hm _ ih => rw [List.map_cons, List.map_cons, hm.1, hm.2.1, ih]

theorem mirrors_ofGraph {compile : Module → Except RunFailure (List Statement)}
    (h : (ofGraph g compile).1 = .ok r) : r.Mirrors g := by
  unfold ofGraph at h
  dsimp only at h
  cases hmade : (compileAll compile g.modules).1 with
  | error e =>
    rw [hmade] at h
    cases h
  | ok made =>
    rw [hmade] at h
    cases h
    exact ⟨rfl, compileAll_modules hmade⟩

namespace Mirrors

variable {m : Registered} {id : ModuleId}

/-- A registered module is one of the graph, with the same links. -/
theorem exists_module (h : r.Mirrors g) (hm : m ∈ r.modules) :
    ∃ m' ∈ g.modules, m'.id = m.id ∧ m'.imports = m.imports := by
  have hmem : (m.id, m.imports) ∈ r.modules.map fun m => (m.id, m.imports) :=
    List.mem_map_of_mem hm
  rw [h.modules_eq] at hmem
  obtain ⟨m', hm', heq⟩ := List.mem_map.1 hmem
  exact ⟨m', hm', (Prod.mk.inj heq).1, (Prod.mk.inj heq).2⟩

/-- A module of the graph is registered. -/
theorem exists_registered (h : r.Mirrors g) (hid : id ∈ g.ids) : ∃ m, r.get? id = some m := by
  obtain ⟨m, hm, rfl⟩ := List.mem_map.1 hid
  have hmem : (m.id, m.imports) ∈ g.modules.map fun m => (m.id, m.imports) :=
    List.mem_map_of_mem hm
  rw [← h.modules_eq] at hmem
  obtain ⟨m', hm', heq⟩ := List.mem_map.1 hmem
  unfold get?
  rw [← Option.isSome_iff_exists, List.find?_isSome]
  exact ⟨m', hm', beq_iff_eq.2 (Prod.mk.inj heq).1⟩

/-- What a registered module links to. -/
theorem linksTo (h : r.Mirrors g) (hm : m ∈ r.modules) {l : Link} (hl : l ∈ m.imports) :
    g.LinksTo m.id l.target := by
  obtain ⟨m', hm', hid, himports⟩ := h.exists_module hm
  refine ⟨m', hm', hid, ?_⟩
  unfold Module.targets
  rw [himports]
  exact List.mem_map_of_mem hl

/-- A specifier of a registered module means the target of its link. -/
theorem targetOf_eq (h : r.Mirrors g) (hg : g.Closed) (hm : m ∈ r.modules) {l : Link}
    (hl : l ∈ m.imports) : targetOf m.imports l.specifier = some l.target := by
  obtain ⟨m', hm', -, himports⟩ := h.exists_module hm
  have hkeyed := hg.keyed m' hm'
  unfold Module.Keyed at hkeyed
  rw [himports] at hkeyed
  exact targetOf_of_mem hkeyed hl

end Mirrors

end Registry

end ModuleBundler.Loader
