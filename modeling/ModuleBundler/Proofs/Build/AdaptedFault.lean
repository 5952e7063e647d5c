import ModuleBundler.Proofs.Build.Reading

/-!
# Where the faults of adapted modules are

With a target, a module is read twice: as it stands, and as the text that is printed when it has been
adapted.  Only the second reading looks for early errors, so a diagnostic can point into either text.

* `toLoaderForm_of_parse_error`, `adaptedLoaderForm_of_parse_error` — a module that has a fault of the
  grammar is refused in the same way with and without a target;
* **`adaptedLoaderForm_error_iff`** — all other failures with a target are faults of the printed text,
  and point into it;
* `adaptProgram_of_isKept` — a program in which there is nothing to adapt is printed as it is;
* **`adaptedLoaderForm_of_unchanged`** — so a target makes no difference to a module that has nothing to adapt
  and is written as it would be printed: its diagnostics stay where they are;
* `not_located_of_printed` — the place in the printed text can be another one than that in the module.
-/

namespace ModuleBundler

open ModuleBundler.Adaptation ModuleBundler.LoaderForm ModuleBundler.Syntax ModuleBundler.Text

variable {target : Target} {id : ModuleId} {source : String}

/-! ## Both readings -/

/-- A fault of the grammar comes before all early errors. -/
theorem checkedProgram_of_parse_error {text : List Char} {f : Fault} (h : parse text = .error f) :
    checkedProgram text = .error f := by
  unfold checkedProgram
  rw [h]
  rfl

theorem toLoaderForm_of_checkedProgram_error {f : Fault}
    (h : checkedProgram source.toList = .error f) :
    toLoaderForm id source = .error (.parse id (f.locate source.toList)) := by
  unfold toLoaderForm ofSource
  dsimp only
  rw [h]

/-- Without a target, a fault of the grammar is shown where it is in the module. -/
theorem toLoaderForm_of_parse_error {f : Fault} (h : parse source.toList = .error f) :
    toLoaderForm id source = .error (.parse id (f.locate source.toList)) :=
  toLoaderForm_of_checkedProgram_error (checkedProgram_of_parse_error h)

/-- With a target, it is shown at the same place. -/
theorem adaptedLoaderForm_of_parse_error {f : Fault} (h : parse source.toList = .error f) :
    adaptedLoaderForm target id source = .error (.parse id (f.locate source.toList)) := by
  unfold adaptedLoaderForm adaptSource
  dsimp only
  rw [h]

/-- A module without a fault of the grammar is read again as it is printed. -/
theorem adaptedLoaderForm_of_printed {printed : String} (h : adaptSource target source = .ok printed) :
    adaptedLoaderForm target id source = toLoaderForm id printed := by
  unfold adaptedLoaderForm
  rw [h]

/-- A module is refused for the first fault of its text. -/
theorem toLoaderForm_error_iff {e : BuildFailure} : toLoaderForm id source = .error e ↔
    ∃ f, checkedProgram source.toList = .error f ∧ e = .parse id (f.locate source.toList) := by
  constructor
  · intro h
    cases hchecked : checkedProgram source.toList with
    | error f =>
      rw [toLoaderForm_of_checkedProgram_error hchecked] at h
      exact ⟨f, rfl, (Except.error.inj h).symm⟩
    | ok program =>
      unfold toLoaderForm ofSource at h
      dsimp only at h
      rw [hchecked] at h
      cases h
  · rintro ⟨f, hchecked, rfl⟩
    exact toLoaderForm_of_checkedProgram_error hchecked

/-! ## With a target -/

/-- With a target, a module is refused for a fault of its own grammar, as it is without one, or for the
first fault of the printed text, at the place of this fault in the printed text. -/
theorem adaptedLoaderForm_error_iff {e : BuildFailure} :
    adaptedLoaderForm target id source = .error e ↔
      (∃ f, parse source.toList = .error f ∧ e = .parse id (f.locate source.toList) ∧
        toLoaderForm id source = .error e) ∨
      ∃ printed f, adaptSource target source = .ok printed ∧
        checkedProgram printed.toList = .error f ∧ e = .parse id (f.locate printed.toList) := by
  cases hparse : parse source.toList with
  | error f =>
    have hadapt : adaptSource target source = .error (f.locate source.toList) := by
      unfold adaptSource
      dsimp only
      rw [hparse]
    rw [adaptedLoaderForm_of_parse_error hparse]
    constructor
    · intro h
      obtain rfl := Except.error.inj h
      exact Or.inl ⟨f, rfl, rfl, toLoaderForm_of_parse_error hparse⟩
    · rintro (⟨g, hg, rfl, -⟩ | ⟨printed, g, hprinted, -⟩)
      · cases hg
        rfl
      · rw [hadapt] at hprinted
        cases hprinted
  | ok program =>
    have hadapt : adaptSource target source =
        .ok ((adaptProgram target program).written source.toList) := by
      unfold adaptSource
      dsimp only
      rw [hparse]
    rw [adaptedLoaderForm_of_printed hadapt, toLoaderForm_error_iff]
    constructor
    · rintro ⟨f, hchecked, rfl⟩
      exact Or.inr ⟨_, f, hadapt, hchecked, rfl⟩
    · rintro (⟨g, hg, -⟩ | ⟨printed, g, hprinted, hchecked, rfl⟩)
      · cases hg
      · obtain rfl := Except.ok.inj (hadapt.symm.trans hprinted)
        exact ⟨g, hchecked, rfl⟩

/-! ## Programs that need no adapting -/

mutual

/-- Whether no feature of a node is to be replaced. -/
def isKept (c : Context) : Node → Bool
  | .mk label _ children =>
    (match c.task label (firstLabel children) with
      | .none | .statements | .module => true
      | _ => false) && areKept c children

/-- Whether no feature of some nodes is to be replaced. -/
def areKept (c : Context) : List Node → Bool
  | [] => true
  | n :: rest => isKept c n && areKept c rest

end

/-- What introduces no variables declares none. -/
theorem declaring_of_kept {α : Type} {action : Naming α} {a : α} (h : ∀ s, action.run s = (a, s))
    (s : Temporaries) : (declaring action).run s = ((a, []), s) := by
  simp only [declaring, StateT.run_bind, StateT.run_get, StateT.run_modify, h]
  rfl

theorem declaredIn_nil (label : Label) (items : List Node) : declaredIn label [] items = items := by
  unfold declaredIn withVariables
  split <;> rfl

mutual

/-- A node of which nothing is to be replaced stays as it is. -/
theorem adapt_of_isKept {c : Context} : ∀ {n : Node}, isKept c n = true →
    ∀ s, (adapt c n).run s = (n, s)
  | .mk label span children, h, s => by
    rw [isKept, Bool.and_eq_true] at h
    have hchildren := adaptAll_of_areKept h.2
    have hdeclaring := declaring_of_kept hchildren
    rw [adapt]
    cases htask : c.task label (firstLabel children) with
    | none =>
      simp only [StateT.run_bind, hchildren]
      rfl
    | statements =>
      simp only [StateT.run_bind, hdeclaring]
      exact congrArg (fun items => (Node.mk label span items, s)) (declaredIn_nil label children)
    | module =>
      simp only [StateT.run_bind, hdeclaring]
      rfl
    | _ => simp [htask] at h

theorem adaptAll_of_areKept {c : Context} : ∀ {nodes : List Node}, areKept c nodes = true →
    ∀ s, (adaptAll c nodes).run s = (nodes, s)
  | [], _, s => by rw [adaptAll]; rfl
  | n :: rest, h, s => by
    rw [areKept, Bool.and_eq_true] at h
    rw [adaptAll]
    simp only [StateT.run_bind, adapt_of_isKept h.1, adaptAll_of_areKept h.2]
    rfl

end

/-- Of a program of which nothing is to be replaced only the parentheses go. -/
theorem adaptProgram_of_isKept {program : Node}
    (h : isKept ⟨target, .of (bare program)⟩ (bare program) = true) :
    adaptProgram target program = bare program := by
  unfold adaptProgram
  dsimp only
  rw [adapt_of_isKept h]

/-- It is read again as it is printed. -/
theorem adaptSource_of_isKept {program : Node} (hparse : parse source.toList = .ok program)
    (h : isKept ⟨target, .of (bare program)⟩ (bare program) = true) :
    adaptSource target source = .ok ((bare program).written source.toList) := by
  unfold adaptSource
  dsimp only
  rw [hparse]
  dsimp only
  rw [adaptProgram_of_isKept h]

/-- If it is written as it is printed, then it has the same loader form with a target and without one, or is
refused for the same fault at the same place. -/
theorem adaptedLoaderForm_of_unchanged {program : Node} (hparse : parse source.toList = .ok program)
    (h : isKept ⟨target, .of (bare program)⟩ (bare program) = true)
    (hprinted : (bare program).written source.toList = source) :
    adaptedLoaderForm target id source = toLoaderForm id source := by
  have hadapt := adaptSource_of_isKept hparse h
  rw [hprinted] at hadapt
  exact adaptedLoaderForm_of_printed hadapt

/-! ## A blank line -/

/-- The edition before the operator of powers. -/
def es2015 : Target := ⟨some (.year 2015), []⟩

/-- A name is declared twice, behind a blank line. -/
def spacedSource : String := "\nlet a;\nlet a;\n"

/-- The blank line is not printed. -/
theorem adaptSource_spacedSource : adaptSource es2015 spacedSource = .ok "let a;\nlet a;\n" := by
  have hkept : (parse spacedSource.toList).toOption.any (fun program =>
      isKept ⟨es2015, .of (bare program)⟩ (bare program)
        && (bare program).written spacedSource.toList == "let a;\nlet a;\n") = true := by
    decide +kernel
  cases hparse : parse spacedSource.toList with
  | error f =>
    rw [hparse] at hkept
    cases hkept
  | ok program =>
    rw [hparse, Except.toOption, Option.any_some, Bool.and_eq_true, beq_iff_eq] at hkept
    rw [adaptSource_of_isKept hparse hkept.1, hkept.2]

/-- The diagnostic for an early error points to the line in the printed text, which can be another
one than that in the module. -/
theorem not_located_of_printed : ¬ ∀ (target : Target) (id : ModuleId) source d,
    adaptedLoaderForm target id source = .error (.parse id d) →
      ∃ d', toLoaderForm id source = .error (.parse id d') ∧ d.position = d'.position := by
  intro h
  have hadapted : adaptedLoaderForm es2015 (.ofPath "/mod.js") spacedSource = .error (.parse
      (.ofPath "/mod.js") ⟨"Identifier `a` has already been declared", ⟨1, 5⟩⟩) := by
    rw [adaptedLoaderForm_of_printed adaptSource_spacedSource]
    decide +kernel
  have hplain : toLoaderForm (.ofPath "/mod.js") spacedSource = .error (.parse
      (.ofPath "/mod.js") ⟨"Identifier `a` has already been declared", ⟨2, 5⟩⟩) := by decide +kernel
  obtain ⟨d', hd', hposition⟩ := h _ _ _ _ hadapted
  rw [hplain] at hd'
  cases hd'
  cases hposition

end ModuleBundler
