import ModuleBundler.Proofs.LoaderForm.Item
import ModuleBundler.Proofs.Syntax.Progress

/-!
# Where module items stand

What is written over a top-level statement depends on where it begins and ends, where the value in it
begins, and where its references are.  `Stands` says this for each form of a module item, between the
token that the statement begins with and the one behind it.

* `leads_exportNames`, `leads_exportedDeclaration`, `leads_defaultValue` and their like follow the steps
  that read the forms;
* `leads_statement_stands` — so stands each statement that is read;
* `ends_statement` — a statement ends where the token before the current one does, behind its references;
* **`rows_of_parse`** — the statements of a program that was parsed stand one behind the other;
* `namePartAt_of_hits` — its references stand on characters of names.
-/

namespace ModuleBundler.Syntax

open Parse Grammar LoaderForm

variable {α : Type} {text : List Char} {lo from_ : Nat} {sub : Goal → Parse Node}

/-! ## Accounts of steps that were made -/

theorem Carries.counted {v : Watch} {given : Nat} {p : Parse α} {count : α → Nat}
    (h : Carries v given p count) {s t : ParseState} {a : α} (hs : Counted v given s)
    (hok : p s = .ok (a, t)) : Counted v (count a) t := by
  have hbehind : Counted v (0 + count a) t := h 0 s a t ((Nat.zero_add given).symm ▸ hs) hok
  rwa [Nat.zero_add] at hbehind

/-- The current token begins at an offset or behind it. -/
structure Since (text : List Char) (from_ : Nat) (s : ParseState) : Prop where
  sited : s.Sited text
  le : from_ ≤ s.token.span.start

/-- Nothing has been counted where watching begins. -/
theorem Since.counted {s : ParseState} (h : Since text from_ s) (k : Nat) :
    Counted ⟨text, from_, k⟩ 0 s :=
  ⟨h.sited, h.le, Nat.zero_le _, fun hpos => absurd hpos (Nat.lt_irrefl 0),
    fun hpos => absurd hpos (Nat.lt_irrefl 0)⟩

theorem Counted.since {v : Watch} {count : Nat} {s : ParseState} (h : Counted v count s) :
    Since v.text v.start s := ⟨h.sited, h.start_le⟩

/-- No token that is passed leads back. -/
theorem Carries.since {p : Parse α} {count : Watch → α → Nat} (h : ∀ v, Carries v 0 p (count v)) :
    Leads (Since text from_) p fun _ => Since text from_ :=
  fun _ _ _ hs hok => ((h ⟨text, from_, 0⟩).counted (hs.counted 0) hok).since

theorem ParseState.Sited.since {s : ParseState} (h : s.Sited text) :
    Since text s.token.span.start s := ⟨h, Nat.le_refl _⟩

/-- The previous token is the one that was passed, and the next one begins where it ends, or further
on. -/
theorem leads_advance {x : Nat} : Leads (fun s => s.Sited text ∧ s.token.span.stop = x) advance
    fun _ t => Since text x t ∧ t.prevStop = x := by
  rintro s u t ⟨hs, hx⟩ hok
  have hstop : t.prevStop = x := leads_prevStop s u t hx hok
  have ht : t.Sited text := (passes_advance.counted (hs.since.counted 0) hok).sited
  exact ⟨⟨ht, hstop ▸ ht.prev_le⟩, hstop⟩

theorem start_lt_stop_of_atWord {s : ParseState} (hs : s.Sited text) (hword : AtWord s) :
    s.token.span.start < s.token.span.stop := by
  obtain ⟨word, escaped, hkind⟩ := hword
  obtain ⟨-, ⟨c, -, -, hbetween⟩, -⟩ := hs
  have hsolid : s.token.kind.IsSolid := by
    rw [hkind]
    trivial
  exact hbetween.lt_stop hsolid

/-- The token behind a word begins behind the beginning of the word. -/
theorem since_advance {s t : ParseState} {u : Unit} (hs : s.Sited text) (hword : AtWord s)
    (hok : advance s = .ok (u, t)) : Since text (s.token.span.start + 1) t := by
  obtain ⟨⟨hsited, hle⟩, -⟩ := leads_advance s u t ⟨hs, rfl⟩ hok
  exact ⟨hsited, Nat.le_trans (start_lt_stop_of_atWord hs hword) hle⟩

/-- Behind a word, its first character has been passed. -/
theorem counted_advance {s t : ParseState} {u : Unit} (hs : s.Sited text) (hword : AtWord s)
    (hok : advance s = .ok (u, t)) :
    Counted ⟨text, s.token.span.start, s.token.span.start⟩ 1 t := by
  have hlt := start_lt_stop_of_atWord hs hword
  obtain ⟨⟨hsited, hle⟩, hprev⟩ := leads_advance s u t ⟨hs, rfl⟩ hok
  refine ⟨hsited, Nat.le_trans (Nat.le_of_lt hlt) hle, Nat.le_refl _, fun _ => ⟨Nat.le_refl _, ?_⟩,
    fun _ => hs.word hword _ (Nat.le_refl _) hlt⟩
  rw [hprev]
  exact hlt

/-! ## Requests -/

/-- A node stretches from an offset to where the previous token ended. -/
theorem leads_node {P : ParseState → Prop} {label : Label} {start : Nat} {children : List Node} :
    Leads P (node label start children) fun n t => n = .mk label ⟨start, t.prevStop⟩ children := by
  intro s n t _ hok
  cases hok
  rfl

theorem leads_importDeclaration {k : Nat} : Leads (StartsAt k) importDeclaration fun n t =>
    (∃ clause, n.label = .importDecl clause) ∧ n.span = ⟨k, t.prevStop⟩ := by
  refine .bind_here <| .behind fun _ => .behind fun _ => ?_
  extract_lets isBare finish
  have hfinish : ∀ specifiers, Leads (fun _ => True) (finish specifiers) fun n t =>
      (∃ clause, n.label = .importDecl clause) ∧ n.span = ⟨k, t.prevStop⟩ := fun _ =>
    .behind fun _ => .behind fun _ => .behind fun _ => leads_node.mono (fun _ => id)
      fun n t hn => hn ▸ ⟨⟨_, rfl⟩, rfl⟩
  exact .ite (fun _ => .behind hfinish) fun _ => .behind fun _ => .behind fun _ => .behind hfinish

theorem leads_exportAll {start : Nat} : Leads (fun _ => True) (exportAll start) fun n t =>
    n.label = .exportAll ∧ n.span = ⟨start, t.prevStop⟩ := by
  refine .behind fun _ => .behind fun _ => ?_
  extract_lets finish
  have hfinish : ∀ name, Leads (fun _ => True) (finish name) fun n t =>
      n.label = .exportAll ∧ n.span = ⟨start, t.prevStop⟩ := fun _ =>
    .behind fun _ => .behind fun _ => .behind fun _ => .behind fun _ => leads_node.mono (fun _ => id)
      fun n t hn => hn ▸ ⟨rfl, rfl⟩
  exact .ite (fun _ => .behind hfinish) fun _ => .behind hfinish

theorem leads_exportNames {start : Nat} : Leads (fun _ => True) (exportNames start) fun n t =>
    n.label = .exportNames ∧ n.span = ⟨start, t.prevStop⟩ := by
  have hnode : ∀ items, Leads (fun _ => True) (node .exportNames start items) fun n t =>
      n.label = .exportNames ∧ n.span = ⟨start, t.prevStop⟩ := fun _ =>
    leads_node.mono (fun _ => id) fun n t hn => hn ▸ ⟨rfl, rfl⟩
  refine .behind fun _ => .behind fun _ => .behind fun _ => .behind fun _ => .behind fun _ =>
    .ite (fun _ => ?_) fun _ => ?_
  · exact .behind fun _ => .behind fun _ => .behind fun _ => hnode _
  · exact .behind fun _ => .behind fun _ => hnode _

/-! ## Declarations and values -/

theorem leads_parameters {k : Nat} :
    Leads (StartsAt k) (parameters sub) fun n _ => n.span.start = k :=
  .bind_here <| .behind fun _ => .behind fun _ => .behind fun _ => leads_node.mono (fun _ => id)
    fun _ _ hn => hn ▸ rfl

/-- What is read behind the name of a function begins with its parameters. -/
theorem leads_functionRest {k start : Nat} {name : Node} {form : FunctionForm}
    {isAsync isGenerator : Bool} :
    Leads (StartsAt k) (functionRest sub start name form isAsync isGenerator) fun n _ =>
      (n.child 1).span.start = k := by
  refine .bind (Q := fun parts _ => parts.1.span.start = k) (Leads.permitting (leads_parameters.bind
    fun params => ?_) (fun _ _ => id) (fun _ _ _ => id) _) fun parts => ?_
  · exact (Leads.kept _).bind fun _ => .ite (fun _ => (Leads.kept _).bind fun _ => .pure fun _ => id)
      fun _ => .fail
  · intro s n t hparts hok
    rw [leads_node (P := fun _ => True) s n t trivial hok]
    exact hparts

theorem yields_functionName_silent {form : FunctionForm} {isAsync isGenerator : Bool} :
    Yields (functionName form isAsync isGenerator) Node.Silent := by
  refine .behind fun t => .behind fun _ => ?_
  extract_lets absent
  have habsent : ∀ u, Yields (absent u) Node.Silent := fun _ => .pure fun _ => rfl
  refine .ite (.behind fun permit => .behind fun _ => .behind fun _ => .nameLeaf fun _ _ _ => rfl)
    (.ite (.ite (.behind habsent) (.behind fun _ => .ite (.behind habsent) (habsent ())))
      (habsent ()))

theorem leads_variableStatement {k : Nat} {kind : VariableKind} {position : StatementPlace} :
    Leads (StartsAt k) (variableStatement sub kind position) fun n _ => n.span.start = k := by
  refine .bind_here <| .behind fun _ => .behind fun _ => .behind fun _ => .bind
    (leads_node.mono (fun _ => id) fun n t hn => (hn ▸ rfl : n.span.start = k)) fun n => ?_
  exact .ite (fun _ => (Leads.kept _).bind fun _ => .pure fun _ => id) fun _ => .pure fun _ => id

/-- A declaration begins where it is read. -/
theorem leads_exportedDeclaration {k : Nat} {decorations : List Node} :
    Leads (StartsAt k) (exportedDeclaration sub decorations) fun n _ => n.span.start = k := by
  have hfunction : ∀ {P : ParseState → Prop} {isAsync}, Leads P
      (functionStatement sub k isAsync .list) fun n _ => n.span.start = k := fun s n t _ hok => by
    obtain ⟨_, _, _, _, rfl, -⟩ := yields_functionStatement s n t trivial hok
    rfl
  have hclass : ∀ {P : ParseState → Prop} {decorations}, Leads P
      (classStatement sub k decorations .list) fun n _ => n.span.start = k := fun s n t _ hok => by
    obtain ⟨_, _, _, rfl, -⟩ := yields_classStatement s n t trivial hok
    rfl
  refine .bind_here <| (Steady.atWord _).leads.bind fun _ => .ite (fun _ => leads_variableStatement)
    fun _ => (Steady.atWord _).leads.bind fun _ => .ite (fun _ => leads_variableStatement)
    fun _ => (Steady.atWord _).leads.bind fun _ => .ite (fun _ => leads_variableStatement)
    fun _ => .behind fun _ => .ite (fun _ => hfunction) fun _ => .behind fun _ =>
    .ite (fun _ => hclass) fun _ => .behind fun _ => .ite (fun _ => .behind fun _ => hfunction)
    fun _ => .behind fun _ => .ite (fun _ => ?_) fun _ => .unexpected
  exact .behind fun _ => .behind fun _ => .ite (fun _ => hclass) fun _ => .unexpected

/-- So does the value of a default export. -/
theorem leads_defaultValue {k : Nat}
    (hvalue : Leads (StartsAt k) (sub .assignment) fun n _ => n.Opens k) {decorations : List Node} :
    Leads (StartsAt k) (defaultValue sub decorations) fun n _ => n.span.start = k := by
  have hfunction : ∀ {P : ParseState → Prop} {isAsync}, Leads P
      (function sub k isAsync .defaultExport) fun n _ => n.span.start = k := fun s n t _ hok => by
    obtain ⟨_, _, _, _, _, rfl, -⟩ := yields_function s n t trivial hok
    rfl
  have hclass : ∀ {P : ParseState → Prop} {decorations}, Leads P
      (classDefinition sub k true decorations) fun n _ => n.span.start = k := fun s n t _ hok => by
    obtain ⟨_, _, _, rfl, -⟩ := yields_classDefinition s n t trivial hok
    rfl
  refine .bind_here <| (Steady.atWord _).leads.bind fun _ => .ite (fun _ => hclass) fun _ =>
    (Steady.isAt _).leads.bind fun _ => .ite (fun _ => ?_) fun _ =>
    (Steady.atWord _).leads.bind fun _ => .ite (fun _ => hfunction) fun _ =>
    (Steady.lookahead _).leads.bind fun _ => .ite (fun _ => .behind fun _ => hfunction) fun _ =>
    hvalue.bind fun n => (Leads.kept _).bind fun _ => .pure fun _ hn => hn.start_eq
  exact .behind fun _ => .behind fun _ => .ite (fun _ => hclass) fun _ => .unexpected

/-- Where the name of an unnamed function is written. -/
theorem params_of_unnamedFunction {n : Node} {params : Nat}
    (h : DefaultForm.of n = .unnamedFunction params) :
    (∃ isAsync isGenerator, n.label = .function .defaultExport isAsync isGenerator) ∧
      (n.child 1).span.start = params := by
  unfold DefaultForm.of at h
  split at h
  · cases h
  · rename_i hlabel _
    exact ⟨⟨_, _, hlabel⟩, DefaultForm.unnamedFunction.inj h⟩
  · cases h
  · cases h

section Functions

variable (hsub : ∀ v g, Reads v (sub g))
include hsub

/-- No reference in a function stands before its parameters. -/
theorem leads_function {start : Nat} {isAsync : Bool} {form : FunctionForm} :
    Leads (Since text from_) (function sub start isAsync form) fun n t =>
      from_ ≤ (n.child 1).span.start ∧ (n.child 1).span.start ≤ t.token.span.start ∧
        ∀ k, 0 < n.hits k → (n.child 1).span.start ≤ k := by
  refine (Carries.since fun _ => passes_expectWord).bind fun _ =>
    (Carries.since fun _ => passes_eat).bind fun isGenerator => .bind
    (Q := fun name s => Since text from_ s ∧ name.Silent) (fun s name t hs hok =>
      ⟨Carries.since (fun _ => reads_functionName) s name t hs hok,
        yields_functionName_silent s name t trivial hok⟩) fun name => ?_
  rintro s n t ⟨hs, hname⟩ hok
  have hcounted : ∀ k, Counted ⟨text, s.token.span.start, k⟩ (n.hits k) t := fun k =>
    (carries_functionRest (hsub ⟨text, s.token.span.start, k⟩) name).counted
      ((hname k).symm ▸ hs.sited.since.counted k) hok
  rw [leads_functionRest s n t rfl hok]
  exact ⟨hs.le, (hcounted 0).start_le, fun k hpos => ((hcounted k).passed hpos).1⟩

/-- Where the name of an unnamed function will be written, no reference of it stands before. -/
theorem leads_defaultValue_params
    (hvalue : ∀ k, Leads (StartsAt k) (sub .assignment) fun n _ => n.Opens k)
    {decorations : List Node} : Leads (Since text from_) (defaultValue sub decorations) fun n t =>
      ∀ params, DefaultForm.of n = .unnamedFunction params →
        from_ ≤ params ∧ params ≤ t.token.span.start ∧ ∀ k, 0 < n.hits k → params ≤ k := by
  have hfunction : ∀ {start isAsync}, Leads (Since text from_)
      (function sub start isAsync .defaultExport) fun n t =>
        ∀ params, DefaultForm.of n = .unnamedFunction params →
          from_ ≤ params ∧ params ≤ t.token.span.start ∧ ∀ k, 0 < n.hits k → params ≤ k :=
    (leads_function hsub).mono (fun _ => id) fun n t hn params hform =>
      (params_of_unnamedFunction hform).2 ▸ hn
  have hother : ∀ {P : ParseState → Prop} {p : Parse Node} {R : Nat → Node → ParseState → Prop},
      (Leads P p fun n _ => ∀ isAsync isGenerator,
        n.label ≠ .function .defaultExport isAsync isGenerator) →
      Leads P p fun n t => ∀ params, DefaultForm.of n = .unnamedFunction params → R params n t :=
    fun hp => hp.mono (fun _ => id) fun n t hn params hform => by
      obtain ⟨⟨isAsync, isGenerator, hlabel⟩, -⟩ := params_of_unnamedFunction hform
      exact absurd hlabel (hn isAsync isGenerator)
  have hclass : ∀ {P : ParseState → Prop} {start decorations}, Leads P
      (classDefinition sub start true decorations) fun n _ => ∀ isAsync isGenerator,
        n.label ≠ .function .defaultExport isAsync isGenerator := fun s n t _ hok => by
    obtain ⟨_, _, _, rfl, -⟩ := yields_classDefinition s n t trivial hok
    exact fun _ _ => Label.noConfusion
  refine Steady.here.leads.bind fun start => (Steady.atWord _).leads.bind fun _ =>
    .ite (fun _ => hother hclass) fun _ => (Steady.isAt _).leads.bind fun _ =>
    .ite (fun _ => hother ?_) fun _ => (Steady.atWord _).leads.bind fun _ =>
    .ite (fun _ => hfunction) fun _ => (Steady.lookahead _).leads.bind fun _ =>
    .ite (fun _ => (Carries.since fun _ => passes_advance).bind fun _ => hfunction) fun _ =>
    hother ?_
  · exact .behind fun _ => .behind fun _ => .ite (fun _ => hclass) fun _ => .unexpected
  · refine .bind (Q := fun n _ => n.label.isDefaultDeclaration = false)
      (fun s n t _ hok => (hvalue _ s n t rfl hok).label_eq) fun n => (Leads.kept _).bind fun _ =>
      .pure fun _ hn isAsync isGenerator hlabel => ?_
    rw [hlabel] at hn
    cases hn

end Functions

theorem forgets_defaultValue (hvalue : Forgets (sub .assignment)) {decorations : List Node} :
    Forgets (defaultValue sub decorations) := by
  refine .look looks_here fun start => .look (looks_atWord _) fun _ => .ite forgets_classDefinition <|
    .look (looks_isAt _) fun _ => .ite ?_ <| .look (looks_atWord _) fun _ => .ite forgets_function <|
    .look (.lookahead (.bind forgets_eatWord fun found hfalse => ?_)) fun _ =>
    .ite (.first forgets_advance) (.first hvalue)
  · exact .look looks_decorators fun _ => .look (looks_atWord _) fun _ =>
      .ite forgets_classDefinition .unexpected
  · rw [hfalse]
    exact .pure trivial

/-! ## Module items -/

/-- A node stands between two offsets, and is not empty. -/
structure Node.Bounded (lo hi : Nat) (n : Node) : Prop where
  lo_le : lo ≤ n.span.start
  lt : n.span.start < n.span.stop
  le_hi : n.span.stop ≤ hi

/-- What a node exports stands behind a word, and no reference between the two. -/
structure Node.Led (lo hi : Nat) (n : Node) : Prop where
  lo_le : lo ≤ n.span.start
  lt : n.span.start < (n.child 0).span.start
  le_hi : (n.child 0).span.start ≤ hi
  clear : ∀ k, 0 < n.hits k → n.span.start ≤ k → (n.child 0).span.start ≤ k

/-- Where a top-level statement stands, and its references, as far as something is written over it. -/
inductive Stands (lo hi : Nat) (n : Node) : Prop
  | plain (hplain : isModuleItem n = false)
  | request (hlabel : (∃ clause, n.label = .importDecl clause) ∨ n.label = .exportAll)
      (hsilent : n.Silent) (hbounded : n.Bounded lo hi)
  | list (hlabel : n.label = .exportNames) (hbounded : n.Bounded lo hi)
      (hinside : ∀ k, 0 < n.hits k → n.span.start < k ∧ k < n.span.stop)
  | declaration (hlabel : n.label = .exportDecl) (hled : n.Led lo hi)
  | default (offset : Nat) (hlabel : n.label = .exportDefault offset) (hled : n.Led lo hi)
      (hbounded : n.Bounded lo hi) (hle : (n.child 0).span.start ≤ n.span.stop)
      (hbefore : ∀ k, 0 < n.hits k → k < n.span.stop)
      (hparams : ∀ params, DefaultForm.of (n.child 0) = .unnamedFunction params →
        (n.child 0).span.start ≤ params ∧ params ≤ hi ∧ ∀ k, 0 < n.hits k → params ≤ k)

theorem ParseState.Sited.bounded {n : Node} {start : Nat} {t : ParseState} (ht : t.Sited text)
    (hspan : n.span = ⟨start, t.prevStop⟩) (hlo : lo ≤ start) (hstop : start < t.prevStop) :
    n.Bounded lo t.token.span.start := by
  refine ⟨?_, ?_, ?_⟩ <;> rw [hspan]
  · exact hlo
  · exact hstop
  · exact ht.prev_le

/-- What is read by passing tokens ends no earlier than it begins. -/
theorem start_le_prevStop {p : Parse Node} (hp : Forgets p) (hreads : ∀ v, Reads v p)
    {s t : ParseState} {n : Node} (hs : s.Sited text) (hok : p s = .ok (n, t)) :
    s.token.span.start ≤ t.prevStop :=
  le_prevStop hp hreads (fun _ _ _ => rfl) hs (Nat.le_refl _) hok

/-! ### Imports -/

theorem leads_importDeclaration_stands : Leads (fun s => Since text lo s ∧ AtWord s) importDeclaration
    fun n t => Stands lo t.token.span.start n := by
  rintro s n t ⟨hs, hword⟩ hok
  obtain ⟨hlabel, hspan⟩ := leads_importDeclaration s n t rfl hok
  have ht := (reads_importDeclaration.counted (hs.counted 0) hok).sited
  -- the word of the import has been passed, and what stands behind it does not lead back
  have hstop : s.token.span.start < t.prevStop := by
    obtain ⟨u, hadvance, hreads⟩ := exists_advance_of_import hok
    have hpassed := counted_advance hs.sited hword hadvance
    exact ((hreads _ 1 hpassed).passed (Nat.lt_add_right _ Nat.one_pos)).2
  exact .request (.inl hlabel) (yields_importDeclaration_silent s n t trivial hok)
    (ht.bounded hspan hs.le hstop)

/-! ### Exports -/

/-- Decorators that stand before an offset do not count behind it. -/
theorem counted_dropped {decorations : List Node} {start k : Nat} {s : ParseState}
    (hdropped : ∀ k, start ≤ k → hitsEach k decorations = 0) (hs : s.Sited text) (hk : start ≤ k) :
    Counted ⟨text, s.token.span.start, k⟩ (hitsEach k decorations) s :=
  (hdropped k hk).symm ▸ hs.since.counted k

section Exports

variable {start : Nat} (hlo : lo ≤ start)
include hlo

theorem leads_exportAll_stands : Leads (Since text (start + 1)) (exportAll start) fun n t =>
    Stands lo t.token.span.start n := by
  intro s n t hs hok
  obtain ⟨hlabel, hspan⟩ := leads_exportAll s n t trivial hok
  have ht := (reads_exportAll.counted (hs.counted 0) hok).sited
  have hstop := start_le_prevStop (.first forgets_advance) (fun _ => reads_exportAll) hs.sited hok
  exact .request (.inr hlabel) (yields_exportAll_silent s n t trivial hok)
    (ht.bounded hspan hlo (Nat.lt_of_lt_of_le hs.le hstop))

theorem leads_exportNames_stands : Leads (Since text (start + 1)) (exportNames start) fun n t =>
    Stands lo t.token.span.start n := by
  intro s n t hs hok
  obtain ⟨hlabel, hspan⟩ := leads_exportNames s n t trivial hok
  have hcounted : ∀ k, Counted ⟨text, start + 1, k⟩ (n.hits k) t := fun k =>
    reads_exportNames.counted (hs.counted k) hok
  have hstop := start_le_prevStop (.first forgets_expect) (fun _ => reads_exportNames) hs.sited hok
  have hlt : start < t.prevStop := Nat.lt_of_lt_of_le hs.le hstop
  refine .list hlabel ((hcounted 0).sited.bounded hspan hlo hlt) fun k hpos => ?_
  rw [hspan]
  exact (hcounted k).passed hpos

/-- References in front of the word do not count for what stands behind it. -/
theorem led_of_counted {s t : ParseState} {value : Node} {label : Label} {stop : Nat}
    (hlabel : label.isPlain = true) (hs : Since text (start + 1) s)
    (hvalue : value.span.start = s.token.span.start)
    (hcounted : ∀ k, start ≤ k → Counted ⟨text, s.token.span.start, k⟩ (value.hits k) t) :
    (Node.mk label ⟨start, stop⟩ [value]).Led lo t.token.span.start := by
  refine ⟨hlo, ?_, ?_, fun k hpos hk => ?_⟩
  · exact hvalue ▸ hs.le
  · exact hvalue ▸ (hcounted start (Nat.le_refl _)).start_le
  · rw [hits_mk_one hlabel] at hpos
    exact hvalue ▸ ((hcounted k hk).passed hpos).1

variable (hsub : ∀ v g, Reads v (sub g)) {decorations : List Node}
  (hdropped : ∀ k, start ≤ k → hitsEach k decorations = 0)
include hsub hdropped

theorem leads_exportDecl_stands : Leads (Since text (start + 1)) (do
      let declaration ← exportedDeclaration sub decorations
      node .exportDecl start [declaration]) fun n t => Stands lo t.token.span.start n := by
  intro s n t hs hok
  obtain ⟨declaration, u, hread, hok⟩ := bind_ok hok
  cases hok
  have hstart := leads_exportedDeclaration s declaration t rfl hread
  refine .declaration rfl (led_of_counted hlo rfl hs hstart fun k hk => ?_)
  exact (carries_exportedDeclaration (hsub _) decorations).counted
    (counted_dropped hdropped hs.sited hk) hread

theorem leads_exportDefault_stands
    (hvalue : ∀ k, Leads (StartsAt k) (sub .assignment) fun n _ => n.Opens k)
    (hforgets : Forgets (sub .assignment)) : Leads (Since text (start + 1))
      (exportDefault sub start decorations) fun n t => Stands lo t.token.span.start n := by
  refine Steady.here.leads.bind fun offset => (Carries.since fun _ => passes_advance).bind fun _ => ?_
  intro s n t hs hok
  obtain ⟨value, u, hread, hok⟩ := bind_ok hok
  cases hok
  have hstart := leads_defaultValue (hvalue _) s value t rfl hread
  have hcounted : ∀ k, start ≤ k → Counted ⟨text, s.token.span.start, k⟩ (value.hits k) t :=
    fun k hk => (carries_defaultValue (hsub _) decorations).counted
      (counted_dropped hdropped hs.sited hk) hread
  -- the decorators stand before the word, so they do not reach up to the value either
  have hstop := le_prevStop (forgets_defaultValue hforgets)
    (fun v => carries_defaultValue (hsub v) decorations)
    (fun x _ hx => hdropped x (Nat.le_of_lt_succ (Nat.lt_of_lt_of_eq hs.le hx))) hs.sited
    (Nat.le_refl _) hread
  have hhits : ∀ k, (Node.mk (.exportDefault offset) ⟨start, t.prevStop⟩ [value]).hits k = value.hits k :=
    fun k => hits_mk_one rfl k _ value
  refine .default offset rfl (led_of_counted hlo rfl hs hstart hcounted) ⟨hlo, ?_, ?_⟩
    (Nat.le_trans (Nat.le_of_eq hstart) hstop) (fun k hpos => ?_) fun params hform => ?_
  · exact Nat.lt_of_lt_of_le hs.le hstop
  · exact (hcounted start (Nat.le_refl _)).sited.prev_le
  · rw [hhits] at hpos
    rcases Nat.lt_or_ge k start with hk | hk
    · exact Nat.lt_of_lt_of_le hk (Nat.le_trans (Nat.le_of_lt hs.le) hstop)
    · exact ((hcounted k hk).passed hpos).2
  · obtain ⟨hfrom, hle, hclear⟩ := leads_defaultValue_params hsub hvalue s value t hs.sited.since hread
      params hform
    exact ⟨Nat.le_trans (Nat.le_of_eq hstart) hfrom, hle, fun k hpos => hclear k (hhits k ▸ hpos)⟩

end Exports

section Statements

variable (hsub : ∀ v g, Reads v (sub g))
  (hvalue : ∀ k, Leads (StartsAt k) (sub .assignment) fun n _ => n.Opens k)
  (hforgets : Forgets (sub .assignment))
include hsub hvalue hforgets

theorem leads_exportDeclaration_stands (decorations : List Node) :
    Leads (fun s => (∀ k, Counted ⟨text, lo, k⟩ (hitsEach k decorations) s) ∧ AtWord s)
      (exportDeclaration sub decorations) fun n t => Stands lo t.token.span.start n := by
  rintro s n t ⟨hs, hword⟩ hok
  have hsited := (hs 0).sited
  have hlo : lo ≤ s.token.span.start := (hs 0).start_le
  have hdropped : ∀ k, s.token.span.start ≤ k → hitsEach k decorations = 0 := by
    intro k hk
    by_contra hne
    have hlt := ((hs k).passed (Nat.pos_of_ne_zero hne)).2
    exact absurd (Nat.lt_of_lt_of_le hlt hsited.prev_le) (Nat.not_lt.2 hk)
  obtain ⟨_, _, hhere, hok⟩ := bind_ok hok
  cases hhere
  obtain ⟨_, u, hadvance, hok⟩ := bind_ok hok
  have hbehind : Leads (Since text (s.token.span.start + 1)) (do
      if ← atWord "default" then exportDefault sub s.token.span.start decorations
      else if ← isAt .star then exportAll s.token.span.start
      else if ← isAt .leftBrace then exportNames s.token.span.start
      else do
        let declaration ← exportedDeclaration sub decorations
        node .exportDecl s.token.span.start [declaration])
      fun n t => Stands lo t.token.span.start n :=
    (Steady.atWord _).leads.bind fun _ => .ite
      (fun _ => leads_exportDefault_stands hlo hsub hdropped hvalue hforgets)
      fun _ => (Steady.isAt _).leads.bind fun _ => .ite (fun _ => leads_exportAll_stands hlo)
      fun _ => (Steady.isAt _).leads.bind fun _ => .ite (fun _ => leads_exportNames_stands hlo)
      fun _ => leads_exportDecl_stands hlo hsub hdropped
  exact hbehind u n t (since_advance hsited hword hadvance) hok

/-- A statement that is a module item stands where it was read. -/
theorem leads_statement_stands {position : StatementPlace} :
    Leads (Since text lo) (statement sub position) fun n t => Stands lo t.token.span.start n := by
  refine (leads_statement
    (D := fun decorations s => ∀ k, Counted ⟨text, lo, k⟩ (hitsEach k decorations) s)
    leads_importDeclaration_stands (fun s hs => hs.counted) (fun s decorations t hs hok k => ?_)
    (leads_exportDeclaration_stands hsub hvalue hforgets)).mono (fun _ => id) fun n t hn =>
    hn.elim (fun hplain => .plain hplain.1) id
  exact (reads_decorators (hsub ⟨text, lo, k⟩)).counted (hs.counted k) hok

end Statements

/-! ### Ends -/

/-- An export ends where the previous token ended. -/
theorem ends_exportDeclaration {decorations : List Node} :
    Ends (exportDeclaration sub decorations) fun _ => True :=
  .behind fun _ => .behind fun _ => .behind fun _ =>
    .ite (.behind fun _ => .behind fun _ => .behind fun _ => .node fun _ => trivial) <|
    .behind fun _ => .ite (leads_exportAll.mono (fun _ => id) fun _ _ hn => ⟨trivial, hn.2 ▸ rfl⟩) <|
    .behind fun _ => .ite (leads_exportNames.mono (fun _ => id) fun _ _ hn => ⟨trivial, hn.2 ▸ rfl⟩) <|
    .behind fun _ => .node fun _ => trivial

/-- So does every statement. -/
theorem ends_statement {position : StatementPlace} : Ends (statement sub position) fun _ => True := by
  have himport : Leads (fun s => True ∧ AtWord s) importDeclaration fun n t =>
      True ∧ n.span.stop = t.prevStop := fun s n t _ hok =>
    ⟨trivial, (leads_importDeclaration s n t rfl hok).2 ▸ rfl⟩
  refine (leads_statement (D := fun _ _ => True) himport (fun _ => id) (Yields.any _)
    fun _ => ends_exportDeclaration.mono (fun _ _ => trivial) fun _ _ => id).mono (fun _ => id)
    fun n t hn => hn.elim (fun hplain => ⟨trivial, hplain.2⟩) id

/-! ## Programs -/

/-- Where a top-level statement stands, and all of its references. -/
structure Placed (lo hi : Nat) (n : Node) : Prop where
  le : lo ≤ hi
  hits_le : ∀ k, n.hits k ≤ 1
  within : ∀ k, 0 < n.hits k → lo ≤ k ∧ k < hi
  stands : Stands lo hi n

/-- Where a default export stands, and its references. -/
structure Node.ExportsDefault (lo hi : Nat) (n : Node) : Prop where
  led : n.Led lo hi
  bounded : n.Bounded lo hi
  value_le : (n.child 0).span.start ≤ n.span.stop
  before : ∀ k, 0 < n.hits k → k < n.span.stop
  params : ∀ params, DefaultForm.of (n.child 0) = .unnamedFunction params →
    (n.child 0).span.start ≤ params ∧ params ≤ hi ∧ ∀ k, 0 < n.hits k → params ≤ k

namespace Placed

variable {hi : Nat} {n : Node} {s : Span}

theorem exportsDefault (h : Placed lo hi n) {offset : Nat} (hlabel : n.label = .exportDefault offset) :
    n.ExportsDefault lo hi := by
  cases h.stands with
  | default _ _ hled hbounded hle hbefore hparams => exact ⟨hled, hbounded, hle, hbefore, hparams⟩
  | plain hplain => simp [isModuleItem, hlabel] at hplain
  | request hother => simp [hlabel] at hother
  | list hother => simp [hlabel] at hother
  | declaration hother => simp [hlabel] at hother

/-- The references of an export list stand in it, behind its beginning. -/
theorem inside_of_list (h : Placed lo hi n) (hlabel : n.label = .exportNames) {k : Nat}
    (hk : 0 < n.hits k) : n.span.start < k ∧ k < n.span.stop := by
  cases h.stands with
  | list _ _ hinside => exact hinside k hk
  | plain hplain => simp [isModuleItem, hlabel] at hplain
  | request hother => simp [hlabel] at hother
  | declaration hother => simp [hlabel] at hother
  | default _ hother => simp [hlabel] at hother

/-- What a statement covers is not empty. -/
theorem start_lt_stop (h : Placed lo hi n) (hs : n.Covers s) : s.start < s.stop := by
  have hone : ∀ k, spanHits k [s] ≤ 1 := fun k => Nat.le_trans (hs k) (h.hits_le k)
  exact start_lt_stop_of_hits hone (List.mem_singleton_self s)

theorem hits_start_pos (h : Placed lo hi n) (hs : n.Covers s) : 0 < n.hits s.start :=
  hs.hits_pos (Nat.le_refl _) (h.start_lt_stop hs)

/-- What a statement covers ends where the statement is hit no more, or before. -/
theorem stop_le (h : Placed lo hi n) (hs : n.Covers s) {bound : Nat}
    (hbound : ∀ k, 0 < n.hits k → k < bound) : s.stop ≤ bound := by
  have hlt := h.start_lt_stop hs
  have hlast := hbound _ (hs.hits_pos (Nat.le_sub_one_of_lt hlt)
    (Nat.sub_lt (Nat.zero_lt_of_lt hlt) Nat.one_pos))
  omega

/-- What a statement covers stands where the statement does. -/
theorem within_span (h : Placed lo hi n) (hs : n.Covers s) : lo ≤ s.start ∧ s.stop ≤ hi :=
  ⟨(h.within _ (h.hits_start_pos hs)).1, h.stop_le hs fun k hpos => (h.within k hpos).2⟩

end Placed

/-- A statement ends at an offset or before it, and behind all of its references. -/
structure Node.Ended (hi : Nat) (n : Node) : Prop where
  stop_le : n.span.stop ≤ hi
  hits_lt : ∀ k, 0 < n.hits k → k < n.span.stop

/-- Statements stand one behind the other. -/
inductive Rows (lo : Nat) : Nat → List Node → Prop
  | nil : Rows lo lo []
  | snoc {mid hi : Nat} {items : List Node} {n : Node} :
      Rows lo mid items → Placed mid hi n → n.Ended hi → Rows lo hi (items ++ [n])

/-- A statement stands behind those before it, and in front of those behind it. -/
theorem Rows.exists_split {hi : Nat} {items : List Node} (h : Rows lo hi items) {n : Node}
    (hn : n ∈ items) : ∃ before after first last, items = before ++ n :: after ∧
      Rows lo first before ∧ Placed first last n ∧ Rows last hi after := by
  induction h with
  | nil => cases hn
  | @snoc mid hi items m hrows hplaced hended ih =>
    rcases List.mem_append.1 hn with hn | hn
    · obtain ⟨before, after, first, last, rfl, hbefore, hfirst, hafter⟩ := ih hn
      refine ⟨before, after ++ [m], first, last, ?_, hbefore, hfirst, hafter.snoc hplaced hended⟩
      rw [List.append_assoc, List.cons_append]
    · obtain rfl := List.mem_singleton.1 hn
      exact ⟨items, [], mid, hi, rfl, hrows, hplaced, .nil⟩

theorem placed_statement (depth : Nat) {s t : ParseState} {n : Node} (hs : s.Sited text)
    (hok : goal depth (.statement .list) s = .ok (n, t)) :
    t.Sited text ∧ Placed s.token.span.start t.token.span.start n ∧ n.Ended t.token.span.start := by
  have hcounted : ∀ k, Counted ⟨text, s.token.span.start, k⟩ (n.hits k) t := fun k =>
    (reads_goal depth _).counted (hs.since.counted k) hok
  have hsited := (hcounted 0).sited
  obtain ⟨hstands, hstop⟩ : Stands s.token.span.start t.token.span.start n ∧
      n.span.stop = t.prevStop := by
    cases depth with
    | zero => exact (Leads.unexpected (Q := fun _ _ => False) s n t hs.since hok).elim
    | succ depth =>
      exact ⟨leads_statement_stands (fun v g => reads_goal depth g)
        (fun k => leads_goal depth k .assignment rfl) (forgets_goal depth (.inr rfl)) s n t hs.since hok,
        (ends_statement s n t trivial hok).2⟩
  refine ⟨hsited, ⟨(hcounted 0).start_le, fun k => (hcounted k).le_one, fun k hpos => ?_, hstands⟩,
    hstop ▸ hsited.prev_le, fun k hpos => hstop ▸ ((hcounted k).passed hpos).2⟩
  obtain ⟨hfrom, hlt⟩ := (hcounted k).passed hpos
  exact ⟨hfrom, Nat.lt_of_lt_of_le hlt hsited.prev_le⟩

/-- A string that turns out to be a directive has no references. -/
theorem silent_directive {text : Node} (h : text.Silent) (span : Span) :
    (Node.mk .directive span [text]).Silent := silent_mk rfl (List.forall_mem_singleton.2 h)

theorem Node.Silent.hits_not_pos {n : Node} (h : n.Silent) (k : Nat) : ¬ 0 < n.hits k := by
  rw [h]
  exact Nat.lt_irrefl 0

theorem Placed.directive {lo hi : Nat} {n text : Node} (h : Placed lo hi n) (htext : text.Silent)
    (span : Span) : Placed lo hi (.mk .directive span [text]) := by
  have hsilent := silent_directive htext span
  refine ⟨h.le, fun k => ?_, fun k hpos => absurd hpos (hsilent.hits_not_pos k), .plain rfl⟩
  rw [hsilent]
  exact Nat.zero_le _

theorem Node.Ended.directive {hi : Nat} {n text : Node} (h : n.Ended hi) (htext : text.Silent) :
    (Node.mk .directive n.span [text]).Ended hi :=
  ⟨h.stop_le, fun k hpos => absurd hpos ((silent_directive htext n.span).hits_not_pos k)⟩

theorem leads_statementsWithDirectives_rows (depth : Nat) {stop : Parse Bool} (hstop : Steady stop) :
    Leads (fun s => s.Sited text ∧ Rows lo s.token.span.start [])
      (statementsWithDirectives (goal depth) stop) fun items t =>
        t.Sited text ∧ Rows lo t.token.span.start items := by
  refine .bind (Leads.iterate (I := fun state s =>
    s.Sited text ∧ Rows lo s.token.span.start state.1.reverse) ?_ ([], true)) ?_
  · rintro ⟨items, directives⟩
    refine hstop.leads.bind fun _ => .ite (fun _ => .pure fun _ hs => hs) fun _ => .bind
      (Q := fun n t => t.Sited text ∧ ∃ mid, Rows lo mid items.reverse ∧
        Placed mid t.token.span.start n ∧ n.Ended t.token.span.start)
      (fun s n t hs hok => ?_) fun statement => ?_
    · obtain ⟨ht, hplaced⟩ := placed_statement depth hs.1 hok
      exact ⟨ht, _, hs.2, hplaced⟩
    · split
      · refine .pure fun t ht => ?_
        obtain ⟨hsited, mid, hrows, hplaced, hended⟩ := ht
        refine ⟨hsited, ?_⟩
        rw [Option.getD_some, List.reverse_cons]
        exact hrows.snoc (hplaced.directive (fun _ => rfl) _) (hended.directive fun _ => rfl)
      · refine .pure fun t ht => ?_
        obtain ⟨hsited, mid, hrows, hplaced, hended⟩ := ht
        refine ⟨hsited, ?_⟩
        rw [Option.getD_some, List.reverse_cons]
        exact hrows.snoc hplaced hended
  · rintro ⟨items, _⟩
    exact .pure fun _ hs => hs

/-- The first node of a program is a hashbang, or nothing. -/
structure Node.IsPreamble (lo : Nat) (n : Node) : Prop where
  label_eq : n.label = .absent ∨ n.label = .hashbang
  children_eq : n.children = []
  start_le : n.span.start ≤ n.span.stop
  le_lo : n.span.stop ≤ lo

theorem Node.IsPreamble.not_refers {preamble : Node} (h : preamble.IsPreamble lo) {role : Role}
    {scopes : List String} {r : OpenReference} : ¬ preamble.Refers role scopes r := by
  obtain ⟨label, span, children⟩ := preamble
  obtain ⟨hlabel, hchildren, -, -⟩ := h
  cases hchildren
  intro hr
  cases hr with
  | here => rcases hlabel with hlabel | hlabel <;> cases hlabel
  | within hchild _ _ => cases hchild

theorem sited_firstState (text : List Char) : (firstState text).Sited text where
  budget_pos := Nat.succ_pos _
  token := ⟨⟨text, 0⟩, rfl, .refl _, between_read (Nat.succ_pos _) _⟩
  word := by
    rintro ⟨word, escaped, hkind⟩ k hlo hhi
    exact namePartAt_of_read (Nat.succ_pos _) (.refl _) hkind hlo hhi

/-- References of a program that was parsed stand on characters of names. -/
theorem namePartAt_of_hits {text : List Char} {program : Node} (h : parse text = .ok program) {k : Nat}
    (hpos : 0 < program.hits k) : NamePartAt text k := by
  obtain ⟨-, t, hprogram⟩ := parse_ok h
  have hfirst := (sited_firstState text).since.counted k
  exact ((reads_program _).counted hfirst hprogram).name hpos

/-- The top-level statements of a program that was parsed stand one behind the other in the text. -/
theorem rows_of_parse {text : List Char} {program : Node} (h : parse text = .ok program) :
    ∃ preamble items lo hi, program = .mk .program program.span (preamble :: items) ∧
      preamble.IsPreamble lo ∧ Rows lo hi items ∧ hi ≤ text.length := by
  obtain ⟨-, t, hprogram⟩ := parse_ok h
  have hleads : Leads (fun s => s.Sited text) (Grammar.program (8 * (text.length + 2)))
      fun n _ => ∃ preamble items lo hi, n = .mk .program n.span (preamble :: items) ∧
        preamble.IsPreamble lo ∧ Rows lo hi items ∧ hi ≤ text.length := by
    refine Steady.token.leads.bind fun first => ?_
    extract_lets behind
    have hbehind : ∀ preamble, Leads (fun s => s.Sited text ∧
        preamble.IsPreamble s.token.span.start) (behind preamble) fun n _ =>
          ∃ preamble items lo hi, n = .mk .program n.span (preamble :: items) ∧
            preamble.IsPreamble lo ∧ Rows lo hi items ∧ hi ≤ text.length := by
      rintro preamble s n t ⟨hs, hpreamble⟩ hok
      obtain ⟨items, u, hitems, hok⟩ := bind_ok hok
      obtain ⟨hu, hrows⟩ := leads_statementsWithDirectives_rows _ .atEnd s items u ⟨hs, .nil⟩ hitems
      cases hok
      exact ⟨preamble, items, _, _, rfl, hpreamble, hrows, hu.start_le_length⟩
    refine .ite (fun _ => .bind ?_ hbehind) fun _ => .bind (.pure fun s hs => ⟨hs, ?_⟩) hbehind
    · intro s n t hs hok
      obtain ⟨_, _, htoken, hok⟩ := bind_ok hok
      cases htoken
      obtain ⟨_, u, hadvance, hok⟩ := bind_ok hok
      cases hok
      obtain ⟨⟨ht, hle⟩, -⟩ := leads_advance s _ t ⟨hs, rfl⟩ hadvance
      obtain ⟨-, ⟨c, -, -, hbetween⟩, -⟩ := hs
      exact ⟨ht, .inr rfl, rfl, hbetween.le_stop, hle⟩
    · exact ⟨.inl rfl, rfl, Nat.le_refl _, Nat.zero_le _⟩
  exact hleads _ program t (sited_firstState text) hprogram

end ModuleBundler.Syntax
