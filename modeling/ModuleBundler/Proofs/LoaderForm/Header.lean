import ModuleBundler.Proofs.Build.SourceMapComment
import ModuleBundler.Proofs.LoaderForm.Holder
import ModuleBundler.Proofs.Syntax.Reading

/-!
# The header of a loader form

Loader form begins with lines of its own (`header`): the getters of exported names, then the calls
that load the requested modules.  A reader of the text finds these calls again, and nothing that
comes later reaches into the header.

* **`loadLines_header`** and `hoistedRequires_header` — read as program text, the header has one
  `require` call for each request, in the order of the requests, whose literal has the source of the
  request as its value; a request that keeps the module has its variable declared there;
* **`getterNames_header`** — and one getter for each exported name, in order;
* `shields_of_mem_header` — no comment that names a source map begins inside of the header;
* `header_prefix_drop` — so the header stays in front when such a comment is dropped.
-/

namespace ModuleBundler.LoaderForm

open ModuleBundler.Syntax ModuleBundler.Text

/-! ## Reading calls -/

/-- The literal that a statement passes to `require`, if it is such a call and nothing else. -/
def calledWith : List Token.Kind → Option String
  | [.word "require" _, .punct .leftParen, .string specifier _ _, .punct .rightParen,
      .punct .semicolon] => some specifier
  | _ => none

/-- The literal that a line of program text passes to `require`, if it is such a call, or a
declaration of a variable for what the call gives. -/
def hoistedRequire (line : String) : Option String :=
  match tokens line with
  | .word "var" _ :: .word _ _ :: .punct .assign :: call => calledWith call
  | call => calledWith call

/-- The specifiers that lines of program text require, in order. -/
def hoistedRequires (lines : List String) : List String := lines.filterMap hoistedRequire

/-- A line that loads a module: the variable that it declares for what the call gives, if it does, and
the specifier. -/
structure LoadLine where
  holder : Option String
  source : String
deriving DecidableEq

/-- What a line of program text loads, if it is nothing else but that. -/
def loadLine? (line : String) : Option LoadLine :=
  match tokens line with
  | .word "var" _ :: .word holder _ :: .punct .assign :: call =>
    (calledWith call).map fun source => ⟨some holder, source⟩
  | call => (calledWith call).map fun source => ⟨none, source⟩

theorem hoistedRequire_eq (line : String) :
    hoistedRequire line = (loadLine? line).map (·.source) := by
  unfold hoistedRequire loadLine?
  split <;> rw [Option.map_map] <;> exact (congrFun Option.map_id _).symm

/-! ## Calls that are written -/

theorem continuesIdentifier_of_isDigit {d : Char} (h : d.isDigit = true) :
    continuesIdentifier d = true := by
  have hdigit : isDigit d = true := h
  simp only [Char.isDigit, Bool.and_eq_true, decide_eq_true_eq, UInt32.le_iff_toNat_le] at h
  have hlow : d.toNat ≤ 57 := h.2
  unfold continuesIdentifier
  rw [if_pos (by omega), hdigit, Bool.or_true, Bool.true_or, Bool.true_or]

/-- A variable for a requested module is a name. -/
theorem isName_moduleVariable (i : Nat) : IsName (moduleVariable i) := by
  refine ⟨'_', "_dep".toList ++ i.repr.toList, ?_, by decide, ?_⟩
  · unfold moduleVariable
    rw [String.toList_append]
    rfl
  · intro d hd
    have hletters : ∀ c ∈ "_dep".toList, continuesIdentifier c = true :=
      List.all_eq_true.1 (by decide)
    rcases List.mem_append.1 hd with hd | hd
    · exact hletters d hd
    · rw [Nat.toList_repr] at hd
      exact continuesIdentifier_of_isDigit (Nat.isDigit_of_mem_toDigits (by decide) (by decide) hd)

theorem isName_require : IsName "require" :=
  ⟨'r', "equire".toList, rfl, by decide, List.all_eq_true.1 (by decide)⟩

theorem isName_object : IsName "Object" :=
  ⟨'O', "bject".toList, rfl, by decide, List.all_eq_true.1 (by decide)⟩

theorem isName_var : IsName "var" :=
  ⟨'v', "ar".toList, rfl, by decide, List.all_eq_true.1 (by decide)⟩

/-- The tokens of a call that loads a module. -/
theorem spells_requireCall (source : String) : ∃ raw, Spells (requireCall source).toList
    [.word "require" false, .punct .leftParen, .string source true raw, .punct .rightParen,
      .punct .semicolon] := by
  have hlist : (requireCall source).toList =
      "require".toList ++ '(' :: ((quote source).toList ++ [')', ';']) := by
    unfold requireCall
    rw [String.toList_append, String.toList_append]
    rfl
  rw [hlist]
  have hends : ∀ text, NameEnds ('(' :: text) := nameEnds_cons (by decide) (by decide)
  exact ⟨_, .token (isName_require.begins (hends _)) (by decide) <|
    .token (begins_leftParen _) (by decide) <| .token (begins_quote source _) (by simp) <|
    .token (begins_rightParen _) (by decide) <| .token (begins_semicolon _) (by decide) .done⟩

theorem length_le_requireCall (source : String) : 8 ≤ (requireCall source).toList.length := by
  have hopening : "require(".toList.length = 8 := by decide
  unfold requireCall
  rw [String.toList_append, String.toList_append, List.length_append, List.length_append, hopening,
    Nat.add_assoc]
  exact Nat.le_add_right 8 _

theorem tokens_requireCall (source : String) : ∃ raw, tokens (requireCall source) =
    [.word "require" false, .punct .leftParen, .string source true raw, .punct .rightParen,
      .punct .semicolon] := by
  obtain ⟨raw, hspells⟩ := spells_requireCall source
  exact ⟨raw, hspells.tokens_eq <|
    Nat.le_trans (Nat.le_add_right 5 3) (length_le_requireCall source)⟩

/-- The tokens of a declaration of a variable for a requested module. -/
theorem tokens_var (i : Nat) (source : String) : ∃ raw,
    tokens ("var " ++ moduleVariable i ++ " = " ++ requireCall source) =
      .word "var" false :: .word (moduleVariable i) false :: .punct .assign ::
        [.word "require" false, .punct .leftParen, .string source true raw, .punct .rightParen,
          .punct .semicolon] := by
  obtain ⟨raw, hspells⟩ := spells_requireCall source
  have hlist : ("var " ++ moduleVariable i ++ " = " ++ requireCall source).toList =
      "var".toList ++ ' ' :: ((moduleVariable i).toList ++
        ' ' :: '=' :: ' ' :: (requireCall source).toList) := by
    rw [String.toList_append, String.toList_append, String.toList_append, List.append_assoc,
      List.append_assoc]
    rfl
  have hspace : ∀ text, NameEnds (' ' :: text) := nameEnds_cons (by decide) (by decide)
  have hlength : 8 ≤ ("var " ++ moduleVariable i ++ " = " ++ requireCall source).toList.length := by
    rw [String.toList_append, List.length_append]
    exact Nat.le_trans (length_le_requireCall source) (Nat.le_add_left _ _)
  refine ⟨raw, Spells.tokens_eq ?_ hlength⟩
  rw [hlist]
  exact .token (isName_var.begins (hspace _)) (by decide) <|
    .token ((isName_moduleVariable i).begins (hspace _)).space (by simp) <|
    .token (begins_assign _).space (by decide) <| hspells.space (by simp)

theorem isName_keys : IsName "keys" :=
  ⟨'k', "eys".toList, rfl, by decide, List.all_eq_true.1 (by decide)⟩

theorem isName_defineProperty : IsName "defineProperty" :=
  ⟨'d', "efineProperty".toList, rfl, by decide, List.all_eq_true.1 (by decide)⟩

/-- The first tokens of a line that calls a member of `Object`. -/
theorem spellsTo_object {name : String} (h : IsName name) {stop behind : List Char}
    {kinds : List Token.Kind} (hbehind : SpellsTo stop ('(' :: behind) kinds) :
    SpellsTo stop ("Object".toList ++ '.' :: (name.toList ++ '(' :: behind))
      (.word "Object" false :: .punct .dot :: .word name false :: kinds) := by
  have hdot : ∀ text, NameEnds ('.' :: text) := nameEnds_cons (by decide) (by decide)
  have hparen : ∀ text, NameEnds ('(' :: text) := nameEnds_cons (by decide) (by decide)
  have hword := h.begins (hparen behind)
  obtain ⟨first, more, hname, hstart, -⟩ := h
  rw [hname, List.cons_append] at hword ⊢
  exact .token (isName_object.begins (hdot _)) (by decide) <|
    .token (begins_dot _ hstart) (by decide) <| .token hword (by simp) hbehind

theorem tokens_forwardAll (holder : String) : ∃ behind, tokens (forwardAll holder) =
    [.word "Object" false, .punct .dot, .word "keys" false] ++ behind := by
  obtain ⟨behind, hlist⟩ : ∃ behind, (forwardAll holder).toList =
      "Object".toList ++ '.' :: ("keys".toList ++ '(' :: behind) := by
    unfold forwardAll
    simp only [String.append_assoc]
    rw [String.toList_append]
    exact ⟨_, rfl⟩
  have hspells : SpellsTo ('(' :: behind) (forwardAll holder).toList
      [.word "Object" false, .punct .dot, .word "keys" false] := by
    rw [hlist]
    exact spellsTo_object isName_keys .done
  refine hspells.tokens_eq ?_
  rw [hlist]
  exact Nat.le_add_left 3 _

/-- The first tokens of a line that defines a getter. -/
theorem tokens_getterLine (v : NamedValue) : ∃ raw behind, tokens (getterLine v) =
    [.word "Object" false, .punct .dot, .word "defineProperty" false, .punct .leftParen,
      .word "exports" false, .punct .comma, .string v.name true raw] ++ behind := by
  obtain ⟨behind, hlist⟩ : ∃ behind, (getterLine v).toList =
      "Object".toList ++ '.' :: ("defineProperty".toList ++ '(' ::
        ("exports".toList ++ ',' :: ' ' :: ((quote v.name).toList ++ behind))) := by
    have hopening : "Object.defineProperty(exports, ".toList = "Object".toList ++ '.' ::
        ("defineProperty".toList ++ '(' :: ("exports".toList ++ [',', ' '])) := by decide
    unfold getterLine
    simp only [String.append_assoc]
    rw [String.toList_append, String.toList_append, hopening]
    simp only [List.append_assoc, List.cons_append, List.nil_append]
    exact ⟨_, rfl⟩
  have hcomma : ∀ text, NameEnds (',' :: text) := nameEnds_cons (by decide) (by decide)
  obtain ⟨raw, hspells⟩ : ∃ raw, SpellsTo behind (getterLine v).toList
      [.word "Object" false, .punct .dot, .word "defineProperty" false, .punct .leftParen,
        .word "exports" false, .punct .comma, .string v.name true raw] := by
    rw [hlist]
    exact ⟨_, spellsTo_object isName_defineProperty <| .token (begins_leftParen _) (by decide) <|
      .token (isName_exports.begins (hcomma _)) (by decide) <|
      .token (begins_comma _) (by decide) <| .token (begins_quote v.name _).space (by simp) .done⟩
  refine ⟨raw, hspells.tokens_eq ?_⟩
  rw [hlist]
  exact Nat.le_add_left 7 _

/-! ## Lines that are read -/

theorem loadLine?_requireCall (source : String) :
    loadLine? (requireCall source) = some ⟨none, source⟩ := by
  obtain ⟨raw, htokens⟩ := tokens_requireCall source
  unfold loadLine?
  rw [htokens]
  rfl

/-- A declaration of a variable for a requested module is read as the call in it. -/
theorem loadLine?_var (i : Nat) (source : String) :
    loadLine? ("var " ++ moduleVariable i ++ " = " ++ requireCall source) =
      some ⟨some (moduleVariable i), source⟩ := by
  obtain ⟨raw, htokens⟩ := tokens_var i source
  unfold loadLine?
  rw [htokens]
  rfl

theorem loadLine?_forwardAll (holder : String) : loadLine? (forwardAll holder) = none := by
  obtain ⟨behind, htokens⟩ := tokens_forwardAll holder
  unfold loadLine?
  rw [htokens]
  rfl

theorem loadLine?_getterLine (v : NamedValue) : loadLine? (getterLine v) = none := by
  obtain ⟨raw, behind, htokens⟩ := tokens_getterLine v
  unfold loadLine?
  rw [htokens]
  rfl

/-- A request that keeps a module has one of the variables. -/
theorem exists_holder {next : Nat} {nodes : List Node} {r : PlacedRequest}
    (hr : r ∈ requestsFrom next nodes) (hneeded : r.request.needsVariable = true) :
    ∃ i, r.holder = moduleVariable i := by
  have hmem : r.holder ∈ holders (requestsFrom next nodes) :=
    List.mem_map_of_mem (List.mem_filter.2 ⟨hr, hneeded⟩)
  rw [holders_requestsFrom] at hmem
  obtain ⟨i, -, heq⟩ := List.mem_map.1 hmem
  exact ⟨i, heq.symm⟩

/-- What the line of a request loads: its source, into its variable if it needs one. -/
def PlacedRequest.load (r : PlacedRequest) : LoadLine :=
  ⟨if r.request.needsVariable then some r.holder else none, r.source⟩

/-- The lines of a request: a call, or the declaration of a variable, behind which another line can
forward everything. -/
theorem lines_cases {program : Node} {r : PlacedRequest} (hr : r ∈ requests program) :
    (r.request.needsVariable = false ∧ r.lines = [requireCall r.source]) ∨
      ∃ i more, r.request.needsVariable = true ∧ r.holder = moduleVariable i ∧
        r.lines = ("var " ++ moduleVariable i ++ " = " ++ requireCall r.source) :: more ∧
        (more = [] ∨ more = [forwardAll r.holder]) := by
  unfold PlacedRequest.lines
  split
  · rename_i hrequest
    exact .inl ⟨by rw [hrequest]; rfl, rfl⟩
  · rename_i hrequest
    have hneeded : r.request.needsVariable = true := by rw [hrequest]; rfl
    obtain ⟨i, hi⟩ := exists_holder hr hneeded
    exact .inr ⟨i, _, hneeded, hi, by rw [hi], .inr rfl⟩
  · rename_i hload _
    have hneeded : r.request.needsVariable = true := by
      unfold Request.needsVariable
      split
      · rename_i hrequest
        exact absurd hrequest hload
      · rfl
    obtain ⟨i, hi⟩ := exists_holder hr hneeded
    exact .inr ⟨i, _, hneeded, hi, by rw [hi], .inl rfl⟩

/-- The lines of a request load its source once. -/
theorem loadLines_lines {program : Node} {r : PlacedRequest} (hr : r ∈ requests program) :
    r.lines.filterMap loadLine? = [r.load] := by
  unfold PlacedRequest.load
  rcases lines_cases hr with ⟨hneeded, hlines⟩ | ⟨i, more, hneeded, hi, hlines, hmore⟩
  · rw [hlines, List.filterMap_cons_some (loadLine?_requireCall _), List.filterMap_nil, hneeded]
    rfl
  · have hnone : more.filterMap loadLine? = [] := by
      rcases hmore with rfl | rfl
      · rfl
      · exact List.filterMap_cons_none (loadLine?_forwardAll _)
    rw [hlines, List.filterMap_cons_some (loadLine?_var i _), hnone, if_pos hneeded, hi]

theorem loadLine?_prologue : loadLine? "\"use strict\";" = none := by
  decide +kernel

/-- Read as program text, the header loads the source of each request, in order. -/
theorem loadLines_header (program : Node) :
    (header program).filterMap loadLine? = (requests program).map PlacedRequest.load := by
  have hgetters : ((publishedNames program).map getterLine).filterMap loadLine? = [] := by
    refine List.filterMap_eq_nil_iff.2 fun line hline => ?_
    obtain ⟨v, -, rfl⟩ := List.mem_map.1 hline
    exact loadLine?_getterLine v
  have hlines : ((requests program).flatMap PlacedRequest.lines).filterMap loadLine? =
      (requests program).map PlacedRequest.load := by
    rw [List.filterMap_flatMap, List.map_eq_flatMap]
    exact List.flatMap_congr fun r hr => loadLines_lines hr
  unfold header
  rw [List.cons_append, List.filterMap_cons_none loadLine?_prologue, List.filterMap_append,
    hgetters, hlines, List.nil_append]

/-- The variables that the header declares are those of the requests that keep a module. -/
theorem holders_load (placed : List PlacedRequest) :
    (placed.map PlacedRequest.load).filterMap (·.holder) = holders placed := by
  induction placed with
  | nil => rfl
  | cons r placed ih =>
    rw [List.map_cons]
    by_cases hneeded : r.request.needsVariable = true
    · have hload : r.load.holder = some r.holder := if_pos hneeded
      rw [List.filterMap_cons_some hload, ih, holders_cons_of_needed _ hneeded]
    · have hload : r.load.holder = none := if_neg hneeded
      rw [List.filterMap_cons_none hload, ih, holders_cons_of_not_needed _ hneeded]

/-- Read as program text, the header has one call for each request, in order, with its source as the
value of the literal. -/
theorem hoistedRequires_header (program : Node) :
    hoistedRequires (header program) = (requests program).map (·.source) := by
  unfold hoistedRequires
  simp only [hoistedRequire_eq]
  rw [← List.map_filterMap, loadLines_header, List.map_map]
  rfl

/-! ## The header and what follows -/

theorem shields_of_quote {stop : List Char}
    (hstop : ∀ d ∈ stop, d ∉ ['\r', '\n', ' ', '\t', '/']) : Shields ('"' :: stop) :=
  shields_cons (Or.inl List.mem_cons_self) hstop

/-- The end of a line that defines getters. -/
theorem shields_getterEnd : Shields " \x7d);".toList := by
  have hlist : " \x7d);".toList = [' ', '\x7d', ')', ';'] := rfl
  rw [hlist]
  exact shields_cons (Or.inr (by decide)) (by simp)

theorem shields_requireCall (source : String) : Shields (requireCall source).toList := by
  have hend : Shields ['"', ')', ';'] := shields_of_quote (by simp)
  have hlist : (requireCall source).toList =
      ("require(".toList ++ '"' :: quoteChars source.toList) ++ ['"', ')', ';'] := by
    unfold requireCall quote
    rw [String.toList_append, String.toList_append, String.toList_ofList]
    simp
  rw [hlist]
  exact hend.append_left _

theorem shields_getterLine (v : NamedValue) : Shields (getterLine v).toList := by
  unfold getterLine
  rw [String.toList_append]
  exact (shields_getterEnd.append_left "; \x7d".toList).append_left _

theorem shields_forwardAll (holder : String) : Shields (forwardAll holder).toList := by
  unfold forwardAll
  rw [String.toList_append]
  exact (shields_getterEnd.append_left "[key]; \x7d \x7d);".toList).append_left _

theorem shields_of_mem_lines {r : PlacedRequest} {line : String} (h : line ∈ r.lines) :
    Shields line.toList := by
  have hrequire : Shields ("var " ++ r.holder ++ " = " ++ requireCall r.source).toList := by
    rw [String.toList_append]
    exact (shields_requireCall r.source).append_left _
  unfold PlacedRequest.lines at h
  split at h
  · rw [List.mem_singleton.1 h]
    exact shields_requireCall r.source
  · rcases List.mem_cons.1 h with rfl | h
    · exact hrequire
    · rw [List.mem_singleton.1 h]
      exact shields_forwardAll r.holder
  · rw [List.mem_singleton.1 h]
    exact hrequire

/-- Every line of the header is closed off from a comment that names a source map. -/
theorem shields_of_mem_header {program : Node} {line : String} (h : line ∈ header program) :
    Shields line.toList := by
  unfold header at h
  rw [List.cons_append, List.mem_cons, List.mem_append] at h
  rcases h with rfl | hgetter | hrequest
  · have hend : Shields ['"', ';'] := shields_of_quote (by simp)
    exact hend.append_left "\"use strict".toList
  · obtain ⟨v, -, rfl⟩ := List.mem_map.1 hgetter
    exact shields_getterLine v
  · obtain ⟨r, -, hline⟩ := List.mem_flatMap.1 hrequest
    exact shields_of_mem_lines hline

/-- The header stays in front of the text when the comment that names a source map is dropped. -/
theorem header_prefix_drop (text : List Char) (program : Node) :
    (endLines (header program)).toList <+:
      dropSourceMapComment (ofProgram text program).code.toList := by
  have hne : header program ≠ [] := List.cons_ne_nil _ _
  have hlast := (shields_of_mem_header (List.getLast_mem hne)).append_left
    ((header program).dropLast.flatMap fun line => line.toList ++ ['\n'])
  obtain ⟨kept, hkept⟩ := dropSourceMapComment_append hlast.closedOff
    (applyEdits text (edits text program))
  have hheader : (header program).flatMap (fun line => line.toList ++ ['\n']) =
      ((header program).dropLast.flatMap fun line => line.toList ++ ['\n']) ++
        (((header program).getLast hne).toList ++ ['\n']) := by
    rw [← List.flatMap_singleton (fun line : String => line.toList ++ ['\n']),
      ← List.flatMap_append, List.dropLast_concat_getLast]
  refine ⟨kept, ?_⟩
  rw [toList_code, toList_endLines, hheader]
  simpa using hkept.symm

end ModuleBundler.LoaderForm
