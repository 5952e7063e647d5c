import ModuleBundler.Proofs.Syntax.Locality

/-!
# Sequences of tokens

Which token stands at a slash or at a closing brace depends on the grammar, so a text is read as a
sequence of tokens by the `TokenGoal` of each of them.

* `TriviaState.pass_cons` — white space and comments are passed by one or two characters at a time;
* `isTrivia_feed_iff` — a line feed behind white space and comments changes nothing;
* `TokenGoal.read_keeps` — a token that is read in front of a cut is read again;
* **`readTokens_feed_iff`** — so the tokens are the same in both texts exactly if there is only white
  space and complete comments between the last token and the cut (`StandsApart`).
-/

namespace ModuleBundler.Syntax

open Text

section

variable {cut : Cut} {c c' : Cursor}

/-! ## White space and comments -/

/-- What is known on the way through white space and comments. -/
structure TriviaState where
  mode : TriviaMode
  newline : Bool
  opened : Option Nat
  comment : Option Span

/-- The end of the text is reached, and no comment is open. -/
def TriviaEnd.AtEnd (e : TriviaEnd) : Prop := e.cursor.rest = [] ∧ e.unterminated = none

namespace TriviaState

/-- Passes white space and comments from a state on. -/
def pass (s : TriviaState) (text : List Char) (n : Nat) : TriviaEnd :=
  skipTrivia s.mode s.newline s.opened s.comment text n

/-- The state behind a character, or behind it and the next one, and how many were passed; none if the
character is not passed. -/
def step (s : TriviaState) (n : Nat) (d : Char) (next : Option Char) : Option (TriviaState × Nat) :=
  match s.mode with
  | .between =>
    if d = '/' ∧ next = some '/' then
      some ({ s with mode := .lineComment, opened := s.opened <|> some n }, 2)
    else if d = '/' ∧ next = some '*' then
      some ({ s with mode := .blockComment n, opened := s.opened <|> some n }, 2)
    else if isLineTerminator d then some ({ s with mode := .between, newline := true }, 1)
    else if isProgramBlank d then some ({ s with mode := .between }, 1)
    else none
  | .lineComment =>
    if isLineTerminator d then
      some (⟨.between, true, s.opened, s.comment <|> s.opened.map (⟨·, n⟩)⟩, 1)
    else some ({ s with mode := .lineComment }, 1)
  | .blockComment start =>
    if d = '*' ∧ next = some '/' then
      some (⟨.between, s.newline, s.opened, s.comment <|> s.opened.map (⟨·, n + 2⟩)⟩, 2)
    else some ({ s with mode := .blockComment start, newline := s.newline || isLineTerminator d }, 1)

theorem pass_cons (s : TriviaState) (d : Char) (rest : List Char) (n : Nat) :
    s.pass (d :: rest) n =
      match s.step n d rest.head? with
      | none => ⟨⟨d :: rest, n⟩, s.newline, none, s.comment⟩
      | some (s', k) => s'.pass ((d :: rest).drop k) (n + k) := by
  obtain ⟨mode, newline, opened, comment⟩ := s
  have hslash : isLineTerminator '/' = false := by decide
  have hstar : isLineTerminator '*' = false := by decide
  unfold pass
  dsimp only
  rw [skipTrivia.eq_def]
  split
  · rename_i heq
    cases heq
  · rename_i heq
    cases heq
    cases mode <;> simp [step, hslash]
  · rename_i heq
    cases heq
    cases mode <;> simp [step, hslash]
  · rename_i heq
    cases heq
    cases mode <;> simp [step, hstar, show isProgramBlank '*' = false by decide]
  · rename_i hnoLine hnoBlock hnoClose heq
    cases heq
    have hnot : ∀ {x y : Char}, (∀ more, d = x → rest = y :: more → False) →
        ¬ (d = x ∧ rest.head? = some y) := by
      rintro x y hnone ⟨hd, hhead⟩
      cases rest with
      | nil => cases hhead
      | cons e more =>
        cases hhead
        exact hnone more hd rfl
    have hline := hnot hnoLine
    have hblock := hnot hnoBlock
    have hclose := hnot hnoClose
    cases mode with
    | between =>
      simp only [step, if_neg hline, if_neg hblock]
      split <;> [rfl; split <;> rfl]
    | lineComment =>
      simp only [step]
      split <;> rfl
    | blockComment start => simp only [step, if_neg hclose]; rfl

/-- One character is passed, or two of which the second one is a slash or a star. -/
theorem step_eq_some {s s' : TriviaState} {n k : Nat} {d : Char} {next : Option Char}
    (h : s.step n d next = some (s', k)) :
    k = 1 ∨ k = 2 ∧ (next = some '/' ∨ next = some '*') := by
  obtain ⟨mode, newline, opened, comment⟩ := s
  cases mode <;> simp only [step] at h <;> split at h
  all_goals grind

/-- What stands behind a character matters only if it begins or ends a comment. -/
theorem step_congr {s : TriviaState} {n : Nat} {d : Char} {next next' : Option Char}
    (hline : s.mode = .between → (d = '/' ∧ next = some '/' ↔ d = '/' ∧ next' = some '/'))
    (hblock : s.mode = .between → (d = '/' ∧ next = some '*' ↔ d = '/' ∧ next' = some '*'))
    (hclose : ∀ start, s.mode = .blockComment start →
      (d = '*' ∧ next = some '/' ↔ d = '*' ∧ next' = some '/')) :
    s.step n d next = s.step n d next' := by
  obtain ⟨mode, newline, opened, comment⟩ := s
  cases mode with
  | between => simp only [step, hline rfl, hblock rfl]
  | lineComment => rfl
  | blockComment start => simp only [step, hclose start rfl]

theorem feed_ne {p : Prop} {y : Char} (hy : y ≠ '\n') : ¬ (p ∧ some '\n' = some y) :=
  fun h => hy (Option.some.inj h.2).symm

/-- A slash that is not passed together with the character in front of it could as well be a line
end, and any other break. -/
theorem step_feed {s : TriviaState} {n : Nat} {d x : Char} (hx : x ∈ breaks)
    (h : ∀ s', s.step n d (some x) ≠ some (s', 2)) :
    s.step n d (some '\n') = s.step n d (some x) := by
  obtain ⟨mode, newline, opened, comment⟩ := s
  refine step_congr (fun hmode => iff_of_false (feed_ne (by decide)) fun hd => ?_)
    (fun _ => iff_of_false (feed_ne (by decide)) fun hd => ?_)
    (fun start hmode => iff_of_false (feed_ne (by decide)) fun hd => ?_)
  · cases hmode
    exact h _ (if_pos hd)
  · obtain rfl : x = '*' := Option.some.inj hd.2
    exact absurd hx (by decide)
  · cases hmode
    exact h _ (if_pos hd)

/-- The end of a text is like a line end behind it. -/
theorem step_none (s : TriviaState) (n : Nat) (d : Char) :
    s.step n d (some '\n') = s.step n d none := by
  have hnone : ∀ {p : Prop} {y : Char}, ¬ (p ∧ none = some y) := fun hp => by cases hp.2
  exact step_congr (fun _ => iff_of_false (feed_ne (by decide)) hnone)
    (fun _ => iff_of_false (feed_ne (by decide)) hnone)
    fun _ _ => iff_of_false (feed_ne (by decide)) hnone

/-- White space and comments that end in front of the cut are the same in both texts. -/
theorem pass_alike (s : TriviaState) (h : cut.Alike c c')
    (hlt : (s.pass c.rest c.offset).cursor.offset < cut.offset) :
    cut.Alike (s.pass c.rest c.offset).cursor (s.pass c'.rest c'.offset).cursor ∧
      (s.pass c'.rest c'.offset).afterNewline = (s.pass c.rest c.offset).afterNewline ∧
      (s.pass c'.rest c'.offset).unterminated = (s.pass c.rest c.offset).unterminated := by
  induction hlength : c.rest.length using Nat.strongRecOn generalizing s c c' with
  | ind length ih =>
    have hreaches : ∀ (s : TriviaState) (text : List Char) (n : Nat),
        n ≤ (s.pass text n).cursor.offset := fun s text n =>
      (skipTrivia_reaches s.mode s.newline s.opened s.comment text n).offset_le
    obtain ⟨d, rest, rest', n, rfl, rfl, hrest⟩ :=
      h.inv_of_lt (Nat.lt_of_le_of_lt (hreaches _ _ _) hlt)
    dsimp only at hlt ⊢
    rw [pass_cons] at hlt
    rw [pass_cons, pass_cons]
    have hstep : s.step n d rest'.head? = s.step n d rest.head? := by
      cases rest with
      | nil => exact hrest.not_nil.elim
      | cons x more =>
        obtain ⟨hx, heq, hcut⟩ | ⟨more', heq, -⟩ := hrest.inv
        · cases heq
          refine step_feed hx fun s' hs' => ?_
          rw [List.head?_cons, hs'] at hlt
          have hle := hreaches s' ((d :: x :: more).drop 2) (n + 2)
          dsimp only at hlt
          omega
        · cases heq
          rfl
    rw [hstep]
    cases hnext : s.step n d rest.head? with
    | none => exact ⟨h, rfl, rfl⟩
    | some next =>
      obtain ⟨s', k⟩ := next
      rw [hnext] at hlt
      dsimp only at hlt ⊢
      have hle := hreaches s' ((d :: rest).drop k) (n + k)
      have hpassed : cut.Alike (Cursor.skip ⟨d :: rest, n⟩ k) (Cursor.skip ⟨d :: rest', n⟩ k) := by
        obtain rfl | ⟨rfl, -⟩ := step_eq_some hnext
        · exact hrest
        · obtain ⟨e, more, more', m, heq, heq', hmore⟩ :=
            hrest.inv_of_lt (by dsimp only; omega)
          cases heq
          cases heq'
          exact hmore
      refine ih _ ?_ s' hpassed hlt rfl
      obtain rfl | ⟨rfl, -⟩ := step_eq_some hnext <;>
      · rw [← hlength]
        simp only [Cursor.skip, List.length_drop, List.length_cons]
        omega

/-- A line feed at the end of a text changes nothing: it closes no comment that has to be closed. -/
theorem pass_feed_iff (s : TriviaState) (text : List Char) (n : Nat) :
    (s.pass (text ++ ['\n']) n).AtEnd ↔ (s.pass text n).AtEnd := by
  induction hlength : text.length using Nat.strongRecOn generalizing s text n with
  | ind length ih =>
    cases text with
    | nil =>
      obtain ⟨mode, newline, opened, comment⟩ := s
      have hfeed : isLineTerminator '\n' = true := by decide
      cases mode <;> simp [TriviaEnd.AtEnd, pass, skipTrivia, hfeed]
    | cons d rest =>
      have hstep : s.step n d (rest ++ ['\n']).head? = s.step n d rest.head? := by
        cases rest with
        | nil => exact step_none s n d
        | cons x more => rfl
      rw [List.cons_append, pass_cons, pass_cons, hstep]
      cases hnext : s.step n d rest.head? with
      | none =>
        exact iff_of_false (fun h => List.cons_ne_nil _ _ h.1) fun h => List.cons_ne_nil _ _ h.1
      | some next =>
        obtain ⟨s', k⟩ := next
        dsimp only
        have hdrop : (d :: (rest ++ ['\n'])).drop k = (d :: rest).drop k ++ ['\n'] := by
          obtain rfl | ⟨rfl, hhead⟩ := step_eq_some hnext
          · rfl
          · cases rest with
            | nil => simp at hhead
            | cons x more => rfl
        have hshorter : ((d :: rest).drop k).length < length := by
          rw [← hlength, List.length_drop, List.length_cons]
          obtain rfl | ⟨rfl, -⟩ := step_eq_some hnext <;> omega
        rw [hdrop]
        exact ih _ hshorter s' _ _ rfl

end TriviaState

/-- Nothing but white space and complete comments is behind a cursor; a line end may be missing behind
the last comment. -/
def Cursor.IsTrivia (c : Cursor) : Prop :=
  (skipTrivia .between false none none c.rest c.offset).AtEnd

instance (c : Cursor) : Decidable c.IsTrivia :=
  inferInstanceAs (Decidable (_ ∧ _))

theorem isTrivia_feed_iff (text : List Char) (n : Nat) :
    Cursor.IsTrivia ⟨text ++ ['\n'], n⟩ ↔ Cursor.IsTrivia ⟨text, n⟩ :=
  TriviaState.pass_feed_iff ⟨.between, false, none, none⟩ text n

/-! ## Tokens -/

/-- A token that is read without a fault is the same, and ends in front of the cut. -/
def Cut.KeepsToken (cut : Cut) (l l' : Lexeme) : Prop :=
  l.token.kind ≠ .eof → l.faults = [] → cut.Spares l.next →
    l'.token = l.token ∧ cut.Alike l.next l'.next ∧ l'.faults = []

theorem Cut.Spares.of_le {d : Cursor} (h : cut.Spares d) (hle : c.offset ≤ d.offset) : cut.Spares c :=
  h.imp_left (Nat.le_trans hle)

theorem readKind_of_atFeed {c : Cursor} (h : c.AtFeed) (fuel : Nat) :
    (readKind fuel c).value = .eof ∨ (readKind fuel c).faults ≠ [] := by
  obtain ⟨text, n⟩ := c
  rcases h with hrest | hrest <;> cases hrest
  · exact Or.inl rfl
  · exact Or.inr (List.cons_ne_nil _ _)

theorem read_keeps {fuel fuel' : Nat} (hfuel : cut.offset < c.offset + fuel)
    (hfuel' : cut.offset < c.offset + fuel') (h : cut.Alike c c') :
    cut.KeepsToken (Token.read fuel c) (Token.read fuel' c') := by
  have hpass := TriviaState.pass_alike ⟨.between, false, none, none⟩ h
  unfold TriviaState.pass at hpass
  have hreaches := skipTrivia_reaches .between false none none c.rest c.offset
  dsimp only at hpass
  intro hkind hnone hspares
  unfold Token.read at hkind hnone hspares ⊢
  generalize skipTrivia .between false none none c.rest c.offset = e at *
  generalize skipTrivia .between false none none c'.rest c'.offset = e' at *
  obtain ⟨start, newline, unterminated, comment⟩ := e
  obtain ⟨start', newline', unterminated', comment'⟩ := e'
  cases unterminated with
  | some opened => cases hnone
  | none =>
    dsimp only at hkind hnone hspares hpass hreaches ⊢
    have hfeed : ¬ start.AtFeed := fun hfeed =>
      (readKind_of_atFeed hfeed fuel).elim hkind fun hfault => hfault hnone
    have hlt : start.offset < cut.offset := by
      cases hrest : start.rest with
      | nil => exact absurd (Or.inl hrest) hfeed
      | cons d rest =>
        have hfuel : 0 < fuel := by
          have := h.offset_le
          omega
        exact h.lt_of_spares hreaches (reaches_readKind hfuel hrest).offset_le hspares hfeed
    obtain ⟨hstart, hnewline, hunterminated⟩ := hpass hlt
    subst hnewline hunterminated
    have hle := hreaches.offset_le
    dsimp only at hle
    have hmore : cut.offset < start.offset + fuel := by omega
    have hmore' : cut.offset < start.offset + fuel' := by omega
    obtain ⟨hvalue, hnext, hfaults⟩ := readKind_keeps hmore hmore' hstart hlt hnone hspares
    dsimp only
    refine ⟨?_, hnext, hfaults⟩
    rw [hvalue, hstart.offset_eq, hnext.offset_eq]

theorem readRegex_keeps {slash : Token} (hpos : 0 < c.offset) (h : cut.Alike c c') :
    cut.KeepsToken (slash.readRegex c) (slash.readRegex c') := by
  have hbody : ∀ {body body' : Cursor}, cut.Alike body body' → cut.KeepsToken
      ⟨⟨(readRegexBody slash.span.start body).value,
        ⟨slash.span.start, (readRegexBody slash.span.start body).next.offset⟩, slash.afterNewline⟩,
        (readRegexBody slash.span.start body).next, (readRegexBody slash.span.start body).faults, none⟩
      ⟨⟨(readRegexBody slash.span.start body').value,
        ⟨slash.span.start, (readRegexBody slash.span.start body').next.offset⟩, slash.afterNewline⟩,
        (readRegexBody slash.span.start body').next, (readRegexBody slash.span.start body').faults,
        none⟩ := by
    intro body body' hbody _ hnone hle
    obtain ⟨hvalue, hnext, hfaults⟩ := readRegexBody_keeps slash.span.start hbody hnone hle
    refine ⟨?_, hnext, hfaults⟩
    dsimp only
    rw [hvalue, hnext.offset_eq]
  refine hbody (ite_rel rfl (fun _ => ?_) fun _ => h)
  rw [h.offset_eq]
  refine .cons '=' ?_
  rw [Nat.sub_add_cancel hpos]
  obtain ⟨rest, n⟩ := c
  obtain ⟨rest', n'⟩ := c'
  obtain rfl : n' = n := h.offset_eq
  exact h

theorem readTemplateTail_keeps {fuel fuel' : Nat} (hfuel : cut.offset < c.offset + fuel)
    (hfuel' : cut.offset < c.offset + fuel') {brace : Token} (h : cut.Alike c c') :
    cut.KeepsToken (brace.readTemplateTail fuel c) (brace.readTemplateTail fuel' c') := by
  intro _ hnone hle
  obtain ⟨hvalue, hnext, hfaults⟩ := readTemplate_keeps hfuel hfuel' h true h hnone hle
  refine ⟨?_, hnext, hfaults⟩
  unfold Token.readTemplateTail
  dsimp only
  rw [hvalue, hnext.offset_eq]

/-! ## Goals -/

/-- How the grammar asks for a token: a slash or a closing brace can be where a regular expression
begins or a template goes on. -/
inductive TokenGoal where
  | plain | regex | template
deriving DecidableEq

/-- A token that was read for another one, with the faults of both. -/
def Lexeme.behind (lexeme : Lexeme) (again : Lexeme) : Lexeme :=
  { again with faults := lexeme.faults ++ again.faults }

/-- Reads the next token as the grammar asks for it. -/
def TokenGoal.read (goal : TokenGoal) (fuel : Nat) (c : Cursor) : Lexeme :=
  let lexeme := Token.read fuel c
  match goal with
  | .plain => lexeme
  | .regex =>
    if lexeme.token.isPunct .slash || lexeme.token.isPunct .slashAssign then
      lexeme.behind (lexeme.token.readRegex lexeme.next)
    else lexeme
  | .template =>
    if lexeme.token.isPunct .rightBrace then
      lexeme.behind (lexeme.token.readTemplateTail fuel lexeme.next)
    else lexeme

/-- Reads a token for each goal, up to the end of the text, if there is no fault. -/
def readGoals (fuel : Nat) : List TokenGoal → Cursor → Option (List Token)
  | [], c =>
    let lexeme := Token.read fuel c
    if lexeme.token.kind = .eof ∧ lexeme.faults = [] then some [] else none
  | goal :: goals, c =>
    let lexeme := goal.read fuel c
    if lexeme.token.kind ≠ .eof ∧ lexeme.faults = [] then
      (readGoals fuel goals lexeme.next).map (lexeme.token :: ·)
    else none

/-- The tokens of a text, if it has no fault. -/
def readTokens (goals : List TokenGoal) (text : List Char) : Option (List Token) :=
  readGoals (text.length + 2) goals ⟨text, 0⟩

/-- Nothing but white space and complete comments is left where the end is read. -/
theorem read_eof_iff (fuel : Nat) (c : Cursor) :
    (Token.read fuel c).token.kind = .eof ∧ (Token.read fuel c).faults = [] ↔ c.IsTrivia := by
  unfold Token.read Cursor.IsTrivia TriviaEnd.AtEnd
  dsimp only
  generalize skipTrivia .between false none none c.rest c.offset = e
  obtain ⟨start, newline, unterminated, comment⟩ := e
  cases unterminated with
  | some opened => simp
  | none =>
    dsimp only
    constructor
    · rintro ⟨hkind, -⟩
      refine ⟨?_, rfl⟩
      by_contra hrest
      exact readKind_ne_eof hrest hkind
    · rintro ⟨hrest, -⟩
      unfold readKind
      rw [hrest]
      exact ⟨rfl, rfl⟩

theorem read_reaches {fuel : Nat} (hfuel : 0 < fuel) (c : Cursor) :
    c.Reaches (Token.read fuel c).next := by
  have htrivia := skipTrivia_reaches .between false none none c.rest c.offset
  unfold Token.read
  dsimp only
  split
  · exact htrivia
  · cases hrest : (skipTrivia .between false none none c.rest c.offset).cursor.rest with
    | nil =>
      unfold readKind
      rw [hrest]
      exact htrivia
    | cons d rest =>
      exact htrivia.trans ((Cursor.Reaches.skip_one hrest).trans (reaches_readKind hfuel hrest))

theorem kind_ne_eof_of_isPunct {t : Token} {p : Punct} (h : t.isPunct p = true) : t.kind ≠ .eof := by
  rw [beq_iff_eq.1 h]
  exact Token.Kind.noConfusion

/-- A token stands behind the cursor, and the next one is read where it ends. -/
def Lexeme.Follows (lexeme : Lexeme) (c : Cursor) : Prop :=
  c.Reaches lexeme.next ∧ c.offset < lexeme.next.offset ∧
    lexeme.token.span.stop = lexeme.next.offset

theorem read_follows {fuel : Nat} (hfuel : 0 < fuel) {c : Cursor}
    (hkind : (Token.read fuel c).token.kind ≠ .eof) : (Token.read fuel c).Follows c :=
  ⟨read_reaches hfuel c, offset_lt_of_read hfuel hkind, (between_read hfuel c).stop_eq⟩

theorem TokenGoal.read_follows (goal : TokenGoal) {fuel : Nat} (hfuel : 0 < fuel) {c : Cursor}
    (hkind : (goal.read fuel c).token.kind ≠ .eof) (hnone : (goal.read fuel c).faults = []) :
    (goal.read fuel c).Follows c := by
  have hagain : ∀ {again : Lexeme}, (Token.read fuel c).token.kind ≠ .eof →
      (Token.read fuel c).next.Reaches again.next → again.token.span.stop = again.next.offset →
      ((Token.read fuel c).behind again).Follows c := by
    intro again hkind hreaches hstop
    obtain ⟨hread, hlt, -⟩ := Syntax.read_follows hfuel hkind
    exact ⟨hread.trans hreaches, Nat.lt_of_lt_of_le hlt hreaches.offset_le, hstop⟩
  unfold TokenGoal.read at hkind hnone ⊢
  cases goal with
  | plain => exact Syntax.read_follows hfuel hkind
  | regex =>
    dsimp only at hkind hnone ⊢
    split at hnone
    · rename_i hslash
      rw [if_pos hslash]
      have hslash : (Token.read fuel c).token.kind ≠ .eof := by
        rcases Bool.or_eq_true_iff.1 hslash with hslash | hslash <;>
          exact kind_ne_eof_of_isPunct hslash
      have hpos := Nat.zero_lt_of_lt (Syntax.read_follows hfuel hslash).2.1
      exact hagain hslash (readRegex_reaches fun _ => hpos) rfl
    · rename_i hslash
      rw [if_neg hslash] at hkind ⊢
      exact Syntax.read_follows hfuel hkind
  | template =>
    dsimp only at hkind hnone ⊢
    split at hnone
    · rename_i hbrace
      rw [if_pos hbrace]
      exact hagain (kind_ne_eof_of_isPunct hbrace) (readTemplate_reaches _ _ _ _ _ _ _) rfl
    · rename_i hbrace
      rw [if_neg hbrace] at hkind ⊢
      exact Syntax.read_follows hfuel hkind

theorem TokenGoal.read_keeps (goal : TokenGoal) {fuel fuel' : Nat}
    (hfuel : cut.offset < c.offset + fuel) (hfuel' : cut.offset < c.offset + fuel')
    (h : cut.Alike c c') : cut.KeepsToken (goal.read fuel c) (goal.read fuel' c') := by
  have hread := Syntax.read_keeps hfuel hfuel' h
  have hpos : 0 < fuel := by
    have := h.offset_le
    omega
  -- a token that is read again was read alike before
  have hfirst : ∀ {again : Lexeme}, (Token.read fuel c).token.kind ≠ .eof →
      ((Token.read fuel c).behind again).faults = [] →
      (Token.read fuel c).next.offset ≤ again.next.offset → cut.Spares again.next →
      (Token.read fuel' c').token = (Token.read fuel c).token ∧
        cut.Alike (Token.read fuel c).next (Token.read fuel' c').next ∧
        (Token.read fuel' c').faults = [] ∧ again.faults = [] := by
    intro again hkind hnone hle hspares
    obtain ⟨hnone, hnone'⟩ := List.append_eq_nil_iff.1 hnone
    obtain ⟨htoken, hnext, hfaults⟩ := hread hkind hnone (hspares.of_le hle)
    exact ⟨htoken, hnext, hfaults, hnone'⟩
  unfold TokenGoal.read
  cases goal with
  | plain => exact hread
  | regex =>
    dsimp only
    split
    · rename_i hslash
      intro hkind hnone hspares
      have hslash' : (Token.read fuel c).token.kind ≠ .eof := by
        rcases Bool.or_eq_true_iff.1 hslash with hslash | hslash <;>
          exact kind_ne_eof_of_isPunct hslash
      have hlt := Nat.zero_lt_of_lt (Syntax.read_follows hpos hslash').2.1
      have hreaches : (Token.read fuel c).next.Reaches
          ((Token.read fuel c).token.readRegex (Token.read fuel c).next).next :=
        readRegex_reaches fun _ => hlt
      obtain ⟨htoken, hnext, hfaults, hnone'⟩ := hfirst hslash' hnone hreaches.offset_le hspares
      obtain ⟨hregex, hbehind, hfaults'⟩ := readRegex_keeps hlt hnext hkind hnone' hspares
      rw [htoken, if_pos hslash]
      exact ⟨hregex, hbehind, List.append_eq_nil_iff.2 ⟨hfaults, hfaults'⟩⟩
    · rename_i hslash
      intro hkind hnone hspares
      obtain ⟨htoken, hnext, hfaults⟩ := hread hkind hnone hspares
      rw [htoken, if_neg hslash]
      exact ⟨htoken, hnext, hfaults⟩
  | template =>
    dsimp only
    split
    · rename_i hbrace
      intro hkind hnone hspares
      have hbrace' := kind_ne_eof_of_isPunct hbrace
      have hlt := (Syntax.read_follows hpos hbrace').2.1
      have hreaches := readTemplate_reaches fuel (Token.read fuel c).token.span.start
        (Token.read fuel c).next .tail .middle true (Token.read fuel c).next
      obtain ⟨htoken, hnext, hfaults, hnone'⟩ := hfirst hbrace' hnone hreaches.offset_le hspares
      have hmore : cut.offset < (Token.read fuel c).next.offset + fuel := by omega
      have hmore' : cut.offset < (Token.read fuel c).next.offset + fuel' := by omega
      obtain ⟨hpart, hbehind, hfaults'⟩ :=
        readTemplateTail_keeps hmore hmore' hnext hkind hnone' hspares
      rw [htoken, if_pos hbrace]
      exact ⟨hpart, hbehind, List.append_eq_nil_iff.2 ⟨hfaults, hfaults'⟩⟩
    · rename_i hbrace
      intro hkind hnone hspares
      obtain ⟨htoken, hnext, hfaults⟩ := hread hkind hnone hspares
      rw [htoken, if_neg hbrace]
      exact ⟨htoken, hnext, hfaults⟩

/-! ## Sequences -/

/-- The offset at which the last of some tokens ends, and `n` if there is none. -/
def stopAfter (n : Nat) : List Token → Nat
  | [] => n
  | t :: tokens => stopAfter t.span.stop tokens

/-- Tokens that end in front of the cut are read in both texts up to the last of them, and what is left
of the second text has to be white space and complete comments.  If only a line feed is behind the cut,
all tokens end in front of it. -/
theorem readGoals_iff {fuel fuel' : Nat} (hfuel : cut.offset < c.offset + fuel)
    (hfuel' : cut.offset < c.offset + fuel') (h : cut.Alike c c') {goals : List TokenGoal}
    {tokens : List Token} (hread : readGoals fuel goals c = some tokens)
    (hspares : (∀ t ∈ tokens, t.span.stop ≤ cut.offset) ∨ cut.first = '\n' ∧ cut.more = []) :
    (∀ t ∈ tokens, t.span.stop ≤ cut.offset) ∧
      ∃ d', c'.Reaches d' ∧ d'.offset = stopAfter c'.offset tokens ∧
        (readGoals fuel' goals c' = some tokens ↔ d'.IsTrivia) := by
  induction goals generalizing c c' tokens with
  | nil =>
    unfold readGoals at hread
    dsimp only at hread
    split at hread
    · cases hread
      refine ⟨fun t ht => absurd ht List.not_mem_nil, c', .refl c', rfl, ?_⟩
      rw [← read_eof_iff fuel']
      simp only [readGoals, ite_eq_left_iff, reduceCtorEq, imp_false, not_not]
    · cases hread
  | cons goal goals ih =>
    unfold readGoals at hread
    dsimp only at hread
    split at hread
    · rename_i hlexeme
      obtain ⟨hkind, hnone⟩ := hlexeme
      obtain ⟨tokens, hmore, rfl⟩ := Option.map_eq_some_iff.1 hread
      have hle := h.offset_le
      obtain ⟨-, hlt, hend⟩ := goal.read_follows (by omega) hkind hnone
      obtain ⟨htoken, hnext, hfaults⟩ := goal.read_keeps hfuel hfuel' h hkind hnone
        (hspares.imp_left fun hstop => hend ▸ hstop _ List.mem_cons_self)
      obtain ⟨hreaches, -, hend'⟩ := goal.read_follows (by omega) (htoken ▸ hkind) hfaults
      obtain ⟨hstop, d', hd', hoffset, hiff⟩ := ih (by omega) (by omega) hnext hmore
        (hspares.imp_left fun hstop t ht => hstop t (List.mem_cons_of_mem _ ht))
      refine ⟨List.forall_mem_cons.2 ⟨hend ▸ hnext.offset_le, hstop⟩, d', hreaches.trans hd', ?_, ?_⟩
      · rw [hoffset, ← hend', htoken]
        rfl
      · rw [← hiff, readGoals, if_pos ⟨htoken ▸ hkind, hfaults⟩, htoken]
        simp only [Option.map_eq_some_iff, List.cons.injEq, true_and, exists_eq_right]
    · cases hread

theorem stopAfter_le {n k : Nat} {tokens : List Token} (hn : n ≤ k)
    (htokens : ∀ t ∈ tokens, t.span.stop ≤ k) : stopAfter n tokens ≤ k := by
  induction tokens generalizing n with
  | nil => exact hn
  | cons t tokens ih =>
    exact ih (htokens t List.mem_cons_self) fun u hu => htokens u (List.mem_cons_of_mem t hu)

/-- The end of a text, behind `front`, stands apart from its tokens: they are all in `front`, and between
the last of them and the end there is only white space and complete comments. -/
def StandsApart (front : List Char) (tokens : List Token) : Prop :=
  (∀ t ∈ tokens, t.span.stop ≤ front.length) ∧
    Cursor.IsTrivia ⟨front.drop (stopAfter 0 tokens), stopAfter 0 tokens⟩

/-- A line feed is written for the end of a text.  The tokens are the same exactly if that end stands
apart from them. -/
theorem readTokens_feed_iff {front more : List Char} {first : Char} (hfirst : first ∈ breaks)
    {goals : List TokenGoal} {tokens : List Token}
    (hread : readTokens goals (front ++ first :: more) = some tokens) :
    readTokens goals (front ++ ['\n']) = some tokens ↔ StandsApart front tokens := by
  have hfuel : ∀ behind : List Char, front.length < 0 + ((front ++ behind).length + 2) := by
    intro behind
    rw [List.length_append]
    omega
  have hcut : ∀ {first : Char} {more : List Char} (hfirst : first ∈ breaks),
      (⟨front.length, first, more, hfirst⟩ : Cut).Alike ⟨front ++ first :: more, 0⟩
        ⟨front ++ ['\n'], 0⟩ := fun _ => .of_append (Nat.zero_add _)
  have hiff : (∀ t ∈ tokens, t.span.stop ≤ front.length) →
      (readTokens goals (front ++ ['\n']) = some tokens ↔
        Cursor.IsTrivia ⟨front.drop (stopAfter 0 tokens), stopAfter 0 tokens⟩) := by
    intro hstop
    obtain ⟨-, d', hreaches, hoffset, hiff⟩ :=
      readGoals_iff (hfuel _) (hfuel ['\n']) (hcut hfirst) hread (Or.inl hstop)
    have hrest : d'.rest = front.drop (stopAfter 0 tokens) ++ ['\n'] := by
      rw [hreaches.rest_eq, hoffset, Nat.sub_zero,
        List.drop_append_of_le_length (stopAfter_le (Nat.zero_le _) hstop)]
    rw [← isTrivia_feed_iff, ← hrest, ← hoffset]
    exact hiff
  constructor
  · intro hkept
    -- the text is cut in front of the line feed, and nothing is changed
    have hstop := (readGoals_iff (hfuel _) (hfuel ['\n']) (hcut (by decide)) hkept
      (Or.inr ⟨rfl, rfl⟩)).1
    exact ⟨hstop, (hiff hstop).1 hkept⟩
  · rintro ⟨hstop, htrivia⟩
    exact (hiff hstop).2 htrivia

end

end ModuleBundler.Syntax
