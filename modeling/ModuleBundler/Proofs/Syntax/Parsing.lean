import ModuleBundler.Syntax.Grammar.Program

/-!
# What parsing steps answer

A parsing step takes a state and halts, or gives an answer and another state.  `Parse.Leads` says
what holds of the answer and the state behind it; nothing is said of a step that halts.  The rules
here follow the pieces that the grammar is put together from:

* `Leads.bind`, `Leads.ite` — steps one behind the other, and a choice of steps;
* `Steady` — a step that only looks leaves everything as it is (`Steady.leads`);
* `Leads.iterate`, and from it `Leads.repeatUntil`, `Leads.commaList` and
  `Leads.commaListWithRest` — what every round of a loop keeps.

`Parse.Yields` is the case in which only the answer matters, and `Parse.Ends` the one of nodes that
end where the previous token does.  `parse_ok` says where the reading of a whole module starts.
-/

namespace ModuleBundler.Syntax.Parse

variable {α β : Type}

/-- Two parsing steps succeed if the second succeeds behind the first. -/
theorem bind_ok {first : Parse α} {second : α → Parse β} {s t : ParseState} {b : β}
    (h : (first >>= second) s = .ok (b, t)) :
    ∃ a u, first s = .ok (a, u) ∧ second a u = .ok (b, t) := by
  have hbind : (first s >>= fun p => second p.1 p.2) = Except.ok (b, t) := h
  cases hfirst : first s with
  | error halt =>
    rw [hfirst] at hbind
    cases hbind
  | ok p =>
    rw [hfirst] at hbind
    exact ⟨p.1, p.2, rfl, hbind⟩

/-- From every state that satisfies `P`, a step that succeeds answers something that satisfies `Q`
together with the state behind it. -/
def Leads (P : ParseState → Prop) (p : Parse α) (Q : α → ParseState → Prop) : Prop :=
  ∀ s a t, P s → p s = .ok (a, t) → Q a t

namespace Leads

variable {P P' : ParseState → Prop} {Q Q' : α → ParseState → Prop} {R : β → ParseState → Prop}
  {p q : Parse α}

theorem pure {a : α} (h : ∀ s, P s → Q a s) : Leads P (pure a) Q := by
  intro s b t hs hok
  cases hok
  exact h s hs

theorem bind {f : α → Parse β} (hp : Leads P p Q) (hf : ∀ a, Leads (Q a) (f a) R) :
    Leads P (p >>= f) R := by
  intro s b u hs hok
  obtain ⟨a, t, ha, hb⟩ := bind_ok hok
  exact hf a t b u (hp s a t hs ha) hb

theorem mono (h : Leads P p Q) (hP : ∀ s, P' s → P s) (hQ : ∀ a s, Q a s → Q' a s) :
    Leads P' p Q' := fun s a t hs hok => hQ a t (h s a t (hP s hs) hok)

theorem ite {c : Prop} [Decidable c] (hp : c → Leads P p Q) (hq : ¬ c → Leads P q Q) :
    Leads P (if c then p else q) Q := by
  split
  · rename_i hc
    exact hp hc
  · rename_i hc
    exact hq hc

theorem fail {cause : Cause} {offset : Nat} : Leads P (fail cause offset) Q := by
  intro s a t _ hok
  cases hok

theorem unexpected : Leads P unexpected Q := by
  intro s a t _ hok
  unfold Parse.unexpected at hok
  split at hok <;> cases hok

theorem expected {wanted : String} : Leads P (expected wanted) Q := by
  intro s a t _ hok
  unfold Parse.expected at hok
  obtain ⟨_, _, -, hfail⟩ := bind_ok hok
  cases hfail

/-- What does not depend on the state holds behind every step. -/
theorem kept {fact : Prop} (p : Parse α) : Leads (fun _ => fact) p fun _ _ => fact :=
  fun _ _ _ h _ => h

/-- A step that is given up has changed nothing. -/
theorem attempt (h : Leads P p Q) : Leads P (attempt p) fun found s =>
    match found with
    | some a => Q a s
    | none => P s := by
  intro s found t hs hok
  unfold Parse.attempt at hok
  split at hok <;> cases hok
  · rename_i hp
    exact h s _ _ hs hp
  · exact hs

/-- Permits change nothing for a step of which they are not a condition. -/
theorem permitting (h : Leads P p Q) (hP : ∀ s permit, P s → P { s with permit })
    (hQ : ∀ a s permit, Q a s → Q a { s with permit }) (change : Permit → Permit) :
    Leads P (permitting change p) Q := by
  intro s a t hs hok
  unfold Parse.permitting at hok
  obtain ⟨_, _, hget, hok⟩ := bind_ok hok
  cases hget
  obtain ⟨_, _, hset, hok⟩ := bind_ok hok
  cases hset
  obtain ⟨_, u, hp, hok⟩ := bind_ok hok
  obtain ⟨_, _, hset, hok⟩ := bind_ok hok
  cases hset
  cases hok
  exact hQ _ u _ (h _ _ u (hP s _ hs) hp)

end Leads

/-! ## Steps that look -/

/-- A step leaves the state as it is. -/
def Steady (p : Parse α) : Prop := ∀ s a t, p s = .ok (a, t) → t = s

namespace Steady

theorem leads {p : Parse α} {P : ParseState → Prop} (h : Steady p) :
    Leads P p fun _ => P := by
  intro s a t hs hok
  rw [h s a t hok]
  exact hs

theorem pure (a : α) : Steady (pure a : Parse α) := by
  intro s b t hok
  cases hok
  rfl

theorem bind {p : Parse α} {f : α → Parse β} (hp : Steady p) (hf : ∀ a, Steady (f a)) :
    Steady (p >>= f) := by
  intro s b u hok
  obtain ⟨a, t, ha, hb⟩ := bind_ok hok
  rw [hf a t b u hb, hp s a t ha]

theorem lookahead (p : Parse α) : Steady (lookahead p) := by
  intro s a t hok
  unfold Parse.lookahead at hok
  split at hok <;> cases hok
  rfl

theorem get : Steady (get : Parse ParseState) := by
  intro s a t hok
  cases hok
  rfl

theorem token : Steady token := get.bind fun _ => .pure _

theorem here : Steady here := get.bind fun _ => .pure _

theorem afterNewline : Steady afterNewline := get.bind fun _ => .pure _

theorem wordHere : Steady wordHere := by
  refine get.bind fun s => ?_
  split <;> exact .pure _

theorem isAt (p : Punct) : Steady (isAt p) := get.bind fun _ => .pure _

theorem atWord (text : String) : Steady (atWord text) := get.bind fun _ => .pure _

theorem atEnd : Steady atEnd := get.bind fun _ => .pure _

theorem canEndStatement : Steady canEndStatement := token.bind fun _ => .pure _

theorem atIdentifier : Steady Grammar.atIdentifier := by
  refine token.bind fun t => ?_
  split <;> exact .pure _

/-- The usual end of a list. -/
theorem atClose (close : Punct) : Steady (do return (← Parse.isAt close) || (← Parse.atEnd)) :=
  (isAt close).bind fun _ => atEnd.bind fun _ => .pure _

end Steady

/-! ## Words -/

/-- The current token is a word. -/
def AtWord (s : ParseState) : Prop := ∃ text escaped, s.token.kind = .word text escaped

theorem leads_token {P : ParseState → Prop} : Leads P token fun t s => P s ∧ s.token = t := by
  intro s t u hs hok
  cases hok
  exact ⟨hs, rfl⟩

theorem leads_atWord {P : ParseState → Prop} {text : String} :
    Leads P (atWord text) fun found s => P s ∧ (found = true → AtWord s) := by
  intro s found u hs hok
  cases hok
  refine ⟨hs, fun hword => ?_⟩
  unfold Token.isWord at hword
  split at hword
  · rename_i hkind
    exact ⟨_, _, hkind⟩
  · cases hword

/-- The current token is the previous one when it has been passed. -/
theorem leads_prevStop {x : Nat} :
    Leads (fun s => s.token.span.stop = x) advance fun _ t => t.prevStop = x := by
  refine Steady.token.leads.bind fun t => ?_
  extract_lets pass
  have hpass : ∀ u, Leads (fun s => s.token.span.stop = x) (pass u) fun _ t => t.prevStop = x := by
    rintro u s _ t hs hok
    cases hok
    exact hs
  split
  · refine .ite (fun _ => .bind (fun s _ t hs hok => ?_) hpass) fun _ => hpass ()
    cases hok
    exact hs
  · exact hpass ()

/-! ## Loops -/

namespace Leads

/-- What each round keeps holds behind the loop. -/
theorem iterate {step : α → Parse (Option α)} {I : α → ParseState → Prop}
    (h : ∀ a, Leads (I a) (step a) fun next => I (next.getD a)) (a : α) :
    Leads (I a) (iterate step a) I := by
  have hrounds : ∀ n a, Leads (I a) (rounds step n a) I := by
    intro n
    induction n with
    | zero => exact fun a => .pure fun _ hs => hs
    | succ n ih =>
      intro a
      refine .bind (h a) fun next => ?_
      cases next with
      | none => exact .pure fun _ hs => hs
      | some b => exact ih b
  exact Steady.get.leads.bind fun s => hrounds s.budget a

variable {I : List Node → ParseState → Prop} {item rest : Parse Node}

/-- The items of a loop, in the order in which they are read. -/
theorem repeatUntil {stop : Parse Bool} (hstop : ∀ items, Leads (I items) stop fun _ => I items)
    (hitem : ∀ items, Leads (I items) item fun n => I (items ++ [n])) :
    Leads (I []) (repeatUntil stop item) I := by
  have hstep : ∀ items : List Node, Leads (I items.reverse)
      (do if ← stop then return none else return some ((← item) :: items))
      fun next => I (next.getD items).reverse := by
    intro items
    refine (hstop _).bind fun stops => .ite (fun _ => .pure fun _ hs => hs) fun _ => ?_
    refine (hitem _).bind fun n => .pure fun s hs => ?_
    rw [Option.getD_some, List.reverse_cons]
    exact hs
  exact (iterate (I := fun items => I items.reverse) hstep []).bind fun _ => .pure fun _ hs => hs

section CommaLists

variable (hcomma : ∀ items, Leads (I items) (expect .comma) fun _ => I items)
  (hitem : ∀ items, Leads (I items) item fun n => I (items ++ [n]))
include hcomma hitem

/-- Items between commas. -/
theorem commaList (close : Punct) :
    Leads (I []) (commaList close item) fun r => I r.1 := by
  refine (Steady.isAt close).leads.bind fun _ => Steady.atEnd.leads.bind fun _ =>
    .ite (fun _ => .pure fun _ hs => hs) fun _ => (hitem []).bind fun first => ?_
  refine .bind (iterate (I := fun state : List Node × Option Nat × Bool => I state.1.reverse) ?_
    ([first], none, false)) fun _ => .pure fun _ hs => hs
  rintro ⟨items, before, done⟩
  refine (Steady.isAt close).leads.bind fun _ => Steady.atEnd.leads.bind fun _ =>
    .ite (fun _ => .pure fun _ hs => hs) fun _ => Steady.here.leads.bind fun comma =>
    (hcomma _).bind fun _ => (Steady.isAt close).leads.bind fun _ =>
    .ite (fun _ => .pure fun _ hs => hs) fun _ => (hitem _).bind fun n => .pure fun s hs => ?_
  rw [Option.getD_some, List.reverse_cons]
  exact hs

/-- Items between commas with a rest behind them. -/
theorem commaListWithRest (hrest : ∀ items, Leads (I items) rest fun n => I (items ++ [n]))
    (hreport : ∀ items cause offset, Leads (I items) (report cause offset) fun _ => I items)
    (close : Punct) (cause : Cause) :
    Leads (I []) (commaListWithRest close item rest cause) I := by
  refine .bind (iterate (I := fun state : List Node × Option Node => I state.1.reverse) ?_
    ([], none)) fun _ => .pure fun _ hs => hs
  rintro ⟨items, before⟩
  have hnext : ∀ n : Node, ∀ s, I (items.reverse ++ [n]) s → I (n :: items).reverse s := by
    intro n s hs
    rw [List.reverse_cons]
    exact hs
  refine (Steady.isAt close).leads.bind fun _ => Steady.atEnd.leads.bind fun _ =>
    .ite (fun _ => .pure fun _ hs => hs) fun _ => ?_
  extract_lets last behind stopped
  have hlast : ∀ u, Leads (I items.reverse) (last u) fun next =>
      I (next.getD (items, before)).1.reverse := fun u =>
    (Steady.isAt .dots).leads.bind fun _ => .ite
      (fun _ => (hrest _).bind fun r => .pure (hnext r))
      fun _ => (hitem _).bind fun n => .pure (hnext n)
  have hbehind : ∀ u, Leads (I items.reverse) (behind u) fun next =>
      I (next.getD (items, before)).1.reverse := by
    intro u
    unfold behind
    split
    · exact .bind .fail hlast
    · exact hlast ()
  refine .ite (fun _ => Steady.here.leads.bind fun comma => (hcomma _).bind fun _ =>
    (Steady.isAt close).leads.bind fun _ => .ite (fun _ => ?_) fun _ => hbehind ())
    fun _ => hbehind ()
  exact .ite (fun _ => (hreport _ _ _).bind fun _ => .pure fun _ hs => hs)
    fun _ => .pure fun _ hs => hs

end CommaLists

end Leads

/-! ## Answers -/

/-- A step answers nothing but what satisfies `Q`. -/
def Yields (p : Parse α) (Q : α → Prop) : Prop := Leads (fun _ => True) p fun a _ => Q a

namespace Yields

variable {Q : α → Prop} {R : β → Prop} {p q : Parse α}

theorem leads {P : ParseState → Prop} (h : Yields p Q) : Leads P p fun a _ => Q a :=
  Leads.mono h (fun _ _ => trivial) fun _ _ => id

theorem any (p : Parse α) : Yields p fun _ => True := fun _ _ _ _ _ => trivial

theorem pure {a : α} (h : Q a) : Yields (pure a) Q := Leads.pure fun _ _ => h

theorem bind {f : α → Parse β} (hp : Yields p Q) (hf : ∀ a, Q a → Yields (f a) R) :
    Yields (p >>= f) R := by
  intro s b u _ hok
  obtain ⟨a, t, ha, hb⟩ := bind_ok hok
  exact hf a (hp s a t trivial ha) t b u trivial hb

/-- What a step answers can be what the step behind it answers. -/
theorem behind {f : α → Parse β} (hf : ∀ a, Yields (f a) R) : Yields (p >>= f) R :=
  (any p).bind fun a _ => hf a

theorem ite {c : Prop} [Decidable c] (hp : Yields p Q) (hq : Yields q Q) :
    Yields (if c then p else q) Q := Leads.ite (fun _ => hp) fun _ => hq

theorem fail {cause : Cause} {offset : Nat} : Yields (fail cause offset) Q := Leads.fail

theorem unexpected : Yields unexpected Q := Leads.unexpected

theorem permitting (h : Yields p Q) (change : Permit → Permit) :
    Yields (permitting change p) Q :=
  Leads.permitting h (fun _ _ => id) (fun _ _ _ => id) change

theorem node {label : Label} {start : Nat} {children : List Node} {Q : Node → Prop}
    (h : ∀ stop, Q (.mk label ⟨start, stop⟩ children)) : Yields (node label start children) Q :=
  behind fun _ => pure (h _)

theorem leaf {label : Label} {Q : Node → Prop} (h : ∀ span, Q (.mk label span [])) :
    Yields (leaf label) Q := behind fun _ => behind fun _ => pure (h _)

theorem nameLeaf {label : String → Label} {Q : Node → Prop}
    (h : ∀ text span, Q (.mk (label text) span [])) : Yields (nameLeaf label) Q :=
  behind fun _ => behind fun _ => behind fun _ => pure (h _ _)

section Loops

theorem iterate {step : α → Parse (Option α)} {a : α} (ha : Q a)
    (h : ∀ a, Q a → Yields (step a) fun next => Q (next.getD a)) : Yields (iterate step a) Q := by
  have hloop : Leads _ (Parse.iterate step a) fun b _ => Q b :=
    Leads.iterate (I := fun a _ => Q a) (fun a s next t hQ hok => h a hQ s next t trivial hok) a
  exact hloop.mono (fun _ _ => ha) fun _ _ => id

variable {Q : Node → Prop} {item rest : Parse Node}

private theorem onward (hitem : Yields item Q) (items : List Node) :
    Leads (fun _ => ∀ m ∈ items, Q m) item fun n _ => ∀ m ∈ items ++ [n], Q m := by
  intro s n t hitems hok m hm
  rcases List.mem_append.1 hm with hm | hm
  · exact hitems m hm
  · rw [List.mem_singleton.1 hm]
    exact hitem s n t trivial hok

private theorem start {p : Parse α} {R : α → ParseState → Prop}
    (h : Leads (fun _ => ∀ m ∈ ([] : List Node), Q m) p R) : Leads (fun _ => True) p R :=
  h.mono (fun _ _ _ hm => absurd hm List.not_mem_nil) fun _ _ => id

theorem commaList (close : Punct) (hitem : Yields item Q) :
    Yields (commaList close item) fun r => ∀ n ∈ r.1, Q n :=
  start (Leads.commaList (fun _ => Leads.kept _) (onward hitem) close)

theorem commaListWithRest (close : Punct) (cause : Cause) (hitem : Yields item Q)
    (hrest : Yields rest Q) :
    Yields (commaListWithRest close item rest cause) fun items => ∀ n ∈ items, Q n :=
  start (Leads.commaListWithRest (fun _ => Leads.kept _) (onward hitem) (onward hrest)
    (fun _ _ _ => Leads.kept _) close cause)

end Loops

end Yields

/-! ## Where answers end -/

/-- A step answers nothing but a node that satisfies `Q` and ends where the previous token ended. -/
def Ends (p : Parse Node) (Q : Node → Prop) : Prop :=
  Leads (fun _ => True) p fun n t => Q n ∧ n.span.stop = t.prevStop

namespace Ends

variable {Q : Node → Prop} {p q : Parse Node} {label : Label}

theorem behind {first : Parse α} {f : α → Parse Node} (hf : ∀ a, Ends (f a) Q) :
    Ends (first >>= f) Q := Leads.bind (fun _ _ _ _ _ => trivial) hf

theorem ite {c : Prop} [Decidable c] (hp : Ends p Q) (hq : Ends q Q) :
    Ends (if c then p else q) Q := Leads.ite (fun _ => hp) fun _ => hq

theorem unexpected : Ends unexpected Q := Leads.unexpected

theorem node {start : Nat} {children : List Node} (h : ∀ stop, Q (.mk label ⟨start, stop⟩ children)) :
    Ends (node label start children) Q := by
  intro s n t _ hok
  cases hok
  exact ⟨h _, rfl⟩

theorem leaf (h : ∀ span, Q (.mk label span [])) : Ends (leaf label) Q :=
  leads_token.bind fun t => .bind (Q := fun _ u => u.prevStop = t.span.stop)
    (leads_prevStop.mono (fun _ hs => hs.2 ▸ rfl) fun _ _ => id) fun _ =>
    .pure fun _ hstop => ⟨h _, hstop.symm⟩

/-- What is noted behind a node does not move its end. -/
theorem kept_report {fact : Prop} {n : Node} {cause : Cause} {offset : Nat} :
    Leads (fun t => fact ∧ n.span.stop = t.prevStop) (report cause offset) fun _ t =>
      fact ∧ n.span.stop = t.prevStop := by
  intro s _ t hs hok
  cases hok
  exact hs

end Ends

end ModuleBundler.Syntax.Parse

namespace ModuleBundler.Syntax

/-! ## Whole modules -/

/-- The state in which the reading of a module starts: its first token has been read. -/
def firstState (text : List Char) : ParseState :=
  let lexeme := Token.read (text.length + 2) ⟨text, 0⟩
  { token := lexeme.token, next := lexeme.next, prevStop := 0, permit := .module,
    lexical := lexeme.faults.reverse ++ [], noted := [], initializers := [], trailing := [],
    notArrow := [], comment := none <|> lexeme.comment, budget := text.length + 2 }

/-- A module that is read was read by the grammar, and exports no name twice. -/
theorem parse_ok {text : List Char} {program : Node} (h : parse text = .ok program) :
    duplicateExport program.children = none ∧
      ∃ t, Grammar.program (8 * (text.length + 2)) (firstState text) = .ok (program, t) := by
  unfold parse at h
  dsimp only at h
  split at h
  · cases h
  rename_i made t hrun
  obtain ⟨_, started, haccept, hprogram⟩ := Parse.bind_ok hrun
  cases haccept
  split at h
  · cases h
  · cases h
  split at h
  · cases h
  split at h
  · cases h
  rename_i hduplicate
  cases h
  exact ⟨hduplicate, t, hprogram⟩

end ModuleBundler.Syntax
