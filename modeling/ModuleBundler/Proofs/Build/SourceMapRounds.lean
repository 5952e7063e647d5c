import Mathlib.Data.List.TakeWhile
import Mathlib.Logic.Function.Iterate
import ModuleBundler.Build.Transformer
import ModuleBundler.Proofs.Build.SourceMapComment

/-!
# Rounds of dropping source map comments

A text can end in several comments that name a source map, one behind the other.  Dropping the
comment takes one of them away, the last one.

* `isSourceMapTail_iff` — which texts are such a comment, with what is dropped around it;
* `CommentsAtEnd` — how many of them a text ends in: every text has such a number
  (`exists_commentsAtEnd`);
* `CommentsAtEnd.drop` — a round takes one comment away, and **`CommentsAtEnd.iterate`**, so `k` rounds
  take `k` away;
* **`toLoaderForm_settled_iff`** — the code of a module ends in no such comment, and would not be
  changed by another round, exactly if at most one of them stood at the end of its loader form;
* `not_settled_of_twoComments` — two can stand there.
-/

namespace ModuleBundler

open ModuleBundler.Text

/-! ## Comments that name a source map -/

/-- A comment that names a source map, and white space behind it. -/
inductive SourceMapComment : List Char → Prop
  | intro {mark : Char} {gap address behind : List Char} (hmark : mark = '#' ∨ mark = '@')
      (hgap : ∀ c ∈ gap, isLineBlank c = true) (haddress : ∀ c ∈ address, isAddressChar c = true)
      (hbehind : ∀ c ∈ behind, isBlank c = true) :
      SourceMapComment ('/' :: '/' :: mark :: (gap ++ (sourceMapWords ++ (address ++ behind))))

/-- A text is a line end, or nothing, and what is left without it. -/
theorem exists_lineEnd (text : List Char) : ∃ lineEnd ∈ [[], ['\n'], ['\r', '\n']],
    text = lineEnd ++ dropLineEnd text := by
  unfold dropLineEnd
  split
  · exact ⟨['\r', '\n'], by decide, rfl⟩
  · exact ⟨['\n'], by decide, rfl⟩
  · exact ⟨[], by decide, rfl⟩

/-- What stands in front of a comment in its line does not begin with a line end. -/
theorem dropLineEnd_append {lineEnd : List Char} (h : lineEnd ∈ [[], ['\n'], ['\r', '\n']])
    {text : List Char} (htext : ∀ c ∈ text.head?, c ≠ '\r' ∧ c ≠ '\n') :
    dropLineEnd (lineEnd ++ text) = text := by
  simp only [List.mem_cons, List.not_mem_nil, or_false] at h
  rcases h with rfl | rfl | rfl
  · rw [List.nil_append]
    unfold dropLineEnd
    split
    · exact absurd rfl (htext _ rfl).1
    · exact absurd rfl (htext _ rfl).2
    · rfl
  · rfl
  · rfl

/-- The words are passed only as a whole. -/
theorem afterText_append (beginning rest : List Char) :
    afterText beginning (beginning ++ rest) = some rest := by
  unfold afterText
  rw [if_pos (List.isPrefixOf_iff_prefix.2 (List.prefix_append _ _)), List.drop_left]

/-- Characters of one class in front of a text that begins with none of them are passed. -/
theorem dropWhile_append_stop {p : Char → Bool} {passed rest : List Char}
    (hpassed : ∀ c ∈ passed, p c = true) (hrest : ∀ c ∈ rest.head?, p c = false) :
    (passed ++ rest).dropWhile p = rest := by
  rw [List.dropWhile_append_of_pos hpassed]
  cases rest with
  | nil => rfl
  | cons c rest => rw [List.dropWhile_cons_of_neg (by rw [hrest c rfl]; exact Bool.false_ne_true)]

theorem isAddressChar_of_isBlank {c : Char} (h : isBlank c = true) : isAddressChar c = false := by
  unfold isAddressChar
  rw [h]
  rfl

/-- What is dropped of a text is a comment that names a source map, and what is in front of it. -/
theorem exists_of_isSourceMapTail {text : List Char} (h : isSourceMapTail text = true) :
    ∃ lineEnd ∈ [[], ['\n'], ['\r', '\n']], ∃ blanks comment,
      text = lineEnd ++ (blanks ++ comment) ∧ (∀ c ∈ blanks, isLineBlank c = true) ∧
      SourceMapComment comment := by
  obtain ⟨lineEnd, hend, htext⟩ := exists_lineEnd text
  refine ⟨lineEnd, hend, (dropLineEnd text).takeWhile isLineBlank,
    (dropLineEnd text).dropWhile isLineBlank, ?_, fun c hc => List.mem_takeWhile_imp hc, ?_⟩
  · rw [List.takeWhile_append_dropWhile, ← htext]
  unfold isSourceMapTail at h
  split at h
  · rename_i mark rest hopened
    rw [hopened]
    rw [Bool.and_eq_true, Bool.or_eq_true, beq_iff_eq, beq_iff_eq] at h
    obtain ⟨hmark, h⟩ := h
    split at h
    · rename_i address haddress
      rw [List.isEmpty_iff, List.dropWhile_eq_nil_iff] at h
      rw [← List.takeWhile_append_dropWhile (p := isLineBlank) (l := rest),
        eq_of_afterText haddress,
        ← List.takeWhile_append_dropWhile (p := isAddressChar) (l := address)]
      exact .intro hmark (fun c hc => List.mem_takeWhile_imp hc)
        (fun c hc => List.mem_takeWhile_imp hc) h
    · cases h
  · cases h

/-- A comment that names a source map is dropped, with blanks and a line end in front of it. -/
theorem SourceMapComment.isSourceMapTail {lineEnd blanks comment : List Char}
    (h : SourceMapComment comment) (hend : lineEnd ∈ [[], ['\n'], ['\r', '\n']])
    (hblanks : ∀ c ∈ blanks, isLineBlank c = true) :
    isSourceMapTail (lineEnd ++ (blanks ++ comment)) = true := by
  obtain @⟨mark, gap, address, behind, hmark, hgap, haddress, hbehind⟩ := h
  have hstart : ∀ c ∈ (blanks ++ '/' :: '/' :: mark ::
      (gap ++ (sourceMapWords ++ (address ++ behind)))).head?, c ≠ '\r' ∧ c ≠ '\n' := by
    intro c hc
    cases blanks with
    | nil =>
      cases hc
      decide
    | cons d blanks =>
      cases hc
      have hblank := hblanks c List.mem_cons_self
      constructor <;> rintro rfl <;> revert hblank <;> decide
  have hwords : ∀ c ∈ (sourceMapWords ++ (address ++ behind)).head?, isLineBlank c = false := by
    intro c hc
    cases hc
    decide
  have hwhite : ∀ c ∈ behind.head?, isAddressChar c = false := fun c hc =>
    isAddressChar_of_isBlank (hbehind c (List.mem_of_mem_head? hc))
  unfold ModuleBundler.isSourceMapTail
  rw [dropLineEnd_append hend hstart, dropWhile_append_stop hblanks (by rintro c ⟨⟩; decide)]
  split
  · rename_i heq
    cases heq
    rw [dropWhile_append_stop hgap hwords, afterText_append]
    dsimp only
    rw [dropWhile_append_stop haddress hwhite, List.dropWhile_eq_nil_iff.2 hbehind]
    rcases hmark with rfl | rfl <;> rfl
  · rename_i hother
    exact absurd rfl (hother _ _)

/-- What is dropped of a text is a comment that names a source map, the blanks in front of it and
the line end in front of these. -/
theorem isSourceMapTail_iff {text : List Char} : isSourceMapTail text = true ↔
    ∃ lineEnd ∈ [[], ['\n'], ['\r', '\n']], ∃ blanks comment,
      text = lineEnd ++ (blanks ++ comment) ∧ (∀ c ∈ blanks, isLineBlank c = true) ∧
      SourceMapComment comment := by
  refine ⟨exists_of_isSourceMapTail, ?_⟩
  rintro ⟨lineEnd, hend, blanks, comment, rfl, hblanks, hcomment⟩
  exact hcomment.isSourceMapTail hend hblanks

/-- A text ends in a comment that names a source map, with nothing but white space behind it. -/
def EndsInComment (text : List Char) : Prop :=
  ∃ comment, comment <:+ text ∧ SourceMapComment comment

/-- A text ends in such a comment exactly if there is an end that can be dropped. -/
theorem endsInComment_iff {text : List Char} :
    EndsInComment text ↔ ∃ tail, tail <:+ text ∧ isSourceMapTail tail = true := by
  constructor
  · rintro ⟨comment, hsuffix, hcomment⟩
    exact ⟨comment, hsuffix, isSourceMapTail_iff.2
      ⟨[], List.mem_cons_self, [], comment, rfl, fun c hc => absurd hc List.not_mem_nil, hcomment⟩⟩
  · rintro ⟨tail, hsuffix, htail⟩
    obtain ⟨lineEnd, -, blanks, comment, rfl, -, hcomment⟩ := isSourceMapTail_iff.1 htail
    rw [← List.append_assoc] at hsuffix
    exact ⟨comment, (List.suffix_append _ comment).trans hsuffix, hcomment⟩

/-! ## A line feed behind a comment -/

/-- The line feed behind a comment is white space. -/
theorem sourceMapComment_feed_iff {comment : List Char} :
    SourceMapComment (comment ++ ['\n']) ↔ SourceMapComment comment := by
  constructor
  · intro h
    generalize hfeed : comment ++ ['\n'] = text at h
    obtain @⟨mark, gap, address, behind, hmark, hgap, haddress, hbehind⟩ := h
    -- there is none in the comment itself, so it is the last character of the white space
    have hnone : '\n' ∉ '/' :: '/' :: mark :: (gap ++ (sourceMapWords ++ address)) := by
      have hgap' : '\n' ∉ gap := fun hmem => absurd (hgap _ hmem) (by decide)
      have haddress' : '\n' ∉ address := fun hmem => absurd (haddress _ hmem) (by decide)
      have hmark' : '\n' ≠ mark := by rcases hmark with rfl | rfl <;> decide
      have hwords : '\n' ∉ sourceMapWords := by decide
      simp [hgap', haddress', hmark', hwords]
    have hsplit : comment ++ ['\n'] =
        ('/' :: '/' :: mark :: (gap ++ (sourceMapWords ++ address))) ++ behind := by
      rw [hfeed]
      simp only [List.cons_append, List.append_assoc]
    rcases List.eq_nil_or_concat behind with rfl | ⟨white, last, rfl⟩
    · rw [List.append_nil] at hsplit
      exact absurd (hsplit ▸ List.mem_append_right _ List.mem_cons_self) hnone
    · rw [List.concat_eq_append, ← List.append_assoc] at hsplit
      obtain ⟨rfl, -⟩ := List.append_inj' hsplit rfl
      have hwhite : ∀ c ∈ white, isBlank c = true := fun c hc =>
        hbehind c (by rw [List.concat_eq_append]; exact List.mem_append_left _ hc)
      have hcomment := SourceMapComment.intro hmark hgap haddress hwhite
      simpa only [List.cons_append, List.append_assoc] using hcomment
  · rintro @⟨mark, gap, address, behind, hmark, hgap, haddress, hbehind⟩
    have hmore : ∀ c ∈ behind ++ ['\n'], isBlank c = true := by
      intro c hc
      rcases List.mem_append.1 hc with hc | hc
      · exact hbehind c hc
      · rw [List.mem_singleton.1 hc]
        decide
    have hcomment := SourceMapComment.intro hmark hgap haddress hmore
    simpa only [List.cons_append, List.append_assoc] using hcomment

/-- A comment is not empty, so a line feed behind it leaves the end of the text what it was. -/
theorem isSourceMapTail_feed (tail : List Char) :
    isSourceMapTail (tail ++ ['\n']) = isSourceMapTail tail := by
  rw [Bool.eq_iff_iff, isSourceMapTail_iff, isSourceMapTail_iff]
  refine exists_congr fun lineEnd => and_congr_right fun _ => exists_congr fun blanks => ?_
  constructor
  · rintro ⟨text, heq, hblanks, hcomment⟩
    rcases List.eq_nil_or_concat text with rfl | ⟨comment, last, rfl⟩
    · cases hcomment
    rw [List.concat_eq_append, ← List.append_assoc, ← List.append_assoc] at heq
    obtain ⟨rfl, hlast⟩ := List.append_inj' heq rfl
    rw [List.concat_eq_append, ← hlast] at hcomment
    exact ⟨comment, List.append_assoc _ _ _, hblanks, sourceMapComment_feed_iff.1 hcomment⟩
  · rintro ⟨comment, rfl, hblanks, hcomment⟩
    exact ⟨comment ++ ['\n'], by simp only [List.append_assoc], hblanks,
      sourceMapComment_feed_iff.2 hcomment⟩

theorem endsInComment_feed_iff {text : List Char} :
    EndsInComment (text ++ ['\n']) ↔ EndsInComment text := by
  rw [endsInComment_iff, endsInComment_iff]
  constructor
  · rintro ⟨part, hsuffix, htail⟩
    rcases List.suffix_concat_iff.1 hsuffix with rfl | ⟨tail, rfl, htext⟩
    · cases htail
    · exact ⟨tail, htext, (isSourceMapTail_feed tail).symm.trans htail⟩
  · rintro ⟨tail, ⟨front, rfl⟩, htail⟩
    exact ⟨tail ++ ['\n'], ⟨front, (List.append_assoc _ _ _).symm⟩,
      (isSourceMapTail_feed tail).trans htail⟩

/-! ## One round -/

/-- What is dropped of a text: the longest end that is a comment, with what stands in front of it. -/
structure Dropped (text front tail : List Char) : Prop where
  text_eq : text = front ++ tail
  tail_true : isSourceMapTail tail = true
  longest : ∀ part, part ≠ [] → part <:+ front → isSourceMapTail (part ++ tail) = false

theorem exists_dropped {text : List Char} (h : EndsInComment text) :
    ∃ front tail, Dropped text front tail := by
  obtain ⟨tail, hsuffix, htail⟩ := endsInComment_iff.1 h
  clear h
  induction text with
  | nil =>
    rw [List.suffix_nil.1 hsuffix] at htail
    cases htail
  | cons c text ih =>
    by_cases hwhole : isSourceMapTail (c :: text) = true
    · refine ⟨[], c :: text, rfl, hwhole, fun part hne hpart => ?_⟩
      exact absurd (List.suffix_nil.1 hpart) hne
    · rcases List.suffix_cons_iff.1 hsuffix with rfl | hsuffix
      · exact absurd htail hwhole
      obtain ⟨front, tail, hdropped⟩ := ih hsuffix
      obtain ⟨rfl, htail, hlongest⟩ := hdropped
      refine ⟨c :: front, tail, rfl, htail, fun part hne hpart => ?_⟩
      rcases List.suffix_cons_iff.1 hpart with rfl | hpart
      · exact Bool.eq_false_iff.2 hwhole
      · exact hlongest part hne hpart

/-- A line feed is written for what is dropped. -/
theorem Dropped.dropSourceMapComment_eq {text front tail : List Char} (h : Dropped text front tail) :
    dropSourceMapComment text = front ++ ['\n'] := by
  obtain ⟨rfl, htail, hlongest⟩ := h
  induction front with
  | nil =>
    cases tail with
    | nil => cases htail
    | cons c tail =>
      rw [List.nil_append, dropSourceMapComment, if_pos htail]
      rfl
  | cons c front ih =>
    have hwhole : isSourceMapTail (c :: (front ++ tail)) = false :=
      hlongest (c :: front) (List.cons_ne_nil c front) (List.suffix_refl _)
    rw [List.cons_append, dropSourceMapComment, hwhole, if_neg Bool.false_ne_true,
      ih fun part hne hpart => hlongest part hne (hpart.trans (List.suffix_cons c front))]
    rfl

/-- A text that ends in no comment is kept. -/
theorem dropSourceMapComment_of_not_endsInComment {text : List Char} (h : ¬ EndsInComment text) :
    dropSourceMapComment text = text := by
  rw [endsInComment_iff] at h
  induction text with
  | nil => rfl
  | cons c text ih =>
    rw [dropSourceMapComment, if_neg fun hwhole => h ⟨_, List.suffix_refl _, hwhole⟩, ih]
    rintro ⟨tail, hsuffix, htail⟩
    exact h ⟨tail, hsuffix.trans (List.suffix_cons c text), htail⟩

/-- A round changes exactly the texts that end in a comment. -/
theorem dropSourceMapComment_eq_self_iff {text : List Char} :
    dropSourceMapComment text = text ↔ ¬ EndsInComment text := by
  refine ⟨fun h hends => ?_, dropSourceMapComment_of_not_endsInComment⟩
  obtain ⟨front, tail, hdropped⟩ := exists_dropped hends
  have hkept := h.symm.trans hdropped.dropSourceMapComment_eq
  rw [hdropped.text_eq] at hkept
  have htail := hdropped.tail_true
  rw [List.append_cancel_left hkept] at htail
  cases htail

/-! ## Several rounds -/

/-- A text ends in `n` comments that name a source map, one behind the other. -/
inductive CommentsAtEnd : List Char → Nat → Prop
  | settled {text : List Char} (h : ¬ EndsInComment text) : CommentsAtEnd text 0
  | behind {text front tail : List Char} {n : Nat} (h : Dropped text front tail)
      (hfront : CommentsAtEnd front n) : CommentsAtEnd text (n + 1)

theorem exists_commentsAtEnd (text : List Char) : ∃ n, CommentsAtEnd text n := by
  induction hlength : text.length using Nat.strongRecOn generalizing text with
  | ind length ih =>
    by_cases hends : EndsInComment text
    · obtain ⟨front, tail, hdropped⟩ := exists_dropped hends
      have hshorter : front.length < length := by
        have htail : tail ≠ [] := by
          rintro rfl
          cases hdropped.tail_true
        rw [← hlength, hdropped.text_eq, List.length_append]
        exact Nat.lt_add_of_pos_right (List.length_pos_of_ne_nil htail)
      obtain ⟨n, hn⟩ := ih front.length hshorter front rfl
      exact ⟨n + 1, .behind hdropped hn⟩
    · exact ⟨0, .settled hends⟩

namespace CommentsAtEnd

variable {text : List Char} {n : Nat}

theorem endsInComment_iff (h : CommentsAtEnd text n) : EndsInComment text ↔ n ≠ 0 := by
  cases h with
  | settled h => exact ⟨fun hends => absurd hends h, fun hzero => absurd rfl hzero⟩
  | behind h _ =>
    refine ⟨fun _ => Nat.succ_ne_zero _, fun _ => ModuleBundler.endsInComment_iff.2 ?_⟩
    exact ⟨_, ⟨_, h.text_eq.symm⟩, h.tail_true⟩

/-- The line feed that is written for a comment does not bring one back. -/
theorem feed (h : CommentsAtEnd text n) : CommentsAtEnd (text ++ ['\n']) n := by
  cases h with
  | settled h => exact .settled fun hends => h (endsInComment_feed_iff.1 hends)
  | @behind _ front tail _ h hfront =>
    have hfeed : Dropped (text ++ ['\n']) front (tail ++ ['\n']) := by
      refine ⟨?_, ?_, fun part hne hpart => ?_⟩
      · rw [h.text_eq, List.append_assoc]
      · rw [isSourceMapTail_feed, h.tail_true]
      · rw [← List.append_assoc, isSourceMapTail_feed, h.longest part hne hpart]
    exact .behind hfeed hfront

/-- A round takes the last comment away. -/
theorem drop (h : CommentsAtEnd text n) : CommentsAtEnd (dropSourceMapComment text) (n - 1) := by
  cases h with
  | settled h =>
    rw [dropSourceMapComment_of_not_endsInComment h]
    exact .settled h
  | behind h hfront =>
    rw [h.dropSourceMapComment_eq]
    exact hfront.feed

/-- Each round takes one comment away, as long as there is one. -/
theorem iterate (h : CommentsAtEnd text n) (k : Nat) :
    CommentsAtEnd (dropSourceMapComment^[k] text) (n - k) := by
  induction k generalizing text n with
  | zero => exact h
  | succ k ih =>
    rw [Function.iterate_succ_apply, Nat.add_comm, ← Nat.sub_sub]
    exact ih h.drop

/-- So the rounds that settle a text are as many as the comments it ends in. -/
theorem settled_iff (h : CommentsAtEnd text n) (k : Nat) :
    ¬ EndsInComment (dropSourceMapComment^[k] text) ↔ n ≤ k := by
  rw [(h.iterate k).endsInComment_iff, not_ne_iff, Nat.sub_eq_zero_iff_le]

end CommentsAtEnd

/-! ## The code of a module -/

/-- The code of a module has one comment less at its end than its loader form.  It ends in none, and
another round leaves it as it is, exactly if the loader form ends in one comment or in none. -/
theorem toLoaderForm_settled_iff {id : ModuleId} {source : String} {form : LoaderForm}
    (h : LoaderForm.ofSource source = .ok form) :
    ∃ transformed n, toLoaderForm id source = .ok transformed ∧
      CommentsAtEnd form.code.toList n ∧ CommentsAtEnd transformed.code.toList (n - 1) ∧
      (¬ EndsInComment transformed.code.toList ↔ n ≤ 1) ∧
      (dropSourceMapComment transformed.code.toList = transformed.code.toList ↔ n ≤ 1) := by
  obtain ⟨n, hn⟩ := exists_commentsAtEnd form.code.toList
  refine ⟨⟨form.requested, String.ofList (dropSourceMapComment form.code.toList)⟩, n, ?_, hn, ?_⟩
  · unfold toLoaderForm
    rw [h]
  · have hsettled := hn.settled_iff 1
    rw [Function.iterate_one] at hsettled
    rw [String.toList_ofList, dropSourceMapComment_eq_self_iff]
    exact ⟨hn.drop, hsettled, hsettled⟩

/-- A module that was built twice, and kept the comments of both builds. -/
def twiceMappedSource : String :=
  "let a = 1;\n//# sourceMappingURL=a.map\n//# sourceMappingURL=b.map\n"

/-- The comment of the last build is dropped, and the one in front of it is left. -/
theorem twiceMappedSource_settled : ∃ form, LoaderForm.ofSource twiceMappedSource = .ok form ∧
    ∃ transformed n, toLoaderForm (.ofPath "/mod.js") twiceMappedSource = .ok transformed ∧
      CommentsAtEnd form.code.toList n ∧ CommentsAtEnd transformed.code.toList (n - 1) ∧
      (¬ EndsInComment transformed.code.toList ↔ n ≤ 1) ∧
      (dropSourceMapComment transformed.code.toList = transformed.code.toList ↔ n ≤ 1) := by
  have hok : (LoaderForm.ofSource twiceMappedSource).isOk = true := by decide +kernel
  cases hform : LoaderForm.ofSource twiceMappedSource with
  | error d =>
    rw [hform] at hok
    cases hok
  | ok form => exact ⟨form, rfl, toLoaderForm_settled_iff hform⟩

/-- Two comments can stand at the end: what is left ends in the first of them, and another round would
drop it. -/
theorem not_settled_of_twoComments : ¬ ∀ (id : ModuleId) source transformed,
    toLoaderForm id source = .ok transformed →
      ¬ EndsInComment transformed.code.toList ∧
      dropSourceMapComment transformed.code.toList = transformed.code.toList := by
  intro h
  have hleft : (toLoaderForm (.ofPath "/mod.js") twiceMappedSource).map (·.code.toList) =
      .ok "\"use strict\";\nlet a = 1;\n//# sourceMappingURL=a.map\n".toList := by decide +kernel
  cases htransformed : toLoaderForm (.ofPath "/mod.js") twiceMappedSource with
  | error e =>
    rw [htransformed] at hleft
    cases hleft
  | ok transformed =>
    rw [htransformed] at hleft
    have hkept := (h _ _ transformed htransformed).2
    rw [show transformed.code.toList = _ from Except.ok.inj hleft] at hkept
    revert hkept
    decide +kernel

end ModuleBundler
