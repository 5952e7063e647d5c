import ModuleBundler.Build.Bundle
import ModuleBundler.Proofs.Module.Id
import ModuleBundler.Proofs.Syntax.Reading

/-!
# A bundle tells what it was written from

The code of modules stands in a bundle as it is, and everything else is quoted.  So from left to
right each piece of a bundle ends where it can be seen to end: two pieces of one kind, each with a
text behind it, are the same characters only if they are the same piece with the same text behind
it.

* `linkText_append_inj`, `closedLinks_append_inj`, `dependencyObject_append_inj` — this holds of a
  link, of the links of a module up to the brace behind them, and of the object that they make;
* `tableEntry_append_inj`, `table_append_inj` — it holds of modules whose code is known, one by one
  and in a table;
* **`ModuleGraph.emit_code_eq_iff`** — so two bundles of the same code are the same text only if
  they start the same module, and each module has the same id and the same links in both.
-/

namespace ModuleBundler

open ModuleBundler.Text ModuleBundler.Syntax

variable {rest rest' : List Char}

theorem ModuleId.quote_append_inj {a b : ModuleId}
    (h : (quote a.text).toList ++ rest = (quote b.text).toList ++ rest') : a = b ∧ rest = rest' :=
  (Syntax.quote_append_inj h).imp_left fun htext => ModuleId.text_injective htext

/-! ## Links -/

/-- A link as a field of an object. -/
def linkText (l : Link) : String := quote l.specifier ++ ": " ++ quote l.target.text

theorem linkText_append_inj {l k : Link}
    (h : (linkText l).toList ++ rest = (linkText k).toList ++ rest') : l = k ∧ rest = rest' := by
  simp only [linkText, String.toList_append, List.append_assoc] at h
  obtain ⟨hspecifier, hbehind⟩ := Syntax.quote_append_inj h
  obtain ⟨htarget, hrest⟩ := ModuleId.quote_append_inj (List.append_cancel_left hbehind)
  cases l
  cases k
  simp_all

/-- Links up to the brace behind them. -/
def closedLinks (links : List Link) : List Char :=
  (", ".intercalate (links.map linkText) ++ " \x7d").toList

/-- A comma or a space is behind a link. -/
theorem closedLinks_cons (l : Link) (links : List Link) :
    closedLinks (l :: links) = (linkText l).toList ++
      if links = [] then [' ', '\x7d'] else ',' :: ' ' :: closedLinks links := by
  cases links with
  | nil => simp [closedLinks]
  | cons k rest => simp [closedLinks]

theorem closedLinks_append_inj {links others : List Link} (hlinks : links ≠ [])
    (hothers : others ≠ []) (h : closedLinks links ++ rest = closedLinks others ++ rest') :
    links = others ∧ rest = rest' := by
  induction links generalizing others with
  | nil => exact absurd rfl hlinks
  | cons l links ih =>
    cases others with
    | nil => exact absurd rfl hothers
    | cons k others =>
      simp only [closedLinks_cons, List.append_assoc] at h
      obtain ⟨hlink, hbehind⟩ := linkText_append_inj h
      -- what is behind the first link tells whether there is another one
      by_cases hl : links = [] <;> by_cases ho : others = []
      · simp_all
      · simp [hl, ho] at hbehind
      · simp [hl, ho] at hbehind
      · simp only [hl, ho, if_false, List.cons_append, List.cons.injEq, true_and] at hbehind
        obtain ⟨hlater, hrest⟩ := ih hl ho hbehind
        exact ⟨by rw [hlink, hlater], hrest⟩

theorem toList_dependencyObject (links : List Link) :
    (dependencyObject links).toList =
      if links = [] then ['\x7b', '\x7d'] else '\x7b' :: ' ' :: closedLinks links := by
  cases links with
  | nil => rfl
  | cons l links =>
    show ("\x7b " ++ ", ".intercalate ((l :: links).map linkText) ++ " \x7d").toList = _
    simp [closedLinks, -String.toList_intercalate]

theorem dependencyObject_append_inj {links others : List Link}
    (h : (dependencyObject links).toList ++ rest = (dependencyObject others).toList ++ rest') :
    links = others ∧ rest = rest' := by
  rw [toList_dependencyObject, toList_dependencyObject] at h
  by_cases hl : links = [] <;> by_cases ho : others = []
  · simp_all
  · simp [hl, ho] at h
  · simp [hl, ho] at h
  · simp only [hl, ho, if_false, List.cons_append, List.cons.injEq, true_and] at h
    exact closedLinks_append_inj hl ho h

/-! ## Modules -/

/-- The code of a module has no end that can be seen, but its length is known. -/
theorem tableEntry_append_inj {m k : Module} (hcode : m.code = k.code)
    (h : (tableEntry m).toList ++ rest = (tableEntry k).toList ++ rest') :
    m = k ∧ rest = rest' := by
  simp only [tableEntry, endLines, hcode, List.map_cons, List.map_nil, String.join_cons,
    String.toList_append, List.append_assoc, List.append_cancel_left_eq] at h
  obtain ⟨hid, hlinks⟩ := ModuleId.quote_append_inj h
  simp only [List.append_cancel_left_eq] at hlinks
  obtain ⟨himports, hrest⟩ := dependencyObject_append_inj hlinks
  simp only [List.append_cancel_left_eq] at hrest
  cases m
  cases k
  simp_all

theorem toList_table_cons (m : Module) (modules : List Module) :
    (table (m :: modules)).toList = (tableEntry m).toList ++
      if modules = [] then "  \x7d\n".toList else "  \x7d,\n".toList ++ (table modules).toList := by
  cases modules with
  | nil => simp [table]
  | cons k rest => simp [table]

theorem table_append_inj {modules others : List Module}
    (hcodes : modules.map (·.code) = others.map (·.code))
    (h : (table modules).toList ++ rest = (table others).toList ++ rest') :
    modules = others ∧ rest = rest' := by
  induction modules generalizing others with
  | nil =>
    obtain rfl : others = [] := by simpa using hcodes.symm
    exact ⟨rfl, List.append_cancel_left h⟩
  | cons m modules ih =>
    obtain ⟨k, others, rfl⟩ : ∃ k others', others = k :: others' :=
      List.exists_cons_of_ne_nil (by rintro rfl; simp at hcodes)
    simp only [List.map_cons, List.cons.injEq] at hcodes
    simp only [toList_table_cons, List.append_assoc] at h
    obtain ⟨hsame, hbehind⟩ := tableEntry_append_inj hcodes.1 h
    -- there are as many modules in both tables, so both or none of the two are the last
    have hnil : modules = [] ↔ others = [] := by
      rw [← List.map_eq_nil_iff, hcodes.2, List.map_eq_nil_iff]
    by_cases ho : others = []
    · simp_all
    · simp only [hnil, ho, if_false, List.append_assoc, List.append_cancel_left_eq] at hbehind
      obtain ⟨hlater, hrest⟩ := ih hcodes.2 hbehind
      exact ⟨by rw [hsame, hlater], hrest⟩

/-! ## Bundles -/

theorem script_injective {entry other : ModuleId} {modules others : List Module}
    (hcodes : modules.map (·.code) = others.map (·.code))
    (h : script entry modules = script other others) : entry = other ∧ modules = others := by
  have hchars := congrArg String.toList h
  simp only [script, String.toList_append, List.append_assoc, List.append_cancel_left_eq] at hchars
  obtain ⟨hentry, hbehind⟩ := ModuleId.quote_append_inj hchars
  simp only [List.append_cancel_left_eq] at hbehind
  exact ⟨hentry, (table_append_inj hcodes hbehind).1⟩

namespace ModuleGraph

/-- A bundle can be written from each module of a graph in which no module is missing. -/
theorem emit_of_contains {g : ModuleGraph} {entry : ModuleId} (hentry : g.contains entry = true)
    (hmissing : g.firstMissing = none) :
    g.emit entry = .ok ⟨entry, g.modules.length, script entry g.modules⟩ := by
  simp [emit, hentry, hmissing]

theorem code_of_emit {g : ModuleGraph} {entry : ModuleId} {b : Bundle}
    (h : g.emit entry = .ok b) : b.code = script entry g.modules := by
  unfold emit at h
  split at h
  · cases h
  · split at h <;> cases h
    rfl

/-- Two bundles of modules with the same code are the same text exactly if they start the same
module, and have the same modules with the same ids and the same links, in the same order. -/
theorem emit_code_eq_iff (g h : ModuleGraph) (entry other : ModuleId) (b c : Bundle)
    (hb : g.emit entry = .ok b) (hc : h.emit other = .ok c)
    (hcodes : g.modules.map (·.code) = h.modules.map (·.code)) :
    b.code = c.code ↔ entry = other ∧ g.modules = h.modules := by
  rw [code_of_emit hb, code_of_emit hc]
  constructor
  · exact script_injective hcodes
  · rintro ⟨rfl, hmodules⟩
    rw [hmodules]

/-- A module with one link, whose specifier would be two if it stood unquoted in a bundle. -/
def oneLink : ModuleGraph where
  entry := .ofPath "/\u2028\x7b"
  modules := [⟨.ofPath "/\u2028\x7b",
    [⟨"./a\": \"/\u2028\x7b\", \"./b", .ofPath "/\u2028\x7b"⟩], "\"use strict\";"⟩]

/-- The module with these two links. -/
def twoLinks : ModuleGraph where
  entry := .ofPath "/\u2028\x7b"
  modules := [⟨.ofPath "/\u2028\x7b",
    [⟨"./a", .ofPath "/\u2028\x7b"⟩, ⟨"./b", .ofPath "/\u2028\x7b"⟩], "\"use strict\";"⟩]

theorem oneLink_code_ne : ∃ b c, oneLink.emit oneLink.entry = .ok b ∧
    twoLinks.emit twoLinks.entry = .ok c ∧
    oneLink.modules.map (·.code) = twoLinks.modules.map (·.code) ∧ b.code ≠ c.code := by
  have hone : oneLink.emit oneLink.entry = .ok _ :=
    emit_of_contains (by decide +kernel) (by decide +kernel)
  have htwo : twoLinks.emit twoLinks.entry = .ok _ :=
    emit_of_contains (by decide +kernel) (by decide +kernel)
  refine ⟨_, _, hone, htwo, rfl, fun hcode => ?_⟩
  have hsame := (emit_code_eq_iff _ _ _ _ _ _ hone htwo rfl).1 hcode
  exact absurd (congrArg (·.map (·.imports.length)) hsame.2) (by decide)

/-- The code itself can hide where it ends. -/
example : tableEntry ⟨.root, [], "x"⟩ = tableEntry ⟨.root, [], "x\n"⟩ := by
  decide +kernel

end ModuleGraph

end ModuleBundler
