import ModuleBundler.Syntax.Span

/-!
# Edits of a text

An `Edit` replaces the characters of a span by another text.  `applyEdits` makes a list of edits
at once: it takes them by the places they start at, the shorter of two that start together first,
and passes over an edit that starts inside text that an earlier one has replaced.  Every character
outside of the replaced spans is copied.
-/

namespace ModuleBundler.LoaderForm

open ModuleBundler.Syntax

/-- A span to replace, and what to write in its place. -/
structure Edit where
  span : Span
  text : List Char
deriving DecidableEq

def Edit.remove (span : Span) : Edit := ⟨span, []⟩

/-- An edit that only adds text, at offset `at_`. -/
def Edit.insert (at_ : Nat) (text : String) : Edit := ⟨⟨at_, at_⟩, text.toList⟩

def Edit.le (a b : Edit) : Bool :=
  a.span.start < b.span.start || (a.span.start == b.span.start && a.span.stop ≤ b.span.stop)

/-- A text from offset `cursor` on, with edits made in the order given. -/
def applyInOrder (cursor : Nat) (text : List Char) : List Edit → List Char
  | [] => text.drop cursor
  | e :: es =>
    if e.span.start < cursor then applyInOrder cursor text es
    else
      (text.drop cursor).take (e.span.start - cursor) ++ e.text
        ++ applyInOrder e.span.stop text es

/-- A text with edits made. -/
def applyEdits (text : List Char) (edits : List Edit) : List Char :=
  applyInOrder 0 text (edits.mergeSort Edit.le)

end ModuleBundler.LoaderForm
