import ModuleBundler.Build.Failure
import ModuleBundler.Build.SourceMapComment
import ModuleBundler.Adaptation.Source
import ModuleBundler.LoaderForm.Basic

/-!
# Transforming modules

A `Transformer` brings the text of a module into loader form, and tells which specifiers it
requests.  `toLoaderForm` is the one that keeps syntax as it is, and `adaptedLoaderForm` adapts
syntax to a target first.
-/

namespace ModuleBundler

/-- A module in loader form. -/
structure Transformed where
  /-- The specifiers of the requests in the order of the text, repetitions included. -/
  requested : List String
  code : String
deriving DecidableEq

/-- Brings the text of the module with an id into loader form. -/
abbrev Transformer := ModuleId → String → Except BuildFailure Transformed

/-- Brings a module into loader form and drops the comment that names its source map. -/
def toLoaderForm : Transformer := fun id source =>
  match LoaderForm.ofSource source with
  | .ok form => .ok ⟨form.requested, String.ofList (dropSourceMapComment form.code.toList)⟩
  | .error d => .error (.parse id d)

/-- Adapts a module to a target, brings the result into loader form and drops the comment that names
its source map.  A module that cannot be read fails with its place in the text before adapting. -/
def adaptedLoaderForm (target : Target) : Transformer := fun id source =>
  match Adaptation.adaptSource target source with
  | .ok code => toLoaderForm id code
  | .error d => .error (.parse id d)

/-- The transformer for a target, or for none. -/
def transformerFor : Option Target → Transformer
  | some target => adaptedLoaderForm target
  | none => toLoaderForm

end ModuleBundler
