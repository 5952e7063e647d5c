import ModuleBundler.Adaptation.Program
import ModuleBundler.Syntax.Diagnostic
import ModuleBundler.Syntax.Grammar.Program
import ModuleBundler.Written.Program

/-!
# Modules as text for a target

`adaptSource` reads a module, adapts it to a target and prints it.  Module syntax stays as it is,
and early errors are not looked for: both are left to the step that makes the loader form.

The only failure is a fault of the grammar.  No feature is refused because nothing can stand for it, as
for a literal of a large integer with the target `es2015`: the modules meant are those in which nothing
but the five features of `Target.Feature` is to be replaced.
-/

namespace ModuleBundler.Adaptation

open ModuleBundler.Syntax ModuleBundler.Target

/-- The text of a module without the features that a target lacks. -/
def adaptSource (target : Target) (source : String) : Except Diagnostic String :=
  let text := source.toList
  match parse text with
  | .ok program => .ok ((adaptProgram target program).written text)
  | .error f => .error (f.locate text)

end ModuleBundler.Adaptation
