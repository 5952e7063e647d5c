import ModuleBundler.Target.Basic

/-!
# Features of the language

The features that older readers can do without, with the edition and the versions of engines
that brought them.  A target lacks a feature when its edition or one of its engines is older.
-/

namespace ModuleBundler.Target

/-- A feature of the language that other features can stand for. -/
inductive Feature where
  /-- The operator `**`. -/
  | power
  /-- A catch clause without a parameter. -/
  | catchWithoutParameter
  /-- The operator `??`. -/
  | coalesce
  /-- Accesses that end a chain at `null` and `undefined`. -/
  | optionalChain
  /-- The operators `||=`, `&&=` and `??=`. -/
  | logicalAssignment
deriving DecidableEq

def Feature.year : Feature → Nat
  | .power => 2016
  | .catchWithoutParameter => 2019
  | .coalesce => 2020
  | .optionalChain => 2020
  | .logicalAssignment => 2021

def Feature.engines : Feature → List EngineVersion
  | .power =>
    [⟨.chrome, 52, 0, 0⟩, ⟨.opera, 39, 0, 0⟩, ⟨.edge, 14, 0, 0⟩, ⟨.firefox, 52, 0, 0⟩,
      ⟨.safari, 10, 1, 0⟩, ⟨.node, 7, 0, 0⟩, ⟨.deno, 1, 0, 0⟩, ⟨.ios, 10, 3, 0⟩,
      ⟨.samsung, 6, 0, 0⟩, ⟨.rhino, 1, 7, 14⟩, ⟨.electron, 1, 3, 0⟩]
  | .catchWithoutParameter =>
    [⟨.chrome, 66, 0, 0⟩, ⟨.opera, 53, 0, 0⟩, ⟨.edge, 79, 0, 0⟩, ⟨.firefox, 58, 0, 0⟩,
      ⟨.safari, 11, 1, 0⟩, ⟨.node, 10, 0, 0⟩, ⟨.deno, 1, 0, 0⟩, ⟨.ios, 11, 3, 0⟩,
      ⟨.samsung, 9, 0, 0⟩, ⟨.electron, 3, 0, 0⟩]
  | .coalesce =>
    [⟨.chrome, 80, 0, 0⟩, ⟨.opera, 67, 0, 0⟩, ⟨.edge, 80, 0, 0⟩, ⟨.firefox, 72, 0, 0⟩,
      ⟨.safari, 13, 1, 0⟩, ⟨.node, 14, 0, 0⟩, ⟨.deno, 1, 0, 0⟩, ⟨.ios, 13, 4, 0⟩,
      ⟨.samsung, 13, 0, 0⟩, ⟨.rhino, 1, 8, 0⟩, ⟨.electron, 8, 0, 0⟩]
  | .optionalChain =>
    [⟨.chrome, 91, 0, 0⟩, ⟨.opera, 77, 0, 0⟩, ⟨.edge, 91, 0, 0⟩, ⟨.firefox, 74, 0, 0⟩,
      ⟨.safari, 13, 1, 0⟩, ⟨.node, 16, 9, 0⟩, ⟨.deno, 1, 9, 0⟩, ⟨.ios, 13, 4, 0⟩,
      ⟨.samsung, 16, 0, 0⟩, ⟨.electron, 13, 0, 0⟩]
  | .logicalAssignment =>
    [⟨.chrome, 85, 0, 0⟩, ⟨.opera, 71, 0, 0⟩, ⟨.edge, 85, 0, 0⟩, ⟨.firefox, 79, 0, 0⟩,
      ⟨.safari, 14, 0, 0⟩, ⟨.node, 15, 0, 0⟩, ⟨.deno, 1, 2, 0⟩, ⟨.ios, 14, 0, 0⟩,
      ⟨.samsung, 14, 0, 0⟩, ⟨.electron, 10, 0, 0⟩]

/-- Whether an edition came before a feature. -/
def Edition.lacks (e : Edition) (f : Feature) : Bool :=
  match e with
  | .fifth => true
  | .year n => n < f.year
  | .next => false

/-- Whether some reader of a target does not know a feature. -/
def lacks (t : Target) (f : Feature) : Bool :=
  t.edition.any (·.lacks f)
    || t.engines.any fun e =>
      f.engines.any fun since => since.engine == e.engine && e.version.before since.version

end ModuleBundler.Target
