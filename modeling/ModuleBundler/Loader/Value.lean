/-!
# Values

The values that modules export: the values of JSON.  A number is written in decimals, as a whole
number and how many of its digits stand behind the point.
-/

namespace ModuleBundler.Loader

/-- A value that a module can export. -/
inductive Value where
  | null
  | boolean (value : Bool)
  | number (digits : Int) (places : Nat)
  | string (text : String)
  | array (items : List Value)
  | object (fields : List (String × Value))

instance : Inhabited Value := ⟨.null⟩

end ModuleBundler.Loader
