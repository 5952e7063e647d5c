import ModuleBundler.Text.CharClass

/-!
# White space around a text

`trimBlank` takes the white space at both ends of a text away.
-/

namespace ModuleBundler.Text

/-- A text without the white space at its ends. -/
def trimBlank (text : String) : String :=
  String.ofList (((text.toList.dropWhile isBlank).reverse.dropWhile isBlank).reverse)

end ModuleBundler.Text
