import ModuleBundler.Build.Failure
import ModuleBundler.Text.LineEnd
import ModuleBundler.Text.Quoted

/-!
# Bundles

A `Bundle` is one script that holds all modules of a graph and starts one of them.  It calls a
loader with a table: for every module its dependencies, as an object from specifiers to ids, and
its code as a function of `require` and `exports`.

The loader keeps the exports of each module it has started, so a circular `require` gets the
exports made so far; a module whose code throws is forgotten again.
-/

namespace ModuleBundler

open ModuleBundler.Text

/-- A script that holds all modules of a graph. -/
structure Bundle where
  entry : ModuleId
  moduleCount : Nat
  code : String
deriving DecidableEq

/-- The loader, up to the call that starts a module. -/
def loaderLines : List String :=
  ["(function (modules) \x7b",
    "  \"use strict\";",
    "  var cache = \x7b\x7d;",
    "  var hasOwn = Object.prototype.hasOwnProperty;",
    "",
    "  function require(id) \x7b",
    "    if (hasOwn.call(cache, id)) \x7b",
    "      return cache[id];",
    "    \x7d",
    "    if (!hasOwn.call(modules, id)) \x7b",
    "      throw new Error(\"Cannot find module '\" + id + \"'\");",
    "    \x7d",
    "    var module = modules[id];",
    "    var exports = \x7b\x7d;",
    "    cache[id] = exports;",
    "",
    "    function localRequire(specifier) \x7b",
    "      if (!hasOwn.call(module.dependencies, specifier)) \x7b",
    "        throw new Error(\"Cannot resolve '\" + specifier + \"' from '\" + id + \"'\");",
    "      \x7d",
    "      return require(module.dependencies[specifier]);",
    "    \x7d",
    "",
    "    try \x7b",
    "      module.code(localRequire, exports);",
    "    \x7d catch (error) \x7b",
    "      delete cache[id];",
    "      throw error;",
    "    \x7d",
    "    return exports;",
    "  \x7d",
    ""]

def dependencyObject (links : List Link) : String :=
  if links.isEmpty then "\x7b\x7d"
  else
    let fields := links.map fun l => quote l.specifier ++ ": " ++ quote l.target.text
    "\x7b " ++ ", ".intercalate fields ++ " \x7d"

def withLineEnd (text : String) : String :=
  if text.toList.getLast? = some '\n' then text else text ++ "\n"

/-- A module in the table, without what closes its object. -/
def tableEntry (m : Module) : String :=
  endLines
      ["  " ++ quote m.id.text ++ ": \x7b",
        "    dependencies: " ++ dependencyObject m.imports ++ ",",
        "    code: function (require, exports) \x7b"]
    ++ withLineEnd m.code ++ "    \x7d\n"

def table : List Module → String
  | [] => ""
  | [m] => tableEntry m ++ "  \x7d\n"
  | m :: rest => tableEntry m ++ "  \x7d,\n" ++ table rest

/-- The script of some modules that starts one of them. -/
def script (entry : ModuleId) (modules : List Module) : String :=
  endLines loaderLines ++ "  require(" ++ quote entry.text ++ ");\n" ++ "\x7d)(\x7b\n"
    ++ table modules ++ "\x7d);\n"

/-- Writes a graph as a bundle that starts the module `entry`. -/
def ModuleGraph.emit (g : ModuleGraph) (entry : ModuleId) : Except BuildFailure Bundle :=
  if !g.contains entry then .error (.resolution .bundle entry.text .unknownEntry)
  else
    match g.firstMissing with
    | some flaw => .error flaw.failure
    | none => .ok ⟨entry, g.modules.length, script entry g.modules⟩

end ModuleBundler
