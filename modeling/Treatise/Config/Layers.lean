import Treatise.Config.Key
import Treatise.Config.Toml.Content
import Treatise.Text.Blank

/-!
# Layers of values

The values of a configuration are put together in layers. The built-in values come first, then the
values of configuration files in their order, and then single values that are given in their order.
A later value takes the place of an earlier one, and of all values that cannot be there beside it.
-/

namespace Treatise.Config

/-- What can be wrong with a configuration. -/
inductive Error where
  | noAssignment (text : String)
  | invalidKey (key : String)
  | notFound (path : String)
  | notToml
  /-- The value of a setting has a wrong type. -/
  | wrongType (key : String) (found expected : String)
  /-- A single value stands where a table of settings should be. -/
  | noTable (found expected : String)
  /-- A list of settings ends too early. -/
  | tooShort (length : Nat) (expected : String)
  | missing (name : String)
  deriving DecidableEq, Repr

/-- What is said about an error. -/
def Error.message : Error → String
  | noAssignment text => "expected key=value but found '" ++ text ++ "'"
  | invalidKey key => "cannot read the key '" ++ key ++ "'"
  | notFound path => "configuration file \"" ++ path ++ "\" not found"
  | notToml => "cannot read the configuration file"
  | wrongType key found expected =>
    "invalid type: " ++ found ++ ", expected " ++ expected ++ " for key `" ++ key ++ "`"
  | noTable found expected => "invalid type: " ++ found ++ ", expected " ++ expected
  | tooShort length expected => "invalid length " ++ toString length ++ ", expected " ++ expected
  | missing name => "missing field `" ++ name ++ "`"

/-- Values under keys; no key excludes another one. -/
abbrev Values := List (KeyPath × Scalar)

/-- Gives a value to a key. The values of keys that it excludes are forgotten. -/
def assign (values : Values) (entry : KeyPath × Scalar) : Values :=
  values.filter (fun other => !entry.1.excludes other.1) ++ [entry]

def builtIn : Values :=
  [([.name "expansion", .name "max_iterations"], .int 10),
    ([.name "expansion", .name "enabled"], .bool true),
    ([.name "render", .name "html"], .bool false),
    ([.name "render", .name "literal"], .bool false),
    ([.name "render", .name "html_class_prefix"], .text "mathlingua"),
    ([.name "check", .name "skip_operator_signatures"], .bool true),
    ([.name "completion", .name "max_results"], .int 50),
    ([.name "logging", .name "level"], .text "warn")]

/-- The key of a path in a file. The first name of the path can be a key with several steps. -/
def keyOfPath : Toml.Path → KeyPath
  | [] => []
  | name :: rest => (KeyPath.ofText? name).getD [.ofName name] ++ rest.map .ofName

/-- A configuration file: its content, or the path of a file that is not there. -/
inductive Source where
  | content (text : String)
  | absent (path : String)
  deriving DecidableEq, Repr

/-- The values of a configuration file. -/
def Source.values : Source → Except Error Values
  | content text =>
    match Toml.entries? text with
    | some entries => .ok (entries.map fun (path, value) => (keyOfPath path, value))
    | none => .error .notToml
  | absent path => .error (.notFound path)

def readKey (text : String) : Except Error KeyPath :=
  match KeyPath.ofText? text with
  | some key => .ok key
  | none => .error (.invalidKey text)

/-- Reads an assignment: a key, an equals sign and a value. -/
def readAssignment (text : String) : Except Error (KeyPath × Scalar) :=
  match text.toList.span (· != '=') with
  | (_, []) => .error (.noAssignment text)
  | (key, _ :: value) => do
    let key ← readKey (String.ofList (Text.trimmed key))
    return (key, .text (String.ofList (Text.trimmed value)))

/-- What is laid over the built-in values. -/
structure Layers where
  files : List Source
  /-- Single values. -/
  overrides : Values
  deriving Repr

namespace Layers

/-- Nothing is laid over the built-in values. -/
def empty : Layers := ⟨[], []⟩

/-- Lays a configuration file over the files before it. -/
def addFile (layers : Layers) (source : Source) : Layers :=
  { layers with files := layers.files ++ [source] }

/-- Gives a value to a key. -/
def addOverride (layers : Layers) (key : String) (value : Scalar) : Except Error Layers := do
  return { layers with overrides := layers.overrides ++ [(← readKey key, value)] }

def addAssignment (layers : Layers) (text : String) : Except Error Layers := do
  return { layers with overrides := layers.overrides ++ [← readAssignment text] }

def values (layers : Layers) : Except Error Values := do
  let files ← layers.files.mapM Source.values
  return (files.flatten ++ layers.overrides).foldl assign builtIn

end Layers

end Treatise.Config
