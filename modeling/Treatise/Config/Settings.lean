import Treatise.Config.Layers

/-!
# Settings

The settings are read from the values of a configuration, table by table. A list can stand for a
table: its items are then the settings of the table in their order.
-/

namespace Treatise

/-- What can be set. -/
structure Settings where
  maxIterations : Nat
  expands : Bool
  html : Bool
  literal : Bool
  htmlClassPrefix : String
  skipOperatorSignatures : Bool
  maxResults : Nat
  logLevel : String
  deriving DecidableEq, Repr

namespace Config

/-! ## Tables of settings -/

/-- A table of settings: its name, what it is called in errors, and its settings in their order. -/
structure Group where
  name : String
  title : String
  members : List String
  deriving Repr

def expansion : Group := ⟨"expansion", "struct ExpansionConfig", ["max_iterations", "enabled"]⟩

def render : Group := ⟨"render", "struct RenderConfig", ["html", "literal", "html_class_prefix"]⟩

def check : Group := ⟨"check", "struct CheckConfig", ["skip_operator_signatures"]⟩

def completion : Group := ⟨"completion", "struct CompletionConfig", ["max_results"]⟩

def logging : Group := ⟨"logging", "struct LoggingConfig", ["level"]⟩

/-- What a list of the settings has to be. -/
def Group.listTitle (group : Group) : String :=
  let count := group.members.length
  group.title ++ " with " ++ toString count ++ (if count = 1 then " element" else " elements")

/-- The values inside a key, under the steps that lead on from it. -/
def inside (values : Values) (step : Step) : Values :=
  values.filterMap fun entry =>
    match entry with
    | (first :: rest, value) => if first = step then some (rest, value) else none
    | ([], _) => none

/-- The steps that the values begin with. -/
def steps (values : Values) : List Step :=
  values.filterMap fun entry => entry.1.head?

/-- What a type of settings is called, and how a value is read as one. -/
structure Reader (α : Type) where
  expected : String
  read : Scalar → Option α

/-- Reads what stands at a key: a single value, a table, a list, or nothing. -/
def Reader.readAt {α : Type} (reader : Reader α) (key : String) (values : Values) :
    Except Error α :=
  let wrong (found : String) : Except Error α := .error (.wrongType key found reader.expected)
  match values with
  | [] => wrong "unit value"
  | ([], value) :: _ =>
    match reader.read value with
    | some result => .ok result
    | none => wrong value.describe
  | (.name _ :: _, _) :: _ => wrong "map"
  | (.item _ :: _, _) :: _ => wrong "sequence"

/-- Reads a setting of a table by its position there. -/
def Group.read {α : Type} (group : Group) (values : Values) (position : Nat) (reader : Reader α) :
    Except Error α :=
  let values := inside values (.name group.name)
  let member := group.members.getD position ""
  let key := group.name ++ "." ++ member
  match values.find? (·.1.isEmpty) with
  | some (_, value) => .error (.noTable value.describe group.title)
  | none =>
    match (steps values).filterMap Step.index? with
    | [] =>
      let found := inside values (.name member)
      if found.isEmpty then .error (.missing member) else reader.readAt key found
    | indices =>
      if indices.all (· < position) then .error (.tooShort position group.listTitle)
      else reader.readAt key (inside values (.item position))

/-! ## All settings -/

def flag : Reader Bool := ⟨"a boolean", Scalar.toBool?⟩

def count : Reader Nat := ⟨"an integer", Scalar.toNat?⟩

def word : Reader String := ⟨"a string", fun value => some value.toText⟩

def Layers.settings (layers : Layers) : Except Error Settings := do
  let values ← layers.values
  return {
    maxIterations := ← expansion.read values 0 count
    expands := ← expansion.read values 1 flag
    html := ← render.read values 0 flag
    literal := ← render.read values 1 flag
    htmlClassPrefix := ← render.read values 2 word
    skipOperatorSignatures := ← check.read values 0 flag
    maxResults := ← completion.read values 0 count
    logLevel := ← logging.read values 0 word }

end Config

end Treatise
