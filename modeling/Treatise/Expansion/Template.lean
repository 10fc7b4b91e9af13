import Treatise.Document.Entry
import Treatise.Statement.Printer

/-!
# Templates

A template says how a signature is written: it is a text with holes. A hole is a name followed by a
question mark; it takes the argument for the parameter of that name, or the thing that a definition
speaks of. A last parameter that is variadic takes all arguments that are left.
-/

namespace Treatise.Expansion

open Document (Definition)
open Statement (ArgGroup Expr)

/-- What can go wrong when an expression is expanded. -/
inductive Error where
  | arityMismatch (signature : String) (expected found : Nat)
  | unparsable (text : String)
  deriving DecidableEq, Repr

/-- What is said about an error. -/
def Error.message : Error → String
  | arityMismatch signature expected found =>
    "Expected " ++ toString expected ++ " argument(s) for '" ++ signature ++ "' but found "
      ++ toString found
  | unparsable text => "Unable to parse expanded text '" ++ text ++ "'"

/-! ## Parameters and arguments -/

/-- A parameter of a signature. -/
structure Param where
  name : String
  isVariadic : Bool
  deriving DecidableEq, Repr

/-- The parameter that an expression declares. -/
def Param.ofExpr : Expr → Param
  | .variadic word _ => ⟨word, true⟩
  | expr => ⟨expr.boundNames.head?.getD "", false⟩

/-- The arguments of an expression that refers to a definition, in the order of their positions. -/
def arguments : Expr → List Expr
  | .command _ groups _ | .call true _ groups _ => ArgGroup.arguments groups
  | .operation _ left right _ => [left, right]
  | .prefixed _ operand _ => [operand]
  | _ => []

/-- The parameters that an id declares. -/
def params (id : Expr) : List Param :=
  (arguments id).map Param.ofExpr

/-! ## Templates -/

/-- A part of a template: text as it is, or a hole. -/
inductive Part where
  | text (text : List Char)
  | hole (name : String)
  deriving DecidableEq, Repr

/-- Text as a part, unless it is empty. -/
def Part.ofRun (run : List Char) : List Part :=
  if run.isEmpty then [] else [.text run]

/-- Cuts a text at its holes. `run` is the name that may turn out to be that of a hole, reversed. -/
def partsFrom (run : List Char) : List Char → List Part
  | [] => Part.ofRun run.reverse
  | character :: rest =>
    if character.isAlphanum then partsFrom (character :: run) rest
    else if character = '?' && !run.isEmpty then
      .hole (String.ofList run.reverse) :: partsFrom [] rest
    else Part.ofRun run.reverse ++ .text [character] :: partsFrom [] rest

/-- How a signature is written. -/
structure Template where
  signature : String
  /-- The name by which the text speaks of the thing that is defined. -/
  target : Option String
  params : List Param
  text : String
  deriving DecidableEq, Repr

namespace Template

def parts (template : Template) : List Part :=
  partsFrom [] template.text.toList

/-- The names of the holes, in the order they stand. -/
def holes (template : Template) : List String :=
  template.parts.filterMap fun part =>
    match part with
    | .hole name => some name
    | .text _ => none

/-- Whether a hole stands for the thing that is defined. -/
def usesTarget (template : Template) : Bool :=
  match template.target with
  | some target => template.holes.contains target
  | none => false

/-- Whether a hole stands for a parameter. -/
def usesParams (template : Template) : Bool :=
  template.holes.any fun name => template.params.any fun param => param.name == name

/-- Whether the last parameter is variadic. -/
def isVariadic (template : Template) : Bool :=
  (template.params.getLast?.map Param.isVariadic).getD false

/-- Whether a number of arguments fits the parameters. None fit if no hole asks for one. -/
def admits (template : Template) (count : Nat) : Bool :=
  if count = 0 then !template.usesParams
  else if template.isVariadic then template.params.length ≤ count + 1
  else count = template.params.length

/-- What the parameters stand for, the last one first. -/
def bindings (template : Template) (arguments : List String) : List (String × String) :=
  if arguments.isEmpty then []
  else
    let single := (template.params.map Param.name).zip arguments
    match template.params.getLast? with
    | some ⟨name, true⟩ =>
      (name, ", ".intercalate (arguments.drop (template.params.length - 1))) :: single.reverse
    | _ => single.reverse

/-- What a part becomes. A hole for the target without a target becomes the bare name. -/
def fillPart (template : Template) (target : Option String) (bound : List (String × String)) :
    Part → List Char
  | .text text => text
  | .hole name =>
    if template.target = some name then
      (target.getD ((bound.lookup name).getD name)).toList
    else
      match bound.lookup name with
      | some value => value.toList
      | none => name.toList ++ ['?']

/-- Fills the holes with arguments, and with a target if there is one. -/
def fill (template : Template) (target : Option String) (arguments : List String) :
    Except Error String :=
  if template.admits arguments.length then
    .ok (String.ofList (template.parts.flatMap
      (template.fillPart target (template.bindings arguments))))
  else .error (.arityMismatch template.signature template.params.length arguments.length)

/-- The template of an abbreviation. -/
def abbreviation (signature : String) (params : List Param) (text : String) : Template :=
  ⟨signature, none, params, text⟩

/-- The template that a definition gives first, if its id has a signature. -/
def ofDefinition? (definition : Definition) : Option Template := do
  let text ← (← definition.written).items.head?
  let signature ← definition.id.signature?
  let id ← definition.id.expr?
  return ⟨signature, definition.targetName, Expansion.params id, text.text⟩

end Template

end Treatise.Expansion
