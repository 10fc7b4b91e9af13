import Treatise.Expansion.Template
import Treatise.Table

/-!
# Rendering as written

An expression is rendered like its written form, except that what refers to a definition with a
template is written by the template. A statement that a thing is something is written by the
template as a whole if the template speaks of the thing. Arguments that are put together of several
parts get parentheses.
-/

namespace Treatise.Expansion

open Statement (ArgGroup Expr Operator Slot commaSeparated commandSignature)

/-- A text in parentheses if the expression it renders is put together. -/
def enclosed (expr : Expr) (text : String) : String :=
  if expr.isCompound then "(" ++ text ++ ")" else text

/-- The template for a thing that is something, if there is one and it speaks of the thing. -/
def targetTemplate? (templates : Table Template) (something : Expr) : Option Template := do
  let template ← templates.find? (← something.signature?)
  if template.usesTarget then some template else none

mutual

def render (templates : Table Template) : Expr → Except Error String
  | .name word _ =>
    match templates.find? word with
    | some template => template.fill none []
    | none => .ok word
  | .variadic word _ => .ok (word ++ "...")
  | .command names groups _ =>
    match templates.find? (commandSignature names groups) with
    | some template => do template.fill none (← renderArguments templates groups)
    | none => do return "\\" ++ ".".intercalate names ++ (← renderGroups templates groups)
  | .function word params _ => do
    return word ++ "(" ++ commaSeparated (← renderAll templates params) ++ ")"
  | .call true word groups _ =>
    match templates.find? ("\\" ++ word) with
    | some template => do template.fill none (← renderArguments templates groups)
    | none => do return "\\" ++ word ++ (← renderGroups templates groups)
  | .call false word groups _ => do return word ++ (← renderGroups templates groups)
  | .tuple items _ => do return "(" ++ commaSeparated (← renderAll templates items) ++ ")"
  | .set items _ => do return "\x7b" ++ commaSeparated (← renderAll templates items) ++ "\x7d"
  | .grouped inner _ => do return "(" ++ (← render templates inner) ++ ")"
  | .operation operator left right _ => do
    match templates.find? operator.signature with
    | some template =>
      let first ← render templates left
      let second ← render templates right
      template.fill none [enclosed left first, enclosed right second]
    | none =>
      let first ← render templates left
      let symbol ← renderOperator templates operator
      let second ← render templates right
      return first ++ " " ++ symbol ++ " " ++ second
  | .prefixed operator operand _ => do
    match templates.find? operator.signature with
    | some template => template.fill none [enclosed operand (← render templates operand)]
    | none =>
      let symbol ← renderOperator templates operator
      return symbol ++ (← render templates operand)
  | .relation .isA [thing] [something] _ => do
    match targetTemplate? templates something with
    | some template =>
      let target ← render templates thing
      template.fill (some target) (← argumentTexts templates something)
    | none =>
      let first ← render templates thing
      return first ++ " is " ++ (← render templates something)
  | .relation kind left right _ => do
    let first ← renderAll templates left
    let second ← renderAll templates right
    return commaSeparated first ++ " " ++ kind.text ++ " " ++ commaSeparated second
  | .assignment left right _ => do return left.code ++ " := " ++ (← render templates right)
  | .text text _ => .ok ("\"" ++ text ++ "\"")
  | .empty _ => .ok ""

/-- Renders the arguments of an expression that refers to a definition. -/
def argumentTexts (templates : Table Template) : Expr → Except Error (List String)
  | .command _ groups _ | .call true _ groups _ => renderArguments templates groups
  | .operation _ left right _ => do
    let first ← render templates left
    let second ← render templates right
    return [enclosed left first, enclosed right second]
  | .prefixed _ operand _ => do return [enclosed operand (← render templates operand)]
  | _ => .ok []

/-- Renders an operator that has no template. -/
def renderOperator (templates : Table Template) : Operator → Except Error String
  | .symbol text _ => .ok text
  | .command names groups _ => do
    return "\\" ++ ".".intercalate names ++ (← renderGroups templates groups) ++ "/"

/-- Renders the arguments in bracket groups. -/
def renderArguments (templates : Table Template) : List ArgGroup → Except Error (List String)
  | [] => .ok []
  | .mk _ items :: rest => do
    let first ← renderEnclosed templates items
    return first ++ (← renderArguments templates rest)

def renderGroups (templates : Table Template) : List ArgGroup → Except Error String
  | [] => .ok ""
  | .mk slot items :: rest => do
    let first ← renderAll templates items
    return slot.enclose (commaSeparated first) ++ (← renderGroups templates rest)

/-- Renders the expressions of a list as arguments. -/
def renderEnclosed (templates : Table Template) : List Expr → Except Error (List String)
  | [] => .ok []
  | item :: rest => do
    let first ← render templates item
    return enclosed item first :: (← renderEnclosed templates rest)

/-- Renders the expressions of a list. -/
def renderAll (templates : Table Template) : List Expr → Except Error (List String)
  | [] => .ok []
  | item :: rest => do
    let first ← render templates item
    return first :: (← renderAll templates rest)

end

/-- A relation that does not say of one thing what it is is rendered side by side. -/
theorem render_relation {templates : Table Template} {kind : Statement.RelationKind}
    {left right : List Expr} {location : Location}
    (several : ¬ (kind = .isA ∧ left.length = 1 ∧ right.length = 1)) :
    render templates (.relation kind left right location) = do
      let first ← renderAll templates left
      let second ← renderAll templates right
      return commaSeparated first ++ " " ++ kind.text ++ " " ++ commaSeparated second := by
  rw [render]
  rintro thing something rfl rfl rfl
  exact several ⟨rfl, rfl, rfl⟩

end Treatise.Expansion
