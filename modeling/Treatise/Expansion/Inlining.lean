import Treatise.Expansion.Template
import Treatise.Statement.Substitution
import Treatise.Table

/-!
# Inlining

A statement that a thing is something can be replaced by what the definition of that something says,
if it says it in one formula. The thing takes the place of the name by which the definition speaks
of it, and the arguments take the places of the parameters.
-/

namespace Treatise.Expansion

open Document (Definition)
open Statement (Expr Replacement)

/-- What a definition says about its thing, in one formula. -/
structure Body where
  /-- The name by which the formula speaks of the thing. -/
  target : Option String
  params : List String
  expr : Expr
  deriving Repr

/-- What a definition says, if it says it in one formula and its id can be read. -/
def Body.ofDefinition? (definition : Definition) : Option Body := do
  match (← definition.body).items with
  | [.formula formula] =>
    let id ← definition.id.expr?
    let expr ← formula.expr?
    return ⟨definition.targetName, (Expansion.params id).map Param.name, expr⟩
  | _ => none

/-- An expression as it stands inside another one: in parentheses if it is put together. -/
def spliced (expr : Expr) : Expr :=
  if expr.isCompound then .grouped expr expr.location else expr

/-- What the names in a body are replaced by. The target comes first, and later parameters win. -/
def Body.replacement (body : Body) (thing : Expr) (arguments : List Expr) : Replacement :=
  body.target.toList.map (·, spliced thing)
    ++ (body.params.zip (arguments.map spliced)).reverse

/-- Inlines a statement of the form `thing is something` once. -/
def inline? (bodies : Table Body) : Expr → Option Expr
  | .relation .isA [thing] [something] _ => do
    let body ← bodies.find? (← something.signature?)
    let given := arguments something
    if given.length = body.params.length then
      some (body.expr.substitute (body.replacement thing given))
    else none
  | _ => none

end Treatise.Expansion
