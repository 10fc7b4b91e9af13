import Treatise.Statement.Expr

/-!
# Precedence of operators

Operators that bind more strongly have a higher precedence. All operators of one precedence are
read from the left.
-/

namespace Treatise.Statement

/-- How strongly an operator with this signature binds. Unlisted operators stand in the middle. -/
def precedence (signature : String) : Nat :=
  if ["->", "=>", "<=>"].contains signature then 10
  else if signature = "||" then 20
  else if signature = "&&" then 25
  else if ["<", ">", "<=", ">=", "=="].contains signature then 30
  else if ["+", "-"].contains signature then 50
  else if ["*", "/", "%"].contains signature then 60
  else 40

/-- How strongly an operator binds. -/
def Operator.precedence (operator : Operator) : Nat :=
  Statement.precedence operator.signature

/-- Adds an operator and its right operand to a tree of operations. The tree gives up its last
operand to the new operator exactly if that operator binds more strongly. -/
def Expr.attach (tree : Expr) (operator : Operator) (operand : Expr) : Expr :=
  match tree with
  | .operation outer left right location =>
    if outer.precedence < operator.precedence then
      .operation outer left (right.attach operator operand) location
    else .operation operator (.operation outer left right location) operand location
  | tree => .operation operator tree operand tree.location

end Treatise.Statement
