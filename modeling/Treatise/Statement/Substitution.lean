import Treatise.Statement.Expr

/-!
# Substitution

Replacing names in an expression by expressions, all at once. The name of a function is replaced
only by another name; the names of commands stay.
-/

namespace Treatise.Statement

/-- What each name is replaced by. -/
abbrev Replacement := List (String × Expr)

namespace Replacement

/-- What a name is replaced by, if it is replaced. -/
def find? (replacement : Replacement) (word : String) : Option Expr :=
  List.lookup word replacement

/-- What a function name is replaced by: another name, or itself. -/
def rename (replacement : Replacement) (word : String) : String :=
  match replacement.find? word with
  | some (.name renamed _) => renamed
  | _ => word

end Replacement

mutual

/-- Replaces the names in an expression. -/
def Expr.substitute (replacement : Replacement) : Expr → Expr
  | .name word location => (replacement.find? word).getD (.name word location)
  | .variadic word location => .variadic word location
  | .text content location => .text content location
  | .empty location => .empty location
  | .command names groups location => .command names (substituteGroups replacement groups) location
  | .function word params location =>
    .function (replacement.rename word) (substituteAll replacement params) location
  | .call isCommand word groups location =>
    .call isCommand (if isCommand then word else replacement.rename word)
      (substituteGroups replacement groups) location
  | .tuple items location => .tuple (substituteAll replacement items) location
  | .set items location => .set (substituteAll replacement items) location
  | .grouped inner location => .grouped (inner.substitute replacement) location
  | .operation operator left right location =>
    .operation (substituteOperator replacement operator) (left.substitute replacement)
      (right.substitute replacement) location
  | .prefixed operator operand location =>
    .prefixed (substituteOperator replacement operator) (operand.substitute replacement) location
  | .relation kind left right location =>
    .relation kind (substituteAll replacement left) (substituteAll replacement right) location
  | .assignment left right location =>
    .assignment (left.substitute replacement) (right.substitute replacement) location

/-- Replaces the names in the bracket groups of an operator. -/
def substituteOperator (replacement : Replacement) : Operator → Operator
  | .symbol symbol location => .symbol symbol location
  | .command names groups location => .command names (substituteGroups replacement groups) location

/-- Replaces the names in bracket groups. -/
def substituteGroups (replacement : Replacement) : List ArgGroup → List ArgGroup
  | [] => []
  | .mk slot items :: rest =>
    .mk slot (substituteAll replacement items) :: substituteGroups replacement rest

/-- Replaces the names in the expressions of a list. -/
def substituteAll (replacement : Replacement) : List Expr → List Expr
  | [] => []
  | item :: rest => item.substitute replacement :: substituteAll replacement rest

end

end Treatise.Statement
