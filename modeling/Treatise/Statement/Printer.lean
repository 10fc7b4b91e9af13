import Treatise.Statement.Expr

/-!
# The written form of an expression

One canonical text for each expression: a blank on either side of an operator or a relation, a
comma and a blank between the items of a list, and no parentheses but those of the tree.
-/

namespace Treatise.Statement

/-- The items of a list as they are written. -/
def commaSeparated (items : List String) : String :=
  ", ".intercalate items

/-- The brackets of a group around its content. -/
def Slot.enclose (slot : Slot) (content : String) : String :=
  match slot with
  | square => "[" ++ content ++ "]"
  | sub => "_\x7b" ++ content ++ "\x7d"
  | sup => "^\x7b" ++ content ++ "\x7d"
  | curly => "\x7b" ++ content ++ "\x7d"
  | named name => ":" ++ name ++ "\x7b" ++ content ++ "\x7d"
  | paren => "(" ++ content ++ ")"

mutual

/-- The written form of an expression. -/
def Expr.code : Expr → String
  | .name name _ => name
  | .variadic name _ => name ++ "..."
  | .command names groups _ => "\\" ++ ".".intercalate names ++ groupsCode groups
  | .function name params _ => name ++ "(" ++ commaSeparated (codes params) ++ ")"
  | .call isCommand name groups _ =>
    (if isCommand then "\\" else "") ++ name ++ groupsCode groups
  | .tuple items _ => "(" ++ commaSeparated (codes items) ++ ")"
  | .set items _ => "\x7b" ++ commaSeparated (codes items) ++ "\x7d"
  | .grouped inner _ => "(" ++ inner.code ++ ")"
  | .operation operator left right _ =>
    left.code ++ " " ++ operatorCode operator ++ " " ++ right.code
  | .prefixed operator operand _ => operatorCode operator ++ operand.code
  | .relation kind left right _ =>
    commaSeparated (codes left) ++ " " ++ kind.text ++ " " ++ commaSeparated (codes right)
  | .assignment left right _ => left.code ++ " := " ++ right.code
  | .text text _ => "\"" ++ text ++ "\""
  | .empty _ => ""

/-- The written form of an operator. -/
def operatorCode : Operator → String
  | .symbol text _ => text
  | .command names groups _ => "\\" ++ ".".intercalate names ++ groupsCode groups ++ "/"

/-- The written form of bracket groups. -/
def groupsCode : List ArgGroup → String
  | [] => ""
  | .mk slot items :: rest => slot.enclose (commaSeparated (codes items)) ++ groupsCode rest

/-- The written forms of the expressions of a list. -/
def codes : List Expr → List String
  | [] => []
  | item :: rest => item.code :: codes rest

end

end Treatise.Statement
