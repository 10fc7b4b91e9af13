import Treatise.Statement.Expr

/-!
# What a statement refers to

An expression refers to definitions by signatures and to things by names. Which of its signatures
count as used depends on the question: the left side of an equation or an assignment introduces
what it names, and a membership statement speaks of a thing rather than of what it belongs to.
-/

namespace Treatise.Statement

/-- A signature and the place where it is used. -/
abbrev Use := Located String

namespace Expr

/-- The use of a signature that an expression itself is. -/
def use? : Expr → Option Use
  | grouped _ _ => none
  | expr => expr.signature?.map fun signature => ⟨expr.location, signature⟩

/-- All uses of signatures in an expression. -/
def allUses (expr : Expr) : List Use :=
  expr.nodes.filterMap use?

mutual

/-- The uses of signatures, except where something is introduced: left of `=` and of `:=`. -/
def uses : Expr → List Use
  | name _ _ | variadic _ _ | text _ _ | empty _ => []
  | command names groups location =>
    ⟨location, commandSignature names groups⟩ :: groupUses groups
  | function _ items _ | tuple items _ | set items _ => usesOf items
  | call isCommand word groups location =>
    (if isCommand then [⟨location, "\\" ++ word⟩] else []) ++ groupUses groups
  | grouped inner _ => inner.uses
  | operation operator left right location =>
    ⟨location, operator.signature⟩ :: (operatorUses operator ++ left.uses ++ right.uses)
  | prefixed operator operand location => ⟨location, operator.signature⟩ :: operand.uses
  | relation .equal _ right _ => usesOf right
  | relation _ left right _ => usesOf left ++ usesOf right
  | assignment _ right _ => right.uses

/-- The uses in the bracket groups of an operator. -/
def operatorUses : Operator → List Use
  | .symbol _ _ => []
  | .command _ groups _ => groupUses groups

def groupUses : List ArgGroup → List Use
  | [] => []
  | .mk _ items :: rest => usesOf items ++ groupUses rest

/-- The uses in the expressions of a list. -/
def usesOf : List Expr → List Use
  | [] => []
  | item :: rest => item.uses ++ usesOf rest

end

/-- The uses in a statement that is neither about membership nor an assignment. -/
def bareUses (expr : Expr) : List Use :=
  match expr with
  | relation .isA _ _ _ | relation .isIn _ _ _ | relation .notIn _ _ _ | assignment _ _ _ => []
  | _ => expr.allUses

/-- The signature of a statement that is a single command. -/
def soleCommand? : Expr → Option String
  | command names groups _ => some (commandSignature names groups)
  | call true word _ _ => some ("\\" ++ word)
  | _ => none

mutual

/-- The names that an expression describes where it stands on the left. -/
def patternNames : Expr → List (Located String)
  | name word location | variadic word location | function word _ location => [⟨location, word⟩]
  | call false word _ location => [⟨location, word⟩]
  | tuple items _ => patternNamesOf items
  | grouped inner _ => inner.patternNames
  | _ => []

/-- The names that the expressions of a list describe. -/
def patternNamesOf : List Expr → List (Located String)
  | [] => []
  | item :: rest => item.patternNames ++ patternNamesOf rest

end

/-- The names that a statement describes: those left of an `is` or a `:=`. -/
def describedNames : Expr → List (Located String)
  | relation .isA left _ _ => patternNamesOf left
  | assignment left _ _ => left.patternNames
  | _ => []

/-- The name that an expression itself mentions. -/
def mentioned? : Expr → Option String
  | name word _ | variadic word _ | function word _ _ | call false word _ _ => some word
  | _ => none

/-- The names that are mentioned in an expression, except those of commands. -/
def mentionedNames (expr : Expr) : List String :=
  expr.nodes.filterMap mentioned?

end Expr

end Treatise.Statement
