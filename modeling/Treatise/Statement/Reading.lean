import Treatise.Statement.Bracketing
import Treatise.Statement.Lexer
import Treatise.Statement.Precedence

/-!
# Reading statements

A statement is read from the inside out. The content of each bracket group is read first, both as a
list of arguments and as one expression, and what stands around the group decides which of the two
is taken. So what is left to read is always a flat list of terms, and it is cut up step by step:

* at `:=`, which associates to the right,
* at the relation words, in three levels, each of which associates to the right and takes lists of
  operands that are separated by commas,
* into operators and operands, which are put together by the precedence of the operators.

No problem stops the reading. Where an expression is missing an empty one stands in for it.
-/

namespace Treatise.Statement

/-- A token that is no bracket, or a bracket group whose content has been read. -/
inductive Term where
  | leaf (token : Token)
  | group (bracket : Bracket) (opener : Token) (listed : Review Fault (List Expr))
      (whole : Review Fault Expr)

namespace Term

/-- The place a term begins at. -/
def location : Term → Location
  | leaf token => token.location
  | group _ opener _ _ => opener.location

/-- The place of a `:=`. -/
def assign? : Term → Option Location
  | leaf ⟨.assign, _, location⟩ => some location
  | _ => none

def comma? : Term → Option Location
  | leaf ⟨.comma, _, location⟩ => some location
  | _ => none

/-- The kind and the place of a relation. -/
def relation? : Term → Option (RelationKind × Location)
  | leaf ⟨.relation kind, _, location⟩ => some (kind, location)
  | _ => none

end Term

def Term.relationIn? (kinds : List RelationKind) (term : Term) : Option (RelationKind × Location) :=
  term.relation?.filter fun found => kinds.contains found.1

/-- An expression where none was found. -/
def missing (location : Location) : Review Fault Expr := do
  Review.report location .missingExpression
  return .empty location

/-! ## Cutting lists of terms -/

/-- Cuts terms at separators: what comes first, and each separator with what follows it. -/
def chunks {Separator : Type} (separator? : Term → Option Separator) :
    List Term → List Term × List (Separator × List Term)
  | [] => ([], [])
  | term :: rest =>
    let (first, more) := chunks separator? rest
    match separator? term with
    | some separator => ([], (separator, first) :: more)
    | none => (term :: first, more)

/-- The place of the first term, or `otherwise` if there is none. -/
def firstLocation (terms : List Term) (otherwise : Location) : Location :=
  match terms with
  | term :: _ => term.location
  | [] => otherwise

/-- The segments between the commas, each with its place. An empty one is placed at the comma. -/
def commaSegments (terms : List Term) (location : Location) : List (List Term × Location) :=
  let (first, more) := chunks Term.comma? terms
  (first, firstLocation first location)
    :: more.map fun (comma, segment) => (segment, firstLocation segment comma)

/-- Reads each segment; an empty one is a problem. -/
def readSegments (read : List Term → Location → Review Fault Expr) :
    List (List Term × Location) → Review Fault (List Expr)
  | [] => pure []
  | ([], location) :: rest => do
    Review.report location .emptyParameter
    let items ← readSegments read rest
    return .empty location :: items
  | (segment, location) :: rest => do
    let item ← read segment location
    let items ← readSegments read rest
    return item :: items

/-- Reads a list of arguments, which may be empty. -/
def readArguments (read : List Term → Location → Review Fault Expr) (terms : List Term)
    (location : Location) : Review Fault (List Expr) :=
  if terms.isEmpty then pure [] else readSegments read (commaSegments terms location)

/-- Reads a list of operands, which may not be empty. -/
def readOperands (read : List Term → Location → Review Fault Expr) (terms : List Term)
    (location : Location) : Review Fault (List Expr) :=
  if terms.isEmpty then do return [← missing location]
  else readSegments read (commaSegments terms location)

/-! ## Operators and operands -/

/-- An operator or an operand. -/
inductive Factor where
  | operand (expr : Expr)
  | operator (operator : Operator)
  deriving Repr

def prefixedBy (operators : List Operator) (operand : Expr) : Expr :=
  operators.foldr (fun operator expr => .prefixed operator expr operator.location) operand

/-- Puts operators and operands together. `tree` is what has been put together so far and `pending`
are the operators after it: the first of them joins the tree and the next operand, the others stand
before that operand. An operand without an operator before it is a problem, and the rest is left. -/
def readFactors (location : Location) (tree : Option Expr) (pending : List Operator) :
    List Factor → Review Fault Expr
  | .operator operator :: rest => readFactors location tree (pending ++ [operator]) rest
  | .operand operand :: rest =>
    match tree, pending with
    | some tree, [] => do
      Review.report operand.location .missingOperator
      return tree
    | some tree, operator :: operators =>
      readFactors location (some (tree.attach operator (prefixedBy operators operand))) [] rest
    | none, operators => readFactors location (some (prefixedBy operators operand)) [] rest
  | [] =>
    let last := (pending.getLast?.map Operator.location).getD location
    match tree, pending with
    | some tree, [] => pure tree
    | some tree, operator :: operators => do
      return tree.attach operator (prefixedBy operators (← missing last))
    | none, operators => do return prefixedBy operators (← missing last)

/-! ## Commands, names and brackets -/

/-- Reads the further names of a command, each after a dot. -/
def readDottedNames : List Term → Review Fault (List String) × List Term
  | .leaf ⟨.dot, _, _⟩ :: .leaf ⟨.name, word, _⟩ :: rest =>
    let more := readDottedNames rest
    (do return word :: (← more.1), more.2)
  | .leaf ⟨.dot, _, location⟩ :: rest =>
    (do Review.report location .noNameAfterDot; return [], rest)
  | rest => (pure [], rest)

/-- The bracket group at a slot, if the terms begin with one. -/
def slotGroup? : Slot → List Term → Option (Review Fault (List Expr) × List Term)
  | .square, .group .square _ listed _ :: rest => some (listed, rest)
  | .sub, .leaf ⟨.underscore, _, _⟩ :: .group .curly _ listed _ :: rest => some (listed, rest)
  | .sup, .leaf ⟨.caret, _, _⟩ :: .group .curly _ listed _ :: rest => some (listed, rest)
  | .curly, .group .curly _ listed _ :: rest => some (listed, rest)
  | .paren, .group .paren _ listed _ :: rest => some (listed, rest)
  | _, _ => none

/-- Reads the bracket groups at the given slots, each of which may be left out. -/
def readSlots : List Slot → List Term → Review Fault (List ArgGroup) × List Term
  | [], terms => (pure [], terms)
  | slot :: slots, terms =>
    match slotGroup? slot terms with
    | some (listed, rest) =>
      let more := readSlots slots rest
      (do return .mk slot (← listed) :: (← more.1), more.2)
    | none => readSlots slots terms

/-- Reads the named groups of a command. -/
def readNamedGroups : List Term → Review Fault (List ArgGroup) × List Term
  | .leaf ⟨.colon, _, _⟩ :: .leaf ⟨.name, word, _⟩ :: .group .curly _ listed _ :: rest =>
    let more := readNamedGroups rest
    (do return .mk (.named word) (← listed) :: (← more.1), more.2)
  | .leaf ⟨.colon, _, _⟩ :: .leaf ⟨.name, _, location⟩ :: rest =>
    (do Review.report location .noBracesAfterName; return [], rest)
  | .leaf ⟨.colon, _, location⟩ :: rest =>
    (do Review.report location .noNameAfterColon; return [], rest)
  | rest => (pure [], rest)

/-- Reads what follows the backslash of a command that stands at `location`. -/
def readCommand (location : Location) :
    List Term → Review Fault (List String × List ArgGroup) × List Term
  | .leaf ⟨.name, word, _⟩ :: rest =>
    let names := readDottedNames rest
    let front := readSlots [.square, .sub, .sup, .curly] names.2
    let named := readNamedGroups front.2
    let back := readSlots [.paren] named.2
    (do
      let names ← names.1
      let front ← front.1
      let named ← named.1
      let back ← back.1
      return (word :: names, front ++ named ++ back),
      back.2)
  | rest => (do Review.report location .noNameAfterBackslash; return ([], []), rest)

/-- A command as an expression. One name and nothing but parentheses is the call of a command. -/
def commandExpr (names : List String) (groups : List ArgGroup) (location : Location) : Expr :=
  match names, groups with
  | [word], [.mk .paren items] => .call true word [.mk .paren items] location
  | _, _ => .command names groups location

/-- A name with arguments in parentheses. If all of them are names it is a function. -/
def applied (word : String) (params : List Expr) (location : Location) : Expr :=
  let isName : Expr → Bool
    | .name _ _ | .variadic _ _ => true
    | _ => false
  if params.all isName then .function word params location
  else .call false word [.mk .paren params] location

/-- Reads what belongs to a name that stands at `location`. -/
def readName (word : String) (location : Location) : List Term → Review Fault Expr × List Term
  | .leaf ⟨.ellipsis, _, _⟩ :: rest => (pure (.variadic word location), rest)
  | .leaf ⟨.underscore, _, _⟩ :: .group .curly _ sub _ :: .group .paren _ params _ :: rest =>
    (do return .call false word [.mk .sub (← sub), .mk .paren (← params)] location, rest)
  | .leaf ⟨.underscore, _, _⟩ :: .group .curly _ sub _ :: rest =>
    (do return .call false word [.mk .sub (← sub)] location, rest)
  | .group .paren _ params _ :: rest => (do return applied word (← params) location, rest)
  | rest => (pure (.name word location), rest)

/-- Reads a bracket group that stands by itself. Square brackets may not. -/
def readGroup (bracket : Bracket) (opener : Token) (listed : Review Fault (List Expr))
    (whole : Review Fault Expr) : Review Fault (List Factor) := do
  match bracket with
  | .paren =>
    match ← listed with
    | [item] => return [.operand (.grouped item opener.location)]
    | items => return [.operand (.tuple items opener.location)]
  | .curly => return [.operand (.set (← listed) opener.location)]
  | .squareColon => return [.operand (.grouped (← whole) opener.location)]
  | .square =>
    Review.report opener.location (.unexpectedToken opener.text)
    return []

/-- The text between the quotes of a text token. -/
def unquoted (text : String) : String :=
  String.ofList ((text.toList.drop 1).dropLast)

theorem length_readDottedNames (terms : List Term) :
    (readDottedNames terms).2.length ≤ terms.length := by
  fun_induction readDottedNames terms <;> simp_all +zetaDelta
  omega

theorem length_slotGroup? {slot : Slot} {terms : List Term} {listed : Review Fault (List Expr)}
    {rest : List Term} (found : slotGroup? slot terms = some (listed, rest)) :
    rest.length ≤ terms.length := by
  unfold slotGroup? at found
  split at found <;> simp_all <;> omega

theorem length_readSlots (slots : List Slot) (terms : List Term) :
    (readSlots slots terms).2.length ≤ terms.length := by
  fun_induction readSlots slots terms with
  | case1 => simp
  | case2 slot slots terms listed rest found more shorter =>
    exact Nat.le_trans shorter (length_slotGroup? found)
  | case3 slot slots terms absent shorter => exact shorter

theorem length_readNamedGroups (terms : List Term) :
    (readNamedGroups terms).2.length ≤ terms.length := by
  fun_induction readNamedGroups terms <;> simp_all +zetaDelta <;> omega

theorem length_readCommand (location : Location) (terms : List Term) :
    (readCommand location terms).2.length ≤ terms.length := by
  unfold readCommand
  split
  · rename_i word wordText wordLocation rest
    have names := length_readDottedNames rest
    have front := length_readSlots [.square, .sub, .sup, .curly] (readDottedNames rest).2
    have named := length_readNamedGroups
      (readSlots [.square, .sub, .sup, .curly] (readDottedNames rest).2).2
    have back := length_readSlots [.paren] (readNamedGroups
      (readSlots [.square, .sub, .sup, .curly] (readDottedNames rest).2).2).2
    simp only [List.length_cons]
    omega
  · simp

theorem length_readName (word : String) (location : Location) (terms : List Term) :
    (readName word location terms).2.length ≤ terms.length := by
  unfold readName
  split <;> simp <;> omega

/-- Reads terms into operators and operands. -/
def factors : List Term → Review Fault (List Factor)
  | [] => pure []
  | .leaf ⟨.operator, text, location⟩ :: rest => do
    return .operator (.symbol text location) :: (← factors rest)
  | .leaf ⟨.backslash, _, location⟩ :: rest =>
    let found := readCommand location rest
    match _following : found.2 with
    | .leaf ⟨.operator, "/", _⟩ :: after => do
      let (names, groups) ← found.1
      return .operator (.command names groups location) :: (← factors after)
    | after => do
      let (names, groups) ← found.1
      return .operand (commandExpr names groups location) :: (← factors after)
  | .leaf ⟨.name, word, location⟩ :: rest =>
    let found := readName word location rest
    do
      let expr ← found.1
      return .operand expr :: (← factors found.2)
  | .leaf ⟨.text, text, location⟩ :: rest => do
    return .operand (.text (unquoted text) location) :: (← factors rest)
  | .leaf ⟨_, text, location⟩ :: rest => do
    Review.report location (.unexpectedToken text)
    factors rest
  | .group bracket opener listed whole :: rest => do
    return (← readGroup bracket opener listed whole) ++ (← factors rest)
termination_by terms => terms.length
decreasing_by
  all_goals simp only [List.length_cons]
  · omega
  · have shorter := length_readCommand location rest
    have same := congrArg List.length _following
    simp only [List.length_cons] at same
    simp +zetaDelta only at same
    omega
  · have shorter := length_readCommand location rest
    have same := congrArg List.length _following
    simp +zetaDelta only at same
    omega
  · have shorter := length_readName word location rest
    omega
  · omega
  · omega
  · omega

/-! ## Relations and assignments -/

def readOperation (terms : List Term) (location : Location) : Review Fault Expr := do
  readFactors location none [] (← factors terms)

/-- Reads a chain of relations of one level. `terms` come first, the relation `relation` and
`segment` follow, and then the rest of the chain. -/
def readRelationsFrom (next : List Term → Location → Review Fault Expr) (terms : List Term)
    (location : Location) (relation : RelationKind × Location) (segment : List Term) :
    List ((RelationKind × Location) × List Term) → Review Fault Expr
  | [] => do
    let left ← readOperands next terms location
    let right ← readOperands next segment relation.2
    return .relation relation.1 left right ((left.head?.map Expr.location).getD relation.2)
  | (following, rest) :: more => do
    let left ← readOperands next terms location
    let right ← readRelationsFrom next segment relation.2 following rest more
    return .relation relation.1 left [right] ((left.head?.map Expr.location).getD relation.2)

/-- Reads an expression with the relations of one level; `next` reads what they relate. -/
def readRelations (kinds : List RelationKind) (next : List Term → Location → Review Fault Expr)
    (terms : List Term) (location : Location) : Review Fault Expr :=
  match chunks (Term.relationIn? kinds) terms with
  | (_, []) => next terms location
  | (first, (relation, segment) :: more) =>
    readRelationsFrom next first location relation segment more

/-- Reads an expression without assignments. The levels bind from loose to tight. -/
def readRelated : List Term → Location → Review Fault Expr :=
  readRelations [.isA, .isIn, .notIn]
    (readRelations [.equal, .notEqual] (readRelations [.viewedAs] readOperation))

/-- Reads a chain of assignments: `terms` come first, and the rest follows. -/
def readAssignmentsFrom (terms : List Term) (location : Location) :
    List (Location × List Term) → Review Fault Expr
  | [] => readRelated terms location
  | (operator, segment) :: more => do
    let left ← readRelated terms location
    let right ← readAssignmentsFrom segment operator more
    return .assignment left right left.location

def readExpr (terms : List Term) (location : Location) : Review Fault Expr :=
  let (first, more) := chunks Term.assign? terms
  readAssignmentsFrom first location more

mutual

/-- Reads the content of a bracket group before the group itself is read. -/
def TokenTree.term : TokenTree → Term
  | .leaf token => .leaf token
  | .group bracket opener items _ =>
    let terms := termsOf items
    .group bracket opener (readArguments readExpr terms opener.location)
      (readExpr terms opener.location)

/-- Reads the content of all bracket groups of a list. -/
def termsOf : List TokenTree → List Term
  | [] => []
  | tree :: rest => tree.term :: termsOf rest

end

/-- Reads the text of a statement. The problems are sorted by their places. -/
def read (text : String) : Review Fault Expr :=
  let tokens := tokens text
  let trees := bracket tokens.value
  let expr := readExpr (termsOf trees.value) .start
  ⟨expr.value, Located.sort (tokens.problems ++ trees.problems ++ expr.problems)⟩

/-- The diagnostics of a statement, placed relative to the statement. -/
def diagnostics (reading : Review Fault Expr) : List Diagnostic :=
  reading.problems.map Fault.diagnostic

end Treatise.Statement
