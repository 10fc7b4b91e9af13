import Treatise.Location
import Treatise.Statement.Token

/-!
# Expressions

The tree of a statement. A command is written with a backslash, one or more names, and bracket
groups in a fixed order; its signature is its names together with the names of its named groups.
An operator is a symbol or a command that is written between its operands.

Every node carries the place it begins at.
-/

namespace Treatise.Statement

/-- Where a bracket group of a command stands. -/
inductive Slot where
  | square
  | sub
  | sup
  | curly
  | named (name : String)
  | paren
  deriving DecidableEq, Repr

/-- How a bracket group is written without its content. -/
def Slot.label : Slot → String
  | square => "[]"
  | sub => "_\x7b\x7d"
  | sup => "^\x7b\x7d"
  | curly => "\x7b\x7d"
  | named name => ":" ++ name ++ "\x7b\x7d"
  | paren => "()"

/-- The name of a named group. -/
def Slot.name? : Slot → Option String
  | named name => some name
  | _ => none

mutual

/-- The tree of a statement or of a part of one. -/
inductive Expr where
  | name (name : String) (location : Location)
  | variadic (name : String) (location : Location)
  | command (names : List String) (groups : List ArgGroup) (location : Location)
  | function (name : String) (params : List Expr) (location : Location)
  | call (isCommand : Bool) (name : String) (groups : List ArgGroup) (location : Location)
  | tuple (items : List Expr) (location : Location)
  | set (items : List Expr) (location : Location)
  | grouped (inner : Expr) (location : Location)
  | operation (operator : Operator) (left right : Expr) (location : Location)
  | prefixed (operator : Operator) (operand : Expr) (location : Location)
  | relation (kind : RelationKind) (left right : List Expr) (location : Location)
  | assignment (left right : Expr) (location : Location)
  | text (text : String) (location : Location)
  | empty (location : Location)
  deriving Repr

/-- What stands between or before operands. -/
inductive Operator where
  | symbol (text : String) (location : Location)
  | command (names : List String) (groups : List ArgGroup) (location : Location)
  deriving Repr

/-- A bracket group: where it stands and what it holds. -/
inductive ArgGroup where
  | mk (slot : Slot) (items : List Expr)
  deriving Repr

end

instance : Inhabited Expr := ⟨.empty .start⟩

def ArgGroup.slot : ArgGroup → Slot
  | mk slot _ => slot

def ArgGroup.items : ArgGroup → List Expr
  | mk _ items => items

/-- The expressions that bracket groups hold, in the order they are written. -/
def ArgGroup.arguments (groups : List ArgGroup) : List Expr :=
  groups.flatMap ArgGroup.items

/-- How bracket groups are written without their content. -/
def ArgGroup.shape (groups : List ArgGroup) : List String :=
  groups.map fun group => group.slot.label

/-- The content of the group at a slot, if there is one. -/
def ArgGroup.at? (groups : List ArgGroup) (slot : Slot) : Option (List Expr) :=
  (groups.find? fun group => group.slot == slot).map ArgGroup.items

/-- The form under which a command with these names and groups is known. -/
def commandSignature (names : List String) (groups : List ArgGroup) : String :=
  "\\" ++ ".".intercalate names
    ++ String.join (groups.filterMap fun group => group.slot.name?.map (":" ++ ·))

namespace Operator

/-- The place an operator begins at. -/
def location : Operator → Location
  | symbol _ location | command _ _ location => location

/-- The form under which an operator is known. A command used as an operator ends with a slash. -/
def signature : Operator → String
  | symbol text _ => text
  | command names groups _ => commandSignature names groups ++ "/"

/-- The expressions in the bracket groups of an operator. -/
def arguments : Operator → List Expr
  | symbol _ _ => []
  | command _ groups _ => ArgGroup.arguments groups

end Operator

namespace Expr

/-- The place an expression begins at. -/
def location : Expr → Location
  | name _ location | variadic _ location | command _ _ location | function _ _ location
  | call _ _ _ location | tuple _ location | set _ location | grouped _ location
  | operation _ _ _ location | prefixed _ _ location | relation _ _ _ location
  | assignment _ _ location | text _ location | empty location => location

/-- The form under which an expression refers to a definition. Parentheses do not matter. -/
def signature? : Expr → Option String
  | command names groups _ => some (commandSignature names groups)
  | call true word _ _ => some ("\\" ++ word)
  | operation operator _ _ _ | prefixed operator _ _ => some operator.signature
  | grouped inner _ => inner.signature?
  | _ => none

mutual

/-- The names that an expression introduces when it stands where names are declared. -/
def boundNames : Expr → List String
  | name word _ | variadic word _ => [word]
  | function word params _ => word :: boundNamesOf params
  | call false word _ _ => [word]
  | tuple items _ => boundNamesOf items
  | grouped inner _ => inner.boundNames
  | _ => []

/-- The names that the expressions of a list introduce. -/
def boundNamesOf : List Expr → List String
  | [] => []
  | item :: rest => item.boundNames ++ boundNamesOf rest

end

/-- The expressions right below an expression, in the order they are written. -/
def children : Expr → List Expr
  | name _ _ | variadic _ _ | text _ _ | empty _ => []
  | command _ groups _ | call _ _ groups _ => ArgGroup.arguments groups
  | function _ items _ | tuple items _ | set items _ => items
  | grouped inner _ => [inner]
  | operation operator left right _ => operator.arguments ++ [left, right]
  | prefixed _ operand _ => [operand]
  | relation _ left right _ => left ++ right
  | assignment left right _ => [left, right]

mutual

/-- An expression and all that is below it, each before what is below it. -/
def nodes : Expr → List Expr
  | name word location => [name word location]
  | variadic word location => [variadic word location]
  | text content location => [text content location]
  | empty location => [empty location]
  | command names groups location => command names groups location :: groupNodes groups
  | call isCommand word groups location => call isCommand word groups location :: groupNodes groups
  | function word params location => function word params location :: nodesOf params
  | tuple items location => tuple items location :: nodesOf items
  | set items location => set items location :: nodesOf items
  | grouped inner location => grouped inner location :: inner.nodes
  | operation operator left right location =>
    operation operator left right location :: (operatorNodes operator ++ left.nodes ++ right.nodes)
  | prefixed operator operand location => prefixed operator operand location :: operand.nodes
  | relation kind left right location =>
    relation kind left right location :: (nodesOf left ++ nodesOf right)
  | assignment left right location => assignment left right location :: (left.nodes ++ right.nodes)

/-- The nodes of an operator's bracket groups. -/
def operatorNodes : Operator → List Expr
  | .symbol _ _ => []
  | .command _ groups _ => groupNodes groups

def groupNodes : List ArgGroup → List Expr
  | [] => []
  | .mk _ items :: rest => nodesOf items ++ groupNodes rest

/-- The nodes of the expressions of a list. -/
def nodesOf : List Expr → List Expr
  | [] => []
  | item :: rest => item.nodes ++ nodesOf rest

end

/-- Whether an expression is another one in parentheses. -/
def isGrouped : Expr → Bool
  | grouped _ _ => true
  | _ => false

/-- The signatures that occur in an expression, each once for each occurrence. -/
def signaturesWithin (expr : Expr) : List String :=
  (expr.nodes.filter fun node => !node.isGrouped).filterMap signature?

/-- Whether an expression needs parentheses to stand as an operand. -/
def isCompound : Expr → Bool
  | operation .. | prefixed .. | relation .. | assignment .. => true
  | _ => false

mutual

/-- Changes every place in an expression. -/
def mapLocations (f : Location → Location) : Expr → Expr
  | name word location => .name word (f location)
  | variadic word location => .variadic word (f location)
  | command names groups location => .command names (mapGroupLocations f groups) (f location)
  | function word params location => .function word (mapLocationsOf f params) (f location)
  | call isCommand word groups location =>
    .call isCommand word (mapGroupLocations f groups) (f location)
  | tuple items location => .tuple (mapLocationsOf f items) (f location)
  | set items location => .set (mapLocationsOf f items) (f location)
  | grouped inner location => .grouped (inner.mapLocations f) (f location)
  | operation operator left right location =>
    .operation (mapOperatorLocations f operator) (left.mapLocations f) (right.mapLocations f)
      (f location)
  | prefixed operator operand location =>
    .prefixed (mapOperatorLocations f operator) (operand.mapLocations f) (f location)
  | relation kind left right location =>
    .relation kind (mapLocationsOf f left) (mapLocationsOf f right) (f location)
  | assignment left right location =>
    .assignment (left.mapLocations f) (right.mapLocations f) (f location)
  | text content location => .text content (f location)
  | empty location => .empty (f location)

def mapOperatorLocations (f : Location → Location) : Operator → Operator
  | .symbol symbol location => .symbol symbol (f location)
  | .command names groups location => .command names (mapGroupLocations f groups) (f location)

def mapGroupLocations (f : Location → Location) : List ArgGroup → List ArgGroup
  | [] => []
  | .mk slot items :: rest => .mk slot (mapLocationsOf f items) :: mapGroupLocations f rest

def mapLocationsOf (f : Location → Location) : List Expr → List Expr
  | [] => []
  | item :: rest => item.mapLocations f :: mapLocationsOf f rest

end

mutual

/-- Every place in an expression; the places of named groups come after those of other groups. -/
def locations : Expr → List Location
  | name _ location | variadic _ location | text _ location | empty location => [location]
  | command _ groups location =>
    location :: (groupLocations false groups ++ groupLocations true groups)
  | call _ _ groups location => location :: groupLocations false groups
  | function _ items location | tuple items location | set items location =>
    location :: locationsOf items
  | grouped inner location => location :: inner.locations
  | operation operator left right location =>
    location :: (operatorLocations operator ++ left.locations ++ right.locations)
  | prefixed operator operand location =>
    location :: (operatorLocations operator ++ operand.locations)
  | relation _ left right location => location :: (locationsOf left ++ locationsOf right)
  | assignment left right location => location :: (left.locations ++ right.locations)

def operatorLocations : Operator → List Location
  | .symbol _ location => [location]
  | .command _ groups location =>
    location :: (groupLocations false groups ++ groupLocations true groups)

/-- Every place in the named groups, or in the other groups. -/
def groupLocations (named : Bool) : List ArgGroup → List Location
  | [] => []
  | .mk slot items :: rest =>
    (if slot.name?.isSome = named then locationsOf items else []) ++ groupLocations named rest

def locationsOf : List Expr → List Location
  | [] => []
  | item :: rest => item.locations ++ locationsOf rest

end

mutual

/-- Whether two expressions are equal, places included. -/
def same : Expr → Expr → Bool
  | name word location, .name word' location' => word == word' && location == location'
  | variadic word location, .variadic word' location' => word == word' && location == location'
  | command names groups location, .command names' groups' location' =>
    names == names' && sameGroups groups groups' && location == location'
  | function word params location, .function word' params' location' =>
    word == word' && sameAll params params' && location == location'
  | call isCommand word groups location, .call isCommand' word' groups' location' =>
    isCommand == isCommand' && word == word' && sameGroups groups groups' && location == location'
  | tuple items location, .tuple items' location' => sameAll items items' && location == location'
  | set items location, .set items' location' => sameAll items items' && location == location'
  | grouped inner location, .grouped inner' location' => inner.same inner' && location == location'
  | operation operator left right location, .operation operator' left' right' location' =>
    sameOperator operator operator' && left.same left' && right.same right' && location == location'
  | prefixed operator operand location, .prefixed operator' operand' location' =>
    sameOperator operator operator' && operand.same operand' && location == location'
  | relation kind left right location, .relation kind' left' right' location' =>
    kind == kind' && sameAll left left' && sameAll right right' && location == location'
  | assignment left right location, .assignment left' right' location' =>
    left.same left' && right.same right' && location == location'
  | text content location, .text content' location' => content == content' && location == location'
  | empty location, .empty location' => location == location'
  | _, _ => false

/-- Whether two operators are equal, places included. -/
def sameOperator : Operator → Operator → Bool
  | .symbol symbol location, .symbol symbol' location' => symbol == symbol' && location == location'
  | .command names groups location, .command names' groups' location' =>
    names == names' && sameGroups groups groups' && location == location'
  | _, _ => false

/-- Whether the bracket groups of two lists are equal, places included. -/
def sameGroups : List ArgGroup → List ArgGroup → Bool
  | [], [] => true
  | .mk slot items :: rest, .mk slot' items' :: rest' =>
    slot == slot' && sameAll items items' && sameGroups rest rest'
  | _, _ => false

/-- Whether the expressions of two lists are equal, places included. -/
def sameAll : List Expr → List Expr → Bool
  | [], [] => true
  | item :: rest, item' :: rest' => item.same item' && sameAll rest rest'
  | _, _ => false

end

instance : BEq Expr := ⟨same⟩

end Expr

end Treatise.Statement
