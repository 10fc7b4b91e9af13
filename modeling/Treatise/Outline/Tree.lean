import Treatise.Layout.Token

/-!
# Outlines

An outline is the shape of a text before anything is known of what its sections mean. It is a list
of groups with comments between them. A group is an optional id and one or more sections, a section
is a name and its arguments, and an argument is a target or a group of its own.

A target is a leaf of the outline: a single token, or one of the shapes that introduce names.
-/

namespace Treatise.Outline

open Layout (Token TokenKind)

/-- A leaf of an outline. -/
inductive Target where
  | single (token : Token)
  | enclosed (params : List Token) (location : Location)
  | applied (name : Token) (sub params : Option (List Token))
  | assignment (name : Token) (value : Target)
  | tuple (items : List Target) (location : Location)
  deriving Repr

mutual

/-- An optional id and sections. -/
inductive Group where
  | mk (id : Option Token) (sections : List Section)
  deriving Repr

/-- A name and arguments. -/
inductive Section where
  | mk (name : Token) (arguments : List Argument)
  deriving Repr

/-- A leaf, or a group of its own. -/
inductive Argument where
  | target (leaf : Target)
  | group (inner : Group)
  deriving Repr

end

/-- What stands at the outermost level of an outline. -/
inductive Item where
  | group (inner : Group)
  | comment (token : Token)
  deriving Repr

/-! ## Names -/

/-- The characters before the first three dots. -/
def beforeEllipsis : List Char → List Char
  | '.' :: '.' :: '.' :: _ => []
  | character :: rest => character :: beforeEllipsis rest
  | [] => []

/-- The name that a name token binds. A question mark at its end and the three dots of a variadic
name do not belong to it; a text that begins with three dots is left alone. -/
def bareName (text : String) : String :=
  let marked := text.toList
  let name := if marked.getLast? = some '?' then marked.dropLast else marked
  let stem := beforeEllipsis name
  String.ofList (if stem.isEmpty then name else stem)

namespace Target

/-- The place a target begins at. -/
def location : Target → Location
  | single token => token.location
  | enclosed _ location | tuple _ location => location
  | applied name _ _ | assignment name _ => name.location

/-- The token of a target that is a single token of a given kind. -/
def tokenOf? (kind : TokenKind) : Target → Option Token
  | single token => if token.kind = kind then some token else none
  | _ => none

/-- Names as they are written in a list. -/
def listed (names : List Token) : String :=
  ", ".intercalate (names.map Token.text)

mutual

/-- The written form of a target. -/
def code : Target → String
  | single token => token.text
  | enclosed params _ => "\x7b" ++ listed params ++ "\x7d"
  | applied name sub params =>
    name.text ++ sub.elim "" (fun names => "_\x7b" ++ listed names ++ "\x7d")
      ++ params.elim "" (fun names => "(" ++ listed names ++ ")")
  | assignment name value => name.text ++ " := " ++ value.code
  | tuple items _ => "(" ++ ", ".intercalate (codes items) ++ ")"

/-- The written forms of targets. -/
def codes : List Target → List String
  | [] => []
  | item :: rest => item.code :: codes rest

end

mutual

/-- The names that a target binds, in the order they are written. -/
def names : Target → List String
  | single token => if token.kind = .name then [bareName token.text] else []
  | enclosed params _ => params.map fun param => bareName param.text
  | applied name sub params =>
    (name :: (sub.getD [] ++ params.getD [])).map fun param => bareName param.text
  | assignment name _ => [bareName name.text]
  | tuple items _ => namesOf items

/-- The names that targets bind. -/
def namesOf : List Target → List String
  | [] => []
  | item :: rest => item.names ++ namesOf rest

end

mutual

/-- Changes every place in a target. -/
def mapLocations (f : Location → Location) : Target → Target
  | single token => .single (token.mapLocation f)
  | enclosed params location => .enclosed (params.map (·.mapLocation f)) (f location)
  | applied name sub params =>
    .applied (name.mapLocation f) (sub.map (·.map (·.mapLocation f)))
      (params.map (·.map (·.mapLocation f)))
  | assignment name value => .assignment (name.mapLocation f) (value.mapLocations f)
  | tuple items location => .tuple (mapLocationsOf f items) (f location)

def mapLocationsOf (f : Location → Location) : List Target → List Target
  | [] => []
  | item :: rest => item.mapLocations f :: mapLocationsOf f rest

end

mutual

/-- Every place in a target: its own, and then the places of its parts. -/
def locations : Target → List Location
  | single token => [token.location]
  | enclosed params location => location :: params.map Token.location
  | applied name sub params =>
    name.location :: (name :: (sub.getD [] ++ params.getD [])).map Token.location
  | assignment name value => name.location :: name.location :: value.locations
  | tuple items location => location :: locationsOf items

def locationsOf : List Target → List Location
  | [] => []
  | item :: rest => item.locations ++ locationsOf rest

end

mutual

/-- Whether two targets are equal, places included. -/
def same : Target → Target → Bool
  | single token, .single token' => token == token'
  | enclosed params location, .enclosed params' location' =>
    params == params' && location == location'
  | applied name sub params, .applied name' sub' params' =>
    name == name' && sub == sub' && params == params'
  | assignment name value, .assignment name' value' => name == name' && value.same value'
  | tuple items location, .tuple items' location' => sameAll items items' && location == location'
  | _, _ => false

/-- Whether the targets of two lists are equal, places included. -/
def sameAll : List Target → List Target → Bool
  | [], [] => true
  | item :: rest, item' :: rest' => item.same item' && sameAll rest rest'
  | _, _ => false

end

instance : BEq Target := ⟨same⟩

end Target

namespace Section

/-- The name token of a section. -/
def title : Section → Token
  | mk name _ => name

def name (part : Section) : String := part.title.text

/-- The place a section begins at. -/
def location (part : Section) : Location := part.title.location

def arguments : Section → List Argument
  | mk _ arguments => arguments

end Section

namespace Group

/-- The id token of a group. -/
def id? : Group → Option Token
  | mk id _ => id

def sections : Group → List Section
  | mk _ sections => sections

/-- The name of the first section, which tells what a group is. -/
def heading? (group : Group) : Option String :=
  group.sections.head?.map Section.name

/-- The place a group begins at: its id, or its first section. -/
def location (group : Group) : Location :=
  match group.id?, group.sections with
  | some id, _ => id.location
  | none, part :: _ => part.location
  | none, [] => .start

end Group

/-- The place an argument begins at. -/
def Argument.location : Argument → Location
  | target leaf => leaf.location
  | group inner => inner.location

end Treatise.Outline
