import Treatise.Outline.Tree
import Treatise.Statement.Reading

/-!
# The leaves of a document

What a document says stands in its leaves: formulas, which are statements between quotes or in the
brackets of an id, texts, and targets, which introduce names.
-/

namespace Treatise.Document

open Layout (Token)
open Statement (Expr)

/-- The characters between the first and the last one. -/
def withoutDelimiters (text : String) : String :=
  String.ofList (text.toList.drop 1).dropLast

/-- The text of a statement, and what it reads as: an expression, or what is wrong with it. -/
structure Formula where
  text : String
  reading : Except (List (Located Statement.Fault)) Expr
  location : Location
  deriving Repr

namespace Formula

/-- The formula of a text. The location is that of the delimiter before the text. -/
def ofText (text : String) (location : Location) : Formula :=
  let found := Statement.read text
  ⟨text, if found.problems.isEmpty then .ok found.value else .error found.problems, location⟩

/-- The formula between the delimiters of a token. -/
def ofToken (token : Token) : Formula :=
  ofText (withoutDelimiters token.text) token.location

/-- Stands in where a formula could not be read. -/
def blank : Formula := ⟨"", .ok (.empty .start), .start⟩

instance : Inhabited Formula := ⟨blank⟩

/-- The expression, if the text reads as one. -/
def expr? (formula : Formula) : Option Expr :=
  formula.reading.toOption

/-- What is wrong with the text, placed relative to it. -/
def faults (formula : Formula) : List (Located Statement.Fault) :=
  match formula.reading with
  | .ok _ => []
  | .error faults => faults

/-- What is wrong with the text, as diagnostics placed relative to it. -/
def diagnostics (formula : Formula) : List Diagnostic :=
  formula.faults.map Statement.Fault.diagnostic

/-- The place of the first character after the opening delimiter. -/
def origin (formula : Formula) : Location :=
  formula.location.nextColumn

/-- The form under which the formula refers to a definition. -/
def signature? (formula : Formula) : Option String :=
  formula.expr?.bind Expr.signature?

/-- Changes every place in a formula. -/
def mapLocations (f : Location → Location) (formula : Formula) : Formula :=
  let reading := match formula.reading with
    | .ok expr => .ok (expr.mapLocations f)
    | .error faults => .error (faults.map fun fault => ⟨f fault.location, fault.value⟩)
  ⟨formula.text, reading, f formula.location⟩

/-- Every place in a formula. -/
def locations (formula : Formula) : List Location :=
  formula.location :: match formula.reading with
    | .ok expr => expr.locations
    | .error faults => faults.map Located.location

/-- Whether two formulas are equal, places included. -/
def same (first second : Formula) : Bool :=
  let reading := match first.reading, second.reading with
    | .ok expr, .ok expr' => expr == expr'
    | .error faults, .error faults' => faults == faults'
    | _, _ => false
  first.text == second.text && reading && first.location == second.location

instance : BEq Formula := ⟨same⟩

end Formula

/-- A text between double quotes. -/
structure Text where
  text : String
  location : Location
  deriving DecidableEq, Repr

namespace Text

/-- The text between the delimiters of a token. -/
def ofToken (token : Token) : Text :=
  ⟨withoutDelimiters token.text, token.location⟩

/-- Stands in where a text could not be read. -/
def blank : Text := ⟨"", .start⟩

instance : Inhabited Text := ⟨blank⟩

/-- Changes the place of a text. -/
def mapLocations (f : Location → Location) (text : Text) : Text :=
  { text with location := f text.location }

end Text

/-- The texts of a section, and the place of the section. -/
structure Texts where
  items : List Text
  location : Location
  deriving DecidableEq, Repr

namespace Texts

instance : Inhabited Texts := ⟨⟨[], .start⟩⟩

def mapLocations (f : Location → Location) (texts : Texts) : Texts :=
  ⟨texts.items.map (·.mapLocations f), f texts.location⟩

def locations (texts : Texts) : List Location :=
  texts.location :: texts.items.map Text.location

end Texts

/-- The targets of a section, and the place of the section. -/
structure Targets where
  items : List Outline.Target
  location : Location
  deriving Repr, BEq

namespace Targets

instance : Inhabited Targets := ⟨⟨[], .start⟩⟩

/-- The names that the targets bind. -/
def names (targets : Targets) : List String :=
  targets.items.flatMap Outline.Target.names

def mapLocations (f : Location → Location) (targets : Targets) : Targets :=
  ⟨targets.items.map (·.mapLocations f), f targets.location⟩

def locations (targets : Targets) : List Location :=
  targets.location :: targets.items.flatMap Outline.Target.locations

end Targets

end Treatise.Document
