import Treatise.Document.Leaf

/-!
# Clauses

A clause says something. It is a formula, a text, or a group that puts clauses together: by
implication, quantification, negation and so on. A section that holds clauses has a list of them.

For each form of a clause this module says which formulas occur in it, which groups generate
constructors in it, and how the places in it change. These functions follow the type: each comes
with companions for lists of clauses and for sections that may be left out.
-/

namespace Treatise.Document

mutual

/-- A formula, a text, or a group of clauses. -/
inductive Clause where
  | formula (formula : Formula)
  | text (text : Text)
  | implication (conditions conclusions : Clauses) (location : Location)
  | equivalence (conditions conclusions : Clauses) (location : Location)
  | forAll (targets : Targets) (suchThat : Option Clauses) (conclusions : Clauses)
      (location : Location)
  | thereIs (unique : Bool) (targets : Targets) (suchThat : Option Clauses) (location : Location)
  | negation (clause : Clause) (location : Location)
  | disjunction (alternatives : Clauses) (location : Location)
  | piecewise (conditions conclusions : Clauses) (otherwise : Option Clauses) (location : Location)
  | matching (cases : Clauses) (location : Location)
  | generated (generators : Targets) (conditions : Option Clauses) (location : Location)
  deriving Repr

/-- The clauses of a section, and the place of the section. -/
inductive Clauses where
  | mk (items : List Clause) (location : Location)
  deriving Repr

end

instance : Inhabited Clause := ⟨.formula .blank⟩

instance : Inhabited Clauses := ⟨.mk [] .start⟩

def Clauses.items : Clauses → List Clause
  | mk items _ => items

/-- The place of a section of clauses. -/
def Clauses.location : Clauses → Location
  | mk _ location => location

namespace Clause

/-- The place a clause begins at. -/
def location : Clause → Location
  | formula found => found.location
  | text found => found.location
  | implication _ _ location | equivalence _ _ location | forAll _ _ _ location
  | thereIs _ _ _ location | negation _ location | disjunction _ location
  | piecewise _ _ _ location | matching _ location | generated _ _ location => location

/-- The formula of a clause that is nothing else. -/
def formula? : Clause → Option Formula
  | formula found => some found
  | _ => none

/-- The constructor that a target of a `generated:` group introduces. -/
def constructor? : Outline.Target → Option String
  | .single token => if token.kind = .name then some token.text else none
  | .applied name _ _ => some name.text
  | _ => none

/-- The constructors that a `generated:` group introduces. -/
def constructors : Clause → List String
  | generated generators _ _ => generators.items.filterMap constructor?
  | _ => []

end Clause

/-! ## What occurs in clauses -/

mutual

/-- The formulas in a clause at any depth, in the order they are written. -/
def Clause.formulas : Clause → List Formula
  | .formula found => [found]
  | .text _ => []
  | .implication conditions conclusions _ | .equivalence conditions conclusions _ =>
    conditions.formulas ++ conclusions.formulas
  | .forAll _ suchThat conclusions _ => formulasIn suchThat ++ conclusions.formulas
  | .thereIs _ _ suchThat _ => formulasIn suchThat
  | .negation clause _ => clause.formulas
  | .disjunction alternatives _ => alternatives.formulas
  | .piecewise conditions conclusions otherwise _ =>
    conditions.formulas ++ conclusions.formulas ++ formulasIn otherwise
  | .matching cases _ => cases.formulas
  | .generated _ conditions _ => formulasIn conditions

/-- The formulas in the clauses of a section. -/
def Clauses.formulas : Clauses → List Formula
  | .mk items _ => formulasOf items

def formulasOf : List Clause → List Formula
  | [] => []
  | clause :: rest => clause.formulas ++ formulasOf rest

/-- The formulas in a section that may be left out. -/
def formulasIn : Option Clauses → List Formula
  | none => []
  | some clauses => clauses.formulas

end

/-- The clauses of a section that are formulas, at the outermost level. -/
def Clauses.outerFormulas (clauses : Clauses) : List Formula :=
  clauses.items.filterMap Clause.formula?

/-- A `generated:` group stands for itself, and nothing else does. -/
def Clause.generator? : Clause → Option Clause
  | .generated generators conditions location => some (.generated generators conditions location)
  | _ => none

mutual

/-- The `generated:` groups that count as written in a clause. Under a negation only the group that
is negated itself counts, and the conditions of such a group are not looked into. -/
def Clause.generators : Clause → List Clause
  | .formula _ | .text _ => []
  | .implication conditions conclusions _ | .equivalence conditions conclusions _ =>
    conditions.generators ++ conclusions.generators
  | .forAll _ suchThat conclusions _ => generatorsIn suchThat ++ conclusions.generators
  | .thereIs _ _ suchThat _ => generatorsIn suchThat
  | .negation clause _ => clause.generator?.toList
  | .disjunction alternatives _ => alternatives.generators
  | .piecewise conditions conclusions otherwise _ =>
    conditions.generators ++ conclusions.generators ++ generatorsIn otherwise
  | .matching cases _ => cases.generators
  | .generated generators conditions location => [.generated generators conditions location]

/-- The `generated:` groups in the clauses of a section. -/
def Clauses.generators : Clauses → List Clause
  | .mk items _ => generatorsOf items

/-- The `generated:` groups in clauses. -/
def generatorsOf : List Clause → List Clause
  | [] => []
  | clause :: rest => clause.generators ++ generatorsOf rest

/-- The `generated:` groups in a section that may be left out. -/
def generatorsIn : Option Clauses → List Clause
  | none => []
  | some clauses => clauses.generators

end

/-! ## Places -/

mutual

/-- Changes every place in a clause. -/
def Clause.mapLocations (f : Location → Location) : Clause → Clause
  | .formula found => .formula (found.mapLocations f)
  | .text found => .text (found.mapLocations f)
  | .implication conditions conclusions location =>
    .implication (conditions.mapLocations f) (conclusions.mapLocations f) (f location)
  | .equivalence conditions conclusions location =>
    .equivalence (conditions.mapLocations f) (conclusions.mapLocations f) (f location)
  | .forAll targets suchThat conclusions location =>
    .forAll (targets.mapLocations f) (mapLocationsIn f suchThat) (conclusions.mapLocations f)
      (f location)
  | .thereIs unique targets suchThat location =>
    .thereIs unique (targets.mapLocations f) (mapLocationsIn f suchThat) (f location)
  | .negation clause location => .negation (clause.mapLocations f) (f location)
  | .disjunction alternatives location => .disjunction (alternatives.mapLocations f) (f location)
  | .piecewise conditions conclusions otherwise location =>
    .piecewise (conditions.mapLocations f) (conclusions.mapLocations f)
      (mapLocationsIn f otherwise) (f location)
  | .matching cases location => .matching (cases.mapLocations f) (f location)
  | .generated generators conditions location =>
    .generated (generators.mapLocations f) (mapLocationsIn f conditions) (f location)

def Clauses.mapLocations (f : Location → Location) : Clauses → Clauses
  | .mk items location => .mk (mapLocationsOf f items) (f location)

def mapLocationsOf (f : Location → Location) : List Clause → List Clause
  | [] => []
  | clause :: rest => clause.mapLocations f :: mapLocationsOf f rest

/-- Changes every place in a section that may be left out. -/
def mapLocationsIn (f : Location → Location) : Option Clauses → Option Clauses
  | none => none
  | some clauses => some (clauses.mapLocations f)

end

mutual

/-- Every place in a clause: its own, and then the places of its parts. -/
def Clause.locations : Clause → List Location
  | .formula found => found.locations
  | .text found => [found.location]
  | .implication conditions conclusions location | .equivalence conditions conclusions location =>
    location :: (conditions.locations ++ conclusions.locations)
  | .forAll targets suchThat conclusions location =>
    location :: (targets.locations ++ locationsIn suchThat ++ conclusions.locations)
  | .thereIs _ targets suchThat location =>
    location :: (targets.locations ++ locationsIn suchThat)
  | .negation clause location => location :: clause.locations
  | .disjunction clauses location | .matching clauses location => location :: clauses.locations
  | .piecewise conditions conclusions otherwise location =>
    location :: (conditions.locations ++ conclusions.locations ++ locationsIn otherwise)
  | .generated generators conditions location =>
    location :: (generators.locations ++ locationsIn conditions)

def Clauses.locations : Clauses → List Location
  | .mk items location => location :: locationsOf items

def locationsOf : List Clause → List Location
  | [] => []
  | clause :: rest => clause.locations ++ locationsOf rest

/-- Every place in a section that may be left out. -/
def locationsIn : Option Clauses → List Location
  | none => []
  | some clauses => clauses.locations

end

/-! ## Equality -/

mutual

/-- Whether two clauses are equal, places included. -/
def Clause.same : Clause → Clause → Bool
  | .formula found, .formula found' => found == found'
  | .text found, .text found' => found == found'
  | .implication conditions conclusions location, .implication conditions' conclusions' location' =>
    conditions.same conditions' && conclusions.same conclusions' && location == location'
  | .equivalence conditions conclusions location, .equivalence conditions' conclusions' location' =>
    conditions.same conditions' && conclusions.same conclusions' && location == location'
  | .forAll targets suchThat conclusions location,
    .forAll targets' suchThat' conclusions' location' =>
    targets == targets' && sameIn suchThat suchThat' && conclusions.same conclusions'
      && location == location'
  | .thereIs unique targets suchThat location, .thereIs unique' targets' suchThat' location' =>
    unique == unique' && targets == targets' && sameIn suchThat suchThat' && location == location'
  | .negation clause location, .negation clause' location' =>
    clause.same clause' && location == location'
  | .disjunction alternatives location, .disjunction alternatives' location' =>
    alternatives.same alternatives' && location == location'
  | .piecewise conditions conclusions otherwise location,
      .piecewise conditions' conclusions' otherwise' location' =>
    conditions.same conditions' && conclusions.same conclusions' && sameIn otherwise otherwise'
      && location == location'
  | .matching cases location, .matching cases' location' =>
    cases.same cases' && location == location'
  | .generated generators conditions location, .generated generators' conditions' location' =>
    generators == generators' && sameIn conditions conditions' && location == location'
  | _, _ => false

/-- Whether the clauses of two sections are equal, places included. -/
def Clauses.same : Clauses → Clauses → Bool
  | .mk items location, .mk items' location' => sameOf items items' && location == location'

/-- Whether clauses are equal one by one, places included. -/
def sameOf : List Clause → List Clause → Bool
  | [], [] => true
  | clause :: rest, clause' :: rest' => clause.same clause' && sameOf rest rest'
  | _, _ => false

/-- Whether two sections that may be left out are equal, places included. -/
def sameIn : Option Clauses → Option Clauses → Bool
  | none, none => true
  | some clauses, some clauses' => clauses.same clauses'
  | _, _ => false

end

instance : BEq Clause := ⟨Clause.same⟩

instance : BEq Clauses := ⟨Clauses.same⟩

end Treatise.Document
