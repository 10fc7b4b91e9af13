import Treatise.Document.Locations

/-!
# Moving documents

The places inside a formula are relative to the formula. When a text is moved as a whole, they stay,
and every other place moves. Without any places, what has been moved is what it was before.
-/

namespace Treatise.Document

variable (f : Location → Location)

/-! ## Moving -/

/-- Moves a formula. -/
def Formula.relocate (formula : Formula) : Formula :=
  { formula with location := f formula.location }

mutual

def Clause.relocate : Clause → Clause
  | .formula found => .formula (found.relocate f)
  | .text found => .text (found.mapLocations f)
  | .implication conditions conclusions location =>
    .implication conditions.relocate conclusions.relocate (f location)
  | .equivalence conditions conclusions location =>
    .equivalence conditions.relocate conclusions.relocate (f location)
  | .forAll targets suchThat conclusions location =>
    .forAll (targets.mapLocations f) (relocateIn suchThat) conclusions.relocate (f location)
  | .thereIs unique targets suchThat location =>
    .thereIs unique (targets.mapLocations f) (relocateIn suchThat) (f location)
  | .negation clause location => .negation clause.relocate (f location)
  | .disjunction alternatives location => .disjunction alternatives.relocate (f location)
  | .piecewise conditions conclusions otherwise location =>
    .piecewise conditions.relocate conclusions.relocate (relocateIn otherwise) (f location)
  | .matching cases location => .matching cases.relocate (f location)
  | .generated generators conditions location =>
    .generated (generators.mapLocations f) (relocateIn conditions) (f location)

def Clauses.relocate : Clauses → Clauses
  | .mk items location => .mk (relocateOf items) (f location)

def relocateOf : List Clause → List Clause
  | [] => []
  | clause :: rest => clause.relocate :: relocateOf rest

/-- Moves a section that may be left out. -/
def relocateIn : Option Clauses → Option Clauses
  | none => none
  | some clauses => some clauses.relocate

end

def Provision.relocate : Provision → Provision
  | view target via by_ location =>
    .view (target.relocate f) (via.map (·.relocate f)) (by_.map (·.relocate f)) (f location)
  | member targets means location =>
    .member (targets.mapLocations f) (means.relocate f) (f location)

def Provisions.relocate (provisions : Provisions) : Provisions :=
  ⟨provisions.items.map (·.relocate f), f provisions.location⟩

def Defines.relocate (defines : Defines) : Defines where
  id := defines.id.relocate f
  target := defines.target.mapLocations f
  given := defines.given.map (·.mapLocations f)
  when := relocateIn f defines.when
  suchThat := relocateIn f defines.suchThat
  means := relocateIn f defines.means
  satisfying := relocateIn f defines.satisfying
  expressing := relocateIn f defines.expressing
  providing := defines.providing.map (·.relocate f)
  aliases := relocateIn f defines.aliases
  written := defines.written.map (·.mapLocations f)
  called := defines.called.map (·.mapLocations f)
  metadata := defines.metadata.map (·.mapLocations f)
  location := f defines.location

def States.relocate (states : States) : States where
  id := states.id.relocate f
  given := states.given.map (·.mapLocations f)
  when := relocateIn f states.when
  suchThat := relocateIn f states.suchThat
  that := states.that.relocate f
  aliases := relocateIn f states.aliases
  written := states.written.map (·.mapLocations f)
  called := states.called.map (·.mapLocations f)
  metadata := states.metadata.map (·.mapLocations f)
  location := f states.location

def Definition.relocate : Definition → Definition
  | defines found => .defines (found.relocate f)
  | states found => .states (found.relocate f)

def Result.relocate (result : Result) : Result where
  kind := result.kind
  id := result.id.map (·.relocate f)
  names := result.names.mapLocations f
  given := result.given.map (·.mapLocations f)
  setting := relocateIn f result.setting
  hypotheses := relocateIn f result.hypotheses
  equivalents := relocateIn f result.equivalents
  conclusions := result.conclusions.relocate f
  aliases := relocateIn f result.aliases
  proof := relocateIn f result.proof
  metadata := result.metadata.map (·.mapLocations f)
  location := f result.location

def Topic.relocate (topic : Topic) : Topic :=
  ⟨topic.id.relocate f, topic.names.mapLocations f, topic.content.mapLocations f,
    topic.metadata.map (·.mapLocations f), f topic.location⟩

def Resource.relocate (resource : Resource) : Resource :=
  ⟨resource.id.relocate f, resource.fields.map (·.mapLocations f),
    resource.metadata.map (·.mapLocations f), f resource.location⟩

def Entry.relocate : Entry → Entry
  | definition found => .definition (found.relocate f)
  | result found => .result (found.relocate f)
  | topic found => .topic (found.relocate f)
  | resource found => .resource (found.relocate f)
  | foundation found metadata location =>
    .foundation (found.relocate f) (metadata.map (·.mapLocations f)) (f location)
  | mutually found metadata location =>
    .mutually (found.map (·.relocate f)) (metadata.map (·.mapLocations f)) (f location)

theorem relocateIn_eq (found : Option Clauses) :
    relocateIn f found = found.map (Clauses.relocate f) := by
  cases found <;> rfl

end Treatise.Document

/-! ## One change of places after another -/

namespace Treatise.Outline

open Layout (Token)

variable (f g : Location → Location)

@[simp]
theorem mapLocation_mapLocation (token : Token) :
    (token.mapLocation f).mapLocation g = token.mapLocation (g ∘ f) := rfl

mutual

@[simp]
theorem Target.mapLocations_mapLocations (target : Target) :
    (target.mapLocations f).mapLocations g = target.mapLocations (g ∘ f) := by
  match target with
  | .single _ | .enclosed _ _ => simp [Target.mapLocations]
  | .applied _ sub params => cases sub <;> cases params <;> simp [Target.mapLocations]
  | .assignment _ value => simp [Target.mapLocations, value.mapLocations_mapLocations]
  | .tuple items _ => simp [Target.mapLocations, mapLocationsOf_mapLocationsOf items]

theorem mapLocationsOf_mapLocationsOf (targets : List Target) :
    Target.mapLocationsOf g (Target.mapLocationsOf f targets)
      = Target.mapLocationsOf (g ∘ f) targets := by
  match targets with
  | [] => rfl
  | target :: rest =>
    simp [Target.mapLocationsOf, target.mapLocations_mapLocations,
      mapLocationsOf_mapLocationsOf rest]

end

end Treatise.Outline

namespace Treatise.Document

section Twice

variable (f g : Location → Location)

@[simp]
theorem Text.mapLocations_mapLocations (text : Text) :
    (text.mapLocations f).mapLocations g = text.mapLocations (g ∘ f) := rfl

@[simp]
theorem Texts.mapLocations_mapLocations (texts : Texts) :
    (texts.mapLocations f).mapLocations g = texts.mapLocations (g ∘ f) := by
  simp [Texts.mapLocations]

@[simp]
theorem Targets.mapLocations_mapLocations (targets : Targets) :
    (targets.mapLocations f).mapLocations g = targets.mapLocations (g ∘ f) := by
  simp [Targets.mapLocations]

@[simp]
theorem Field.mapLocations_mapLocations (field : Field) :
    (field.mapLocations f).mapLocations g = field.mapLocations (g ∘ f) := rfl

@[simp]
theorem Citation.mapLocations_mapLocations (citation : Citation) :
    (citation.mapLocations f).mapLocations g = citation.mapLocations (g ∘ f) := by
  simp [Citation.mapLocations, Function.comp_def]

@[simp]
theorem MetadataItem.mapLocations_mapLocations (item : MetadataItem) :
    (item.mapLocations f).mapLocations g = item.mapLocations (g ∘ f) := by
  cases item <;> simp [MetadataItem.mapLocations]

@[simp]
theorem Metadata.mapLocations_mapLocations (metadata : Metadata) :
    (metadata.mapLocations f).mapLocations g = metadata.mapLocations (g ∘ f) := by
  simp [Metadata.mapLocations]

end Twice

/-! ## Without places -/

def nowhere (_ : Location) : Location := .nowhere

@[simp]
theorem nowhere_apply (location : Location) : nowhere location = .nowhere := rfl

theorem fun_nowhere : (fun _ : Location => Location.nowhere) = nowhere := rfl

@[simp]
theorem nowhere_comp : nowhere ∘ f = nowhere := rfl

@[simp]
theorem Formula.normalized_relocate (formula : Formula) :
    (formula.relocate f).mapLocations nowhere = formula.mapLocations nowhere := rfl

mutual

@[simp]
theorem Clause.normalized_relocate (clause : Clause) :
    (clause.relocate f).mapLocations nowhere = clause.mapLocations nowhere := by
  match clause with
  | .formula found => rfl
  | .text found => rfl
  | .implication conditions conclusions _ | .equivalence conditions conclusions _ =>
    simp [Clause.relocate, Clause.mapLocations, conditions.normalized_relocate,
      conclusions.normalized_relocate]
  | .forAll _ suchThat conclusions _ =>
    simp [Clause.relocate, Clause.mapLocations, normalized_relocateIn suchThat,
      conclusions.normalized_relocate]
  | .thereIs _ _ suchThat _ =>
    simp [Clause.relocate, Clause.mapLocations, normalized_relocateIn suchThat]
  | .negation clause _ =>
    simp [Clause.relocate, Clause.mapLocations, clause.normalized_relocate]
  | .disjunction clauses _ | .matching clauses _ =>
    simp [Clause.relocate, Clause.mapLocations, clauses.normalized_relocate]
  | .piecewise conditions conclusions otherwise _ =>
    simp [Clause.relocate, Clause.mapLocations, conditions.normalized_relocate,
      conclusions.normalized_relocate, normalized_relocateIn otherwise]
  | .generated _ conditions _ =>
    simp [Clause.relocate, Clause.mapLocations, normalized_relocateIn conditions]

@[simp]
theorem Clauses.normalized_relocate (clauses : Clauses) :
    (clauses.relocate f).mapLocations nowhere = clauses.mapLocations nowhere := by
  match clauses with
  | .mk items _ =>
    simp [Clauses.relocate, Clauses.mapLocations, normalized_relocateOf items]

theorem normalized_relocateOf (clauses : List Clause) :
    mapLocationsOf nowhere (relocateOf f clauses) = mapLocationsOf nowhere clauses := by
  match clauses with
  | [] => rfl
  | clause :: rest =>
    simp [relocateOf, mapLocationsOf, clause.normalized_relocate, normalized_relocateOf rest]

@[simp]
theorem normalized_relocateIn (found : Option Clauses) :
    mapLocationsIn nowhere (relocateIn f found) = mapLocationsIn nowhere found := by
  match found with
  | none => rfl
  | some clauses => simp [relocateIn, mapLocationsIn, clauses.normalized_relocate]

end

@[simp]
theorem Provision.normalized_relocate (provision : Provision) :
    (provision.relocate f).mapLocations nowhere = provision.mapLocations nowhere := by
  cases provision <;>
    simp [Provision.relocate, Provision.mapLocations, Function.comp_def, fun_nowhere]

@[simp]
theorem Provisions.normalized_relocate (provisions : Provisions) :
    (provisions.relocate f).mapLocations nowhere = provisions.mapLocations nowhere := by
  simp [Provisions.relocate, Provisions.mapLocations, Function.comp_def]

@[simp]
theorem Definition.normalized_relocate (definition : Definition) :
    (definition.relocate f).mapLocations nowhere = definition.mapLocations nowhere := by
  cases definition with
  | defines found =>
      simp [Definition.relocate, Definition.mapLocations, Defines.relocate, Defines.mapLocations,
        Function.comp_def, fun_nowhere]
  | states found =>
      simp [Definition.relocate, Definition.mapLocations, States.relocate, States.mapLocations,
        Function.comp_def, fun_nowhere]

/-- Moving an entry changes nothing but places. -/
theorem Entry.normalized_relocate (entry : Entry) :
    (entry.relocate f).normalized = entry.normalized := by
  have same : (entry.relocate f).mapLocations nowhere = entry.mapLocations nowhere := by
    cases entry with
    | definition found => simp [Entry.relocate, Entry.mapLocations]
    | result found =>
        simp [Entry.relocate, Entry.mapLocations, Result.relocate, Result.mapLocations,
          Function.comp_def, fun_nowhere]
    | topic found =>
        simp [Entry.relocate, Entry.mapLocations, Topic.relocate, Function.comp_def, fun_nowhere]
    | resource found =>
        simp [Entry.relocate, Entry.mapLocations, Resource.relocate, Function.comp_def, fun_nowhere]
    | foundation found metadata location =>
        simp [Entry.relocate, Entry.mapLocations, Function.comp_def, fun_nowhere]
    | mutually found metadata location =>
        simp [Entry.relocate, Entry.mapLocations, Function.comp_def, fun_nowhere]
  exact same

end Treatise.Document
