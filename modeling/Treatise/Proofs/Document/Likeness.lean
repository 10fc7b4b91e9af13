import Mathlib.Data.List.Forall2
import Mathlib.Tactic.MkIffOfInductiveProp
import Treatise.Document.Locations
import Treatise.Proofs.Statement.Likeness

/-!
# Documents that are alike

Documents are alike if they say the same in the same order, wherever it stands. Likeness goes
through all of a document: sections, clauses, targets, metadata, the expressions of statements, and
what is wrong with statements that could not be read. The only thing it does not look at is places.

Main statement: documents are equal once normalized if and only if they are alike.
-/

open Treatise.Layout (Token)
open Treatise.Statement (Expr)

namespace Treatise

/-! ## Lists and parts that may be left out -/

section Pointwise

variable {α β : Type} {f : α → β} {related : α → α → Prop}
  (pointwise : ∀ first second, f first = f second ↔ related first second)

include pointwise

theorem map_eq_map_iff_forall₂ {first second : List α} :
    first.map f = second.map f ↔ List.Forall₂ related first second := by
  rw [← List.forall₂_eq_eq_eq, List.forall₂_map_left_iff, List.forall₂_map_right_iff]
  simp only [pointwise]

theorem option_map_eq_map_iff_rel {first second : Option α} :
    first.map f = second.map f ↔ Option.Rel related first second := by
  constructor
  · intro same
    cases first <;> cases second <;> simp at same
    · exact .none
    · exact .some ((pointwise _ _).mp same)
  · rintro (like | _)
    · exact congrArg some ((pointwise _ _).mpr like)
    · rfl

end Pointwise

/-! ## Targets -/

/-- The tokens differ in nothing but their places. -/
def Layout.Token.Alike (first second : Token) : Prop :=
  first.kind = second.kind ∧ first.text = second.text

namespace Outline

mutual

theorem Target.same_iff (first second : Target) : first.same second = true ↔ first = second := by
  match first with
  | .single _ | .enclosed _ _ | .applied _ _ _ => cases second <;> simp [Target.same, and_assoc]
  | .assignment _ value => cases second <;> simp [Target.same, value.same_iff]
  | .tuple items _ => cases second <;> simp [Target.same, sameAll_iff items]
termination_by structural first

theorem sameAll_iff (first second : List Target) :
    Target.sameAll first second = true ↔ first = second := by
  match first with
  | [] => cases second <;> simp [Target.sameAll]
  | item :: rest => cases second <;> simp [Target.sameAll, item.same_iff, sameAll_iff rest]
termination_by structural first

end

instance : LawfulBEq Target where
  eq_of_beq same := (Target.same_iff _ _).mp same
  rfl := (Target.same_iff _ _).mpr rfl

mutual

/-- The targets differ in nothing but the places they carry. -/
def Target.Alike : Target → Target → Prop
  | .single token, .single token' => token.Alike token'
  | .enclosed params _, .enclosed params' _ => List.Forall₂ Token.Alike params params'
  | .applied name sub params, .applied name' sub' params' =>
    name.Alike name' ∧ Option.Rel (List.Forall₂ Token.Alike) sub sub'
      ∧ Option.Rel (List.Forall₂ Token.Alike) params params'
  | .assignment name value, .assignment name' value' => name.Alike name' ∧ value.Alike value'
  | .tuple items _, .tuple items' _ => AllAlike items items'
  | _, _ => False
termination_by structural first => first

/-- The targets are alike one by one. -/
def AllAlike : List Target → List Target → Prop
  | [], [] => True
  | item :: rest, item' :: rest' => item.Alike item' ∧ AllAlike rest rest'
  | _, _ => False
termination_by structural first => first

end

section Erasing

variable (place : Location)

theorem mapLocation_eq_iff (first second : Token) :
    first.mapLocation (fun _ => place) = second.mapLocation (fun _ => place)
      ↔ first.Alike second := by
  simp [Layout.Token.mapLocation, Layout.Token.Alike]

theorem names_eq_iff (first second : List Token) :
    first.map (fun token => token.mapLocation fun _ => place)
        = second.map (fun token => token.mapLocation fun _ => place)
      ↔ List.Forall₂ Token.Alike first second :=
  map_eq_map_iff_forall₂ (mapLocation_eq_iff place)

mutual

theorem Target.mapLocations_eq_iff (first second : Target) :
    first.mapLocations (fun _ => place) = second.mapLocations (fun _ => place)
      ↔ first.Alike second := by
  match first with
  | .single _ => cases second <;> simp [Target.mapLocations, Target.Alike, mapLocation_eq_iff]
  | .enclosed _ _ => cases second <;> simp [Target.mapLocations, Target.Alike, names_eq_iff]
  | .applied _ _ _ =>
    cases second <;> simp [Target.mapLocations, Target.Alike, mapLocation_eq_iff,
      option_map_eq_map_iff_rel (names_eq_iff place)]
  | .assignment _ value =>
    cases second <;>
      simp [Target.mapLocations, Target.Alike, mapLocation_eq_iff, value.mapLocations_eq_iff]
  | .tuple items _ =>
    cases second <;> simp [Target.mapLocations, Target.Alike, mapLocationsOf_eq_iff items]
termination_by structural first

theorem mapLocationsOf_eq_iff (first second : List Target) :
    Target.mapLocationsOf (fun _ => place) first = Target.mapLocationsOf (fun _ => place) second
      ↔ AllAlike first second := by
  match first with
  | [] => cases second <;> simp [Target.mapLocationsOf, AllAlike]
  | item :: rest =>
    cases second <;> simp [Target.mapLocationsOf, AllAlike, item.mapLocations_eq_iff,
      mapLocationsOf_eq_iff rest]
termination_by structural first

end

end Erasing

end Outline

namespace Document

open Outline (Target)

/-! ## Leaves -/

theorem Formula.same_iff (first second : Formula) : first.same second = true ↔ first = second := by
  rcases first with ⟨text, reading, location⟩
  rcases second with ⟨text', reading', location'⟩
  cases reading <;> cases reading' <;> simp [Formula.same, and_assoc]

instance : LawfulBEq Formula where
  eq_of_beq same := (Formula.same_iff _ _).mp same
  rfl := (Formula.same_iff _ _).mpr rfl

deriving instance ReflBEq, LawfulBEq for Targets

/-- Both can be read, as expressions that are alike, or neither can, for the same faults in
order. -/
def ReadingsAlike :
    Except (List (Located Statement.Fault)) Expr →
      Except (List (Located Statement.Fault)) Expr → Prop
  | .ok expr, .ok expr' => expr.Alike expr'
  | .error faults, .error faults' =>
    List.Forall₂ (fun found found' => found.value = found'.value) faults faults'
  | _, _ => False

@[mk_iff]
structure Formula.Alike (first second : Formula) : Prop where
  text : first.text = second.text
  reading : ReadingsAlike first.reading second.reading

def Text.Alike (first second : Text) : Prop :=
  first.text = second.text

def Texts.Alike (first second : Texts) : Prop :=
  List.Forall₂ Text.Alike first.items second.items

def Targets.Alike (first second : Targets) : Prop :=
  List.Forall₂ Target.Alike first.items second.items

/-! ## Clauses -/

mutual

theorem Clause.same_iff (first second : Clause) : first.same second = true ↔ first = second := by
  match first with
  | .formula _ | .text _ => cases second <;> simp [Clause.same]
  | .implication conditions conclusions _ | .equivalence conditions conclusions _ =>
    cases second <;> simp [Clause.same, conditions.same_iff, conclusions.same_iff, and_assoc]
  | .forAll _ suchThat conclusions _ =>
    cases second <;> simp [Clause.same, sameIn_iff suchThat, conclusions.same_iff, and_assoc]
  | .thereIs _ _ suchThat _ => cases second <;> simp [Clause.same, sameIn_iff suchThat, and_assoc]
  | .negation clause _ => cases second <;> simp [Clause.same, clause.same_iff]
  | .disjunction clauses _ | .matching clauses _ =>
      cases second <;> simp [Clause.same, clauses.same_iff]
  | .piecewise conditions conclusions otherwise _ =>
    cases second <;> simp [Clause.same, conditions.same_iff, conclusions.same_iff,
      sameIn_iff otherwise, and_assoc]
  | .generated _ conditions _ =>
    cases second <;> simp [Clause.same, sameIn_iff conditions, and_assoc]
termination_by structural first

theorem Clauses.same_iff (first second : Clauses) : first.same second = true ↔ first = second := by
  match first with
  | .mk items _ => cases second with | mk items' _ => simp [Clauses.same, sameOf_iff items]
termination_by structural first

theorem sameOf_iff (first second : List Clause) : sameOf first second = true ↔ first = second := by
  match first with
  | [] => cases second <;> simp [sameOf]
  | clause :: rest => cases second <;> simp [sameOf, clause.same_iff, sameOf_iff rest]
termination_by structural first

theorem sameIn_iff (first second : Option Clauses) :
    sameIn first second = true ↔ first = second := by
  match first with
  | none => cases second <;> simp [sameIn]
  | some clauses => cases second <;> simp [sameIn, clauses.same_iff]
termination_by structural first

end

instance : LawfulBEq Clause where
  eq_of_beq same := (Clause.same_iff _ _).mp same
  rfl := (Clause.same_iff _ _).mpr rfl

instance : LawfulBEq Clauses where
  eq_of_beq same := (Clauses.same_iff _ _).mp same
  rfl := (Clauses.same_iff _ _).mpr rfl

mutual

/-- The clauses differ in nothing but the places they carry. -/
def Clause.Alike : Clause → Clause → Prop
  | .formula found, .formula found' => found.Alike found'
  | .text found, .text found' => found.Alike found'
  | .implication conditions conclusions _, .implication conditions' conclusions' _ =>
    conditions.Alike conditions' ∧ conclusions.Alike conclusions'
  | .equivalence conditions conclusions _, .equivalence conditions' conclusions' _ =>
    conditions.Alike conditions' ∧ conclusions.Alike conclusions'
  | .forAll targets suchThat conclusions _, .forAll targets' suchThat' conclusions' _ =>
    targets.Alike targets' ∧ AlikeIn suchThat suchThat' ∧ conclusions.Alike conclusions'
  | .thereIs unique targets suchThat _, .thereIs unique' targets' suchThat' _ =>
    unique = unique' ∧ targets.Alike targets' ∧ AlikeIn suchThat suchThat'
  | .negation clause _, .negation clause' _ => clause.Alike clause'
  | .disjunction alternatives _, .disjunction alternatives' _ => alternatives.Alike alternatives'
  | .piecewise conditions conclusions otherwise _,
    .piecewise conditions' conclusions' otherwise' _ =>
    conditions.Alike conditions' ∧ conclusions.Alike conclusions' ∧ AlikeIn otherwise otherwise'
  | .matching cases _, .matching cases' _ => cases.Alike cases'
  | .generated generators conditions _, .generated generators' conditions' _ =>
    generators.Alike generators' ∧ AlikeIn conditions conditions'
  | _, _ => False
termination_by structural first => first

def Clauses.Alike : Clauses → Clauses → Prop
  | .mk items _, .mk items' _ => AlikeOf items items'
termination_by structural first => first

/-- The clauses are alike one by one. -/
def AlikeOf : List Clause → List Clause → Prop
  | [], [] => True
  | clause :: rest, clause' :: rest' => clause.Alike clause' ∧ AlikeOf rest rest'
  | _, _ => False
termination_by structural first => first

/-- Both sections are left out, or neither is and they are alike. -/
def AlikeIn : Option Clauses → Option Clauses → Prop
  | none, none => True
  | some clauses, some clauses' => clauses.Alike clauses'
  | _, _ => False
termination_by structural first => first

end

section Erasing

variable (place : Location)

theorem Formula.mapLocations_eq_iff (first second : Formula) :
    first.mapLocations (fun _ => place) = second.mapLocations (fun _ => place)
      ↔ first.Alike second := by
  rcases first with ⟨text, reading, location⟩
  rcases second with ⟨text', reading', location'⟩
  have faults : ∀ first second : Located Statement.Fault,
      (⟨place, first.value⟩ : Located Statement.Fault) = ⟨place, second.value⟩
        ↔ first.value = second.value := by
    simp
  cases reading <;> cases reading' <;>
    simp [Formula.mapLocations, Formula.alike_iff, ReadingsAlike, Expr.mapLocations_eq_iff,
      map_eq_map_iff_forall₂ faults]

theorem Text.mapLocations_eq_iff (first second : Text) :
    first.mapLocations (fun _ => place) = second.mapLocations (fun _ => place)
      ↔ first.Alike second := by
  simp [Text.mapLocations, Text.Alike]

theorem Texts.mapLocations_eq_iff (first second : Texts) :
    first.mapLocations (fun _ => place) = second.mapLocations (fun _ => place)
      ↔ first.Alike second := by
  simp [Texts.mapLocations, Texts.Alike, map_eq_map_iff_forall₂ (Text.mapLocations_eq_iff place)]

theorem Targets.mapLocations_eq_iff (first second : Targets) :
    first.mapLocations (fun _ => place) = second.mapLocations (fun _ => place)
      ↔ first.Alike second := by
  simp [Targets.mapLocations, Targets.Alike,
    map_eq_map_iff_forall₂ (Target.mapLocations_eq_iff place)]

mutual

theorem Clause.mapLocations_eq_iff (first second : Clause) :
    first.mapLocations (fun _ => place) = second.mapLocations (fun _ => place)
      ↔ first.Alike second := by
  match first with
  | .formula _ | .text _ =>
    cases second <;> simp [Clause.mapLocations, Clause.Alike, Formula.mapLocations_eq_iff,
      Text.mapLocations_eq_iff]
  | .implication conditions conclusions _ | .equivalence conditions conclusions _ =>
    cases second <;> simp [Clause.mapLocations, Clause.Alike, conditions.mapLocations_eq_iff,
      conclusions.mapLocations_eq_iff]
  | .forAll _ suchThat conclusions _ =>
    cases second <;> simp [Clause.mapLocations, Clause.Alike, Targets.mapLocations_eq_iff,
      mapLocationsIn_eq_iff suchThat, conclusions.mapLocations_eq_iff]
  | .thereIs _ _ suchThat _ =>
    cases second <;> simp [Clause.mapLocations, Clause.Alike, Targets.mapLocations_eq_iff,
      mapLocationsIn_eq_iff suchThat]
  | .negation clause _ =>
    cases second <;> simp [Clause.mapLocations, Clause.Alike, clause.mapLocations_eq_iff]
  | .disjunction clauses _ | .matching clauses _ =>
    cases second <;> simp [Clause.mapLocations, Clause.Alike, clauses.mapLocations_eq_iff]
  | .piecewise conditions conclusions otherwise _ =>
    cases second <;> simp [Clause.mapLocations, Clause.Alike, conditions.mapLocations_eq_iff,
      conclusions.mapLocations_eq_iff, mapLocationsIn_eq_iff otherwise]
  | .generated _ conditions _ =>
    cases second <;> simp [Clause.mapLocations, Clause.Alike, Targets.mapLocations_eq_iff,
      mapLocationsIn_eq_iff conditions]
termination_by structural first

theorem Clauses.mapLocations_eq_iff (first second : Clauses) :
    first.mapLocations (fun _ => place) = second.mapLocations (fun _ => place)
      ↔ first.Alike second := by
  match first with
  | .mk items _ =>
    cases second with
    | mk _ _ => simp [Clauses.mapLocations, Clauses.Alike, mapLocationsOf_eq_iff items]
termination_by structural first

theorem mapLocationsOf_eq_iff (first second : List Clause) :
    mapLocationsOf (fun _ => place) first = mapLocationsOf (fun _ => place) second
      ↔ AlikeOf first second := by
  match first with
  | [] => cases second <;> simp [mapLocationsOf, AlikeOf]
  | clause :: rest =>
    cases second <;>
      simp [mapLocationsOf, AlikeOf, clause.mapLocations_eq_iff, mapLocationsOf_eq_iff rest]
termination_by structural first

theorem mapLocationsIn_eq_iff (first second : Option Clauses) :
    mapLocationsIn (fun _ => place) first = mapLocationsIn (fun _ => place) second
      ↔ AlikeIn first second := by
  match first with
  | none => cases second <;> simp [mapLocationsIn, AlikeIn]
  | some clauses => cases second <;> simp [mapLocationsIn, AlikeIn, clauses.mapLocations_eq_iff]
termination_by structural first

end

end Erasing

/-! ## Entries -/

deriving instance ReflBEq, LawfulBEq for Provision

deriving instance ReflBEq, LawfulBEq for Provisions

deriving instance ReflBEq, LawfulBEq for Defines

deriving instance ReflBEq, LawfulBEq for States

deriving instance ReflBEq, LawfulBEq for Definition

deriving instance ReflBEq, LawfulBEq for Result

deriving instance ReflBEq, LawfulBEq for Topic

deriving instance ReflBEq, LawfulBEq for Resource

deriving instance ReflBEq, LawfulBEq for Entry

deriving instance ReflBEq, LawfulBEq for Treatise.Document

@[mk_iff]
structure Field.Alike (first second : Field) : Prop where
  key : first.key = second.key
  value : first.value.Alike second.value

@[mk_iff]
structure Citation.Alike (first second : Citation) : Prop where
  source : first.source.Alike second.source
  page : Option.Rel Text.Alike first.page second.page
  offset : Option.Rel Text.Alike first.offset second.offset

def MetadataItem.Alike : MetadataItem → MetadataItem → Prop
  | reference citations _, .reference citations' _ =>
      List.Forall₂ Citation.Alike citations citations'
  | tags found, .tags found' => found.Alike found'
  | field found, .field found' => found.Alike found'
  | _, _ => False

def Metadata.Alike (first second : Metadata) : Prop :=
  List.Forall₂ MetadataItem.Alike first.items second.items

def Provision.Alike : Provision → Provision → Prop
  | view target via by_ _, .view target' via' by_' _ =>
    target.Alike target' ∧ Option.Rel Formula.Alike via via' ∧ Option.Rel Formula.Alike by_ by_'
  | member targets means _, .member targets' means' _ => targets.Alike targets' ∧ means.Alike means'
  | _, _ => False

def Provisions.Alike (first second : Provisions) : Prop :=
  List.Forall₂ Provision.Alike first.items second.items

@[mk_iff]
structure Defines.Alike (first second : Defines) : Prop where
  id : first.id.Alike second.id
  target : first.target.Alike second.target
  given : Option.Rel Targets.Alike first.given second.given
  when : AlikeIn first.when second.when
  suchThat : AlikeIn first.suchThat second.suchThat
  means : AlikeIn first.means second.means
  satisfying : AlikeIn first.satisfying second.satisfying
  expressing : AlikeIn first.expressing second.expressing
  providing : Option.Rel Provisions.Alike first.providing second.providing
  aliases : AlikeIn first.aliases second.aliases
  written : Option.Rel Texts.Alike first.written second.written
  called : Option.Rel Texts.Alike first.called second.called
  metadata : Option.Rel Metadata.Alike first.metadata second.metadata

@[mk_iff]
structure States.Alike (first second : States) : Prop where
  id : first.id.Alike second.id
  given : Option.Rel Targets.Alike first.given second.given
  when : AlikeIn first.when second.when
  suchThat : AlikeIn first.suchThat second.suchThat
  that : first.that.Alike second.that
  aliases : AlikeIn first.aliases second.aliases
  written : Option.Rel Texts.Alike first.written second.written
  called : Option.Rel Texts.Alike first.called second.called
  metadata : Option.Rel Metadata.Alike first.metadata second.metadata

def Definition.Alike : Definition → Definition → Prop
  | defines found, .defines found' => found.Alike found'
  | states found, .states found' => found.Alike found'
  | _, _ => False

@[mk_iff]
structure Result.Alike (first second : Result) : Prop where
  kind : first.kind = second.kind
  id : Option.Rel Formula.Alike first.id second.id
  names : first.names.Alike second.names
  given : Option.Rel Targets.Alike first.given second.given
  setting : AlikeIn first.setting second.setting
  hypotheses : AlikeIn first.hypotheses second.hypotheses
  equivalents : AlikeIn first.equivalents second.equivalents
  conclusions : first.conclusions.Alike second.conclusions
  aliases : AlikeIn first.aliases second.aliases
  proof : AlikeIn first.proof second.proof
  metadata : Option.Rel Metadata.Alike first.metadata second.metadata

@[mk_iff]
structure Topic.Alike (first second : Topic) : Prop where
  id : first.id.Alike second.id
  names : first.names.Alike second.names
  content : first.content.Alike second.content
  metadata : Option.Rel Metadata.Alike first.metadata second.metadata

@[mk_iff]
structure Resource.Alike (first second : Resource) : Prop where
  id : first.id.Alike second.id
  fields : List.Forall₂ Field.Alike first.fields second.fields
  metadata : Option.Rel Metadata.Alike first.metadata second.metadata

/-- The entries differ in nothing but the places they carry. -/
def Entry.Alike : Entry → Entry → Prop
  | definition found, .definition found' => found.Alike found'
  | result found, .result found' => found.Alike found'
  | topic found, .topic found' => found.Alike found'
  | resource found, .resource found' => found.Alike found'
  | foundation found metadata _, .foundation found' metadata' _ =>
    found.Alike found' ∧ Option.Rel Metadata.Alike metadata metadata'
  | mutually found metadata _, .mutually found' metadata' _ =>
    List.Forall₂ Definition.Alike found found' ∧ Option.Rel Metadata.Alike metadata metadata'
  | _, _ => False

section Erasing

variable (place : Location)

theorem Field.mapLocations_eq_iff (first second : Field) :
    first.mapLocations (fun _ => place) = second.mapLocations (fun _ => place)
      ↔ first.Alike second := by
  simp [Field.mapLocations, Field.alike_iff, Text.mapLocations_eq_iff]

theorem Citation.mapLocations_eq_iff (first second : Citation) :
    first.mapLocations (fun _ => place) = second.mapLocations (fun _ => place)
      ↔ first.Alike second := by
  simp [Citation.mapLocations, Citation.alike_iff, Text.mapLocations_eq_iff,
    option_map_eq_map_iff_rel (Text.mapLocations_eq_iff place)]

theorem MetadataItem.mapLocations_eq_iff (first second : MetadataItem) :
    first.mapLocations (fun _ => place) = second.mapLocations (fun _ => place)
      ↔ first.Alike second := by
  cases first <;> cases second <;>
    simp [MetadataItem.mapLocations, MetadataItem.Alike, Texts.mapLocations_eq_iff,
      Field.mapLocations_eq_iff, map_eq_map_iff_forall₂ (Citation.mapLocations_eq_iff place)]

theorem Metadata.mapLocations_eq_iff (first second : Metadata) :
    first.mapLocations (fun _ => place) = second.mapLocations (fun _ => place)
      ↔ first.Alike second := by
  simp [Metadata.mapLocations, Metadata.Alike,
    map_eq_map_iff_forall₂ (MetadataItem.mapLocations_eq_iff place)]

theorem Provision.mapLocations_eq_iff (first second : Provision) :
    first.mapLocations (fun _ => place) = second.mapLocations (fun _ => place)
      ↔ first.Alike second := by
  cases first <;> cases second <;>
    simp [Provision.mapLocations, Provision.Alike, Formula.mapLocations_eq_iff,
      Targets.mapLocations_eq_iff, Clauses.mapLocations_eq_iff,
      option_map_eq_map_iff_rel (Formula.mapLocations_eq_iff place)]

theorem Provisions.mapLocations_eq_iff (first second : Provisions) :
    first.mapLocations (fun _ => place) = second.mapLocations (fun _ => place)
      ↔ first.Alike second := by
  simp [Provisions.mapLocations, Provisions.Alike,
    map_eq_map_iff_forall₂ (Provision.mapLocations_eq_iff place)]

theorem Defines.mapLocations_eq_iff (first second : Defines) :
    first.mapLocations (fun _ => place) = second.mapLocations (fun _ => place)
      ↔ first.Alike second := by
  simp [Defines.mapLocations, Defines.alike_iff, Formula.mapLocations_eq_iff,
    Target.mapLocations_eq_iff, mapLocationsIn_eq_iff,
    option_map_eq_map_iff_rel (Targets.mapLocations_eq_iff place),
    option_map_eq_map_iff_rel (Provisions.mapLocations_eq_iff place),
    option_map_eq_map_iff_rel (Texts.mapLocations_eq_iff place),
    option_map_eq_map_iff_rel (Metadata.mapLocations_eq_iff place)]

theorem States.mapLocations_eq_iff (first second : States) :
    first.mapLocations (fun _ => place) = second.mapLocations (fun _ => place)
      ↔ first.Alike second := by
  simp [States.mapLocations, States.alike_iff, Formula.mapLocations_eq_iff,
    Clauses.mapLocations_eq_iff, mapLocationsIn_eq_iff,
    option_map_eq_map_iff_rel (Targets.mapLocations_eq_iff place),
    option_map_eq_map_iff_rel (Texts.mapLocations_eq_iff place),
    option_map_eq_map_iff_rel (Metadata.mapLocations_eq_iff place)]

theorem Definition.mapLocations_eq_iff (first second : Definition) :
    first.mapLocations (fun _ => place) = second.mapLocations (fun _ => place)
      ↔ first.Alike second := by
  cases first <;> cases second <;>
    simp [Definition.mapLocations, Definition.Alike, Defines.mapLocations_eq_iff,
      States.mapLocations_eq_iff]

theorem Result.mapLocations_eq_iff (first second : Result) :
    first.mapLocations (fun _ => place) = second.mapLocations (fun _ => place)
      ↔ first.Alike second := by
  simp [Result.mapLocations, Result.alike_iff, Texts.mapLocations_eq_iff,
    Clauses.mapLocations_eq_iff, mapLocationsIn_eq_iff,
    option_map_eq_map_iff_rel (Formula.mapLocations_eq_iff place),
    option_map_eq_map_iff_rel (Targets.mapLocations_eq_iff place),
    option_map_eq_map_iff_rel (Metadata.mapLocations_eq_iff place)]

theorem Entry.mapLocations_eq_iff (first second : Entry) :
    first.mapLocations (fun _ => place) = second.mapLocations (fun _ => place)
      ↔ first.Alike second := by
  have metadata : ∀ first second : Option Metadata,
      first.map (fun found => found.mapLocations fun _ => place)
          = second.map (fun found => found.mapLocations fun _ => place)
        ↔ Option.Rel Metadata.Alike first second :=
    fun _ _ => option_map_eq_map_iff_rel (Metadata.mapLocations_eq_iff place)
  cases first with
  | definition _ =>
      cases second <;> simp [Entry.mapLocations, Entry.Alike, Definition.mapLocations_eq_iff]
  | result _ => cases second <;> simp [Entry.mapLocations, Entry.Alike, Result.mapLocations_eq_iff]
  | topic _ =>
      cases second <;> simp [Entry.mapLocations, Entry.Alike, Topic.alike_iff,
        Formula.mapLocations_eq_iff, Texts.mapLocations_eq_iff, Text.mapLocations_eq_iff, metadata]
  | resource _ =>
      cases second <;> simp [Entry.mapLocations, Entry.Alike, Resource.alike_iff,
        Formula.mapLocations_eq_iff, map_eq_map_iff_forall₂ (Field.mapLocations_eq_iff place),
        metadata]
  | foundation _ _ _ =>
      cases second <;>
        simp [Entry.mapLocations, Entry.Alike, Definition.mapLocations_eq_iff, metadata]
  | mutually _ _ _ =>
      cases second <;> simp [Entry.mapLocations, Entry.Alike,
        map_eq_map_iff_forall₂ (Definition.mapLocations_eq_iff place), metadata]

end Erasing

theorem Entry.normalized_eq_iff (first second : Entry) :
    first.normalized = second.normalized ↔ first.Alike second :=
  Entry.mapLocations_eq_iff .nowhere first second

/-- The documents have entries that are alike one by one. -/
def Alike (first second : Document) : Prop :=
  List.Forall₂ Entry.Alike first.entries second.entries

/-- Documents are found equal once normalized if and only if they are alike. -/
theorem normalized_beq_iff (first second : Document) :
    (first.normalized == second.normalized) = true ↔ first.Alike second := by
  rw [beq_iff_eq]
  simp only [normalized, mk.injEq]
  exact map_eq_map_iff_forall₂ Entry.normalized_eq_iff

end Document

end Treatise
