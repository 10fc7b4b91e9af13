import Treatise.Document.Leaf
import Treatise.Outline.Reading

/-!
# The shape of groups

A group in an outline is accepted as an entry or a clause when its sections have the right names in
the right order. What sections are expected is written as a list of names, with a question mark
after those that may be left out. The sections themselves hold targets, formulas, texts or groups,
and there is one function for each way of reading them.

Nothing stops the reading: where something is wrong it is reported, and a blank stands in.
-/

namespace Treatise.Document

open Layout (Token TokenKind)
open Outline (Argument Section Target)

/-- What can be wrong with the shape of a group. -/
inductive Fault where
  | duplicateSection (name : String)
  | unexpectedSection (name : String)
  | missingSection (name : String)
  | noId
  | unexpectedId
  | argumentsGiven
  | noSingleArgument
  | noArguments
  | noTarget
  | noFormula
  | noText
  | noGroup
  | noSingleSection
  | noClause
  | noProvision
  | noDefinition
  | noEntry (heading : String)
  deriving DecidableEq, Repr

/-- What is said about a fault. -/
def Fault.message : Fault → String
  | duplicateSection name => "Duplicate section " ++ name
  | unexpectedSection name => "Unexpected section " ++ name
  | missingSection name => "Expected a section named " ++ name
  | noId => "Expected an id"
  | unexpectedId => "Unexpected id"
  | argumentsGiven => "Expected no arguments"
  | noSingleArgument => "Expected a single argument"
  | noArguments => "Expected at least one argument"
  | noTarget => "Expected a target"
  | noFormula => "Expected a statement"
  | noText => "Expected a string"
  | noGroup => "Expected a group"
  | noSingleSection => "Expected a single section"
  | noClause => "Expected a clause"
  | noProvision => "Expected a view or member group"
  | noDefinition => "Expected a Defines or States group"
  | noEntry heading => "Expected a top level group but found " ++ heading

/-- The diagnostic of a fault found at a place. -/
def Fault.diagnostic (fault : Located Fault) : Diagnostic :=
  Diagnostic.ofLocated .structural Fault.message fault

/-! ## Sections -/

/-- A section that a group is expected to have. -/
structure Expectation where
  name : String
  isOptional : Bool
  deriving DecidableEq, Repr

/-- Reads a name; a question mark at its end says that the section may be left out. -/
def Expectation.ofString (text : String) : Expectation :=
  let name := text.toList
  if name.getLast? = some '?' then ⟨String.ofList name.dropLast, true⟩ else ⟨text, false⟩

/-- Reports the sections that were expected and may not be left out. -/
def reportMissing (location : Location) : List Expectation → Review Fault Unit
  | [] => pure ()
  | expected :: rest => do
    Review.require expected.isOptional location (.missingSection expected.name)
    reportMissing location rest

/-- Splits expectations at the first one of a name: those before it and those after it. -/
def splitAtName (name : String) : List Expectation → Option (List Expectation × List Expectation)
  | [] => none
  | expected :: rest =>
    if expected.name = name then some ([], rest)
    else (splitAtName name rest).map fun (before, after) => (expected :: before, after)

/-- Sections, or what has been made of them, under the names that they are expected by. -/
structure Sections (α : Type) where
  found : List (String × α)
  deriving Repr

namespace Sections

variable {α : Type}

def empty : Sections α := ⟨[]⟩

/-- Sections that may have been found count as true if they have been. -/
instance : CoeOut (Option (Sections α)) Bool := ⟨Option.isSome⟩

/-- What there is under a name. -/
def get? (sections : Sections α) (name : String) : Option α :=
  sections.found.lookup name

def contains (sections : Sections α) (name : String) : Bool :=
  (sections.get? name).isSome

/-- Puts something under a name that there is nothing under yet. -/
def insert (sections : Sections α) (name : String) (value : α) : Sections α :=
  ⟨sections.found ++ [(name, value)]⟩

end Sections

section Identification

variable {α β : Type} (origin : α → Section)

/-- Goes through what was made of sections in one pass; `origin` says of which section. A section is
accepted if it is expected and none was accepted under its name before; the expected sections that
it passes over are missing. `location` is the place of what is missing at the end. -/
def identifyFrom (location : Location) (sections : Sections α) (expected : List Expectation) :
    List α → Review Fault (Sections α)
  | [] => do
    reportMissing location expected
    return sections
  | value :: rest =>
    let part := origin value
    if sections.contains part.name then do
      Review.report part.location (.duplicateSection part.name)
      identifyFrom location sections expected rest
    else
      match splitAtName part.name expected with
      | some (passed, after) => do
        reportMissing part.location passed
        identifyFrom location (sections.insert part.name value) after rest
      | none => do
        Review.report part.location (.unexpectedSection part.name)
        identifyFrom location sections expected rest

/-- What was made of sections by their names, if they are those that are expected. -/
def identifyBy (location : Location) (expected : List Expectation) (values : List α) :
    Review Fault (Option (Sections α)) :=
  let found := identifyFrom origin location .empty expected values
  ⟨if found.problems.isEmpty then some found.value else none, found.problems⟩

/-- Reads sections if they are those that are expected, and otherwise yields a stand-in. -/
def shapedBy (location : Location) (values : List α) (expected : List String) (otherwise : β)
    (read : Sections α → Review Fault β) : Review Fault β := do
  match ← identifyBy origin location (expected.map Expectation.ofString) values with
  | some sections => read sections
  | none => return otherwise

end Identification

/-- The sections of a group by their names, if they are those that are expected. -/
def identify (expected : List Expectation) (group : Outline.Group) :
    Review Fault (Option (Sections Section)) :=
  identifyBy id group.location expected group.sections

/-- Reads a group if its sections are those that are expected, and otherwise yields a stand-in. -/
def shaped {α : Type} (group : Outline.Group) (expected : List String) (otherwise : α)
    (read : Sections Section → Review Fault α) : Review Fault α :=
  shapedBy id group.location group.sections expected otherwise read

/-- The section of a group that has a name, the first one if there are several. -/
def section? (group : Outline.Group) (name : String) : Option Section :=
  group.sections.find? fun part => part.name = name

section Lookup

variable {α β : Type}

/-- Reads the section of a name. -/
def required [Inhabited β] (sections : Sections α) (name : String) (read : α → Review Fault β) :
    Review Fault β :=
  match sections.get? name with
  | some part => read part
  | none => return default

/-- Reads the section of a name if it is there. -/
def whenPresent (sections : Sections α) (name : String) (read : α → Review Fault β) :
    Review Fault (Option β) :=
  match sections.get? name with
  | some part => do return some (← read part)
  | none => return none

end Lookup

/-! ## Arguments -/

/-- The argument of a section that has exactly one. -/
def singleArgument (part : Section) : Review Fault (Option Argument) := do
  match part.arguments with
  | [argument] => return some argument
  | _ =>
    Review.report part.location .noSingleArgument
    return none

/-- Checks that a section has no arguments. -/
def noArguments (part : Section) : Review Fault Unit :=
  match part.arguments with
  | [] => return ()
  | argument :: _ => Review.report argument.location .argumentsGiven

/-- The token of an argument that is a single token of a given kind. -/
def tokenOf? (kind : TokenKind) : Argument → Option Token
  | .target leaf => leaf.tokenOf? kind
  | .group _ => none

/-- Reads an argument as a formula. -/
def formula (argument : Argument) : Review Fault Formula := do
  match tokenOf? (.literal .statement) argument with
  | some token => return .ofToken token
  | none =>
    Review.report argument.location .noFormula
    return .blank

/-- Reads an argument as a text. -/
def text (argument : Argument) : Review Fault Text := do
  match tokenOf? (.literal .string) argument with
  | some token => return .ofToken token
  | none =>
    Review.report argument.location .noText
    return .blank

def targetsOf : List Argument → Review Fault (List Target)
  | [] => return []
  | .target leaf :: rest => do return leaf :: (← targetsOf rest)
  | .group inner :: rest => do
    Review.report inner.location .noTarget
    targetsOf rest

def groupsOf : List Argument → Review Fault (List Outline.Group)
  | [] => return []
  | .group inner :: rest => do return inner :: (← groupsOf rest)
  | .target leaf :: rest => do
    Review.report leaf.location .noGroup
    groupsOf rest

/-- Reads every argument as a text. -/
def textsOf : List Argument → Review Fault (List Text)
  | [] => return []
  | argument :: rest => do return (← text argument) :: (← textsOf rest)

/-! ## The content of a section -/

/-- Reads a section that holds one formula. -/
def singleFormula (part : Section) : Review Fault Formula := do
  match ← singleArgument part with
  | some argument => formula argument
  | none => return .blank

/-- Reads a section that holds one text. -/
def singleText (part : Section) : Review Fault Text := do
  match ← singleArgument part with
  | some argument => text argument
  | none => return .blank

/-- Reads a section that holds one target. -/
def singleTarget (part : Section) : Review Fault (Option Target) := do
  match ← singleArgument part with
  | some (.target leaf) => return some leaf
  | some (.group inner) =>
    Review.report inner.location .noTarget
    return none
  | none => return none

/-- Reads a section that holds texts. -/
def texts (part : Section) : Review Fault Texts := do
  return ⟨← textsOf part.arguments, part.location⟩

/-- Reads a section that holds targets, at least one. -/
def targets (part : Section) : Review Fault Targets := do
  Review.require (!part.arguments.isEmpty) part.location .noArguments
  return ⟨← targetsOf part.arguments, part.location⟩

/-- Reads a section that holds groups. -/
def groups (part : Section) : Review Fault (List Outline.Group) :=
  groupsOf part.arguments

/-! ## Ids -/

/-- Reads the id of a group that must have one. -/
def requiredId (group : Outline.Group) : Review Fault Formula := do
  match group.id? with
  | some token => return .ofToken token
  | none =>
    Review.report group.location .noId
    return .blank

/-- Reads the id of a group that may have one. -/
def optionalId (group : Outline.Group) : Option Formula :=
  group.id?.map Formula.ofToken

/-- Checks that a group has no id. -/
def noId (group : Outline.Group) : Review Fault Unit :=
  match group.id? with
  | some token => Review.report token.location .unexpectedId
  | none => return ()

end Treatise.Document
