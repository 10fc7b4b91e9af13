import Treatise.Document.Entry
import Treatise.Document.Shape
import Treatise.Layout.Indentation

/-!
# Reading documents

Each group of an outline is read as an entry. The groups inside it are read as clauses, metadata or
provisions, depending on the section they stand in.

A text either reads as a document or has diagnostics, and it never has both. What is wrong inside a
formula does not count here: it stays with the formula.
-/

namespace Treatise.Document

open Outline (Argument Section)

/-! ## Clauses -/

/-- A section whose arguments have been read as clauses. -/
structure Part where
  origin : Section
  clauses : List (Review Fault Clause)

namespace Part

/-- Puts the readings of clauses together. -/
def gather : List (Review Fault Clause) → Review Fault (List Clause)
  | [] => return []
  | clause :: rest => do return (← clause) :: (← gather rest)

/-- The section as a list of clauses. -/
def all (part : Part) : Review Fault Clauses := do
  return .mk (← gather part.clauses) part.origin.location

/-- The only clause of the section. -/
def single (part : Part) : Review Fault Clause := do
  match part.clauses with
  | [clause] => clause
  | _ =>
    Review.report part.origin.location .noSingleArgument
    return default

end Part

/-- Reads a leaf as a clause. -/
def leafClause (leaf : Outline.Target) : Review Fault Clause := do
  match leaf.tokenOf? (.literal .statement), leaf.tokenOf? (.literal .string) with
  | some token, _ => return .formula (.ofToken token)
  | none, some token => return .text (.ofToken token)
  | none, none =>
    Review.report leaf.location .noClause
    return default

/-- Reads a group whose first section is `heading` as a clause. -/
def headedClause (group : Outline.Group) (parts : List Part) (heading : Option String) :
    Review Fault Clause :=
  let location := group.location
  let clauses (sections : Sections Part) (name : String) := required sections name Part.all
  let targets (sections : Sections Part) (name : String) :=
    required sections name fun part => targets part.origin
  let bare (sections : Sections Part) (name : String) :=
    required sections name fun part => noArguments part.origin
  let optional (sections : Sections Part) (name : String) := whenPresent sections name Part.all
  let read (expected : List String) :=
    shapedBy Part.origin location parts expected (default : Clause)
  match heading with
  | some "if" => read ["if", "then"] fun sections => do
    return .implication (← clauses sections "if") (← clauses sections "then") location
  | some "iff" => read ["iff", "then"] fun sections => do
    return .equivalence (← clauses sections "iff") (← clauses sections "then") location
  | some "for" => read ["for", "suchThat?", "then"] fun sections => do
    let introduced ← targets sections "for"
    let suchThat ← optional sections "suchThat"
    return .forAll introduced suchThat (← clauses sections "then") location
  | some "exists" => read ["exists", "suchThat?"] fun sections => do
    let introduced ← targets sections "exists"
    return .thereIs false introduced (← optional sections "suchThat") location
  | some "existsUnique" => read ["existsUnique", "suchThat?"] fun sections => do
    let introduced ← targets sections "existsUnique"
    return .thereIs true introduced (← optional sections "suchThat") location
  | some "not" => read ["not"] fun sections => do
    return .negation (← required sections "not" Part.single) location
  | some "or" => read ["or"] fun sections => do
    return .disjunction (← clauses sections "or") location
  | some "piecewise" => read ["piecewise", "when", "then", "else?"] fun sections => do
    bare sections "piecewise"
    let conditions ← clauses sections "when"
    let conclusions ← clauses sections "then"
    return .piecewise conditions conclusions (← optional sections "else") location
  | some "matching" => read ["matching"] fun sections => do
    return .matching (← clauses sections "matching") location
  | some "generated" => read ["generated", "from", "when?"] fun sections => do
    bare sections "generated"
    return .generated (← targets sections "from") (← optional sections "when") location
  | _ => do
    Review.report location .noClause
    return default

mutual

/-- Reads an argument as a clause. -/
def clause : Argument → Review Fault Clause
  | .target leaf => leafClause leaf
  | .group (.mk id sections) => do
    let group := Outline.Group.mk id sections
    noId group
    headedClause group (clauseParts sections) group.heading?

/-- Reads the arguments of sections as clauses. -/
def clauseParts : List Section → List Part
  | [] => []
  | .mk name arguments :: rest => ⟨.mk name arguments, clausesOf arguments⟩ :: clauseParts rest

def clausesOf : List Argument → List (Review Fault Clause)
  | [] => []
  | argument :: rest => clause argument :: clausesOf rest

end

/-- Reads a section that holds clauses. -/
def clauses (part : Section) : Review Fault Clauses :=
  Part.all ⟨part, clausesOf part.arguments⟩

/-! ## Metadata and provisions -/

/-- Keeps what could be read, in order. -/
def collect {α β : Type} (read : α → Review Fault (Option β)) : List α → Review Fault (List β)
  | [] => return []
  | item :: rest => do
    let found ← read item
    let more ← collect read rest
    return found.toList ++ more

/-- Reads a group of one section as a field. -/
def field (group : Outline.Group) : Review Fault (Option Field) := do
  noId group
  match group.sections with
  | [part] => return some ⟨part.name, ← singleText part, group.location⟩
  | _ =>
    Review.report group.location .noSingleSection
    return none

/-- Reads a group as a place in a source. -/
def citation (group : Outline.Group) : Review Fault (Option Citation) := do
  noId group
  shaped group ["source", "page?", "offset?"] none fun sections => do
    let source ← required sections "source" singleText
    let page ← whenPresent sections "page" singleText
    let offset ← whenPresent sections "offset" singleText
    return some ⟨source, page, offset, group.location⟩

/-- Reads a group in the metadata. -/
def metadataItem (group : Outline.Group) : Review Fault (Option MetadataItem) := do
  noId group
  match group.heading? with
  | some "reference" => shaped group ["reference"] none fun sections => do
    let inner ← required sections "reference" groups
    return some (.reference (← collect citation inner) group.location)
  | some "tags" => shaped group ["tags"] none fun sections => do
    return some (.tags (← required sections "tags" texts))
  | _ => return (← field group).map .field

/-- Reads the metadata of an entry. -/
def metadata (part : Section) : Review Fault Metadata := do
  return ⟨← collect metadataItem (← groups part), part.location⟩

/-- Reads a group in what a definition provides. -/
def provision (group : Outline.Group) : Review Fault (Option Provision) := do
  noId group
  match group.heading? with
  | some "view" => shaped group ["view", "as", "via?", "by?"] none fun sections => do
    required sections "view" noArguments
    let target ← required sections "as" singleFormula
    let via ← whenPresent sections "via" singleFormula
    let by_ ← whenPresent sections "by" singleFormula
    return some (.view target via by_ group.location)
  | some "member" => shaped group ["member", "means"] none fun sections => do
    let members ← required sections "member" targets
    let means ← required sections "means" clauses
    return some (.member members means group.location)
  | _ =>
    Review.report group.location .noProvision
    return none

def provisions (part : Section) : Review Fault Provisions := do
  return ⟨← collect provision (← groups part), part.location⟩

/-! ## Entries -/

/-- Reads a group as the definition of a thing. -/
def defines (group : Outline.Group) : Review Fault (Option Defines) := do
  let id ← requiredId group
  shaped group ["Defines", "given?", "when?", "suchThat?", "means?", "satisfying?", "expressing?",
      "providing?", "using?", "written?", "called?", "Metadata?"] none fun sections => do
    let target ← required sections "Defines" singleTarget
    let given ← whenPresent sections "given" targets
    let when ← whenPresent sections "when" clauses
    let suchThat ← whenPresent sections "suchThat" clauses
    let means ← whenPresent sections "means" clauses
    let satisfying ← whenPresent sections "satisfying" clauses
    let expressing ← whenPresent sections "expressing" clauses
    let providing ← whenPresent sections "providing" provisions
    let aliases ← whenPresent sections "using" clauses
    let written ← whenPresent sections "written" texts
    let called ← whenPresent sections "called" texts
    let metadata ← whenPresent sections "Metadata" metadata
    return target.map fun target =>
      ⟨id, target, given, when, suchThat, means, satisfying, expressing, providing, aliases,
        written, called, metadata, group.location⟩

/-- Reads a group as the definition of a property. -/
def states (group : Outline.Group) : Review Fault (Option States) := do
  let id ← requiredId group
  shaped group ["States", "given?", "when?", "suchThat?", "that", "using?", "written?", "called?",
      "Metadata?"] none fun sections => do
    required sections "States" noArguments
    let given ← whenPresent sections "given" targets
    let when ← whenPresent sections "when" clauses
    let suchThat ← whenPresent sections "suchThat" clauses
    let that ← required sections "that" clauses
    let aliases ← whenPresent sections "using" clauses
    let written ← whenPresent sections "written" texts
    let called ← whenPresent sections "called" texts
    let metadata ← whenPresent sections "Metadata" metadata
    return some
      ⟨id, given, when, suchThat, that, aliases, written, called, metadata, group.location⟩

/-- Reads a group as a definition, which its first section has to say. -/
def definition (group : Outline.Group) : Review Fault (Option Definition) := do
  match group.heading? with
  | some "Defines" => return (← defines group).map .defines
  | some "States" => return (← states group).map .states
  | _ =>
    Review.report group.location .noDefinition
    return none

/-- The sections of a result. Only a theorem has a proof. -/
def resultSections (kind : ResultKind) : List String :=
  [kind.heading, "given?", "where?", "if?", "iff?", "then", "using?"]
    ++ (if kind = .theorem_ then ["Proof?"] else []) ++ ["Metadata?"]

/-- Reads a group as a result. -/
def result (kind : ResultKind) (group : Outline.Group) : Review Fault (Option Result) :=
  shaped group (resultSections kind) none fun sections => do
    let names ← required sections kind.heading texts
    let given ← whenPresent sections "given" targets
    let setting ← whenPresent sections "where" clauses
    let hypotheses ← whenPresent sections "if" clauses
    let equivalents ← whenPresent sections "iff" clauses
    let conclusions ← required sections "then" clauses
    let aliases ← whenPresent sections "using" clauses
    let proof ← whenPresent sections "Proof" clauses
    let metadata ← whenPresent sections "Metadata" metadata
    return some
      ⟨kind, optionalId group, names, given, setting, hypotheses, equivalents, conclusions,
        aliases, proof, metadata, group.location⟩

/-- Reads a group as a topic. -/
def topic (group : Outline.Group) : Review Fault (Option Topic) := do
  let id ← requiredId group
  shaped group ["Topic", "content", "Metadata?"] none fun sections => do
    let names ← required sections "Topic" texts
    let content ← required sections "content" singleText
    let metadata ← whenPresent sections "Metadata" metadata
    return some ⟨id, names, content, metadata, group.location⟩

/-- Reads a group as a resource. -/
def resource (group : Outline.Group) : Review Fault (Option Resource) := do
  let id ← requiredId group
  shaped group ["Resource", "Metadata?"] none fun sections => do
    let fields ← collect field (← required sections "Resource" groups)
    let metadata ← whenPresent sections "Metadata" metadata
    return some ⟨id, fields, metadata, group.location⟩

/-- Reads a group that holds one definition. -/
def foundation (group : Outline.Group) : Review Fault (Option Entry) := do
  noId group
  shaped group ["Foundation", "Metadata?"] none fun sections => do
    match ← required sections "Foundation" singleArgument with
    | none => return none
    | some argument =>
      let inner ← groupsOf [argument]
      let found ← collect definition inner
      let metadata ← whenPresent sections "Metadata" metadata
      return found.head?.map fun definition => .foundation definition metadata group.location

/-- Reads a group that holds definitions that refer to each other. -/
def mutually (group : Outline.Group) : Review Fault (Option Entry) := do
  noId group
  shaped group ["Mutually", "Metadata?"] none fun sections => do
    let inner ← required sections "Mutually" fun part => do
      Review.require (!part.arguments.isEmpty) part.location .noArguments
      groups part
    let found ← collect definition inner
    let metadata ← whenPresent sections "Metadata" metadata
    return some (.mutually found metadata group.location)

/-- Reads a group at the outermost level as an entry, which its first section has to say. -/
def entry (group : Outline.Group) : Review Fault (Option Entry) := do
  match group.heading? with
  | some "Defines" => return (← defines group).map fun found => .definition (.defines found)
  | some "States" => return (← states group).map fun found => .definition (.states found)
  | some "Axiom" => return (← result .axiomatic group).map .result
  | some "Theorem" => return (← result .theorem_ group).map .result
  | some "Conjecture" => return (← result .conjecture group).map .result
  | some "Topic" => return (← topic group).map .topic
  | some "Resource" => return (← resource group).map .resource
  | some "Foundation" => foundation group
  | some "Mutually" => mutually group
  | heading =>
    Review.report group.location (.noEntry (heading.getD ""))
    return none

/-- Reads the groups of an outline as entries. Comments are left out. -/
def ofOutline (items : List Outline.Item) : Review Fault Document := do
  let entries ← collect entry (items.filterMap fun item =>
    match item with
    | .group found => some found
    | .comment _ => none)
  return ⟨entries⟩

/-- Reads a text as a document. -/
def read (text : String) : Except (List Diagnostic) Document :=
  let layout := Layout.read text
  let outline := Outline.read layout.tokens
  let document := ofOutline outline.value
  let diagnostics := Diagnostic.sortByLocation (layout.diagnostics
    ++ outline.problems.map Outline.Fault.diagnostic
    ++ document.problems.map Fault.diagnostic)
  if diagnostics.isEmpty then .ok document.value else .error diagnostics

end Treatise.Document
