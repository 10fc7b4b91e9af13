import Treatise.Document.Clause

/-!
# Entries

A document is a list of entries. An entry is a definition, a result, a topic, a resource, or a
group of definitions. A definition either defines a thing (`Defines:`) or states a property
(`States:`), and a result is an axiom, a theorem or a conjecture.

An entry introduces signatures: the forms under which other entries refer to it.
-/

namespace Treatise.Document

open Outline (Target)

/-! ## Metadata -/

/-- A field: a key and its value. -/
structure Field where
  key : String
  value : Text
  location : Location
  deriving DecidableEq, Repr

/-- Where in a source something is found. -/
structure Citation where
  source : Text
  page : Option Text
  offset : Option Text
  location : Location
  deriving DecidableEq, Repr

/-- What is said about an entry itself. -/
inductive MetadataItem where
  | reference (citations : List Citation) (location : Location)
  | tags (tags : Texts)
  | field (field : Field)
  deriving DecidableEq, Repr

/-- The metadata of an entry. -/
structure Metadata where
  items : List MetadataItem
  location : Location
  deriving DecidableEq, Repr

/-! ## What a definition provides -/

/-- What a definition provides: a view of the thing as something else, or a member of it. -/
inductive Provision where
  | view (target : Formula) (via by_ : Option Formula) (location : Location)
  | member (targets : Targets) (means : Clauses) (location : Location)
  deriving Repr, BEq

/-- What a definition provides, and the place of the section. -/
structure Provisions where
  items : List Provision
  location : Location
  deriving Repr, BEq

namespace Provision

/-- What the defined thing can be viewed as. -/
def view? : Provision → Option Formula
  | view target _ _ _ => some target
  | member _ _ _ => none

/-- The formulas of a provision, except what a view is a view of. -/
def innerFormulas : Provision → List Formula
  | view _ via by_ _ => via.toList ++ by_.toList
  | member _ means _ => means.formulas

def formulas (provision : Provision) : List Formula :=
  provision.view?.toList ++ provision.innerFormulas

end Provision

/-- What the defined thing can be viewed as. -/
def Provisions.views (provisions : Provisions) : List Formula :=
  provisions.items.filterMap Provision.view?

/-- The formulas of what a definition provides. -/
def Provisions.formulas (provisions : Provisions) : List Formula :=
  provisions.items.flatMap Provision.formulas

/-! ## Definitions -/

/-- The definition of a thing. -/
structure Defines where
  id : Formula
  target : Target
  given : Option Targets
  when : Option Clauses
  suchThat : Option Clauses
  means : Option Clauses
  satisfying : Option Clauses
  expressing : Option Clauses
  providing : Option Provisions
  aliases : Option Clauses
  written : Option Texts
  called : Option Texts
  metadata : Option Metadata
  location : Location
  deriving Repr, BEq

/-- The definition of a property. -/
structure States where
  id : Formula
  given : Option Targets
  when : Option Clauses
  suchThat : Option Clauses
  that : Clauses
  aliases : Option Clauses
  written : Option Texts
  called : Option Texts
  metadata : Option Metadata
  location : Location
  deriving Repr, BEq

/-- A form under which entries refer to another one, and the place where it is introduced. -/
structure Signature where
  form : String
  location : Location
  deriving DecidableEq, Repr

/-- Whether a signature is that of an operator: it does not begin with a backslash. -/
def isOperatorForm (form : String) : Bool :=
  form.toList.head? != some '\\'

/-- The signature that an id introduces. -/
def Formula.signature (id : Formula) : Option Signature :=
  id.signature?.map fun form => ⟨form, id.location⟩

namespace Defines

/-- The sections of clauses that are present, with their names. -/
def sections (defines : Defines) : List (String × Clauses) :=
  [("when", defines.when), ("suchThat", defines.suchThat), ("means", defines.means),
    ("satisfying", defines.satisfying), ("expressing", defines.expressing),
    ("using", defines.aliases)].filterMap fun (name, list) => list.map (name, ·)

/-- The formulas of a definition, except its id. -/
def formulas (defines : Defines) : List Formula :=
  defines.sections.flatMap (fun part => part.2.formulas)
    ++ (defines.providing.map Provisions.formulas).getD []

/-- The `generated:` groups that say what the defined thing is. -/
def generators (defines : Defines) : List Clause :=
  generatorsIn defines.means ++ generatorsIn defines.satisfying

end Defines

namespace States

/-- The sections of clauses that are present, with their names. -/
def sections (states : States) : List (String × Clauses) :=
  [("when", states.when), ("suchThat", states.suchThat), ("that", some states.that),
    ("using", states.aliases)].filterMap fun (name, list) => list.map (name, ·)

/-- The formulas of a definition, except its id. -/
def formulas (states : States) : List Formula :=
  states.sections.flatMap fun part => part.2.formulas

end States

/-- The definition of a thing or of a property. -/
inductive Definition where
  | defines (defines : Defines)
  | states (states : States)
  deriving Repr, BEq

namespace Definition

def id : Definition → Formula
  | defines found => found.id
  | states found => found.id

/-- The place a definition begins at. -/
def location : Definition → Location
  | defines found => found.location
  | states found => found.location

/-- What is said about a definition itself. -/
def metadata : Definition → Option Metadata
  | defines found => found.metadata
  | states found => found.metadata

/-- The definition of a thing, if it is one. -/
def defines? : Definition → Option Defines
  | defines found => some found
  | states _ => none

def signature (definition : Definition) : Option Signature :=
  definition.id.signature

/-- Whether the thing can be written as an expression of its own. -/
def isExpressing : Definition → Bool
  | defines found => found.expressing.isSome
  | states _ => false

/-- The section that introduces abbreviations. -/
def aliases : Definition → Option Clauses
  | defines found => found.aliases
  | states found => found.aliases

/-- How the thing is written. -/
def written : Definition → Option Texts
  | defines found => found.written
  | states found => found.written

/-- What the id stands for. -/
def body : Definition → Option Clauses
  | defines found => found.means
  | states found => some found.that

/-- The name of the thing that is defined, as the definition speaks of it. -/
def targetName : Definition → Option String
  | defines found => found.target.names.head?
  | states _ => none

/-- The formulas of a definition, except its id. -/
def formulas : Definition → List Formula
  | defines found => found.formulas
  | states found => found.formulas

/-- The formulas of a definition, except its id and what views are views of. -/
def innerFormulas : Definition → List Formula
  | defines found =>
    found.sections.flatMap (fun part => part.2.formulas)
      ++ (found.providing.map fun provisions =>
        provisions.items.flatMap Provision.innerFormulas).getD []
  | states found => found.formulas

/-- The `generated:` groups that say what the thing is. -/
def generators : Definition → List Clause
  | defines found => found.generators
  | states _ => []

/-- The signature of the id, and one below it for every constructor. -/
def signatures (definition : Definition) : List Signature :=
  match definition.signature with
  | none => []
  | some signature => signature :: definition.generators.flatMap fun generator =>
      generator.constructors.map fun name => ⟨signature.form ++ "." ++ name, generator.location⟩

end Definition

/-! ## Results and other entries -/

/-- The kinds of results. -/
inductive ResultKind where
  | axiomatic
  | theorem_
  | conjecture
  deriving DecidableEq, Repr

/-- The name of the section that begins a result of a kind. -/
def ResultKind.heading : ResultKind → String
  | axiomatic => "Axiom"
  | theorem_ => "Theorem"
  | conjecture => "Conjecture"

/-- An axiom, a theorem or a conjecture. -/
structure Result where
  kind : ResultKind
  id : Option Formula
  names : Texts
  given : Option Targets
  setting : Option Clauses
  hypotheses : Option Clauses
  equivalents : Option Clauses
  conclusions : Clauses
  aliases : Option Clauses
  proof : Option Clauses
  metadata : Option Metadata
  location : Location
  deriving Repr, BEq

namespace Result

/-- The sections of clauses that are present, with their names. -/
def sections (result : Result) : List (String × Clauses) :=
  [("where", result.setting), ("if", result.hypotheses), ("iff", result.equivalents),
    ("then", some result.conclusions), ("using", result.aliases),
    ("Proof", result.proof)].filterMap fun (name, list) => list.map (name, ·)

/-- The formulas of a result, except its id. -/
def formulas (result : Result) : List Formula :=
  result.sections.flatMap fun part => part.2.formulas

def signature (result : Result) : Option Signature :=
  result.id.bind Formula.signature

/-- The signature of the id, and one that stands for what the result takes as given. -/
def signatures (result : Result) : List Signature :=
  match result.signature with
  | none => []
  | some signature => [signature, ⟨signature.form ++ ":given", signature.location⟩]

end Result

/-- A topic that entries can be about. -/
structure Topic where
  id : Formula
  names : Texts
  content : Text
  metadata : Option Metadata
  location : Location
  deriving Repr, BEq

/-- A resource that citations can refer to. -/
structure Resource where
  id : Formula
  fields : List Field
  metadata : Option Metadata
  location : Location
  deriving Repr, BEq

/-- What stands at the outermost level of a document. -/
inductive Entry where
  | definition (definition : Definition)
  | result (result : Result)
  | topic (topic : Topic)
  | resource (resource : Resource)
  | foundation (definition : Definition) (metadata : Option Metadata) (location : Location)
  | mutually (definitions : List Definition) (metadata : Option Metadata) (location : Location)
  deriving Repr, BEq

namespace Entry

/-- What a kind of entry is called. -/
def kindName : Entry → String
  | definition (.defines _) => "Defines"
  | definition (.states _) => "States"
  | result found => found.kind.heading
  | topic _ => "Topic"
  | resource _ => "Resource"
  | foundation _ _ _ => "Foundation"
  | mutually _ _ _ => "Mutually"

/-- The place an entry begins at. -/
def location : Entry → Location
  | definition found => found.location
  | result found => found.location
  | topic found => found.location
  | resource found => found.location
  | foundation _ _ location | mutually _ _ location => location

/-- What is said about an entry itself. -/
def metadata : Entry → Option Metadata
  | definition found => found.metadata
  | result found => found.metadata
  | topic found => found.metadata
  | resource found => found.metadata
  | foundation _ metadata _ | mutually _ metadata _ => metadata

def id? : Entry → Option Formula
  | definition found => some found.id
  | result found => found.id
  | topic found => some found.id
  | resource found => some found.id
  | foundation _ _ _ | mutually _ _ _ => none

/-- The result that an entry is. -/
def result? : Entry → Option Result
  | result found => some found
  | _ => none

def definitions : Entry → List Definition
  | definition found | foundation found _ _ => [found]
  | mutually found _ _ => found
  | result _ | topic _ | resource _ => []

def ids : Entry → List Formula
  | foundation found _ _ => [found.id]
  | mutually found _ _ => found.map Definition.id
  | entry => entry.id?.toList

/-- The signature of a definition or a result. -/
def signature : Entry → Option Signature
  | definition found => found.signature
  | result found => found.signature
  | _ => none

/-- The signatures that an entry introduces. -/
def signatures : Entry → List Signature
  | result found => found.signatures
  | entry => entry.definitions.flatMap Definition.signatures

/-- The formulas in an entry, except ids. -/
def formulas : Entry → List Formula
  | result found => found.formulas
  | entry => entry.definitions.flatMap Definition.formulas

/-- The formulas in an entry, except ids and what views are views of. -/
def innerFormulas : Entry → List Formula
  | result found => found.formulas
  | entry => entry.definitions.flatMap Definition.innerFormulas

/-- The sections of an entry that introduce abbreviations. -/
def aliases : Entry → List Clauses
  | result found => found.aliases.toList
  | entry => entry.definitions.filterMap Definition.aliases

end Entry

end Treatise.Document

namespace Treatise

/-- A document is a list of entries. -/
structure Document where
  entries : List Document.Entry
  deriving Repr, BEq

end Treatise
