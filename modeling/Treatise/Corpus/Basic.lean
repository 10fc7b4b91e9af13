import Treatise.Corpus.Hierarchy
import Treatise.Corpus.Search
import Treatise.Corpus.Source
import Treatise.Corpus.Trie
import Treatise.Document.Locations
import Treatise.Expansion.Engine
import Treatise.Statement.Usage

/-!
# The corpus

A corpus is a collection of source files with indexes over them. Every file that reads as a document
is indexed when it is added, and what it contributed is taken out again when it is removed or
replaced; a file that does not read as a document contributes nothing. The expansion engine depends
on the order of the paths and is made anew after every change.
-/

namespace Treatise

namespace Corpus

open Document (Clauses Definition Entry)
open Expansion (Engine)

/-- What can be chosen for a corpus. -/
structure Options where
  /-- Whether signatures of operators need not be defined. -/
  skipOperatorSignatures : Bool
  maxExpansionIterations : Nat
  htmlClassPrefix : String
  deriving DecidableEq, Repr

/-- The options unless something else is chosen. -/
def defaultOptions : Options := ⟨true, Expansion.defaultMaxIterations, "mathlingua"⟩

instance : Inhabited Options := ⟨defaultOptions⟩

/-- What is asked for and is not there. -/
inductive Error where
  | unknownPath (path : String)
  | unknownSignature (signature : String)
  | unknownGroup (path : String) (index : Nat)
  | invalidSource (path : String)
  deriving DecidableEq, Repr

/-- What is said about an error. -/
def Error.message : Error → String
  | unknownPath path => "Unknown path '" ++ path ++ "'"
  | unknownSignature signature => "Unknown signature '" ++ signature ++ "'"
  | unknownGroup path index =>
    "No top-level group at index " ++ toString index ++ " in '" ++ path ++ "'"
  | invalidSource path => "'" ++ path ++ "' did not parse"

/-- Where an entry that introduces a signature stands, and the place of the signature there. -/
structure Reference where
  path : String
  index : Nat
  location : Location
  deriving DecidableEq, Repr

/-- An entry and where it stands. -/
structure Placed where
  path : String
  index : Nat
  entry : Entry
  deriving Repr

/-- How the statements of an entry are rendered. -/
inductive RenderMode where
  /-- As they stand in the source. -/
  | raw
  /-- As written by the templates. -/
  | literal
  /-- Inlined, and then as written. -/
  | expanded
  deriving DecidableEq, Repr

/-- How an entry is rendered. -/
structure RenderOptions where
  html : Bool
  mode : RenderMode
  deriving DecidableEq, Repr

/-- What a rendering is kept under. -/
structure RenderKey where
  path : String
  index : Nat
  options : RenderOptions
  deriving DecidableEq, Repr

end Corpus

open Corpus in
/-- Source files and the indexes over them. -/
structure Corpus where
  options : Options
  files : Table Source
  /-- Where each signature is introduced, in the order the files were added. -/
  signatures : Table (List Reference)
  /-- The normalized entries, in the order the files were added. -/
  normalized : List Placed
  words : Trie
  signatureTrie : Trie
  search : SearchIndex
  types : Hierarchy
  engine : Expansion.Engine
  /-- Renderings that were made since the last change. -/
  renderings : List (RenderKey × String)
  deriving Repr

namespace Corpus

open Document (Clauses Definition Entry)
open Expansion (Engine)

def empty (options : Options) : Corpus where
  options := options
  files := .empty
  signatures := .empty
  normalized := []
  words := .empty
  signatureTrie := .empty
  search := .empty
  types := .empty
  engine := .empty options.maxExpansionIterations
  renderings := []

/-! ## Indexing -/

/-- The entries of a file and where they stand. -/
def placedEntries (source : Source) : List Placed :=
  source.entries.zipIdx.map fun (entry, index) => ⟨source.path, index, entry⟩

/-- The definitions of things in a file. -/
def definesIn (source : Source) : List Document.Defines :=
  source.entries.flatMap fun entry => entry.definitions.filterMap Definition.defines?

/-- The references to an entry, one for each signature that it introduces. -/
def referencesTo (placed : Placed) : List (String × Reference) :=
  placed.entry.signatures.map fun signature =>
    (signature.form, ⟨placed.path, placed.index, signature.location⟩)

/-- Adds a reference after those that are there. -/
def addReference (signatures : Table (List Reference)) (found : String × Reference) :
    Table (List Reference) :=
  signatures.insert found.1 ((signatures.find? found.1).getD [] ++ [found.2])

/-- Takes out the references into a file. A signature without references goes. -/
def removeReferences (path : String) (signatures : Table (List Reference)) (form : String) :
    Table (List Reference) :=
  match signatures.find? form with
  | none => signatures
  | some references =>
    match references.filter fun reference => reference.path ≠ path with
    | [] => signatures.erase form
    | left => signatures.insert form left

/-- Adds what a file contributes to the indexes. -/
def index (corpus : Corpus) (source : Source) : Corpus :=
  match source.document? with
  | none => corpus
  | some _ =>
    let words := source.words
    let placed := placedEntries source
    { corpus with
      words := corpus.words.addAll words
      search := corpus.search.add source.path words
      signatureTrie := corpus.signatureTrie.addAll (source.signatures.map (·.form))
      signatures := (placed.flatMap referencesTo).foldl addReference corpus.signatures
      types := (definesIn source).foldl Hierarchy.add corpus.types
      normalized := corpus.normalized
        ++ placed.map fun found => { found with entry := found.entry.normalized } }

/-- Takes what a file contributed out of the indexes. -/
def unindex (corpus : Corpus) (source : Source) : Corpus :=
  match source.document? with
  | none => corpus
  | some _ =>
    let forms := source.signatures.map (·.form)
    { corpus with
      words := corpus.words.removeAll source.words
      search := corpus.search.remove source.path
      signatureTrie := corpus.signatureTrie.removeAll forms
      signatures := forms.foldl (removeReferences source.path) corpus.signatures
      types := (definesIn source).foldl Hierarchy.remove corpus.types
      normalized := corpus.normalized.filter fun found => found.path ≠ source.path }

/-- Takes what the file under a path contributed out of the indexes, if there is such a file. -/
def unindexPath (corpus : Corpus) (path : String) : Corpus :=
  match corpus.files.find? path with
  | some source => corpus.unindex source
  | none => corpus

/-- The files in the natural order of their paths. -/
def sortedFiles (corpus : Corpus) : List Source :=
  sortByPath Source.path corpus.files.values

/-- The entries of all files in the natural order of their paths. -/
def entries (corpus : Corpus) : List Placed :=
  corpus.sortedFiles.flatMap placedEntries

/-- The engine that knows the definitions of all files. -/
def freshEngine (corpus : Corpus) : Engine :=
  (corpus.entries.flatMap fun placed => placed.entry.definitions).foldl Engine.addDefinition
    (.empty corpus.options.maxExpansionIterations)

/-- The corpus after a change: the engine is made anew, and no rendering is kept. -/
def refresh (corpus : Corpus) : Corpus :=
  { corpus with engine := corpus.freshEngine, renderings := [] }

/-- Adds a file, in place of the file that was there under its path. -/
def add (corpus : Corpus) (source : Source) : Corpus :=
  let indexed := (corpus.unindexPath source.path).index source
  { indexed with files := indexed.files.insert source.path source }.refresh

/-- Reads a text and adds it under a path. -/
def addText (corpus : Corpus) (path content : String) : Corpus :=
  corpus.add (.read path content)

/-- Removes the file under a path. Nothing changes if there is none. -/
def remove (corpus : Corpus) (path : String) : Corpus :=
  if corpus.files.contains path then
    let unindexed := corpus.unindexPath path
    { unindexed with files := unindexed.files.erase path }.refresh
  else corpus

/-- The corpus of texts under paths, added in the order of the list. -/
def ofTexts (options : Options) (texts : List (String × String)) : Corpus :=
  texts.foldl (fun corpus (path, content) => corpus.addText path content) (.empty options)

/-! ## Files and entries -/

def file? (corpus : Corpus) (path : String) : Option Source :=
  corpus.files.find? path

/-- All paths in their natural order. -/
def paths (corpus : Corpus) : List String :=
  sortByPath id corpus.files.keys

def document (corpus : Corpus) (path : String) : Except Error Document :=
  match corpus.file? path with
  | none => .error (.unknownPath path)
  | some source =>
    match source.reading with
    | .ok document => .ok document
    | .error _ => .error (.invalidSource path)

/-- The entry at an index of the file under a path. -/
def entry (corpus : Corpus) (path : String) (index : Nat) : Except Error Entry := do
  let document ← corpus.document path
  match document.entries[index]? with
  | some entry => return entry
  | none => .error (.unknownGroup path index)

/-- The normalized entries of a kind, in the order the files were added. -/
def entriesOfKind (corpus : Corpus) (kind : String) : List Entry :=
  (corpus.normalized.map Placed.entry).filter fun entry => entry.kindName = kind

/-! ## Signatures -/

/-- The entry that a reference refers to. -/
def resolve (corpus : Corpus) (reference : Reference) : Except Error Placed := do
  return ⟨reference.path, reference.index, ← corpus.entry reference.path reference.index⟩

/-- Where a signature is introduced. -/
def references (corpus : Corpus) (signature : String) : List Reference :=
  (corpus.signatures.find? signature).getD []

/-- Whether a signature is introduced anywhere. -/
def isDefined (corpus : Corpus) (signature : String) : Bool :=
  corpus.signatures.contains signature

/-- The entries that introduce a signature, in the order the files were added. -/
def withSignature (corpus : Corpus) (signature : String) : Except Error (List Placed) :=
  match corpus.signatures.find? signature with
  | none => .error (.unknownSignature signature)
  | some references => references.mapM corpus.resolve

/-- The entry that introduced a signature first. -/
def introducing? (corpus : Corpus) (signature : String) : Option Entry := do
  let first ← (corpus.references signature).head?
  (corpus.entry first.path first.index).toOption

/-- The definition whose id has a signature, in the entry that introduced the signature first. -/
def definition? (corpus : Corpus) (signature : String) : Option Definition := do
  (← corpus.introducing? signature).definitions.find? fun definition =>
    definition.id.signature? = some signature

/-- The id of the definition of a signature. -/
def definitionId? (corpus : Corpus) (signature : String) : Option Statement.Expr := do
  (← corpus.definition? signature).id.expr?

/-- What a signature refers to. -/
inductive SignatureKind where
  | defines (isExpressing : Bool)
  | states
  | result (kind : Document.ResultKind)
  /-- A constructor, or something else that is introduced below another signature. -/
  | constructor
  deriving DecidableEq, Repr

/-- What a signature refers to, by the entry that introduced it first. -/
def signatureKind? (corpus : Corpus) (signature : String) : Option SignatureKind := do
  match ← corpus.introducing? signature with
  | .result result => return .result result.kind
  | _ => match corpus.definition? signature with
    | some (.states _) => return .states
    | some definition => return .defines definition.isExpressing
    | none => return .constructor

/-- The signatures that statements use on a row of a file, in rising order. -/
def signaturesAtRow (corpus : Corpus) (path : String) (row : Int32) : List String :=
  let entries := ((corpus.file? path).map Source.entries).getD []
  sortedNames (entries.flatMap fun entry => entry.formulas.flatMap fun formula =>
    match formula.expr? with
    | none => []
    | some expr => (expr.uses.filter fun use => (use.location.within formula.origin).line = row).map
        Located.value)

/-! ## Completion and search -/

/-- What may follow the beginning of a word. Case does not matter. -/
def completeWord (corpus : Corpus) (start : String) : List String :=
  corpus.words.suffixes (Text.lowercase start)

/-- What may follow the beginning of a signature. -/
def completeSignature (corpus : Corpus) (start : String) : List String :=
  corpus.signatureTrie.suffixes start

/-- The files in which all words of a query occur. -/
def find (corpus : Corpus) (query : String) : List Source :=
  (corpus.search.search query).filterMap corpus.file?

end Corpus

end Treatise
