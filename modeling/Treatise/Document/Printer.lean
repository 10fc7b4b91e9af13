import Treatise.Document.Block
import Treatise.Document.Entry

/-!
# Printing documents

Each entry has one canonical form on the page. Targets and texts stand on the line of their section,
clauses and groups below it, and a blank line separates the entries.
-/

namespace Treatise.Document

open Markup (Piece)

namespace Row

def bare (name : String) : Row := .mk name [] []

def targets (name : String) (found : Targets) : Row := .mk name (found.items.map .target) []

def texts (name : String) (found : Texts) : Row := .mk name (found.items.map .text) []

/-- A section that holds one text. -/
def text (name : String) (found : Text) : Row := .mk name [.text found] []

/-- A section that holds one formula. -/
def formula (name : String) (found : Formula) : Row := .mk name [.formula found] []

/-- A section that may be left out. -/
def optional {α : Type} (row : α → Row) (found : Option α) : List Row :=
  (found.map row).toList

end Row

mutual

/-- A clause on the page. -/
def Clause.item : Clause → Item
  | .formula found => .leaf (.formula found)
  | .text found => .leaf (.text found)
  | .implication conditions conclusions _ =>
    .block (.mk none [conditions.row "if", conclusions.row "then"])
  | .equivalence conditions conclusions _ =>
    .block (.mk none [conditions.row "iff", conclusions.row "then"])
  | .forAll targets suchThat conclusions _ =>
    .block (.mk none (Row.targets "for" targets :: rowsIn "suchThat" suchThat
      ++ [conclusions.row "then"]))
  | .thereIs unique targets suchThat _ =>
    .block (.mk none (Row.targets (if unique then "existsUnique" else "exists") targets
      :: rowsIn "suchThat" suchThat))
  | .negation clause _ => .block (.mk none [.mk "not" [] [clause.item]])
  | .disjunction alternatives _ => .block (.mk none [alternatives.row "or"])
  | .piecewise conditions conclusions otherwise _ =>
    .block (.mk none (Row.bare "piecewise" :: conditions.row "when" :: conclusions.row "then"
      :: rowsIn "else" otherwise))
  | .matching cases _ => .block (.mk none [cases.row "matching"])
  | .generated generators conditions _ =>
    .block (.mk none (Row.bare "generated" :: Row.targets "from" generators
      :: rowsIn "when" conditions))

/-- A section of clauses on the page. -/
def Clauses.row (name : String) : Clauses → Row
  | .mk items _ => .mk name [] (itemsOf items)

def itemsOf : List Clause → List Item
  | [] => []
  | clause :: rest => clause.item :: itemsOf rest

/-- A section of clauses that may be left out. -/
def rowsIn (name : String) : Option Clauses → List Row
  | none => []
  | some clauses => [clauses.row name]

end

/-- A group of one section as an argument. -/
def Item.ofRow (row : Row) : Item := .block (.mk none [row])

def Citation.item (citation : Citation) : Item :=
  .block (.mk none (Row.text "source" citation.source
    :: Row.optional (Row.text "page") citation.page
    ++ Row.optional (Row.text "offset") citation.offset))

def Field.item (field : Field) : Item :=
  .ofRow (Row.text field.key field.value)

/-- A piece of metadata on the page. -/
def MetadataItem.item : MetadataItem → Item
  | reference citations _ => .ofRow (.mk "reference" [] (citations.map Citation.item))
  | tags found => .ofRow (Row.texts "tags" found)
  | field found => found.item

/-- The metadata of an entry on the page. -/
def Metadata.row (metadata : Metadata) : Row :=
  .mk "Metadata" [] (metadata.items.map MetadataItem.item)

def Provision.item : Provision → Item
  | view target via by_ _ =>
    .block (.mk none (Row.bare "view" :: Row.formula "as" target
      :: Row.optional (Row.formula "via") via ++ Row.optional (Row.formula "by") by_))
  | member targets means _ =>
    .block (.mk none [Row.targets "member" targets, means.row "means"])

/-- What a definition provides on the page. -/
def Provisions.row (provisions : Provisions) : Row :=
  .mk "providing" [] (provisions.items.map Provision.item)

/-- The definition of a thing on the page. -/
def Defines.block (defines : Defines) : Block :=
  .mk (some defines.id) (.mk "Defines" [.target defines.target] []
    :: Row.optional (Row.targets "given") defines.given
    ++ rowsIn "when" defines.when
    ++ rowsIn "suchThat" defines.suchThat
    ++ rowsIn "means" defines.means
    ++ rowsIn "satisfying" defines.satisfying
    ++ rowsIn "expressing" defines.expressing
    ++ Row.optional Provisions.row defines.providing
    ++ rowsIn "using" defines.aliases
    ++ Row.optional (Row.texts "written") defines.written
    ++ Row.optional (Row.texts "called") defines.called
    ++ Row.optional Metadata.row defines.metadata)

/-- The definition of a property on the page. -/
def States.block (states : States) : Block :=
  .mk (some states.id) (Row.bare "States"
    :: Row.optional (Row.targets "given") states.given
    ++ rowsIn "when" states.when
    ++ rowsIn "suchThat" states.suchThat
    ++ [states.that.row "that"]
    ++ rowsIn "using" states.aliases
    ++ Row.optional (Row.texts "written") states.written
    ++ Row.optional (Row.texts "called") states.called
    ++ Row.optional Metadata.row states.metadata)

def Definition.block : Definition → Block
  | defines found => found.block
  | states found => found.block

def Result.block (result : Result) : Block :=
  .mk result.id (Row.texts result.kind.heading result.names
    :: Row.optional (Row.targets "given") result.given
    ++ rowsIn "where" result.setting
    ++ rowsIn "if" result.hypotheses
    ++ rowsIn "iff" result.equivalents
    ++ [result.conclusions.row "then"]
    ++ rowsIn "using" result.aliases
    ++ rowsIn "Proof" result.proof
    ++ Row.optional Metadata.row result.metadata)

def Entry.block : Entry → Block
  | definition found => found.block
  | result found => found.block
  | topic found =>
    .mk (some found.id) (Row.texts "Topic" found.names :: Row.text "content" found.content
      :: Row.optional Metadata.row found.metadata)
  | resource found =>
    .mk (some found.id) (.mk "Resource" [] (found.fields.map Field.item)
      :: Row.optional Metadata.row found.metadata)
  | foundation found metadata _ =>
    .mk none (.mk "Foundation" [] [.block found.block] :: Row.optional Metadata.row metadata)
  | mutually found metadata _ =>
    .mk none (.mk "Mutually" [] (found.map fun definition => .block definition.block)
      :: Row.optional Metadata.row metadata)

/-- An entry as it is printed. `show_` says what is printed between the quotes of a formula. -/
def Entry.pieces (show_ : Formula → String) (entry : Entry) : List Piece :=
  entry.block.pieces show_

/-- The canonical text of an entry. -/
def Entry.code (entry : Entry) : String :=
  Markup.plain (entry.pieces Formula.text)

/-- Entries as they are printed, with blank lines between them. -/
def entriesPieces (show_ : Formula → String) : List Entry → List Piece
  | [] => []
  | first :: rest => first.pieces show_ ++ rest.flatMap fun entry => newline :: entry.pieces show_

/-- A document as it is printed. -/
def pieces (document : Document) : List Piece :=
  entriesPieces Formula.text document.entries

/-- The canonical text of a document. -/
def code (document : Document) : String :=
  Markup.plain document.pieces

/-- The canonical text of a document as HTML. -/
def html (document : Document) (classWord : String) : String :=
  Markup.html classWord document.pieces

end Treatise.Document
