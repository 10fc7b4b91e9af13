import Treatise.Document.Reading
import Treatise.Markup
import Treatise.Text.Words

/-!
# Source files

A source file is a text under a path, together with the document that it reads as, or with what is
wrong with it.
-/

namespace Treatise.Corpus

open Document (Entry)

/-- A text under a path, and what it reads as. -/
structure Source where
  path : String
  content : String
  reading : Except (List Diagnostic) Document
  deriving Repr

namespace Source

/-- Reads a text under a path. -/
def read (path content : String) : Source :=
  ⟨path, content, Document.read content⟩

/-- The document, if the text reads as one. -/
def document? (source : Source) : Option Document :=
  source.reading.toOption

/-- The entries of a file; there are none if it does not read as a document. -/
def entries (source : Source) : List Entry :=
  match source.reading with
  | .ok document => document.entries
  | .error _ => []

/-- What is wrong with the text. -/
def diagnostics (source : Source) : List Diagnostic :=
  match source.reading with
  | .ok _ => []
  | .error diagnostics => diagnostics

def words (source : Source) : List String :=
  Text.words source.content

/-- The signatures that the entries of a file introduce, in the order of the entries. -/
def signatures (source : Source) : List Document.Signature :=
  source.entries.flatMap Entry.signatures

/-- The forms of the signatures in rising order, each once. -/
def signatureForms (source : Source) : List String :=
  sortedNames (source.signatures.map Document.Signature.form)

/-- What is wrong with the text, a line for each problem. -/
def report (source : Source) : String :=
  String.join (source.diagnostics.map fun diagnostic => "ERROR: " ++ diagnostic.render ++ "\n")

/-- What is wrong with the text, as a list in HTML. -/
def reportHtml (source : Source) : String :=
  "<ul>" ++ String.join (source.diagnostics.map fun diagnostic =>
    "<li>ERROR: " ++ Markup.escape diagnostic.render ++ "</li>") ++ "</ul>"

end Source

end Treatise.Corpus
