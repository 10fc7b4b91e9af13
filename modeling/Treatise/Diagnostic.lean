import Treatise.Location

/-!
# Diagnostics

A diagnostic is the form every problem takes once it leaves the stage that found it: the stage, a
message and the place the message refers to.
-/

namespace Treatise

/-- The stage of reading that a problem belongs to. -/
inductive Stage where
  | lex
  | structural
  | expression
  | semantic
  deriving DecidableEq, Repr

/-- The written name of a stage. -/
def Stage.name : Stage → String
  | lex => "lex"
  | structural => "structural"
  | expression => "expression"
  | semantic => "semantic"

/-- A problem found at a place of a text. -/
structure Diagnostic where
  stage : Stage
  message : String
  location : Location
  deriving DecidableEq, Repr

namespace Diagnostic

/-- Moves a diagnostic of an embedded text into the text that holds it. -/
def within (diagnostic : Diagnostic) (origin : Location) : Diagnostic :=
  { diagnostic with location := diagnostic.location.within origin }

/-- The message followed by the place as people count it, from one. -/
def render (diagnostic : Diagnostic) : String :=
  diagnostic.message ++ " (" ++ toString (diagnostic.location.line + 1) ++ ", "
    ++ toString (diagnostic.location.character + 1) ++ ")"

/-- Sorts by place; diagnostics of one place keep their order. -/
def sortByLocation (diagnostics : List Diagnostic) : List Diagnostic :=
  diagnostics.mergeSort fun first second => first.location.le second.location

/-- The diagnostic of a located problem, given the stage and the wording. -/
def ofLocated {Problem : Type} (stage : Stage) (wording : Problem → String)
    (found : Located Problem) : Diagnostic :=
  ⟨stage, wording found.value, found.location⟩

end Diagnostic

end Treatise
