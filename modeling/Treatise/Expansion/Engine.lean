import Treatise.Expansion.Inlining
import Treatise.Expansion.Rendering
import Treatise.Statement.Reading

/-!
# Expansion

An engine knows the templates and the bodies of definitions. It inlines a statement again and again
until nothing is left to inline, the result repeats, or a limit is reached, and it renders what it
gets as it is written.

A section of abbreviations adds templates: an abbreviation is written as its right side would be,
with holes in the places of its parameters.
-/

namespace Treatise.Expansion

open Document (Clauses Definition)
open Statement (Expr)

/-- Templates and bodies by signature, and how often a text is inlined at most. -/
structure Engine where
  templates : Table Template
  bodies : Table Body
  maxIterations : Nat
  deriving Repr

/-- How often a text is inlined at most unless it is said otherwise. -/
def defaultMaxIterations : Nat := 10

/-- The text that inlining leads to, and how often something was inlined. -/
structure FixedPoint where
  text : String
  iterations : Nat
  deriving DecidableEq, Repr

/-- The assignments of a section, at its outermost level. -/
def assignments (section_ : Clauses) : List (Expr × Expr) :=
  section_.outerFormulas.filterMap fun formula =>
    match formula.expr? with
    | some (.assignment left right _) => some (left, right)
    | _ => none

/-- The signature that the left side of an assignment abbreviates something by. -/
def aliasSignature? : Expr → Option String
  | .command names groups location => Expr.signature? (.command names groups location)
  | .call true word groups location => Expr.signature? (.call true word groups location)
  | _ => none

/-- The signatures that a section introduces as abbreviations. -/
def aliasSignatures (section_ : Clauses) : List String :=
  (assignments section_).filterMap fun (left, _) => aliasSignature? left

/-- A name that prints as a hole. -/
def hole (name : String) : Expr :=
  .name (name ++ "?") .start

namespace Engine

def empty (maxIterations : Nat) : Engine :=
  ⟨.empty, .empty, maxIterations⟩

/-- Adds a template under its signature. -/
def addTemplate (engine : Engine) (template : Template) : Engine :=
  { engine with templates := engine.templates.insert template.signature template }

/-- Adds what a definition says, if its id has a signature. -/
def addDefinition (engine : Engine) (definition : Definition) : Engine :=
  match definition.id.signature? with
  | none => engine
  | some signature =>
    { engine with
      templates := match Template.ofDefinition? definition with
        | some template => engine.templates.insert signature template
        | none => engine.templates
      bodies := match Body.ofDefinition? definition with
        | some body => engine.bodies.insert signature body
        | none => engine.bodies }

/-! ## Rendering -/

/-- Renders an expression as written. -/
def written (engine : Engine) (expr : Expr) : Except Error String :=
  render engine.templates expr

def readStatement (text : String) : Except Error Expr :=
  let found := Statement.read text
  if found.problems.isEmpty then .ok found.value else .error (.unparsable text)

/-- Renders a statement as written. -/
def writtenText (engine : Engine) (text : String) : Except Error String := do
  engine.written (← readStatement text)

/-! ## Abbreviations -/

/-- How the right side of an abbreviation is written; as it stands if it cannot be rendered. -/
def aliasText (engine : Engine) (right : Expr) : String :=
  match engine.written right with
  | .ok text => text
  | .error _ => right.code

/-- The templates that an assignment adds: for a command, or for the names on its left. -/
def aliases (engine : Engine) (left right : Expr) : List Template :=
  match aliasSignature? left, left with
  | some signature, _ =>
    let declared := params left
    let marked := declared.map fun param => (param.name, hole param.name)
    [.abbreviation signature declared (engine.aliasText (right.substitute marked))]
  | none, .name _ _ | none, .tuple _ _ =>
    left.boundNames.map fun name => .abbreviation name [] (engine.aliasText right)
  | none, _ => []

/-- Adds the abbreviations of a section. None of them sees the others. -/
def addAliases (engine : Engine) (section_ : Clauses) : Engine :=
  ((assignments section_).flatMap fun (left, right) => engine.aliases left right).foldl addTemplate
    engine

/-- Adds the abbreviations of sections, one section after the other. -/
def withAliases (engine : Engine) (sections : List Clauses) : Engine :=
  sections.foldl addAliases engine

/-! ## Inlining -/

/-- Inlines a statement once. -/
def step? (engine : Engine) (text : String) : Option String := do
  let expr ← (readStatement text).toOption
  return (← inline? engine.bodies expr).code

/-- Inlines at most `fuel` times. `seen` holds the texts so far. -/
def inlineFrom (engine : Engine) (seen : List String) (text : String) (iterations : Nat) :
    Nat → FixedPoint
  | 0 => ⟨text, iterations⟩
  | fuel + 1 =>
    match engine.step? text with
    | none => ⟨text, iterations⟩
    | some next =>
      if seen.contains next then ⟨text, iterations + 1⟩
      else engine.inlineFrom (next :: seen) next (iterations + 1) fuel

/-- Inlines a statement until nothing is left, the text repeats, or the limit is reached. -/
def fixedPoint (engine : Engine) (text : String) : FixedPoint :=
  engine.inlineFrom [text] text 0 engine.maxIterations

/-- Inlines a statement and renders the result as written. -/
def expand (engine : Engine) (text : String) : Except Error String :=
  engine.writtenText (engine.fixedPoint text).text

end Engine

end Treatise.Expansion
