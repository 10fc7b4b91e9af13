import Treatise.Corpus.Basic

/-!
# Checking a corpus

Each check looks for one kind of problem in all files. What is found is placed in a file, and the
findings of all checks together are in the natural order of the paths and then in the order of the
places.
-/

namespace Treatise.Corpus

open Document (Clauses Definition Defines Entry Formula ResultKind)
open Expansion (Engine)
open Statement (ArgGroup Expr Use)

/-- A problem with what files mean. -/
inductive Problem where
  | duplicateSignature (signature : String)
  | undefinedSignature (signature : String)
  | wrongCount (expected : Nat) (slot signature : String) (found : Nat)
  | notExpanded (error : Expansion.Error)
  | illegalIs (referenced signature : String)
  | illegalIn (signature : String)
  | illegalAssignment (signature : String)
  | whenDescribes (name : String)
  | bodyDescribes (name : String)
  | notExpressing (signature : String)
  | duplicateContent
  deriving DecidableEq, Repr

/-- What is said about a problem. -/
def Problem.message : Problem → String
  | duplicateSignature signature => "Duplicate defined signature '" ++ signature ++ "'"
  | undefinedSignature signature => "Undefined signature '" ++ signature ++ "'"
  | wrongCount expected slot signature found =>
    "Expected " ++ toString expected ++ " argument(s) in the " ++ slot ++ " group of '" ++ signature
      ++ "' but found " ++ toString found
  | notExpanded error => error.message
  | illegalIs referenced signature =>
    "The right-hand-side of an `is` cannot reference " ++ referenced ++ " but found '" ++ signature
      ++ "'"
  | illegalIn signature =>
    "The right-hand-side of an `in` cannot reference a signature without an `expressing:` section"
      ++ " but found '" ++ signature ++ "'"
  | illegalAssignment signature =>
    "The right-hand-side of an `:=` cannot reference a signature without an `expressing:` section"
      ++ " but found '" ++ signature ++ "'"
  | whenDescribes name =>
    "A `when:` section cannot describe a symbol introduced in a `Defines:` section but found '"
      ++ name ++ "'"
  | bodyDescribes name =>
    "A `satisfying:` or `expressing:` section cannot describe a symbol introduced in a [...] or"
      ++ " `given:` section but found '" ++ name ++ "'"
  | notExpressing signature =>
    "Cannot use '" ++ signature ++ "' in a non-`is` or non-`in` statement since its definition"
      ++ " doesn't have an `expressing:` section"
  | duplicateContent => "Duplicate content found"

/-- A diagnostic and the path of the file it belongs to. -/
structure Finding where
  path : String
  diagnostic : Diagnostic
  deriving DecidableEq, Repr

namespace Finding

/-- The path, and the diagnostic with its place. -/
def render (finding : Finding) : String :=
  finding.path ++ ": " ++ finding.diagnostic.render

/-- Findings are ordered by their paths and then by their places. -/
def le (first second : Finding) : Bool :=
  match comparePaths first.path second.path with
  | .lt => true
  | .gt => false
  | .eq => first.diagnostic.location.le second.diagnostic.location

/-- Sorts findings; those of one place keep their order. -/
def sort (findings : List Finding) : List Finding :=
  findings.mergeSort le

def ofProblem (path : String) (problem : Problem) (location : Location) : Finding :=
  ⟨path, ⟨.semantic, problem.message, location⟩⟩

end Finding

/-- A problem and its place in the file. -/
abbrev Found := Located Problem

/-- Looks for problems in every entry. -/
def inEntries (corpus : Corpus) (find : Entry → List Diagnostic) : List Finding :=
  corpus.entries.flatMap fun placed => (find placed.entry).map (⟨placed.path, ·⟩)

def diagnosticOf (found : Found) : Diagnostic :=
  .ofLocated .semantic Problem.message found

/-- The formulas that read as expressions, with the places where their texts begin. -/
def readable (formulas : List Formula) : List (Expr × Location) :=
  formulas.filterMap fun formula => formula.expr?.map (·, formula.origin)

/-- What is wrong with the texts of formulas, placed in the file. -/
def formulaDiagnostics (formula : Formula) : List Diagnostic :=
  formula.diagnostics.map fun diagnostic => diagnostic.within formula.origin

/-! ## Texts that cannot be read -/

/-- What is wrong with files that do not read as documents. -/
def parseErrors (corpus : Corpus) : List Finding :=
  Finding.sort (corpus.files.values.flatMap fun source =>
    source.diagnostics.map (⟨source.path, ·⟩))

/-- What is wrong with the texts of ids. -/
def idErrors (corpus : Corpus) : List Finding :=
  corpus.inEntries fun entry => entry.ids.flatMap formulaDiagnostics

/-! ## Duplicates -/

/-- The order in which the references to one signature are looked at. -/
def referenceLe (first second : Reference) : Bool :=
  match comparePaths first.path second.path with
  | .lt => true
  | .gt => false
  | .eq => first.index ≤ second.index

/-- Goes through the references to signatures. All but the first one to a signature are duplicates,
but an entry is reported only once. `reported` holds the entries that were reported. -/
def duplicatesFrom (reported : List (String × Nat)) : List (String × Reference) → List Finding
  | [] => []
  | (signature, reference) :: rest =>
    if reported.contains (reference.path, reference.index) then duplicatesFrom reported rest
    else
      Finding.ofProblem reference.path (.duplicateSignature signature) reference.location
        :: duplicatesFrom ((reference.path, reference.index) :: reported) rest

/-- The entries that introduce a signature which an earlier one introduced. -/
def duplicateSignatures (corpus : Corpus) : List Finding :=
  Finding.sort (duplicatesFrom [] (corpus.signatures.entries.flatMap fun (signature, references) =>
    ((references.mergeSort referenceLe).drop 1).map (signature, ·)))

/-- The entries that say the same as an earlier one, given the earlier ones. -/
def repeatedFrom (earlier : List Entry) : List Placed → List Placed
  | [] => []
  | placed :: rest =>
    let more := repeatedFrom (placed.entry :: earlier) rest
    if earlier.contains placed.entry then placed :: more else more

/-- The entries that say the same as an earlier one, whatever their places. -/
def duplicateContent (corpus : Corpus) : List Finding :=
  let ordered := corpus.normalized.mergeSort fun first second =>
    referenceLe ⟨first.path, first.index, .start⟩ ⟨second.path, second.index, .start⟩
  (repeatedFrom [] ordered).filterMap fun placed =>
    match corpus.entry placed.path placed.index with
    | .ok entry => some (.ofProblem placed.path .duplicateContent entry.location)
    | .error _ => none

/-! ## Signatures that nothing defines -/

/-- The uses of signatures in an entry that neither the corpus nor the entry itself introduces. -/
def undefinedIn (corpus : Corpus) (entry : Entry) : List Found :=
  let inner := entry.aliases.flatMap Expansion.aliasSignatures
  (readable entry.formulas).flatMap fun (expr, origin) =>
    (expr.uses.filter fun use =>
      !(corpus.options.skipOperatorSignatures && Document.isOperatorForm use.value)
        && !corpus.isDefined use.value && !inner.contains use.value).map fun use =>
      ⟨use.location.within origin, .undefinedSignature use.value⟩

/-- The uses of signatures that nothing introduces. -/
def undefinedSignatures (corpus : Corpus) : List Finding :=
  corpus.inEntries fun entry => (corpus.undefinedIn entry).map diagnosticOf

/-! ## Arguments -/

/-- Whether a number of arguments fits what a bracket group of an id declares. -/
def accepts (declared : List Expr) (count : Nat) : Bool :=
  match declared.getLast? with
  | some (.variadic _ _) => declared.length ≤ count + 1
  | _ => count = declared.length

/-- The bracket groups of a command whose number of arguments does not fit the id. -/
def wrongCounts (signature : String) (used declared : List ArgGroup) : List Problem :=
  used.filterMap fun group =>
    match declared.find? fun other => other.slot = group.slot with
    | none => none
    | some other =>
      if accepts other.items group.items.length then none
      else some (.wrongCount other.items.length group.slot.label signature group.items.length)

/-- The commands in an expression whose arguments do not fit the id of their definition. -/
def misshapen (corpus : Corpus) (expr : Expr) : List Found :=
  expr.nodes.flatMap fun node =>
    match node with
    | .command names groups location =>
      let signature := Statement.commandSignature names groups
      match corpus.definitionId? signature with
      | some (.command _ declared _) =>
        (wrongCounts signature groups declared).map (⟨location, ·⟩)
      | _ => []
    | _ => []

/-- Something that looks for further problems in an entry. -/
abbrev Analyzer := Corpus → Entry → List Diagnostic

/-- Looks for commands whose arguments do not fit the ids of their definitions. -/
def shapeAnalyzer : Analyzer := fun corpus entry =>
  (readable entry.formulas).flatMap fun (expr, origin) =>
    (corpus.misshapen expr).map fun found => (diagnosticOf found).within origin

/-- Looks for nothing. -/
def silentAnalyzer : Analyzer := fun _ _ => []

/-- What is wrong with a formula: its text, or that it cannot be rendered as written. -/
def formulaProblems (engine : Engine) (formula : Formula) : List Diagnostic :=
  let unrendered := match formula.expr? with
    | none => []
    | some expr => match engine.written expr with
      | .ok _ => []
      | .error error => [diagnosticOf ⟨formula.origin, .notExpanded error⟩]
  formulaDiagnostics formula ++ unrendered

/-- What an analyzer finds, and what is wrong with formulas. -/
def invalidTypes (corpus : Corpus) (analyzer : Analyzer) : List Finding :=
  corpus.inEntries fun entry =>
    let engine := corpus.engine.withAliases entry.aliases
    analyzer corpus entry ++ entry.formulas.flatMap (formulaProblems engine)

/-! ## References -/

/-- What an `is` may not refer to, in words. -/
def unfitForIs? : SignatureKind → Option String
  | .states => some "a `States:`"
  | .result kind => some ("a `" ++ kind.heading ++ ":`")
  | .defines true => some "a `Defines:` with an `expressing:` section"
  | .defines false | .constructor => none

/-- The problem of an expression on the right of an `is`. -/
def illegalIs? (corpus : Corpus) (expr : Expr) : Option Problem := do
  let signature ← expr.signature?
  let referenced ← unfitForIs? (← corpus.signatureKind? signature)
  return .illegalIs referenced signature

/-- The signature of an expression, if it is that of a thing that is not an expression itself. -/
def nonExpressing? (corpus : Corpus) (expr : Expr) : Option String := do
  let signature ← expr.signature?
  if corpus.signatureKind? signature = some (.defines false) then some signature else none

/-- What is wrong with the right side of a node. -/
def illegalAt (corpus : Corpus) : Expr → List Found
  | .relation .isA _ right _ => right.filterMap fun item =>
    (corpus.illegalIs? item).map (⟨item.location, ·⟩)
  | .relation .isIn _ right _ | .relation .notIn _ right _ => right.filterMap fun item =>
    (corpus.nonExpressing? item).map (⟨item.location, .illegalIn ·⟩)
  | .assignment _ right _ =>
    ((corpus.nonExpressing? right).map (⟨right.location, .illegalAssignment ·⟩)).toList
  | _ => []

/-- What may not stand on the right of `is`, `in` and `:=`. -/
def illegalReferences (corpus : Corpus) : List Finding :=
  corpus.inEntries fun entry => (readable entry.formulas).flatMap fun (expr, origin) =>
    (expr.nodes.flatMap corpus.illegalAt).map fun found => (diagnosticOf found).within origin

/-- Whether a signature may be used in a statement that is not about membership. -/
def mayStandBare (kind : Option SignatureKind) (isSole : Bool) : Bool :=
  match kind with
  | none | some .states | some .constructor | some (.defines true) => true
  | some (.result .axiomatic) => isSole
  | _ => false

/-- The uses of signatures in a statement that only membership statements may use. -/
def nonExpressingIn (corpus : Corpus) (expr : Expr) : List Found :=
  (expr.bareUses.filter fun use =>
    !mayStandBare (corpus.signatureKind? use.value) (expr.soleCommand? == some use.value)).map
      fun use => ⟨use.location, .notExpressing use.value⟩

/-- The uses of signatures in statements that only membership statements may use. -/
def nonExpressingUses (corpus : Corpus) : List Finding :=
  corpus.inEntries fun entry => (readable entry.innerFormulas).flatMap fun (expr, origin) =>
    (corpus.nonExpressingIn expr).map fun found => (diagnosticOf found).within origin

/-! ## Scoping -/

/-- The names that clauses describe, placed in the file. -/
def describedIn (clauses : Clauses) : List (Located String) :=
  (readable clauses.formulas).flatMap fun (expr, origin) =>
    expr.describedNames.map fun found => ⟨found.location.within origin, found.value⟩

/-- The names that a definition takes from its id and from what is given. -/
def inputs (defines : Defines) : List String :=
  ((defines.id.expr?.map Expr.mentionedNames).getD [])
    ++ ((defines.given.map Document.Targets.names).getD [])

/-- The sections of a definition that describe what they may not describe. -/
def scopingIn (defines : Defines) : List Found :=
  let outputs := defines.target.names
  let inputs := inputs defines
  let body := [defines.means, defines.satisfying, defines.expressing].filterMap id
  let early := (defines.when.toList.flatMap describedIn).filter fun found =>
    outputs.contains found.value
  let late := (body.flatMap describedIn).filter fun found =>
    inputs.contains found.value && !outputs.contains found.value
  early.map (Located.map .whenDescribes) ++ late.map (Located.map .bodyDescribes)

/-- The sections that describe what they may not describe. -/
def scopingErrors (corpus : Corpus) : List Finding :=
  corpus.inEntries fun entry =>
    (entry.definitions.filterMap Definition.defines?).flatMap fun defines =>
      (scopingIn defines).map diagnosticOf

/-! ## All checks -/

def checkWith (corpus : Corpus) (analyzer : Analyzer) : List Finding :=
  Finding.sort (corpus.parseErrors ++ corpus.idErrors ++ corpus.duplicateSignatures
    ++ corpus.undefinedSignatures ++ corpus.invalidTypes analyzer ++ corpus.illegalReferences
    ++ corpus.scopingErrors ++ corpus.nonExpressingUses ++ corpus.duplicateContent)

def check (corpus : Corpus) : List Finding :=
  corpus.checkWith shapeAnalyzer

end Treatise.Corpus
