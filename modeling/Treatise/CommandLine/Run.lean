import Treatise.CommandLine.Arguments
import Treatise.CommandLine.Directory
import Treatise.Config.Settings
import Treatise.Corpus.Check
import Treatise.Corpus.Render
import Treatise.Text.Quoted

/-!
# Running a command

A command reads its settings and its files and answers with lines of text. It fails if a file or the
configuration cannot be read; a check also fails if it finds something.
-/

namespace Treatise.CommandLine

open Corpus (Finding RenderMode RenderOptions)

/-- The answer to a command line. -/
structure Outcome where
  exitCode : Nat
  output : String
  error : Option String
  deriving DecidableEq, Repr

/-- What can stop a command. -/
inductive Error where
  | unreadable (path reason : String)
  | config (error : Config.Error)
  | corpus (error : Corpus.Error)
  deriving DecidableEq, Repr

/-- What is said about an error. -/
def Error.message : Error → String
  | unreadable path reason => "cannot read " ++ path ++ ": " ++ reason
  | config error => "invalid configuration: " ++ error.message
  | corpus error => error.message

/-! ## Settings -/

/-- The configuration file that is read if it is there. -/
def defaultConfig : String := "mathlingua.toml"

/-- The paths under which a configuration file is looked for: its own, and the one with an extension
after the last name in it. -/
def configPaths (path : String) : List String :=
  match (path.splitOn "/").reverse.dropWhile fun name => name = "" || name = "." with
  | [] | ".." :: _ => [path]
  | names => [path, "/".intercalate names.reverse ++ ".toml"]

/-- The content of a configuration file, if it can be read. A mark of its encoding before the text
does not belong to it. -/
def configFile? (files : Files) (path : String) : Option Config.Source :=
  (configPaths path).findSome? fun path =>
    match files path with
    | .ok text => some (.content (String.ofList (Config.Toml.unmarked text.toList)))
    | .error _ => none

/-- The layers of settings that a request asks for. -/
def layers (files : Files) (request : Request) : Except Config.Error Config.Layers := do
  let assigned ← request.assignments.foldlM Config.Layers.addAssignment .empty
  let optional := configFile? files defaultConfig
  let named := request.config.map fun path => (configFile? files path).getD (.absent path)
  return (optional.toList ++ named.toList).foldl Config.Layers.addFile assigned

/-- The settings that a request asks for. -/
def settings (files : Files) (request : Request) : Except Error Settings :=
  (layers files request >>= Config.Layers.settings).mapError Error.config

/-! ## Commands -/

/-- The options of the corpus by the settings. -/
def corpusOptions (settings : Settings) : Corpus.Options :=
  ⟨settings.skipOperatorSignatures, settings.maxIterations, settings.htmlClassPrefix⟩

def fileText (files : Files) (path : String) : Except Error (String × String) :=
  match files path with
  | .error reason => .error (.unreadable path reason)
  | .ok text => .ok (path, text)

def load (files : Files) (settings : Settings) (paths : List String) : Except Error Corpus := do
  return .ofTexts (corpusOptions settings) (← paths.mapM (fileText files))

/-- Lines of text, each with its end. -/
def lines (texts : List String) : String :=
  String.join (texts.map (· ++ "\n"))

/-- A finding as an object in a list of JSON. -/
def findingJson (finding : Finding) : String :=
  let field (name value : String) := "    " ++ Text.quoted name ++ ": " ++ value
  let diagnostic := finding.diagnostic
  "  \x7b\n" ++ ",\n".intercalate [
    field "path" (Text.quoted finding.path),
    field "message" (Text.quoted diagnostic.message),
    field "row" (toString diagnostic.location.row),
    field "column" (toString diagnostic.location.column),
    field "kind" (Text.quoted diagnostic.stage.name)] ++ "\n  \x7d"

/-- Findings as a list of JSON. -/
def findingsJson (findings : List Finding) : String :=
  if findings.isEmpty then "[]" else "[\n" ++ ",\n".intercalate (findings.map findingJson) ++ "\n]"

/-- Findings as lines of text, and how many there are. -/
def findingsText (findings : List Finding) : String :=
  if findings.isEmpty then lines ["SUCCESS: no errors found"]
  else lines (findings.map (fun finding => "ERROR: " ++ finding.render)
    ++ [toString findings.length ++ " error(s) found"])

/-- How a request and the settings say that statements are rendered. -/
def renderMode (settings : Settings) (literal asIs : Bool) : RenderMode :=
  if asIs then .raw
  else if literal || settings.literal || !settings.expands then .literal
  else .expanded

/-- Carries a command out. -/
def answer (files : Files) (settings : Settings) : Command → Except Error Outcome
  | .check paths json => do
    let findings := (← load files settings paths).check
    let output := if json then lines [findingsJson findings] else findingsText findings
    return ⟨if findings.isEmpty then 0 else 1, output, none⟩
  | .render path context html literal asIs => do
    let corpus ← load files settings (path :: context)
    let options : RenderOptions := ⟨html || settings.html, renderMode settings literal asIs⟩
    let rendered ← (corpus.renderFile path options).1.mapError Error.corpus
    return ⟨0, lines ["\n".intercalate rendered], none⟩
  | .complete start paths signatures => do
    let corpus ← load files settings paths
    let suffixes := if signatures then corpus.completeSignature start else corpus.completeWord start
    return ⟨0, lines ((suffixes.take settings.maxResults).map (start ++ ·)), none⟩
  | .search query paths => do
    return ⟨0, lines (((← load files settings paths).find query).map (·.path)), none⟩

def respond (files : Files) (request : Request) : Outcome :=
  let outcome : Except Error Outcome := do
    let settings ← settings files request
    match request.command with
    | none => return ⟨0, "", none⟩
    | some command => answer files settings command
  match outcome with
  | .ok found => found
  | .error error => ⟨2, "", some ("Error: " ++ error.message)⟩

/-- The files that a request may read. -/
def candidates (request : Request) : List String :=
  let named := match request.command with
    | none => []
    | some (.check paths _) => paths
    | some (.render path context _ _ _) => path :: context
    | some (.complete _ paths _) => paths
    | some (.search _ paths) => paths
  (defaultConfig :: request.config.toList).flatMap configPaths ++ named

/-- How the program is used. -/
def usage : String := lines [
  "Usage: mathlingua [-c FILE] [--set KEY=VALUE] COMMAND",
  "  check FILES [--json]",
  "  render FILE [CONTEXT] [--html] [--literal] [--no-expand]",
  "  complete START FILES [--signatures]",
  "  search QUERY FILES"]

def run (files : Files) (arguments : List String) : Outcome :=
  match read? arguments with
  | some request => respond files request
  | none => ⟨2, "", none⟩

end Treatise.CommandLine
