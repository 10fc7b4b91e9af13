/-!
# Arguments

A command line names a command, gives it words, and carries options before and after the name. An
option is written with two hyphens, or with one hyphen and one letter; some options take a value,
which follows an equals sign or is the next word. Two hyphens alone end the options.
-/

namespace Treatise.CommandLine

/-- What the program is asked to do. -/
inductive Command where
  | check (files : List String) (json : Bool)
  | render (file : String) (context : List String) (html literal asIs : Bool)
  | complete (start : String) (files : List String) (signatures : Bool)
  | search (query : String) (files : List String)
  deriving DecidableEq, Repr

/-- What a command line asks for. Without a command only the configuration is read. -/
structure Request where
  config : Option String
  assignments : List String
  command : Option Command
  deriving DecidableEq, Repr

/-- A part of a command line. -/
inductive Item where
  | word (text : String)
  | config (path : String)
  | assignment (text : String)
  | flag (name : String)
  deriving DecidableEq, Repr

/-- Whether an argument begins like an option, so that it is no value. -/
def isOption (argument : String) : Bool :=
  match argument.toList with
  | '-' :: _ :: _ => true
  | _ => false

/-- The option that takes a value, by its name. -/
def valued? (name : String) : Option (String → Item) :=
  if name = "--config" || name = "-c" then some .config
  else if name = "--set" then some .assignment
  else none

/-- The item of an option that is written in one argument. -/
def whole? (flags : List String) (argument : String) : Option Item :=
  if flags.contains argument then some (.flag argument)
  else
    match argument.toList with
    | '-' :: '-' :: _ =>
      match argument.toList.span (· != '=') with
      | (name, '=' :: value) => (valued? (String.ofList name)).map (· (String.ofList value))
      | _ => none
    | '-' :: 'c' :: '=' :: value => some (.config (String.ofList value))
    | '-' :: 'c' :: value => some (.config (String.ofList value))
    | _ => none

/-- Reads arguments as items. `flags` are the options without a value. -/
def items? (flags : List String) : List String → Option (List Item)
  | [] => some []
  | "--" :: rest => some (rest.map .word)
  | argument :: rest =>
    if !isOption argument then (items? flags rest).map (.word argument :: ·)
    else
      match valued? argument, rest with
      | some option, value :: rest =>
        if isOption value then none else (items? flags rest).map (option value :: ·)
      | some _, [] => none
      | none, rest => do return (← whole? flags argument) :: (← items? flags rest)

def words (items : List Item) : List String :=
  items.filterMap fun item =>
    match item with
    | .word text => some text
    | _ => none

def configs (items : List Item) : List String :=
  items.filterMap fun item =>
    match item with
    | .config path => some path
    | _ => none

def assignments (items : List Item) : List String :=
  items.filterMap fun item =>
    match item with
    | .assignment text => some text
    | _ => none

def flags (items : List Item) : List String :=
  items.filterMap fun item =>
    match item with
    | .flag name => some name
    | _ => none

def flagsOf? : String → Option (List String)
  | "check" => some ["--json"]
  | "render" => some ["--html", "--literal", "--no-expand"]
  | "complete" => some ["--signatures"]
  | "search" => some []
  | _ => none

/-- The command of a name, its words and its flags. -/
def command? (name : String) (words flags : List String) : Option Command :=
  match name, words with
  | "check", first :: rest => some (.check (first :: rest) (flags.contains "--json"))
  | "render", file :: context =>
    if flags.contains "--literal" && flags.contains "--no-expand" then none
    else some (.render file context (flags.contains "--html") (flags.contains "--literal")
      (flags.contains "--no-expand"))
  | "complete", start :: first :: rest =>
    some (.complete start (first :: rest) (flags.contains "--signatures"))
  | "search", query :: first :: rest => some (.search query (first :: rest))
  | _, _ => none

/-- Whether no option that counts once is given twice. -/
def isWellUsed (items : List Item) : Bool :=
  (configs items).length ≤ 1 && decide (flags items).Nodup

/-- Splits arguments at the name of the command: what stands before it, the name, and the rest. No
command stands behind the end of the options. -/
def splitAtCommand : List String → List String × Option (String × List String)
  | [] => ([], none)
  | "--" :: rest => ("--" :: rest, none)
  | argument :: rest =>
    if !isOption argument then ([], some (argument, rest))
    else
      match valued? argument, rest with
      | some _, value :: rest =>
        let (before, found) := splitAtCommand rest
        (argument :: value :: before, found)
      | _, rest =>
        let (before, found) := splitAtCommand rest
        (argument :: before, found)

/-- Options after the name of the command take the place of those before it. -/
def preferLater {α : Type} (before after : List α) : List α :=
  if after.isEmpty then before else after

/-- Reads a command line. There is no reading if it is used wrongly. -/
def read? (arguments : List String) : Option Request := do
  let (before, found) := splitAtCommand arguments
  let outer ← items? [] before
  guard (isWellUsed outer && (words outer).isEmpty)
  match found with
  | none =>
    guard !outer.isEmpty
    return ⟨(configs outer).head?, assignments outer, none⟩
  | some (name, rest) =>
    let inner ← items? (← flagsOf? name) rest
    guard (isWellUsed inner)
    let command ← command? name (words inner) (flags inner)
    return ⟨(preferLater (configs outer) (configs inner)).head?,
      preferLater (assignments outer) (assignments inner), some command⟩

end Treatise.CommandLine
