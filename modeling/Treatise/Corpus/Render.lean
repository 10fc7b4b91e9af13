import Treatise.Corpus.Basic
import Treatise.Document.Printer

/-!
# Rendering entries

An entry is rendered like its canonical text, with its statements rendered in one of three modes. A
statement that cannot be expanded is shown as it stands in the source. Renderings are kept until the
corpus changes.
-/

namespace Treatise.Corpus

open Document (Entry Formula)

/-- How a statement is shown, given the engine that knows the abbreviations of its entry. -/
def showFormula (mode : RenderMode) (engine : Expansion.Engine) (formula : Formula) : String :=
  let rendered := match mode with
    | .raw => none
    | .literal => formula.expr?.bind fun expr => (engine.written expr).toOption
    | .expanded => (engine.expand formula.text).toOption
  rendered.getD formula.text

/-- An entry as it is rendered now. -/
def renderEntry (corpus : Corpus) (options : RenderOptions) (entry : Entry) : String :=
  let engine := corpus.engine.withAliases entry.aliases
  let pieces := entry.pieces (showFormula options.mode engine)
  if options.html then Markup.html corpus.options.htmlClassPrefix pieces else Markup.plain pieces

/-- Renders the entry at an index of a file, or finds the rendering that was kept. -/
def render (corpus : Corpus) (path : String) (index : Nat) (options : RenderOptions) :
    Except Error String × Corpus :=
  let key : RenderKey := ⟨path, index, options⟩
  match corpus.renderings.lookup key with
  | some rendered => (.ok rendered, corpus)
  | none =>
    match corpus.entry path index with
    | .error error => (.error error, corpus)
    | .ok entry =>
      let rendered := corpus.renderEntry options entry
      (.ok rendered, { corpus with renderings := (key, rendered) :: corpus.renderings })

/-- Renders the entries at indexes of a file, one after the other. -/
def renderIndexes (corpus : Corpus) (path : String) (options : RenderOptions) :
    List Nat → Except Error (List String) × Corpus
  | [] => (.ok [], corpus)
  | index :: rest =>
    match corpus.render path index options with
    | (.error error, after) => (.error error, after)
    | (.ok first, after) =>
      match after.renderIndexes path options rest with
      | (.error error, last) => (.error error, last)
      | (.ok more, last) => (.ok (first :: more), last)

/-- Renders every entry of a file in order. -/
def renderFile (corpus : Corpus) (path : String) (options : RenderOptions) :
    Except Error (List String) × Corpus :=
  match corpus.document path with
  | .error error => (.error error, corpus)
  | .ok document => corpus.renderIndexes path options (List.range document.entries.length)

end Treatise.Corpus
