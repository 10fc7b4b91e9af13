import Treatise.Expansion.Engine
import Treatise.Proofs.Expansion.Arity
import Treatise.Proofs.Expansion.Holes
import Treatise.Proofs.Statement.Legible
import Treatise.Proofs.Statement.Substitution

/-!
# Rendering with marks

An expression is rendered once with marks in the places of some names and once with words in the
same places. Names are replaced by names, so the same templates are come to both times, and what is
put between the parts keeps marks apart. The texts of the parts are put together along the
expression.

Main statement: the text with marks becomes the text with words, if the expression can be read, no
text in quotes has a hole with the name of a mark, and the templates that are come to keep marks.
-/

namespace Treatise.Expansion

open Statement (ArgGroup Expr Operator Replacement Slot Word commaSeparated commaSeparated_singleton
  commandSignature dottedWords groupsWritten operatorWritten substituteAll substituteGroups
    substituteOperator)
open Statement.Expr (Within)

/-! ## Names in the place of names -/

/-- Every name that is replaced is replaced by a name. -/
def Renames (replacement : Replacement) : Prop :=
  ∀ word other, replacement.find? word = some other → ∃ renamed location,
    other = .name renamed location

section Renaming

variable {replacement : Replacement}

theorem Renames.substitute_name (renames : Renames replacement) (word : String)
    (location : Location) :
    ∃ renamed place, Expr.substitute replacement (.name word location) = .name renamed place := by
  rw [Expr.substitute]
  cases found : replacement.find? word with
  | none => exact ⟨word, location, rfl⟩
  | some other => exact renames word other found

theorem Renames.isCompound_substitute (renames : Renames replacement) (expr : Expr) :
    (expr.substitute replacement).isCompound = expr.isCompound := by
  cases expr with
  | name word location =>
      rcases renames.substitute_name word location with ⟨renamed, place, same⟩
      rw [same]
      rfl
  | _ => rfl

theorem commandSignature_substituteGroups (names : List String) (groups : List ArgGroup) :
    commandSignature names (substituteGroups replacement groups)
      = commandSignature names groups := by
  have slots : ∀ groups : List ArgGroup,
      (substituteGroups replacement groups).filterMap (fun group => group.slot.name?.map (":" ++ ·))
        = groups.filterMap fun group => group.slot.name?.map (":" ++ ·) := by
    intro groups
    rw [Statement.Expr.substituteGroups_eq_map, List.filterMap_map]
    apply List.filterMap_congr
    rintro ⟨slot, items⟩ -
    rfl
  rw [commandSignature, commandSignature, slots]

theorem signature_substituteOperator (operator : Operator) :
    (substituteOperator replacement operator).signature = operator.signature := by
  cases operator with
  | symbol => rfl
  | command names groups location =>
      rw [substituteOperator, Operator.signature, commandSignature_substituteGroups,
        Operator.signature]

theorem Renames.signature?_substitute (renames : Renames replacement) :
    ∀ expr : Expr, (expr.substitute replacement).signature? = expr.signature?
  | .name word location => by
      rcases renames.substitute_name word location with ⟨renamed, place, same⟩
      rw [same]
      rfl
  | .grouped inner _ => renames.signature?_substitute inner
  | .command names groups _ => congrArg some (commandSignature_substituteGroups names groups)
  | .call isCommand _ _ _ => by cases isCommand <;> rfl
  | .operation operator _ _ _ | .prefixed operator _ _ =>
      congrArg some (signature_substituteOperator operator)
  | .variadic .. | .function .. | .tuple .. | .set .. | .relation .. | .assignment .. | .text .. |
    .empty _ => rfl

end Renaming

/-! ## Rendering without templates -/

theorem targetTemplate?_empty (something : Expr) : targetTemplate? .empty something = none := by
  cases signed : something.signature? <;> simp [targetTemplate?, signed]

theorem ok_bind {α β : Type} (value : α) (next : α → Except Error β) :
    (Except.ok value >>= next) = next value := rfl

mutual

/-- Without templates an expression is rendered like its written form. -/
theorem render_empty : ∀ expr : Expr, render .empty expr = .ok expr.code
  | .name _ _ | .variadic _ _ | .text _ _ | .empty _ => rfl
  | .command names groups _ => by
      rw [render, Table.find?_empty]
      simp only [renderGroups_empty groups, ok_bind]
      rfl
  | .call true word groups _ => by
      rw [render, Table.find?_empty]
      simp only [renderGroups_empty groups, ok_bind]
      rfl
  | .call false word groups _ => by
      rw [render]
      simp only [renderGroups_empty groups, ok_bind]
      rw [Expr.code, if_neg (by decide), String.empty_append]
      rfl
  | .function word items _ | .tuple items _ | .set items _ => by
      rw [render]
      simp only [renderAll_empty items, ok_bind]
      rfl
  | .grouped inner _ => by
      rw [render, render_empty inner]
      rfl
  | .operation operator left right _ => by
      rw [render, Table.find?_empty]
      simp only [render_empty left, render_empty right, renderOperator_empty operator, ok_bind]
      rfl
  | .prefixed operator operand _ => by
      rw [render, Table.find?_empty]
      simp only [render_empty operand, renderOperator_empty operator, ok_bind]
      rfl
  | .relation kind left right location => by
      by_cases single : ∃ thing something, kind = .isA ∧ left = [thing] ∧ right = [something]
      · rcases single with ⟨thing, something, rfl, rfl, rfl⟩
        rw [render, targetTemplate?_empty]
        simp only [render_empty thing, render_empty something, ok_bind]
        have blanks : " is " = " " ++ "is" ++ " " := by decide
        rw [Expr.code, Statement.codes, Statement.codes, Statement.codes, Statement.codes,
          commaSeparated_singleton, commaSeparated_singleton, blanks]
        simp only [String.append_assoc]
        rfl
      · have several :
            ∀ thing something, kind = .isA → left = [thing] → right = [something] → False :=
          fun thing something isA one other => single ⟨thing, something, isA, one, other⟩
        rw [render, renderAll_empty left, renderAll_empty right]
        · rfl
        · exact several
  | .assignment left right _ => by
      rw [render, render_empty right]
      rfl

theorem renderOperator_empty : ∀ operator : Operator,
    renderOperator .empty operator = .ok (Statement.operatorCode operator)
  | .symbol _ _ => rfl
  | .command names groups _ => by
      rw [renderOperator, renderGroups_empty groups]
      rfl

theorem renderGroups_empty : ∀ groups : List ArgGroup,
    renderGroups .empty groups = .ok (Statement.groupsCode groups)
  | [] => rfl
  | .mk slot items :: rest => by
      rw [renderGroups, renderAll_empty items, renderGroups_empty rest]
      rfl

theorem renderAll_empty : ∀ items : List Expr, renderAll .empty items = .ok (Statement.codes items)
  | [] => rfl
  | item :: rest => by
      rw [renderAll, render_empty item, renderAll_empty rest]
      rfl

end

/-! ## Texts with marks and plain texts -/

section Yielding

variable {α β γ δ : Type} {related : α → β → Prop} {related' : γ → δ → Prop}

theorem Yields.pure {first : α} {second : β} (same : related first second) :
    Yields related (Pure.pure first) (Pure.pure second) := by
  intro value given
  cases given
  exact ⟨first, rfl, same⟩

theorem Yields.bind {first : Except Error α} {second : Except Error β}
    {next : α → Except Error γ} {next' : β → Except Error δ} (yields : Yields related first second)
    (step : ∀ marked plain, related marked plain → Yields related' (next marked) (next' plain)) :
    Yields related' (first >>= next) (second >>= next') := by
  intro value given
  cases second with
  | error => cases given
  | ok plain =>
      rcases yields plain rfl with ⟨marked, rfl, same⟩
      exact step marked plain same value given

end Yielding

section Texts

variable {content : String → List Char} {marked plain marked' plain' : List Char}

/-- Texts that may stand behind any texts. -/
def Follows (content : String → List Char) (marked plain : List Char) : Prop :=
  ∀ before before', Becomes content before before' →
    Becomes content (before ++ marked) (before' ++ plain)

/-- Texts that may stand before any texts. -/
def Leads (content : String → List Char) (marked plain : List Char) : Prop :=
  ∀ after after', Becomes content after after' → Becomes content (marked ++ after) (plain ++ after')

theorem Follows.nil : Follows content [] [] := by
  intro before before' becomes
  simpa using becomes

theorem Follows.append (first : Follows content marked plain)
    (second : Follows content marked' plain') :
    Follows content (marked ++ marked') (plain ++ plain') := by
  intro before before' becomes
  rw [← List.append_assoc, ← List.append_assoc]
  exact second _ _ (first _ _ becomes)

/-- Behind a character that belongs to no hole any texts may stand. -/
theorem Becomes.follows (separator : Char) (separates : Separates separator)
    (becomes : Becomes content marked plain) :
    Follows content (separator :: marked) (separator :: plain) :=
  fun _ _ before => before.join separator separates becomes

/-- A text in brackets may stand behind any texts. -/
theorem Becomes.enclosed (opening closing : Char) (separate : Separates opening ∧ Separates closing)
    (inner : Becomes content marked plain) :
    Follows content (opening :: marked ++ [closing]) (opening :: plain ++ [closing]) :=
  (inner.join closing separate.2 .nil).follows opening separate.1

/-- Texts that may stand behind any texts may stand alone. -/
theorem Follows.becomes (follows : Follows content marked plain) : Becomes content marked plain :=
  follows [] [] .nil

/-- A text in brackets becomes the other text in the same brackets. -/
theorem becomes_bracketed {marked plain opener closer : String} (opening closing : Char)
    (opens : opener.toList = [opening]) (closes : closer.toList = [closing])
    (separate : Separates opening ∧ Separates closing)
    (becomes : BecomesText content marked plain) :
    BecomesText content (opener ++ marked ++ closer) (opener ++ plain ++ closer) := by
  have wrapped := Becomes.enclosed opening closing separate becomes
  simpa [BecomesText, opens, closes] using wrapped.becomes

theorem Becomes.leads (separator : Char) (separates : Separates separator)
    (becomes : Becomes content marked plain) :
    Leads content (marked ++ [separator]) (plain ++ [separator]) := by
  intro after after' later
  rw [List.append_assoc, List.append_assoc]
  exact becomes.join separator separates later

end Texts

/-! ## Rendering with marks -/

/-- Parameters are replaced by marks, and by words that are written as they are. What a mark is
filled with is that word. -/
structure Marking (templates : Table Template) (content : String → List Char) (params : List String)
    (marks uses : Replacement) : Prop where
  word : ∀ param ∈ params, param.toList ≠ [] ∧ ∀ letter ∈ param.toList, letter.isAlphanum = true
  marked : ∀ param ∈ params, marks.find? param = some (hole param)
  unmarked : ∀ param ∈ params, templates.find? (param ++ "?") = none
  used : ∀ param ∈ params, ∃ word location, uses.find? param = some (.name word location)
    ∧ content param = word.toList ∧ templates.find? word = none
  other : ∀ name, name ∉ params →
    marks.find? name = none ∧ uses.find? name = none ∧ content name = name.toList ++ ['?']

/-- The template by which an expression is written, if there is one. -/
def templateOf? (templates : Table Template) : Expr → Option Template
  | .name word _ => templates.find? word
  | expr => expr.signature?.bind templates.find?

/-- Nothing in an expression interferes with marks: its words can be read, no text in quotes has a
hole with the name of a mark, and the templates by which it is written keep marks. -/
structure Clear (templates : Table Template) (params : List String) (uses : Replacement)
    (expr : Expr) :
    Prop where
  legible : expr.Legible
  quoted : ∀ text location, Within Expr.parts (.text text location) expr →
    ∀ param ∈ params, .hole param ∉ partsFrom [] text.toList
  keeps : ∀ node template, Within Expr.parts node (expr.substitute uses) →
    templateOf? templates node = some template → template.KeepsMarks params

section Rendering

variable {templates : Table Template} {content : String → List Char} {params : List String}
  {marks uses : Replacement} {expr : Expr}

theorem Clear.part {part : Expr} (clear : Clear templates params uses expr)
    (member : part ∈ expr.parts) :
    Clear templates params uses part where
  legible := clear.legible.part member
  quoted text location within :=
    clear.quoted text location (Expr.within_iff.mpr (.inr ⟨part, member, within⟩))
  keeps node template within := by
    apply clear.keeps node template
    have kept : ∀ other, ¬ Expr.IsReplaced uses expr other := by
      rintro other ⟨word, isName, -⟩
      cases expr with
      | name => cases member
      | _ => cases isName
    rw [Expr.substitute_of_kept kept]
    apply Expr.within_iff.mpr
    refine .inr ⟨part.substitute uses, ?_, within⟩
    rw [Expr.parts_mapNode]
    exact List.mem_map_of_mem member

theorem Marking.renames_marks (marking : Marking templates content params marks uses) :
    Renames marks := by
  intro word other found
  by_cases member : word ∈ params
  · rw [marking.marked word member] at found
    cases found
    exact ⟨_, _, rfl⟩
  · rw [(marking.other word member).1] at found
    cases found

theorem Marking.renames_uses (marking : Marking templates content params marks uses) :
    Renames uses := by
  intro word other found
  by_cases member : word ∈ params
  · rcases marking.used word member with ⟨renamed, location, known, -⟩
    rw [known] at found
    cases found
    exact ⟨_, _, rfl⟩
  · rw [(marking.other word member).2.1] at found
    cases found

/-- Where an expression is rendered with marks and with words, the first becomes the second. -/
def RendersAlike (templates : Table Template) (content : String → List Char)
    (marks uses : Replacement) (expr : Expr) : Prop :=
  Yields (BecomesText content) (render templates (expr.substitute marks))
    (render templates (expr.substitute uses))

theorem yields_renderAll {items : List Expr}
    (below : ∀ item ∈ items, RendersAlike templates content marks uses item) :
    Yields (List.Forall₂ (BecomesText content)) (renderAll templates (substituteAll marks items))
      (renderAll templates (substituteAll uses items)) := by
  induction items with
  | nil => exact .pure .nil
  | cons item rest ih =>
      rw [List.forall_mem_cons] at below
      rw [substituteAll, substituteAll, renderAll, renderAll]
      apply below.1.bind
      intro marked plain here
      apply (ih below.2).bind
      intro others others' more
      exact .pure (.cons here more)

theorem becomes_enclosed (marking : Marking templates content params marks uses) (item : Expr)
    {marked plain : String} (becomes : BecomesText content marked plain) :
    BecomesText content (enclosed (item.substitute marks) marked)
      (enclosed (item.substitute uses) plain) := by
  rw [enclosed, enclosed, marking.renames_marks.isCompound_substitute,
    marking.renames_uses.isCompound_substitute]
  split
  · exact becomes_bracketed '(' ')' rfl rfl (by decide) becomes
  · exact becomes

theorem yields_renderEnclosed (marking : Marking templates content params marks uses)
    {items : List Expr} (below : ∀ item ∈ items, RendersAlike templates content marks uses item) :
    Yields (List.Forall₂ (BecomesText content))
      (renderEnclosed templates (substituteAll marks items))
      (renderEnclosed templates (substituteAll uses items)) := by
  induction items with
  | nil => exact .pure .nil
  | cons item rest ih =>
      rw [List.forall_mem_cons] at below
      rw [substituteAll, substituteAll, renderEnclosed, renderEnclosed]
      apply below.1.bind
      intro marked plain here
      apply (ih below.2).bind
      intro others others' more
      exact .pure (.cons (becomes_enclosed marking item here) more)

theorem yields_renderArguments (marking : Marking templates content params marks uses)
    {groups : List ArgGroup}
    (below : ∀ item ∈ ArgGroup.arguments groups, RendersAlike templates content marks uses item) :
    Yields (List.Forall₂ (BecomesText content))
      (renderArguments templates (substituteGroups marks groups))
      (renderArguments templates (substituteGroups uses groups)) := by
  have row : ∀ replacement, ArgGroup.arguments (substituteGroups replacement groups)
      = substituteAll replacement (ArgGroup.arguments groups) := by
    intro replacement
    rw [Expr.substituteGroups_eq_map, ArgGroup.arguments_mapItems, Expr.substituteAll_eq_map]
  rw [renderArguments_eq, renderArguments_eq, row, row]
  exact yields_renderEnclosed marking below

/-- A bracket group may stand behind any texts. -/
theorem follows_enclose {slot : Slot} (lexical : ∀ word ∈ slot.opening, word.Lexical)
    {marked plain : String} (becomes : BecomesText content marked plain) :
    Follows content (slot.enclose marked).toList (slot.enclose plain).toList := by
  have curly := Becomes.enclosed '\x7b' '\x7d' (by decide) becomes
  cases slot with
  | square => simpa [Slot.enclose] using Becomes.enclosed '[' ']' (by decide) becomes
  | paren => simpa [Slot.enclose] using Becomes.enclosed '(' ')' (by decide) becomes
  | curly => simpa [Slot.enclose] using curly
  | sub => simpa [Slot.enclose] using curly.becomes.follows '_' (by decide)
  | sup => simpa [Slot.enclose] using curly.becomes.follows '^' (by decide)
  | named name =>
      have named : Statement.Lexical .name name.toList := lexical _ (.tail _ (.head _))
      have word : Becomes content name.toList name.toList :=
        .kept (ne_mark_of_letters named.letters.2)
      simpa [Slot.enclose] using (curly _ _ word).follows ':' (by decide)

theorem yields_renderGroups {groups : List ArgGroup}
    (lexical : ∀ word ∈ groupsWritten groups, word.Lexical)
    (below : ∀ item ∈ ArgGroup.arguments groups, RendersAlike templates content marks uses item) :
    Yields (fun marked plain => Follows content marked.toList plain.toList)
      (renderGroups templates (substituteGroups marks groups))
      (renderGroups templates (substituteGroups uses groups)) := by
  induction groups with
  | nil => exact .pure .nil
  | cons group rest ih =>
      rcases group with ⟨slot, items⟩
      have split : ∀ item ∈ items ++ ArgGroup.arguments rest,
        RendersAlike templates content marks uses item := below
      rw [List.forall_mem_append] at split
      rw [groupsWritten, List.forall_mem_append, List.forall_mem_append,
        List.forall_mem_cons] at lexical
      rw [substituteGroups, substituteGroups, renderGroups, renderGroups]
      apply (yields_renderAll split.1).bind
      intro front front' here
      apply (ih lexical.2.2.2 split.2).bind
      intro back back' more
      apply Yields.pure
      rw [String.toList_append, String.toList_append]
      exact (follows_enclose lexical.1 (becomes_commaSeparated here)).append more

/-- The names of a command stay. -/
theorem becomes_command {names : List String} (lexical : ∀ word ∈ dottedWords names, word.Lexical)
    {marked plain : String} (follows : Follows content marked.toList plain.toList) :
    BecomesText content ("\\" ++ ".".intercalate names ++ marked)
      ("\\" ++ ".".intercalate names ++ plain) := by
  have unmarked : '?' ∉ ("\\" ++ ".".intercalate names).toList := by
    rw [String.toList_append, List.mem_append]
    rintro (backslash | inNames)
    · revert backslash
      decide
    · rcases Statement.letter_or_dot_of_mem lexical _ inNames with letter | dot
      · revert letter
        decide
      · revert dot
        decide
  have becomes := follows _ _ (.kept unmarked)
  rwa [← String.toList_append, ← String.toList_append] at becomes

/-- An operator may stand before any texts. -/
theorem yields_renderOperator {operator : Operator}
    (lexical : ∀ word ∈ operatorWritten operator, word.Lexical)
    (below : ∀ item ∈ operator.arguments, RendersAlike templates content marks uses item) :
    Yields (fun marked plain => Leads content marked.toList plain.toList)
      (renderOperator templates (substituteOperator marks operator))
      (renderOperator templates (substituteOperator uses operator)) := by
  cases operator with
  | symbol text location =>
      apply Yields.pure
      have spelled : Statement.Lexical .operator text.toList := lexical _ (.head _)
      rcases spelled.symbols with ⟨some, symbols⟩
      have plain : ∀ character ∈ text.toList, Separates character := by
        intro character member
        have symbol := symbols character member
        refine ⟨(Statement.Piece.of_isOperatorCharacter symbol).2.1, ?_⟩
        rintro rfl
        revert symbol
        decide
      rcases text.toList.eq_nil_or_concat with none | ⟨front, last, spells⟩
      · exact absurd none some
      · rw [List.concat_eq_append] at spells
        rw [spells, List.forall_mem_append] at plain
        rw [spells]
        apply Becomes.leads last (plain.2 last (.head _))
        exact .kept fun member => (plain.1 _ member).2 rfl
  | command names groups location =>
      rw [operatorWritten, List.forall_mem_cons, List.forall_mem_append,
        List.forall_mem_append] at lexical
      rw [substituteOperator, substituteOperator, renderOperator, renderOperator]
      apply (yields_renderGroups lexical.2.2.1 below).bind
      intro marked plain follows
      apply Yields.pure
      have leads := Becomes.leads '/' (by decide) (becomes_command lexical.2.1 follows)
      simpa using leads

/-- Without templates marks are kept as well. -/
theorem Marking.without (marking : Marking templates content params marks uses) :
    Marking .empty content params marks uses where
  word := marking.word
  marked := marking.marked
  unmarked _ _ := rfl
  used param member := by
    rcases marking.used param member with ⟨word, location, used, same, -⟩
    exact ⟨word, location, used, same, rfl⟩
  other := marking.other

theorem exists_find?_of_templateOf? {node : Expr} {template : Template}
    (found : templateOf? templates node = some template) :
    ∃ signature, templates.find? signature = some template := by
  unfold templateOf? at found
  split at found
  · exact ⟨_, found⟩
  · rcases Option.bind_eq_some_iff.mp found with ⟨signature, -, known⟩
    exact ⟨signature, known⟩

theorem Clear.without (clear : Clear templates params uses expr) :
    Clear .empty params uses expr where
  legible := clear.legible
  quoted := clear.quoted
  keeps node template _ found := by
    rcases exists_find?_of_templateOf? found with ⟨signature, known⟩
    cases known

theorem Marking.opened (marking : Marking templates content params marks uses) (name : String)
    (other : name ∉ params) : content name = name.toList ++ ['?'] :=
  (marking.other name other).2.2

/-- A name is a parameter, or it is kept. -/
theorem rendersAlike_name (marking : Marking templates content params marks uses) {word : String}
    {location : Location} (clear : Clear templates params uses (.name word location)) :
    RendersAlike templates content marks uses (.name word location) := by
  by_cases member : word ∈ params
  · rcases marking.used word member with ⟨plain, place, used, same, unknown⟩
    have marked : Expr.substitute marks (.name word location) = .name (word ++ "?") .start := by
      rw [Expr.substitute, marking.marked word member]
      rfl
    have replaced : Expr.substitute uses (.name word location) = .name plain place := by
      rw [Expr.substitute, used]
      rfl
    rw [RendersAlike, marked, replaced, render, render, marking.unmarked word member, unknown]
    apply Yields.pure
    have becomes : Becomes content (word.toList ++ ['?']) (content word) :=
      .mark (marking.word word member).1 (marking.word word member).2
    rw [same] at becomes
    simpa [BecomesText] using becomes
  · rcases marking.other word member with ⟨notMarked, notUsed, -⟩
    have marked : Expr.substitute marks (.name word location) = .name word location := by
      rw [Expr.substitute, notMarked]
      rfl
    have kept : Expr.substitute uses (.name word location) = .name word location := by
      rw [Expr.substitute, notUsed]
      rfl
    rw [RendersAlike, marked, kept, render]
    cases found : templates.find? word with
    | none =>
        apply Yields.pure
        have spelled : Statement.Lexical .name word.toList := clear.legible _ (.head _)
        exact .kept (ne_mark_of_letters spelled.letters.2)
    | some template =>
        have keeps := clear.keeps (.name word location) template (by rw [kept]; exact .refl) found
        exact yields_fill marking.opened keeps .nil .none

theorem Clear.keeps_of_signature (clear : Clear templates params uses expr)
    (renames : Renames uses) {signature : String} {template : Template}
    (signed : expr.signature? = some signature)
    (found : templates.find? signature = some template) :
    template.KeepsMarks params := by
  apply clear.keeps (expr.substitute uses) template .refl
  have signed' : (expr.substitute uses).signature? = some signature := by
    rw [renames.signature?_substitute, signed]
  cases used : expr.substitute uses with
  | name word location =>
      rw [used] at signed'
      cases signed'
  | _ =>
      rw [used] at signed'
      simp [templateOf?, signed', found]

theorem targetTemplate?_substitute {replacement : Replacement} (renames : Renames replacement)
    (something : Expr) :
    targetTemplate? templates (something.substitute replacement)
      = targetTemplate? templates something := by
  rw [targetTemplate?, targetTemplate?, renames.signature?_substitute]

theorem yields_argumentTexts (marking : Marking templates content params marks uses)
    {something : Expr}
    (below : ∀ item ∈ something.parts, RendersAlike templates content marks uses item) :
    Yields (List.Forall₂ (BecomesText content))
      (argumentTexts templates (something.substitute marks))
      (argumentTexts templates (something.substitute uses)) := by
  cases something with
  | name word location =>
      rcases marking.renames_marks.substitute_name word location with ⟨_, _, marked⟩
      rcases marking.renames_uses.substitute_name word location with ⟨_, _, used⟩
      rw [marked, used]
      exact .pure .nil
  | command names groups location => exact yields_renderArguments marking below
  | call isCommand word groups location =>
      cases isCommand with
      | true => exact yields_renderArguments marking below
      | false => exact .pure .nil
  | operation operator left right location =>
      have first := below left (List.mem_append_right _ (.head _))
      have second := below right (List.mem_append_right _ (.tail _ (.head _)))
      rw [Expr.substitute, Expr.substitute, argumentTexts, argumentTexts]
      apply first.bind
      intro marked plain here
      apply second.bind
      intro marked' plain' there
      exact .pure (.cons (becomes_enclosed marking left here)
        (.cons (becomes_enclosed marking right there) .nil))
  | prefixed operator operand location =>
      have inner := below operand (List.mem_append_right _ (.head _))
      rw [Expr.substitute, Expr.substitute, argumentTexts, argumentTexts]
      apply inner.bind
      intro marked plain here
      exact .pure (.cons (becomes_enclosed marking operand here) .nil)
  | _ => exact .pure .nil

/-- The name of a function is a parameter, or it is kept. -/
theorem becomes_rename (marking : Marking templates content params marks uses) {word : String}
    (spelled : Statement.Lexical .name word.toList) :
    BecomesText content (marks.rename word) (uses.rename word) := by
  by_cases member : word ∈ params
  · rcases marking.used word member with ⟨plain, place, used, same, -⟩
    rw [Replacement.rename, Replacement.rename, marking.marked word member, used]
    have becomes : Becomes content (word.toList ++ ['?']) (content word) :=
      .mark spelled.letters.1 spelled.letters.2
    rw [same] at becomes
    simpa [BecomesText, hole] using becomes
  · rcases marking.other word member with ⟨notMarked, notUsed, -⟩
    rw [Replacement.rename, Replacement.rename, notMarked, notUsed]
    exact .kept (ne_mark_of_letters spelled.letters.2)

/-- A text that is put together of two with a blank, an operator and a blank between them. -/
theorem becomes_around {content : String → List Char}
    {first first' between between' second second' : String}
    (left : BecomesText content first first') (leads : Leads content between.toList between'.toList)
    (right : BecomesText content second second') :
    BecomesText content (first ++ " " ++ between ++ " " ++ second)
      (first' ++ " " ++ between' ++ " " ++ second') := by
  have behind := Becomes.nil.join ' ' (by decide) right
  have joined := Becomes.join ' ' (by decide) left (leads _ _ behind)
  simpa [BecomesText] using joined

/-- A text without question marks that stands between two others with blanks around it. -/
theorem becomes_between {content : String → List Char} {first first' second second' : String}
    (between : String) (unmarked : '?' ∉ between.toList) (left : BecomesText content first first')
    (right : BecomesText content second second') :
    BecomesText content (first ++ " " ++ between ++ " " ++ second)
      (first' ++ " " ++ between ++ " " ++ second') := by
  have behind := (Becomes.kept unmarked).join ' ' (by decide) right
  have joined := Becomes.join ' ' (by decide) left behind
  simpa [BecomesText] using joined

/-! ### One kind of expression after the other -/

theorem rendersAlike_command (marking : Marking templates content params marks uses)
    {names : List String} {groups : List ArgGroup} {location : Location}
    (clear : Clear templates params uses (.command names groups location))
    (below : ∀ item ∈ ArgGroup.arguments groups, RendersAlike templates content marks uses item) :
    RendersAlike templates content marks uses (.command names groups location) := by
  have lexical := clear.legible
  simp only [Expr.Legible, Expr.written, List.forall_mem_cons, List.forall_mem_append] at lexical
  simp only [RendersAlike, Expr.substitute, render, commandSignature_substituteGroups]
  cases found : templates.find? (commandSignature names groups) with
  | none =>
      apply (yields_renderGroups lexical.2.2 below).bind
      intro marked plain follows
      exact .pure (becomes_command lexical.2.1 follows)
  | some template =>
      have keeps := clear.keeps_of_signature marking.renames_uses rfl found
      apply (yields_renderArguments marking below).bind
      intro marked plain here
      exact yields_fill marking.opened keeps here .none

theorem rendersAlike_commandCall (marking : Marking templates content params marks uses)
    {word : String} {groups : List ArgGroup} {location : Location}
    (clear : Clear templates params uses (.call true word groups location))
    (below : ∀ item ∈ ArgGroup.arguments groups, RendersAlike templates content marks uses item) :
    RendersAlike templates content marks uses (.call true word groups location) := by
  have lexical := clear.legible
  simp only [Expr.Legible, Expr.written, if_true, List.forall_mem_cons,
    List.forall_mem_append] at lexical
  simp only [RendersAlike, Expr.substitute, render, if_true]
  cases found : templates.find? ("\\" ++ word) with
  | none =>
      apply (yields_renderGroups lexical.2.2 below).bind
      intro marked plain follows
      apply Yields.pure
      have named : ∀ other ∈ dottedWords [word], other.Lexical := by
        simpa [dottedWords] using lexical.2.1
      simpa using becomes_command named follows
  | some template =>
      have keeps := clear.keeps_of_signature marking.renames_uses rfl found
      apply (yields_renderArguments marking below).bind
      intro marked plain here
      exact yields_fill marking.opened keeps here .none

theorem rendersAlike_wordCall (marking : Marking templates content params marks uses)
    {word : String} {groups : List ArgGroup} {location : Location}
    (clear : Clear templates params uses (.call false word groups location))
    (below : ∀ item ∈ ArgGroup.arguments groups, RendersAlike templates content marks uses item) :
    RendersAlike templates content marks uses (.call false word groups location) := by
  have lexical := clear.legible
  simp only [Expr.Legible, Expr.written, Bool.false_eq_true, if_false, List.nil_append,
    List.forall_mem_cons] at lexical
  have spelled : Statement.Lexical .name word.toList := lexical.1
  simp only [RendersAlike, Expr.substitute, render, Bool.false_eq_true, if_false]
  apply (yields_renderGroups lexical.2 below).bind
  intro marked plain follows
  apply Yields.pure
  simpa [BecomesText] using follows _ _ (becomes_rename marking spelled)

theorem rendersAlike_operation (marking : Marking templates content params marks uses)
    {operator : Operator} {left right : Expr} {location : Location}
    (clear : Clear templates params uses (.operation operator left right location))
    (inOperator : ∀ item ∈ operator.arguments, RendersAlike templates content marks uses item)
    (first : RendersAlike templates content marks uses left)
    (second : RendersAlike templates content marks uses right) :
    RendersAlike templates content marks uses (.operation operator left right location) := by
  have lexical := clear.legible
  simp only [Expr.Legible, Expr.written, List.forall_mem_append] at lexical
  simp only [RendersAlike, Expr.substitute, render, signature_substituteOperator]
  cases found : templates.find? operator.signature with
  | none =>
      apply first.bind
      intro marked plain here
      apply (yields_renderOperator lexical.2.1 inOperator).bind
      intro symbol symbol' leads
      apply second.bind
      intro marked' plain' there
      exact .pure (becomes_around here leads there)
  | some template =>
      have keeps := clear.keeps_of_signature marking.renames_uses rfl found
      apply first.bind
      intro marked plain here
      apply second.bind
      intro marked' plain' there
      apply yields_fill marking.opened keeps _ .none
      exact .cons (becomes_enclosed marking left here)
        (.cons (becomes_enclosed marking right there) .nil)

theorem rendersAlike_prefixed (marking : Marking templates content params marks uses)
    {operator : Operator} {operand : Expr} {location : Location}
    (clear : Clear templates params uses (.prefixed operator operand location))
    (inOperator : ∀ item ∈ operator.arguments, RendersAlike templates content marks uses item)
    (inner : RendersAlike templates content marks uses operand) :
    RendersAlike templates content marks uses (.prefixed operator operand location) := by
  have lexical := clear.legible
  simp only [Expr.Legible, Expr.written, List.forall_mem_append] at lexical
  simp only [RendersAlike, Expr.substitute, render, signature_substituteOperator]
  cases found : templates.find? operator.signature with
  | none =>
      apply (yields_renderOperator lexical.1 inOperator).bind
      intro symbol symbol' leads
      apply inner.bind
      intro marked plain here
      apply Yields.pure
      simpa [BecomesText] using leads _ _ here
  | some template =>
      have keeps := clear.keeps_of_signature marking.renames_uses rfl found
      apply inner.bind
      intro marked plain here
      apply yields_fill marking.opened keeps _ .none
      exact .cons (becomes_enclosed marking operand here) .nil

/-- What a thing is may be written by a template that speaks of the thing. -/
theorem rendersAlike_is (marking : Marking templates content params marks uses)
    {thing something : Expr} {location : Location} (clear : Clear templates params uses something)
    (below : ∀ item ∈ something.parts, RendersAlike templates content marks uses item)
    (first : RendersAlike templates content marks uses thing)
    (second : RendersAlike templates content marks uses something) :
    RendersAlike templates content marks uses (.relation .isA [thing] [something] location) := by
  simp only [RendersAlike, Expr.substitute, substituteAll, render,
    targetTemplate?_substitute marking.renames_marks,
    targetTemplate?_substitute marking.renames_uses]
  cases found : targetTemplate? templates something with
  | none =>
      apply first.bind
      intro marked plain here
      apply second.bind
      intro marked' plain' there
      apply Yields.pure
      have joined := becomes_between "is" (by decide) here there
      simpa [BecomesText] using joined
  | some template =>
      rcases targetTemplate?_eq_some_iff.mp found with ⟨signature, signed, known, -⟩
      have keeps := clear.keeps_of_signature marking.renames_uses signed known
      apply first.bind
      intro marked plain here
      apply (yields_argumentTexts marking below).bind
      intro others others' there
      exact yields_fill marking.opened keeps there (.some here)

theorem rendersAlike_relation {kind : Statement.RelationKind} {left right : List Expr}
    {location : Location} (several : ¬ (kind = .isA ∧ left.length = 1 ∧ right.length = 1))
    (first : ∀ item ∈ left, RendersAlike templates content marks uses item)
    (second : ∀ item ∈ right, RendersAlike templates content marks uses item) :
    RendersAlike templates content marks uses (.relation kind left right location) := by
  have still : ∀ replacement,
      ¬ (kind = .isA ∧ (substituteAll replacement left).length = 1
        ∧ (substituteAll replacement right).length = 1) := by
    intro replacement
    simpa only [Expr.substituteAll_eq_map, List.length_map] using several
  have unmarked : '?' ∉ kind.text.toList := by
    cases kind <;> decide
  rw [RendersAlike, Expr.substitute, Expr.substitute, render_relation (still marks),
    render_relation (still uses)]
  apply (yields_renderAll first).bind
  intro texts texts' here
  apply (yields_renderAll second).bind
  intro others others' there
  exact .pure (becomes_between kind.text unmarked (becomes_commaSeparated here)
    (becomes_commaSeparated there))

/-- What is introduced is rendered without templates. -/
theorem rendersAlike_assignment {left right : Expr} {location : Location}
    (introduced : RendersAlike .empty content marks uses left)
    (second : RendersAlike templates content marks uses right) :
    RendersAlike templates content marks uses (.assignment left right location) := by
  rw [RendersAlike, render_empty, render_empty] at introduced
  rcases introduced _ rfl with ⟨marked, same, becomes⟩
  cases same
  simp only [RendersAlike, Expr.substitute, render]
  apply second.bind
  intro marked plain here
  apply Yields.pure
  have joined := becomes_between ":=" (by decide) becomes here
  simpa [BecomesText] using joined

theorem rendersAlike_text (marking : Marking templates content params marks uses) {text : String}
    {location : Location} (clear : Clear templates params uses (.text text location)) :
    RendersAlike templates content marks uses (.text text location) := by
  apply Yields.pure
  have stays : ∀ name, .hole name ∈ partsFrom [] text.toList →
      content name = name.toList ++ ['?'] := by
    intro name isHole
    apply marking.opened
    intro member
    exact clear.quoted text location .refl name member isHole
  exact becomes_bracketed '"' '"' rfl rfl (by decide) (.opened stays)

end Rendering

/-- Rendering with marks leads to what rendering with words does. -/
theorem rendersAlike {templates : Table Template} {content : String → List Char}
    {params : List String} {marks uses : Replacement} {expr : Expr}
    (marking : Marking templates content params marks uses)
    (clear : Clear templates params uses expr) :
    RendersAlike templates content marks uses expr := by
  -- By recursion on the expression, for all tables of templates.
  have below : ∀ part ∈ expr.parts, RendersAlike templates content marks uses part := by
    intro part member
    have := Expr.sizeOf_lt_of_mem_parts member
    exact rendersAlike marking (clear.part member)
  have further : ∀ part ∈ expr.parts, ∀ item ∈ part.parts,
      RendersAlike templates content marks uses item := by
    intro part member item inner
    have := Expr.sizeOf_lt_of_mem_parts member
    have := Expr.sizeOf_lt_of_mem_parts inner
    exact rendersAlike marking ((clear.part member).part inner)
  have without : ∀ part ∈ expr.parts, RendersAlike .empty content marks uses part := by
    intro part member
    have := Expr.sizeOf_lt_of_mem_parts member
    exact rendersAlike marking.without (clear.part member).without
  cases expr with
  | name word location => exact rendersAlike_name marking clear
  | variadic word location =>
      apply Yields.pure
      have spelled : Statement.Lexical .name word.toList := clear.legible _ (.head _)
      have named : Becomes content word.toList word.toList :=
        .kept (ne_mark_of_letters spelled.letters.2)
      have dots : Becomes content ['.', '.'] ['.', '.'] := .kept (by decide)
      simpa [BecomesText] using named.join '.' (by decide) dots
  | command names groups location => exact rendersAlike_command marking clear below
  | function word items location =>
      simp only [RendersAlike, Expr.substitute, render]
      apply (yields_renderAll below).bind
      intro marked plain here
      apply Yields.pure
      have wrapped := Becomes.enclosed '(' ')' (by decide) (becomes_commaSeparated here)
      have spelled : Statement.Lexical .name word.toList := clear.legible _ (.head _)
      simpa [BecomesText] using wrapped _ _ (becomes_rename marking spelled)
  | call isCommand word groups location =>
      cases isCommand with
      | false => exact rendersAlike_wordCall marking clear below
      | true => exact rendersAlike_commandCall marking clear below
  | tuple items location =>
      simp only [RendersAlike, Expr.substitute, render]
      apply (yields_renderAll below).bind
      intro marked plain here
      exact .pure (becomes_bracketed '(' ')' rfl rfl (by decide) (becomes_commaSeparated here))
  | set items location =>
      simp only [RendersAlike, Expr.substitute, render]
      apply (yields_renderAll below).bind
      intro marked plain here
      exact .pure
        (becomes_bracketed '\x7b' '\x7d' rfl rfl (by decide) (becomes_commaSeparated here))
  | grouped inner location =>
      simp only [RendersAlike, Expr.substitute, render]
      apply (below inner (.head _)).bind
      intro marked plain here
      exact .pure (becomes_bracketed '(' ')' rfl rfl (by decide) here)
  | operation operator left right location =>
      apply rendersAlike_operation marking clear
      · exact fun item member => below item (List.mem_append_left _ member)
      · exact below left (List.mem_append_right _ (.head _))
      · exact below right (List.mem_append_right _ (.tail _ (.head _)))
  | prefixed operator operand location =>
      apply rendersAlike_prefixed marking clear
      · exact fun item member => below item (List.mem_append_left _ member)
      · exact below operand (List.mem_append_right _ (.head _))
  | relation kind left right location =>
      by_cases single : kind = .isA ∧ left.length = 1 ∧ right.length = 1
      · rcases single with ⟨rfl, one, other⟩
        rcases List.length_eq_one_iff.mp one with ⟨thing, rfl⟩
        rcases List.length_eq_one_iff.mp other with ⟨something, rfl⟩
        apply rendersAlike_is marking (clear.part (.tail _ (.head _)))
        · exact further something (.tail _ (.head _))
        · exact below thing (.head _)
        · exact below something (.tail _ (.head _))
      · apply rendersAlike_relation single
        · exact fun item member => below item (List.mem_append_left _ member)
        · exact fun item member => below item (List.mem_append_right _ member)
  | assignment left right location =>
      exact rendersAlike_assignment (without left (.head _)) (below right (.tail _ (.head _)))
  | text text location => exact rendersAlike_text marking clear
  | empty location => exact .pure .nil
termination_by sizeOf expr

end Treatise.Expansion
