import Treatise.Layout.Indentation
import Treatise.Proofs.Outline.Items

/-!
# What an outline holds

Names, operators and literals are what a text says; the other tokens only give it its shape. An
outline holds the tokens with content and drops the others. Main statement: reading accepts exactly
the tokens that the grammar spells, and an outline that is read without a problem holds each token
with content once, in the order of the text.
-/

namespace Treatise.Outline

open Layout (Token TokenKind Mark)

/-- Whether tokens of a kind say something and do not only shape the outline. -/
@[simp]
def hasContent : TokenKind → Bool
  | .name | .operator | .literal _ => true
  | .blockOpen | .blockClose | .lineBreak | .mark _ => false

/-! ## The tokens in an outline -/

mutual

/-- The tokens that a target holds, in the order they are written. -/
def Target.held : Target → List Token
  | .single token => [token]
  | .enclosed params _ => params
  | .applied name sub params => name :: (sub.getD [] ++ params.getD [])
  | .assignment name value => name :: value.held
  | .tuple items _ => heldByTargets items

def heldByTargets : List Target → List Token
  | [] => []
  | target :: rest => target.held ++ heldByTargets rest

end

mutual

/-- The tokens that a group holds: its id, and the names and the arguments of its sections. -/
def Group.held : Group → List Token
  | .mk id sections => id.toList ++ heldBySections sections

def heldBySections : List Section → List Token
  | [] => []
  | part :: rest => part.held ++ heldBySections rest

def Section.held : Section → List Token
  | .mk name arguments => name :: heldByArguments arguments

def heldByArguments : List Argument → List Token
  | [] => []
  | argument :: rest => argument.held ++ heldByArguments rest

def Argument.held : Argument → List Token
  | .target leaf => leaf.held
  | .group inner => inner.held

end

def Item.held : Item → List Token
  | .group inner => inner.held
  | .comment token => [token]

def heldByItems (items : List Item) : List Token :=
  items.flatMap Item.held

theorem heldByArguments_append (targets : List Target) (arguments : List Argument) :
    heldByArguments (targets.map .target ++ arguments)
      = heldByTargets targets ++ heldByArguments arguments := by
  induction targets with
  | nil => rfl
  | cons target rest ih =>
      rw [List.map_cons, List.cons_append, heldByArguments, ih, heldByTargets, List.append_assoc]
      rfl

/-! ## The tokens that spell an outline -/

/-- The tokens with content among tokens. -/
def contents (tokens : List Token) : List Token :=
  tokens.filter fun token => hasContent token.kind

@[simp]
theorem contents_nil : contents [] = [] := rfl

@[simp]
theorem contents_cons (token : Token) (rest : List Token) : contents (token :: rest)
    = if hasContent token.kind then token :: contents rest else contents rest :=
  List.filter_cons

@[simp]
theorem contents_append (first second : List Token) :
    contents (first ++ second) = contents first ++ contents second :=
  List.filter_append first second

theorem NamesSpelled.contents {names tokens : List Token} (spelled : NamesSpelled names tokens) :
    contents tokens = names := by
  induction spelled with
  | one isName => simp [isName]
  | more isName isComma _ ih => simp [isName, isComma, ih]

theorem Enclosed.contents {opener closer : Mark} {names tokens : List Token}
    (spelled : Enclosed opener closer names tokens) : contents tokens = names := by
  cases spelled with
  | empty opens closes => simp [opens, closes]
  | names opens spelled closes => simp [opens, spelled.contents, closes]

mutual

/-- A target holds the tokens with content that spell it. -/
theorem Target.Spelled.contents {found : Target} {tokens : List Token}
    (spelled : Target.Spelled found tokens) : contents tokens = found.held := by
  match spelled with
  | .single alone =>
    rcases alone with kind | kind | kind | kind | kind <;> simp [kind, Target.held]
  | .enclosed spelled => exact spelled.contents.trans (by simp [Target.held])
  | .assignment isName isEquals spelled =>
    simp [isName, isEquals, spelled.contents, Target.held]
  | .applied isName spelled => simp [isName, spelled.contents, Target.held]
  | .subscripted isName isUnderscore spelled =>
    simp [isName, isUnderscore, spelled.contents, Target.held]
  | .subscriptedApplied isName isUnderscore spelled params =>
    simp [isName, isUnderscore, spelled.contents, params.contents, Target.held]
  | .emptyTuple opens closes => simp [opens, closes, Target.held, heldByTargets]
  | .tuple opens spelled closes => simp [opens, spelled.contents, closes, Target.held]

theorem TargetsSpelled.contents {found : List Target} {tokens : List Token}
    (spelled : TargetsSpelled found tokens) : contents tokens = heldByTargets found := by
  match spelled with
  | .one spelled => simp [spelled.contents, heldByTargets]
  | .more spelled isComma more =>
    simp [spelled.contents, isComma, more.contents, heldByTargets]

end

theorem InlineSpelled.contents {found : List Target} {tokens : List Token}
    (spelled : InlineSpelled found tokens) : contents tokens = heldByTargets found := by
  cases spelled with
  | none => simp [heldByTargets]
  | some spelled => exact spelled.contents

mutual

/-- A group holds the tokens with content that spell it. -/
theorem Group.Spelled.contents {found : Group} {tokens : List Token}
    (spelled : Group.Spelled found tokens) : contents tokens = found.held := by
  match spelled with
  | .plain spelled => simp [spelled.contents, Group.held]
  | .tagged isId opens closes spelled =>
    simp [isId, opens, closes, spelled.contents, Group.held]

theorem SectionsSpelled.contents {found : List Section} {tokens : List Token}
    (spelled : SectionsSpelled found tokens) : contents tokens = heldBySections found := by
  match spelled with
  | .one spelled => simp [spelled.contents, heldBySections]
  | .more spelled more => simp [spelled.contents, more.contents, heldBySections]

theorem Section.Spelled.contents {found : Section} {tokens : List Token}
    (spelled : Section.Spelled found tokens) : contents tokens = found.held := by
  match spelled with
  | .mk isName isColon spelledInline opens spelled closes =>
    simp [isName, isColon, spelledInline.contents, opens, spelled.contents, closes, Section.held,
      heldByArguments_append]

theorem ArgumentsSpelled.contents {found : List Argument} {tokens : List Token}
    (spelled : ArgumentsSpelled found tokens) : contents tokens = heldByArguments found := by
  match spelled with
  | .none => simp [heldByArguments]
  | .group isDot spelled more =>
    simp [isDot, spelled.contents, more.contents, heldByArguments, Argument.held]
  | .targets isDot spelled _ opens closes more =>
    simp [isDot, spelled.contents, opens, closes, more.contents, heldByArguments_append]

end

/-- Items hold the tokens with content that spell them. -/
theorem ItemsSpelled.contents {found : List Item} {tokens : List Token}
    (spelled : ItemsSpelled found tokens) : contents tokens = heldByItems found := by
  induction spelled with
  | none => rfl
  | lineBreak isBreak _ ih => simp [isBreak, ih]
  | comment isComment _ ih => simp [isComment, ih, heldByItems, Item.held]
  | group spelled _ _ ih => simp [spelled.contents, ih, heldByItems, Item.held]

/-! ## Acceptance -/

/-- Reading ends on every list of tokens, whether it comes from a text or not. It meets no problem
exactly if the grammar spells the tokens as some items. It then yields these items, and they hold
every name, operator and literal of the tokens, block comments included, once and in order. -/
theorem read_accepts_grammar (tokens : List Token) :
    ((read tokens).problems = [] ↔ ∃ found, ItemsSpelled found tokens)
      ∧ ∀ found, ItemsSpelled found tokens →
        read tokens = ⟨found, []⟩ ∧ heldByItems found = contents tokens := by
  refine ⟨⟨fun clean => ?_, ?_⟩, fun found spelled => ?_⟩
  · exact ⟨_, spelled_of_items clean⟩
  · rintro ⟨found, spelled⟩
    exact congrArg Review.problems (read_clean_iff.mpr spelled)
  · exact ⟨read_clean_iff.mpr spelled, spelled.contents.symm⟩

/-- A group within a group is spelled, and what is said in both of them is held. -/
theorem nested_group_held :
    ∃ found, ItemsSpelled found (Layout.read "Theorem:\nthen:\n. not:\n  . 'x'\n").tokens
      ∧ (heldByItems found).map Token.text = ["Theorem", "then", "not", "'x'"] := by
  have clean : (read (Layout.read "Theorem:\nthen:\n. not:\n  . 'x'\n").tokens).problems = [] := by
    decide +kernel
  rcases (read_accepts_grammar _).1.mp clean with ⟨found, spelled⟩
  refine ⟨found, spelled, ?_⟩
  rw [((read_accepts_grammar _).2 found spelled).2]
  decide +kernel

end Treatise.Outline
