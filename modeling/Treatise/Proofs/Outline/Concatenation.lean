import Treatise.Proofs.Layout.Concatenation
import Treatise.Proofs.Outline.Relocation

/-!
# Outlines below each other

Line breaks and block comments stand between groups and never inside them. So no block closes right
after one of them, and an outline that ends with one of them can be followed by another outline.
-/

namespace Treatise.Outline

open Layout (Token TokenKind Mark Shut)

variable {tokens others : List Token}

/-- There is no line break and no block comment among the tokens. -/
def Unseparated (tokens : List Token) : Prop :=
  ∀ token ∈ tokens, ¬ token.Separates

@[simp]
theorem unseparated_nil : Unseparated [] := nofun

@[simp]
theorem unseparated_cons {first : Token} :
    Unseparated (first :: tokens) ↔ ¬ first.Separates ∧ Unseparated tokens :=
  List.forall_mem_cons

@[simp]
theorem unseparated_append :
    Unseparated (tokens ++ others) ↔ Unseparated tokens ∧ Unseparated others :=
  List.forall_mem_append

theorem not_separates_of_kind {token : Token} {kind : TokenKind} (same : token.kind = kind)
    (isBreak : kind ≠ .lineBreak) (isComment : kind ≠ .literal .blockComment) :
    ¬ token.Separates := by
  rintro (found | found)
  · exact isBreak (same.symm.trans found)
  · exact isComment (same.symm.trans found)

theorem NamesSpelled.unseparated {names : List Token} (spelled : NamesSpelled names tokens) :
    Unseparated tokens := by
  induction spelled with
  | one isName => simp [not_separates_of_kind isName]
  | more isName isComma _ ih =>
      simp [not_separates_of_kind isName, not_separates_of_kind isComma, ih]

theorem Enclosed.unseparated {opener closer : Mark} {names : List Token}
    (spelled : Enclosed opener closer names tokens) : Unseparated tokens := by
  cases spelled with
  | empty opens closes => simp [not_separates_of_kind opens, not_separates_of_kind closes]
  | names opens spelled closes =>
      simp [not_separates_of_kind opens, spelled.unseparated, not_separates_of_kind closes]

mutual

theorem Target.Spelled.unseparated {found : Target} {tokens : List Token}
    (spelled : Target.Spelled found tokens) : Unseparated tokens := by
  match spelled with
  | .single alone =>
    rcases alone with kind | kind | kind | kind | kind <;> simp [not_separates_of_kind kind]
  | .enclosed spelled => exact spelled.unseparated
  | .assignment isName isEquals spelled =>
    simp [not_separates_of_kind isName, not_separates_of_kind isEquals, spelled.unseparated]
  | .applied isName spelled => simp [not_separates_of_kind isName, spelled.unseparated]
  | .subscripted isName isUnderscore spelled =>
    simp [not_separates_of_kind isName, not_separates_of_kind isUnderscore, spelled.unseparated]
  | .subscriptedApplied isName isUnderscore spelled params =>
    simp [not_separates_of_kind isName, not_separates_of_kind isUnderscore, spelled.unseparated,
      params.unseparated]
  | .emptyTuple opens closes => simp [not_separates_of_kind opens, not_separates_of_kind closes]
  | .tuple opens spelled closes =>
    simp [not_separates_of_kind opens, spelled.unseparated, not_separates_of_kind closes]

theorem TargetsSpelled.unseparated {found : List Target} {tokens : List Token}
    (spelled : TargetsSpelled found tokens) : Unseparated tokens := by
  match spelled with
  | .one spelled => exact spelled.unseparated
  | .more spelled isComma more =>
    simp [spelled.unseparated, not_separates_of_kind isComma, more.unseparated]

end

theorem InlineSpelled.unseparated {found : List Target} (spelled : InlineSpelled found tokens) :
    Unseparated tokens := by
  cases spelled with
  | none => exact unseparated_nil
  | some spelled => exact spelled.unseparated

mutual

/-- Line breaks and block comments do not stand inside a group. -/
theorem Group.Spelled.unseparated {found : Group} {tokens : List Token}
    (spelled : Group.Spelled found tokens) : Unseparated tokens := by
  match spelled with
  | .plain spelled => exact spelled.unseparated
  | .tagged isId opens closes spelled =>
    simp [not_separates_of_kind isId, not_separates_of_kind opens, not_separates_of_kind closes,
      spelled.unseparated]

theorem SectionsSpelled.unseparated {found : List Section} {tokens : List Token}
    (spelled : SectionsSpelled found tokens) : Unseparated tokens := by
  match spelled with
  | .one spelled => exact spelled.unseparated
  | .more spelled more => simp [spelled.unseparated, more.unseparated]

theorem Section.Spelled.unseparated {found : Section} {tokens : List Token}
    (spelled : Section.Spelled found tokens) : Unseparated tokens := by
  match spelled with
  | .mk isName isColon inline opens spelled closes =>
    simp [not_separates_of_kind isName, not_separates_of_kind isColon, inline.unseparated,
      not_separates_of_kind opens, spelled.unseparated, not_separates_of_kind closes]

theorem ArgumentsSpelled.unseparated {found : List Argument} {tokens : List Token}
    (spelled : ArgumentsSpelled found tokens) : Unseparated tokens := by
  match spelled with
  | .none => exact unseparated_nil
  | .group isDot spelled more =>
    simp [not_separates_of_kind isDot, spelled.unseparated, more.unseparated]
  | .targets isDot spelled _ opens closes more =>
    simp [not_separates_of_kind isDot, spelled.unseparated, not_separates_of_kind opens,
      not_separates_of_kind closes, more.unseparated]

end

theorem Unseparated.shut (plain : Unseparated tokens) : Shut tokens := by
  induction tokens with
  | nil => exact .nil
  | cons first rest ih =>
      rcases unseparated_cons.mp plain with ⟨here, later⟩
      exact List.isChain_cons.mpr ⟨fun _ _ separates => absurd separates here, ih later⟩

theorem ItemsSpelled.notAt_blockClose {found : List Item} (spelled : ItemsSpelled found tokens) :
    NotAt [.blockClose] tokens := by
  cases spelled with
  | none => exact notAt_nil _
  | lineBreak isBreak _ => simp [isBreak]
  | comment isComment _ => simp [isComment]
  | group spelled _ _ =>
      rcases group_first spelled with ⟨first, more, rfl, kind | kind⟩ <;> simp [kind]

/-- In the tokens of an outline no block closes right after a line break or a block comment. -/
theorem ItemsSpelled.shut {found : List Item} (spelled : ItemsSpelled found tokens) :
    Shut tokens := by
  induction spelled with
  | none => exact .nil
  | lineBreak _ more ih | comment _ more ih =>
      exact List.isChain_cons.mpr
        ⟨fun next member _ => by simpa using more.notAt_blockClose next member, ih⟩
  | group spelled _ _ ih =>
      refine List.isChain_append.mpr ⟨spelled.unseparated.shut, ih, ?_⟩
      intro last member _ _ separates
      exact absurd separates (spelled.unseparated last (List.mem_of_getLast? member))

theorem separates_of_getLast? (front : List Token)
    (ends : ∀ last ∈ (front ++ tokens).getLast?, last.Separates) :
    ∀ last ∈ tokens.getLast?, last.Separates := by
  intro last member
  have some : tokens ≠ [] := by
    rintro rfl
    cases member
  exact ends last (by rwa [List.getLast?_append_of_ne_nil front some])

/-- Two outlines below each other are an outline, if there is a break between their groups. -/
theorem ItemsSpelled.append {found more : List Item} (spelled : ItemsSpelled found tokens)
    (below : ItemsSpelled more others)
    (breaks : atBoundary others = true ∨ ∀ last ∈ tokens.getLast?, last.Separates) :
    ItemsSpelled (found ++ more) (tokens ++ others) := by
  induction spelled with
  | none => exact below
  | lineBreak isBreak _ ih =>
      exact .lineBreak isBreak (ih (breaks.imp_right (separates_of_getLast? [_])))
  | comment isComment _ ih =>
      exact .comment isComment (ih (breaks.imp_right (separates_of_getLast? [_])))
  | @group group items tokens after spelled ends _ ih =>
      rw [List.append_assoc]
      refine .group spelled ?_ (ih (breaks.imp_right (separates_of_getLast? tokens)))
      cases after with
      | cons next rest => exact ends
      | nil =>
          -- The last token of a group does not separate, so the second outline begins with a break.
          refine breaks.resolve_right fun separates => ?_
          rw [List.append_nil] at separates
          exact spelled.unseparated _ (List.getLast_mem spelled.tokens_ne_nil)
            (separates _ (List.getLast?_eq_some_getLast spelled.tokens_ne_nil))

end Treatise.Outline
