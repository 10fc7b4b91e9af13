import Treatise.Proofs.Outline.Groups

/-!
# Outlines without problems

Reading an outline meets no problem exactly if the grammar spells it, and it then yields what the
grammar says.
-/

namespace Treatise.Outline

open Layout (Token TokenKind Mark)

/-! ## Steps of reviews -/

theorem items_lineBreak {last : Location} {mark : Token} (isBreak : mark.kind = .lineBreak)
    (rest : List Token) : items last (mark :: rest) = items last rest := by
  rw [items, if_pos isBreak]

theorem items_comment {last : Location} {comment : Token}
    (isComment : comment.kind = .literal .blockComment) (rest : List Token) :
    items last (comment :: rest)
      = ⟨.comment comment :: (items last rest).value, (items last rest).problems⟩ := by
  rw [items, if_neg (by simp [isComment]), if_pos isComment]
  simp [bind, pure, Review.bind, Review.pure]

theorem items_group {last : Location} {token : Token} {rest after : List Token} {found : Group}
    (notBreak : token.kind ≠ .lineBreak) (notComment : token.kind ≠ .literal .blockComment)
    (taken : Takes (group (token :: rest)) found after) (ends : atBoundary after = true) :
    items last (token :: rest)
      = ⟨.group found :: (items last after).value, (items last after).problems⟩ := by
  rcases taken with ⟨shorter, taken⟩
  rw [items, if_neg notBreak, if_neg notComment]
  split
  · next failure failed =>
    rw [taken] at failed
    cases failed
  · next found' after' _ same =>
    rw [taken] at same
    cases same
    simp [ends, bind, pure, Review.bind, Review.pure]

/-! ## Spelled outlines -/

theorem SectionsSpelled.tokens_ne_nil {found : List Section} {tokens : List Token}
    (spelled : SectionsSpelled found tokens) : tokens ≠ [] := by
  cases spelled with
  | one spelled => cases spelled; simp
  | more spelled _ => cases spelled; simp

theorem Group.Spelled.tokens_ne_nil {found : Group} {tokens : List Token}
    (spelled : Group.Spelled found tokens) : tokens ≠ [] := by
  cases spelled with
  | plain spelled => exact spelled.tokens_ne_nil
  | tagged _ _ _ _ => simp

theorem group_first {found : Group} {used : List Token} (spelled : Group.Spelled found used) :
    ∃ first more, used = first :: more ∧ (first.kind = .name ∨ first.kind = .literal .id) := by
  cases spelled with
  | plain spelled =>
      rcases atSection_iff.mp (sections_head spelled []) with ⟨name, colon, more, same, isName, -⟩
      exact ⟨name, _, by simpa using same, .inl isName⟩
  | tagged isId _ _ _ => exact ⟨_, _, rfl, .inr isId⟩

theorem atSection_of_atBoundary {rest : List Token} (ends : atBoundary rest = true) :
    atSection rest = false := by
  refine Bool.eq_false_iff.mpr fun section_ => ?_
  rcases atSection_iff.mp section_ with ⟨name, colon, more, rfl, isName, -⟩
  simp [atBoundary, isName] at ends

/-- Tokens that are spelled are read without a problem. -/
theorem items_of_spelled {last : Location} {found : List Item} {tokens : List Token}
    (spelled : ItemsSpelled found tokens) : items last tokens = ⟨found, []⟩ := by
  induction spelled with
  | none =>
      rw [items]
      rfl
  | lineBreak isBreak _ ih => rw [items_lineBreak isBreak, ih]
  | comment isComment _ ih => rw [items_comment isComment, ih]
  | @group found _ _ others spelled ends _ ih =>
      have taken := group_complete spelled (atSection_of_atBoundary ends)
      rcases group_first spelled with ⟨first, more, rfl, kind⟩
      rw [List.cons_append] at taken ⊢
      rw [items_group (by rcases kind with kind | kind <;> simp [kind])
        (by rcases kind with kind | kind <;> simp [kind]) taken ends, ih]

/-- What is read without a problem is spelled by its tokens. -/
theorem spelled_of_items {last : Location} {tokens : List Token}
    (clean : (items last tokens).problems = []) :
    ItemsSpelled (items last tokens).value tokens := by
  fun_induction items last tokens with
  | case1 => exact .none
  | case2 token rest isBreak ih => exact .lineBreak isBreak (ih clean)
  | case3 token rest _ isComment ih =>
      simp only [bind, pure, Review.bind, Review.pure, List.append_nil] at clean ⊢
      exact .comment isComment (ih clean)
  | case4 token rest _ _ failure _ ih => simp [bind, Review.bind, Review.report] at clean
  | case5 token rest _ _ found after shorter taken ends ih =>
      simp only [bind, pure, Review.bind, Review.pure, List.append_nil] at clean ⊢
      rcases group_sound ⟨shorter, taken⟩ with ⟨used, same, spelled⟩
      rw [same]
      exact .group spelled ends (ih clean)
  | case6 token rest _ _ found after shorter taken ends ih =>
      simp [bind, Review.bind, Review.report] at clean

/-- An outline is read without a problem exactly if it is spelled. -/
theorem read_clean_iff {tokens : List Token} {found : List Item} :
    read tokens = ⟨found, []⟩ ↔ ItemsSpelled found tokens := by
  constructor
  · intro same
    have spelled := spelled_of_items
      (congrArg Review.problems same)
    rwa [show items _ tokens = _ from same] at spelled
  · exact items_of_spelled

end Treatise.Outline
