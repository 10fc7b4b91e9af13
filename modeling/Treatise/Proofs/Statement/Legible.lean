import Treatise.Proofs.Statement.RoundTrip
import Treatise.Proofs.Statement.Usage

/-!
# Words of expressions that can be read

What is read from a text is made of the words of tokens, and so are its parts. The name in an
expression is then a run of letters and digits, and the symbol of an operator is a run of its
characters.
-/

namespace Treatise.Statement

/-- All words of an expression are those of tokens. -/
def Expr.Legible (expr : Expr) : Prop :=
  ∀ word ∈ expr.written, word.Lexical

/-- A statement without problems is legible. -/
theorem legible_of_read {text : String} (clean : (read text).problems = []) :
    (read text).value.Legible := by
  apply lexical_of_fits (written_fits_tokens clean)
  intro token member
  exact lexical_of_mem_tokensFrom token member

theorem written_subset_of_mem_more {items : List Expr} {item : Expr} (member : item ∈ items) :
    item.written ⊆ moreWritten items := by
  induction items with
  | nil => cases member
  | cons other rest ih =>
      rw [moreWritten]
      apply List.subset_cons_of_subset
      rcases List.mem_cons.mp member with rfl | later
      · exact List.subset_append_left ..
      · exact List.subset_append_of_subset_right _ (ih later)

theorem written_subset_of_mem_list {items : List Expr} {item : Expr} (member : item ∈ items) :
    item.written ⊆ listWritten items := by
  cases items with
  | nil => cases member
  | cons other rest =>
      rw [listWritten]
      rcases List.mem_cons.mp member with rfl | later
      · exact List.subset_append_left ..
      · exact List.subset_append_of_subset_right _ (written_subset_of_mem_more later)

theorem written_subset_of_mem_groups {groups : List ArgGroup} {item : Expr}
    (member : item ∈ ArgGroup.arguments groups) : item.written ⊆ groupsWritten groups := by
  induction groups with
  | nil => cases member
  | cons group rest ih =>
      rcases group with ⟨slot, items⟩
      rw [groupsWritten]
      apply List.subset_append_of_subset_right
      rcases List.mem_append.mp member with here | later
      · exact List.subset_append_of_subset_left _ (written_subset_of_mem_list here)
      · apply List.subset_append_of_subset_right
        exact List.subset_cons_of_subset _ (ih later)

theorem written_subset_of_mem_operator {operator : Operator} {item : Expr}
    (member : item ∈ operator.arguments) : item.written ⊆ operatorWritten operator := by
  cases operator with
  | symbol => cases member
  | command names groups location =>
      rw [operatorWritten]
      apply List.subset_cons_of_subset
      apply List.subset_append_of_subset_right
      exact List.subset_append_of_subset_left _ (written_subset_of_mem_groups member)

/-- The words of a part are words of the whole. -/
theorem written_subset_of_mem_parts {expr part : Expr} (member : part ∈ expr.parts) :
    part.written ⊆ expr.written := by
  cases expr with
  | command names groups location =>
      apply List.subset_cons_of_subset
      exact List.subset_append_of_subset_right _ (written_subset_of_mem_groups member)
  | call isCommand word groups location =>
      apply List.subset_append_of_subset_right
      exact List.subset_cons_of_subset _ (written_subset_of_mem_groups member)
  | function word items location =>
      apply List.subset_cons_of_subset
      apply List.subset_cons_of_subset
      exact List.subset_append_of_subset_left _ (written_subset_of_mem_list member)
  | tuple items location | set items location =>
      apply List.subset_cons_of_subset
      exact List.subset_append_of_subset_left _ (written_subset_of_mem_list member)
  | grouped inner location =>
      rcases List.mem_singleton.mp member with rfl
      apply List.subset_cons_of_subset
      exact List.subset_append_left ..
  | operation operator left right location =>
      rw [Expr.written]
      rcases List.mem_append.mp member with inOperator | operand
      · apply List.subset_append_of_subset_right
        exact List.subset_append_of_subset_left _ (written_subset_of_mem_operator inOperator)
      · simp only [List.mem_cons, List.not_mem_nil, or_false] at operand
        rcases operand with rfl | rfl
        · exact List.subset_append_left ..
        · apply List.subset_append_of_subset_right
          exact List.subset_append_right ..
  | prefixed operator operand location =>
      rw [Expr.written]
      rcases List.mem_append.mp member with inOperator | operand
      · exact List.subset_append_of_subset_left _ (written_subset_of_mem_operator inOperator)
      · rcases List.mem_singleton.mp operand with rfl
        exact List.subset_append_right ..
  | relation kind left right location =>
      rw [Expr.written]
      rcases List.mem_append.mp member with first | second
      · exact List.subset_append_of_subset_left _ (written_subset_of_mem_list first)
      · apply List.subset_append_of_subset_right
        exact List.subset_cons_of_subset _ (written_subset_of_mem_list second)
  | assignment left right location =>
      rw [Expr.written]
      simp only [Expr.parts, Expr.children, List.mem_cons, List.not_mem_nil, or_false] at member
      rcases member with rfl | rfl
      · exact List.subset_append_left ..
      · apply List.subset_append_of_subset_right
        exact List.subset_cons_self ..
  | _ => cases member

theorem Expr.Legible.part {expr part : Expr} (legible : expr.Legible) (member : part ∈ expr.parts) :
    part.Legible :=
  fun word inPart => legible word (written_subset_of_mem_parts member inPart)

/-! ## Names and symbols -/

/-- A name is a word. -/
theorem Lexical.letters {text : List Char} (lexical : Lexical .name text) :
    text ≠ [] ∧ ∀ letter ∈ text, letter.isAlphanum = true := by
  generalize isName : TokenKind.name = kind at lexical
  cases lexical with
  | word some all => exact ⟨some, all⟩
  | mark isMark => subst isName; cases isMark
  | operator _ _ =>
      unfold Piece.operatorKind at isName
      split_ifs at isName
  | notIn _ _ | text _ => cases isName

/-- An operator without a backslash is a run of operator characters. -/
theorem Lexical.symbols {text : List Char} (lexical : Lexical .operator text) :
    text ≠ [] ∧ ∀ character ∈ text, Piece.isOperatorCharacter character = true := by
  generalize isOperator : TokenKind.operator = kind at lexical
  cases lexical with
  | operator some all => exact ⟨some, all⟩
  | mark isMark => subst isOperator; cases isMark
  | word _ _ =>
      unfold Piece.wordKind at isOperator
      split_ifs at isOperator
  | notIn _ _ | text _ => cases isOperator

/-- Names with dots between them consist of letters, digits and dots. -/
theorem letter_or_dot_of_mem {names : List String}
    (lexical : ∀ word ∈ dottedWords names, word.Lexical) :
    ∀ character ∈ (".".intercalate names).toList,
      character.isAlphanum = true ∨ character = '.' := by
  induction names with
  | nil => nofun
  | cons name rest ih =>
      cases rest with
      | nil =>
          intro character member
          have named : Lexical .name name.toList := lexical _ List.mem_cons_self
          exact .inl (named.letters.2 character (by simpa using member))
      | cons next others =>
          rw [dottedWords, List.forall_mem_cons, List.forall_mem_cons] at lexical
          · rcases lexical with ⟨named, -, later⟩
            have named : Lexical .name name.toList := named
            intro character member
            rw [String.intercalate_cons_of_ne_nil (by simp)] at member
            simp only [String.toList_append, List.mem_append] at member
            rcases member with (here | dot) | more
            · exact .inl (named.letters.2 character here)
            · exact .inr (by simpa using dot)
            · exact ih later character more
          · simp

end Treatise.Statement
