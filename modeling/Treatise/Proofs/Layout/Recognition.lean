import Treatise.Layout.Token
import Treatise.Proofs.Text.Run

/-!
# What a lexeme begins with

Lexemes are told apart by their first character and by a little of what follows. The cases are
stated here once, as a relation that has just one lexeme for each text; what holds of all lexemes is
shown by cases over the relation.
-/

namespace Treatise.Layout

/-- The characters that separate tokens and become none. -/
def blanks : List Char := [' ', '\t', '\r', '\x0c', '\n']

/-- A character that nothing begins with in front of `rest`. -/
structure Stray (character : Char) (rest : List Char) : Prop where
  notBlank : character ∉ blanks
  notLetter : ¬ character.isAlphanum
  notOperator : ¬ Lexeme.isOperatorCharacter character
  notMark : character ∉ ['"', '\'', '[', '?', ',', '(', ')', '{', '}', '_', ':']
  notDots : character = '.' → ¬ [' '] <+: rest ∧ ¬ ['.', '.'] <+: rest

/-- The literals that stand between two quotes. -/
inductive Literal.Quotes : Literal → Char → Prop
  | string : Quotes .string '"'
  | statement : Quotes .statement '\''

/-- Whether a character after a mark makes a longer lexeme of it. -/
def Mark.continues : Mark → Char → Bool
  | .colon, next => next == ':' || next == '='
  | .equals, next => Lexeme.isOperatorCharacter next
  | _, _ => false

namespace Lexeme

open Text (runLength runLength_eq_zero_iff)

/-- The lexeme at the character `first` in front of `rest`: its kind, and how far it reaches into
`rest`. -/
inductive Recognized : Char → List Char → Kind → Nat → Prop
  | newline (rest) : Recognized '\n' rest .newline 0
  | indent (rest) : Recognized ' ' (' ' :: rest) .indent 1
  | space {rest} (single : rest.head? ≠ some ' ') : Recognized ' ' rest .space 0
  | blank {first} (blank : first ∈ ['\t', '\r', '\x0c']) (rest) : Recognized first rest .space 0
  | lineComment (comment) :
      Recognized '-' ('-' :: comment) .lineComment (runLength (· != '\n') comment + 1)
  | blockComment {comment length closed} (extent : blockCommentExtent comment = (length, closed)) :
      Recognized ':' (':' :: comment) (.literal .blockComment closed) (length + 1)
  | quotation {literal quote rest length closed} (quotes : literal.Quotes quote)
      (extent : quotationExtent quote rest = (length, closed)) :
      Recognized quote rest (.literal literal closed) length
  | id {rest length closed} (extent : idExtent 0 rest = (length, closed)) :
      Recognized '[' rest (.literal .id closed) length
  | placeholder (rest) : Recognized '?' rest .placeholder 0
  | mark {mark : Mark} {first start rest} (text : mark.text.toList = first :: start)
      (alone : ∀ next ∈ rest.head?, mark.continues next = false) :
      Recognized first (start ++ rest) (.mark mark) start.length
  | name {first} (letter : first.isAlphanum = true) (rest) :
      Recognized first rest (.name (nameSuffix (rest.drop (runLength Char.isAlphanum rest))).2)
        (runLength Char.isAlphanum rest
          + (nameSuffix (rest.drop (runLength Char.isAlphanum rest))).1)
  | operator {first rest} (operator : isOperatorCharacter first = true)
      (notComment : first = '-' → rest.head? ≠ some '-')
      (notEquals : first = '=' → runLength isOperatorCharacter rest ≠ 0) :
      Recognized first rest .operator
        (runLength isOperatorCharacter rest
          + operatorSuffix (rest.drop (runLength isOperatorCharacter rest)))
  | unrecognized {first rest} (stray : Stray first rest) : Recognized first rest .unrecognized 0

variable {first : Char} {rest : List Char} {kind : Kind} {length : Nat}

theorem recognized_operatorExtent (operator : isOperatorCharacter first = true)
    (notComment : first = '-' → rest.head? ≠ some '-') :
    Recognized first rest (operatorExtent first rest).1 (operatorExtent first rest).2 := by
  rw [operatorExtent]
  split
  · next alone =>
    rcases alone with ⟨rfl, none⟩
    exact @Recognized.mark .equals _ [] rest rfl (runLength_eq_zero_iff.mp none)
  · next notAlone =>
    exact .operator operator notComment fun isEquals none => notAlone ⟨isEquals, none⟩

theorem recognized_classify (first : Char) (rest : List Char) :
    Recognized first rest (classify first rest).1 (classify first rest).2 := by
  fun_cases classify first rest with
  | case1 => exact .newline rest
  | case2 rest => exact .indent rest
  | case3 _ notSpace =>
      refine .space fun space => ?_
      rcases List.head?_eq_some_iff.mp space with ⟨more, rfl⟩
      exact notSpace more rfl
  | case4 | case5 | case6 => exact .blank (by decide) rest
  | case7 comment => exact .lineComment comment
  | case8 comment => exact .blockComment rfl
  | case9 rest => exact @Recognized.mark .colonEquals _ ['='] rest rfl fun _ _ => rfl
  | case10 rest notColon notEquals =>
      refine @Recognized.mark .colon _ [] rest rfl fun next starts => ?_
      rcases List.head?_eq_some_iff.mp starts with ⟨more, rfl⟩
      simp only [Mark.continues, Bool.or_eq_false_iff, beq_eq_false_iff_ne]
      exact ⟨fun colon => notColon more (by rw [colon]),
        fun equals => notEquals more (by rw [equals])⟩
  | case11 => exact .quotation .string rfl
  | case12 => exact .quotation .statement rfl
  | case13 => exact .id rfl
  | case14 => exact .placeholder rest
  | case15 => exact @Recognized.mark .comma _ [] rest rfl fun _ _ => rfl
  | case16 => exact @Recognized.mark .leftParen _ [] rest rfl fun _ _ => rfl
  | case17 => exact @Recognized.mark .rightParen _ [] rest rfl fun _ _ => rfl
  | case18 => exact @Recognized.mark .leftCurly _ [] rest rfl fun _ _ => rfl
  | case19 => exact @Recognized.mark .rightCurly _ [] rest rfl fun _ _ => rfl
  | case20 rest => exact @Recognized.mark .dotSpace _ [' '] rest rfl fun _ _ => rfl
  | case21 rest => exact @Recognized.mark .ellipsis _ ['.', '.'] rest rfl fun _ _ => rfl
  | case22 => exact @Recognized.mark .underscore _ [] rest rfl fun _ _ => rfl
  | case23 =>
      have letter : first.isAlphanum = true := by assumption
      rw [if_pos letter]
      exact .name letter rest
  | case24 =>
      have notComment : ∀ comment, first = '-' → rest = '-' :: comment → False := by assumption
      have notLetter : ¬ first.isAlphanum = true := by assumption
      have operator : isOperatorCharacter first = true := by assumption
      rw [if_neg notLetter, if_pos operator]
      refine recognized_operatorExtent operator fun isMinus starts => ?_
      rcases List.head?_eq_some_iff.mp starts with ⟨comment, begins⟩
      exact notComment comment isMinus begins
  | case25 =>
      have notLetter : ¬ first.isAlphanum = true := by assumption
      have notOperator : ¬ isOperatorCharacter first = true := by assumption
      have notDotSpace : ∀ tail, first = '.' → rest = ' ' :: tail → False := by assumption
      have notEllipsis : ∀ tail, first = '.' → rest = '.' :: '.' :: tail → False := by assumption
      rw [if_neg notLetter, if_neg notOperator]
      refine .unrecognized ⟨?_, notLetter, notOperator, ?_, fun isDot => ⟨?_, ?_⟩⟩
      · simp only [blanks, List.mem_cons, List.not_mem_nil, or_false]
        rintro (_ | _ | _ | _ | _) <;> contradiction
      · simp only [List.mem_cons, List.not_mem_nil, or_false]
        rintro (_ | _ | _ | _ | _ | _ | _ | _ | _ | _ | _) <;> contradiction
      · rintro ⟨tail, starts⟩
        exact notDotSpace tail isDot starts.symm
      · rintro ⟨tail, starts⟩
        exact notEllipsis tail isDot starts.symm

theorem not_alphanum_of_operator (operator : isOperatorCharacter first = true) :
    first.isAlphanum = false := by
  have member : first ∈ "~!@%^&*-+<>\\/=".toList := by simpa [isOperatorCharacter] using operator
  have noLetter : "~!@%^&*-+<>\\/=".toList.all (fun letter => !letter.isAlphanum)
      = true := by decide
  simpa using List.all_eq_true.mp noLetter first member

theorem classify_mark {mark : Mark} {start : List Char} (text : mark.text.toList = first :: start)
    (alone : ∀ next ∈ rest.head?, mark.continues next = false) :
    classify first (start ++ rest) = (.mark mark, start.length) := by
  cases mark with
  | colon =>
      obtain ⟨rfl, rfl⟩ : ':' = first ∧ [] = start := List.cons.inj text
      rw [List.nil_append, classify]
      · rfl
      · rintro _ rfl
        cases alone ':' rfl
      · rintro _ rfl
        cases alone '=' rfl
  | equals =>
      obtain ⟨rfl, rfl⟩ : '=' = first ∧ [] = start := List.cons.inj text
      have none : runLength isOperatorCharacter rest = 0 := runLength_eq_zero_iff.mpr alone
      simp [classify, operatorExtent, none, isOperatorCharacter]
  | colonEquals | comma | leftParen | rightParen | leftCurly | rightCurly | dotSpace | ellipsis
  | underscore =>
      obtain ⟨rfl, rfl⟩ := List.cons.inj text
      rfl

theorem Recognized.classify_eq (found : Recognized first rest kind length) :
    classify first rest = (kind, length) := by
  cases found with
  | newline | indent | lineComment | placeholder => rfl
  | space single =>
      rw [classify]
      rintro more rfl
      exact single rfl
  | blank blank =>
      simp only [List.mem_cons, List.not_mem_nil, or_false] at blank
      rcases blank with rfl | rfl | rfl
      · rfl
      · rfl
      · rfl
  | blockComment extent => simp [classify, extent]
  | quotation quotes extent =>
      cases quotes <;> simp [classify, literalExtent, extent]
  | id extent => simp [classify, literalExtent, extent]
  | mark text alone => exact classify_mark text alone
  | name letter =>
      unfold classify
      split
      case h_23 => rw [if_pos letter]
      all_goals exact absurd letter (by decide)
  | operator operator notComment notEquals =>
      unfold classify
      split
      case h_7 => exact absurd rfl (notComment rfl)
      case h_23 =>
        rw [if_neg (by simp [not_alphanum_of_operator operator]), if_pos operator, operatorExtent,
          if_neg fun alone => notEquals alone.1 alone.2]
      all_goals exact absurd operator (by decide)
  | unrecognized stray =>
      unfold classify
      split
      case h_23 => rw [if_neg stray.notLetter, if_neg stray.notOperator]
      case h_20 => exact absurd (List.prefix_append [' '] _) (stray.notDots rfl).1
      case h_21 => exact absurd (List.prefix_append ['.', '.'] _) (stray.notDots rfl).2
      case h_1 | h_2 | h_3 | h_4 | h_5 | h_6 => exact absurd (by decide) stray.notBlank
      case h_7 => exact absurd (by decide) stray.notOperator
      all_goals exact absurd (by decide) stray.notMark

theorem recognized_iff :
    Recognized first rest kind length ↔ classify first rest = (kind, length) := by
  refine ⟨Recognized.classify_eq, fun found => ?_⟩
  simpa [found] using recognized_classify first rest

end Lexeme

end Treatise.Layout
