import Treatise.Proofs.Text.Run
import Treatise.Statement.Reading

/-!
# Cutting a statement into tokens

The texts that a token of some kind can have are called `Lexical`. Each token that is read has such
a text. Conversely such a text is read as the token again wherever it stands, provided that the
character after it does not continue it. Only words and operators can be continued for long, a few
marks by one character.
-/

namespace Treatise.Statement

open Text (runLength runLength_append runLength_le take_runLength)

/-- Whether all tokens of a kind have the same text. -/
def TokenKind.isMark : TokenKind → Bool
  | .assign | .backslash | .dot | .ellipsis | .caret | .underscore | .colon | .comma | .opening _
  | .closing _ => true
  | .relation _ | .operator | .text | .name => false

/-- The texts that tokens of a kind can have. -/
inductive Lexical : TokenKind → List Char → Prop
  | mark {kind : TokenKind} (isMark : kind.isMark = true) : Lexical kind kind.label.toList
  | word {word : List Char} (some : word ≠ []) (all : ∀ letter ∈ word, letter.isAlphanum = true) :
      Lexical (Piece.wordKind word) word
  | notIn {blanks : List Char} (some : blanks ≠ [])
    (all : ∀ blank ∈ blanks, Piece.isBlank blank = true) :
      Lexical (.relation .notIn) ("not".toList ++ blanks ++ "in".toList)
  | operator {run : List Char} (some : run ≠ [])
      (all : ∀ character ∈ run, Piece.isOperatorCharacter character = true) :
      Lexical (Piece.operatorKind run) run
  | text {content : List Char} (closed : '"' ∉ content) : Lexical .text ('"' :: content ++ ['"'])

namespace Piece

/-! ## Soundness -/

theorem lexical_of_wordExtent {first : Char} {rest : List Char} {kind : TokenKind} {length : Nat}
    (letter : first.isAlphanum = true)
    (found : wordExtent (first :: rest.take (runLength Char.isAlphanum rest))
      (rest.drop (runLength Char.isAlphanum rest)) = (.token kind, length)) :
    Lexical kind (first :: rest.take length) := by
  have word : ∀ letter ∈ first :: rest.take (runLength Char.isAlphanum rest),
      letter.isAlphanum = true := by
    rw [take_runLength]
    exact List.forall_mem_cons.mpr ⟨letter, fun _ member => List.mem_takeWhile_imp member⟩
  have long : (rest.take (runLength Char.isAlphanum rest)).length
      = runLength Char.isAlphanum rest :=
    List.length_take_of_le (runLength_le _ _)
  unfold wordExtent at found
  dsimp only at found
  split at found
  · next negated =>
    split at found
    · next follows =>
      cases found
      rw [List.length_cons, Nat.add_sub_cancel, long, Nat.add_assoc, List.take_add, List.take_add,
        follows, take_runLength isBlank, ← List.cons_append, negated.1, ← List.append_assoc]
      exact .notIn (List.length_pos_iff.mp negated.2) fun _ member => List.mem_takeWhile_imp member
    · cases found
  · cases found
    rw [List.length_cons, Nat.add_sub_cancel, long]
    exact .word (by simp) word

theorem lexical_of_classify {first : Char} {rest : List Char} {kind : TokenKind} {length : Nat}
    (found : classify first rest = (.token kind, length)) :
    Lexical kind (first :: rest.take length) := by
  unfold classify at found
  split at found
  case h_17 =>
    split at found
    · next index closes =>
      cases found
      rcases List.findIdx?_eq_some_iff_getElem.mp closes with ⟨short, quote, before⟩
      rw [← List.take_append_getElem short, eq_of_beq quote]
      refine .text fun member => ?_
      rcases List.mem_take_iff_getElem.mp member with ⟨position, bound, same⟩
      exact before position (by omega) (by simp [same])
    · cases found
  case h_18 =>
    split at found
    · cases found
    split at found
    · next letter => exact lexical_of_wordExtent letter found
    split at found
    · next character =>
      cases found
      refine .operator (by simp) (List.forall_mem_cons.mpr ⟨character, ?_⟩)
      rw [take_runLength]
      exact fun _ member => List.mem_takeWhile_imp member
    · cases found
  all_goals
    cases found
    exact .mark rfl

end Piece

theorem lexical_of_mem_tokensFrom {location : Location} {text : List Char} :
    ∀ token ∈ (tokensFrom location text).value, Lexical token.kind token.text.toList := by
  fun_induction tokensFrom location text with
  | case1 => nofun
  | case2 location first rest found text remaining kind isToken =>
      rename_i ih
      refine List.forall_mem_cons.mpr ⟨?_, ih⟩
      rw [String.toList_ofList]
      exact Piece.lexical_of_classify (Prod.ext isToken rfl)
  | case3 => rename_i ih; exact ih
  | case4 => rename_i ih; exact ih

/-- The tokens of marks have no other text. -/
theorem Lexical.eq_label {kind : TokenKind} {text : String} (lexical : Lexical kind text.toList)
    (isMark : kind.isMark = true) : text = kind.label := by
  generalize characters : text.toList = spelled at lexical
  cases lexical with
  | mark _ => exact String.toList_inj.mp characters
  | word _ _ =>
      unfold Piece.wordKind at isMark
      split_ifs at isMark
      all_goals cases isMark
  | operator _ _ =>
      unfold Piece.operatorKind at isMark
      split_ifs at isMark
      all_goals cases isMark
  | notIn _ _ | text _ => cases isMark

theorem Lexical.eq_quoted {text : String} (lexical : Lexical .text text.toList) :
    text = "\"" ++ unquoted text ++ "\"" := by
  generalize characters : text.toList = spelled at lexical
  generalize isText : TokenKind.text = kind at lexical
  cases lexical with
  | text _ =>
    apply String.toList_inj.mp
    simp [unquoted, characters]
  | mark isMark => subst isText; cases isMark
  | word _ _ =>
      unfold Piece.wordKind at isText
      split_ifs at isText
  | operator _ _ =>
      unfold Piece.operatorKind at isText
      split_ifs at isText
  | notIn _ _ => cases isText

/-- Names begin with a letter or a digit, and operators with one of their characters. -/
theorem Lexical.exists_first {kind : TokenKind} {text : List Char} (lexical : Lexical kind text) :
    ∃ first rest, text = first :: rest ∧ (kind = .name → first.isAlphanum = true)
      ∧ (kind = .operator → Piece.isOperatorCharacter first = true) := by
  cases lexical with
  | mark isMark =>
      cases kind with
      | relation | operator | text | name => cases isMark
      | opening bracket | closing bracket => cases bracket <;> exact ⟨_, _, rfl, by simp, by simp⟩
      | _ => exact ⟨_, _, rfl, by simp, by simp⟩
  | word some all =>
      rcases text with _ | ⟨first, rest⟩
      · exact absurd rfl some
      refine ⟨first, rest, rfl, fun _ => all _ (.head _), fun same => ?_⟩
      unfold Piece.wordKind at same
      split_ifs at same
  | notIn _ _ => exact ⟨_, _, rfl, by simp, by simp⟩
  | operator some all =>
      rcases text with _ | ⟨first, rest⟩
      · exact absurd rfl some
      refine ⟨first, rest, rfl, fun same => ?_, fun _ => all _ (.head _)⟩
      unfold Piece.operatorKind at same
      split_ifs at same
  | text _ => exact ⟨_, _, rfl, by simp, by simp⟩

/-! ## Completeness -/

/-- Whether a character after a token does not continue it. -/
def stops (kind : TokenKind) (text : List Char) (next : Char) : Bool :=
  match kind with
  | .name => !next.isAlphanum && !(text == "not".toList && Piece.isBlank next)
  | .relation _ => Piece.isBlank next
  | .operator => !Piece.isOperatorCharacter next
  | .colon => next != '=' && next != ']'
  | .dot => next != '.'
  | .opening .square => next != ':'
  | _ => true

namespace Piece

theorem of_isBlank {character : Char} (blank : isBlank character = true) :
    character.isAlphanum = false ∧ isOperatorCharacter character = false := by
  have all : " \t\r\n\x0c".toList.all (fun c => !c.isAlphanum && !isOperatorCharacter c)
      = true := by
    decide
  simpa using List.all_eq_true.mp all character (List.contains_iff_mem.mp blank)

theorem of_isOperatorCharacter {character : Char} (symbol : isOperatorCharacter character = true) :
    isBlank character = false ∧ character.isAlphanum = false
      ∧ isOperatorCharacter character = true := by
  have all : "~!@%&*-+<>/|=".toList.all (fun c => !isBlank c && !c.isAlphanum) = true := by decide
  have apart := List.all_eq_true.mp all character (List.contains_iff_mem.mp symbol)
  simp only [Bool.and_eq_true, Bool.not_eq_true'] at apart
  exact ⟨apart.1, apart.2, symbol⟩

theorem classify_letter {first : Char} (letter : first.isAlphanum = true) (rest : List Char) :
    classify first rest = wordExtent (first :: rest.take (runLength Char.isAlphanum rest))
      (rest.drop (runLength Char.isAlphanum rest)) := by
  unfold classify
  split
  case h_18 =>
    split
    · next blank => simp [of_isBlank blank] at letter
    · rfl
  all_goals exact absurd letter (by decide)

theorem classify_operator {first : Char} (character : isOperatorCharacter first = true)
    (rest : List Char) :
    classify first rest
      = (.token (operatorKind (first :: rest.take (runLength isOperatorCharacter rest))),
      runLength isOperatorCharacter rest) := by
  unfold classify
  split
  case h_18 => simp [of_isOperatorCharacter character]
  all_goals exact absurd character (by decide)

theorem not_alphanum_of_stops {word : List Char} {next : Char}
    (ends : stops (wordKind word) word next = true) : next.isAlphanum = false := by
  unfold wordKind at ends
  split_ifs at ends
  · exact (of_isBlank ends).1
  · exact (of_isBlank ends).1
  · exact (of_isBlank ends).1
  · simp only [stops, Bool.and_eq_true, Bool.not_eq_true'] at ends
    exact ends.1

theorem not_symbol_of_stops {run : List Char} {next : Char}
    (ends : stops (operatorKind run) run next = true) : isOperatorCharacter next = false := by
  unfold operatorKind at ends
  split_ifs at ends
  · exact (of_isBlank ends).2
  · exact (of_isBlank ends).2
  · simpa [stops] using ends

/-- A text is cut off as a token of a kind from what follows it. -/
def CutOff (kind : TokenKind) (text following : List Char) : Prop :=
  ∃ first rest, text = first :: rest
    ∧ classify first (rest ++ following) = (.token kind, rest.length)

theorem cutOff_mark {kind : TokenKind} {following : List Char} (isMark : kind.isMark = true)
    (ends : ∀ next ∈ following.head?, stops kind kind.label.toList next = true) :
    CutOff kind kind.label.toList following := by
  cases kind with
  | relation | operator | text | name => cases isMark
  | assign | backslash | ellipsis | caret | underscore | comma => exact ⟨_, _, rfl, rfl⟩
  | closing bracket => cases bracket <;> exact ⟨_, _, rfl, rfl⟩
  | opening bracket =>
      cases bracket with
      | paren | curly | squareColon => exact ⟨_, _, rfl, rfl⟩
      | square =>
          refine ⟨'[', [], rfl, ?_⟩
          rcases following with _ | ⟨next, following⟩
          · rfl
          have other : next ≠ ':' := by simpa [stops] using ends next rfl
          simp [classify, other]
  | dot =>
      refine ⟨'.', [], rfl, ?_⟩
      rcases following with _ | ⟨next, following⟩
      · rfl
      have other : next ≠ '.' := by simpa [stops] using ends next rfl
      simp [classify, other]
  | colon =>
      refine ⟨':', [], rfl, ?_⟩
      rcases following with _ | ⟨next, following⟩
      · rfl
      have other : next ≠ '=' ∧ next ≠ ']' := by simpa [stops] using ends next rfl
      simp [classify, other]

theorem cutOff_word {word following : List Char} (some : word ≠ [])
    (all : ∀ letter ∈ word, letter.isAlphanum = true)
    (ends : ∀ next ∈ following.head?, stops (wordKind word) word next = true) :
    CutOff (wordKind word) word following := by
  rcases word with _ | ⟨first, word⟩
  · exact absurd rfl some
  rcases List.forall_mem_cons.mp all with ⟨letter, letters⟩
  refine ⟨first, word, rfl, ?_⟩
  have long : runLength Char.isAlphanum (word ++ following) = word.length :=
    runLength_append letters fun next among => not_alphanum_of_stops (ends next among)
  rw [classify_letter letter, long, List.take_left, List.drop_left, wordExtent, if_neg,
    List.length_cons, Nat.add_sub_cancel]
  -- The word is not the beginning of `not in`: no blank follows it.
  rintro ⟨negated, blanks⟩
  rw [negated] at ends
  rcases following with _ | ⟨next, following⟩
  · cases blanks
  have apart : next.isAlphanum = false ∧ isBlank next = false := by
    simpa [stops, wordKind] using ends next rfl
  simp [runLength, apart.2] at blanks

theorem cutOff_notIn {blanks following : List Char} (some : blanks ≠ [])
    (all : ∀ blank ∈ blanks, isBlank blank = true) :
    CutOff (.relation .notIn) ("not".toList ++ blanks ++ "in".toList) following := by
  rcases blanks with _ | ⟨blank, blanks⟩
  · exact absurd rfl some
  refine ⟨'n', ['o', 't'] ++ (blank :: blanks) ++ ['i', 'n'], rfl, ?_⟩
  have word : runLength Char.isAlphanum
      (['o', 't'] ++ (blank :: blanks ++ (['i', 'n'] ++ following))) = 2 :=
    runLength_append (List.all_eq_true.mp rfl) (by simpa using (of_isBlank (all blank (.head _))).1)
  have long : runLength isBlank (blank :: blanks ++ (['i', 'n'] ++ following))
      = (blank :: blanks).length :=
    runLength_append all (by rintro next ⟨⟩; decide)
  have extent : wordExtent "not".toList (blank :: blanks ++ (['i', 'n'] ++ following))
      = (.token (.relation .notIn), 2 + (blank :: blanks).length + 2) := by
    rw [wordExtent, long, if_pos ⟨rfl, Nat.succ_pos _⟩, List.drop_left, if_pos (by rfl)]
    rfl
  simp only [List.append_assoc, List.length_append]
  rw [classify_letter (by decide), word]
  exact extent

theorem cutOff_operator {run following : List Char} (some : run ≠ [])
    (all : ∀ character ∈ run, isOperatorCharacter character = true)
    (ends : ∀ next ∈ following.head?, stops (operatorKind run) run next = true) :
    CutOff (operatorKind run) run following := by
  rcases run with _ | ⟨first, run⟩
  · exact absurd rfl some
  rcases List.forall_mem_cons.mp all with ⟨symbol, symbols⟩
  refine ⟨first, run, rfl, ?_⟩
  have long : runLength isOperatorCharacter (run ++ following) = run.length :=
    runLength_append symbols fun next among => not_symbol_of_stops (ends next among)
  rw [classify_operator symbol, long, List.take_left]

theorem cutOff_text {content : List Char} (closed : '"' ∉ content) (following : List Char) :
    CutOff .text ('"' :: content ++ ['"']) following := by
  refine ⟨'"', content ++ ['"'], rfl, ?_⟩
  have before : content.findIdx? (· == '"') = none :=
    List.findIdx?_eq_none_iff.mpr fun character among =>
      beq_false_of_ne fun same => closed (same ▸ among)
  have found : (content ++ ['"'] ++ following).findIdx? (· == '"') = some content.length := by
    rw [List.append_assoc, List.findIdx?_append, before]
    simp [List.findIdx?_cons]
  simp only [classify, found, List.length_append]
  rfl

/-- A token is cut off again from any text that begins with its text and does not continue it. -/
theorem cutOff_of_lexical {kind : TokenKind} {text following : List Char}
    (lexical : Lexical kind text) (ends : ∀ next ∈ following.head?, stops kind text next = true) :
    CutOff kind text following := by
  cases lexical with
  | mark isMark => exact cutOff_mark isMark ends
  | word some all => exact cutOff_word some all ends
  | notIn some all => exact cutOff_notIn some all
  | operator some all => exact cutOff_operator some all ends
  | text closed => exact cutOff_text closed following

end Piece

theorem tokensFrom_blank (location : Location) (text : List Char) :
    tokensFrom location (' ' :: text) = tokensFrom (location.advance [' ']) text := by
  have blank : Piece.classify ' ' text = (.blank, 0) := by
    simp [Piece.classify, Piece.isBlank]
  rw [tokensFrom]
  simp only [blank, List.take_zero, List.drop_zero]

theorem tokensFrom_append {kind : TokenKind} {text following : List Char}
    (lexical : Lexical kind text) (ends : ∀ next ∈ following.head?, stops kind text next = true)
    (location : Location) :
    tokensFrom location (text ++ following)
      = ⟨⟨kind, String.ofList text, location⟩
        :: (tokensFrom (location.advance text) following).value,
          (tokensFrom (location.advance text) following).problems⟩ := by
  rcases Piece.cutOff_of_lexical lexical ends with ⟨first, rest, rfl, found⟩
  rw [List.cons_append, tokensFrom]
  simp only [found, List.take_left, List.drop_left]

end Treatise.Statement
