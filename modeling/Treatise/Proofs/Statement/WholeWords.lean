import Treatise.Proofs.Location
import Treatise.Proofs.Statement.Lexing

/-!
# Whole words

Among the texts that tokens can have, the longest one that fits is cut off. So a letter or a digit
right after a name or a relation word continues it, and a name that only begins with a relation word
is one token. There is one exception: no longer text begins like `not in`, and so a name right after
the blanks that begins with `in` is cut.
-/

namespace Treatise.Statement

open Text (runLength runLength_le take_runLength)

/-- The kinds of token that are spelled with letters and digits. -/
def TokenKind.isWord : TokenKind → Bool
  | .name | .relation .isA | .relation .isIn | .relation .viewedAs | .relation .notIn => true
  | _ => false

/-- What stands last is no letter and no digit. -/
def EndsApart (text : List Char) : Prop :=
  ∀ last ∈ text.getLast?, last.isAlphanum = false

/-- What stands first is no letter and no digit. -/
def StartsApart (text : List Char) : Prop :=
  ∀ next ∈ text.head?, next.isAlphanum = false

namespace Piece

variable {first : Char} {rest : List Char}

/-! ## The longest match -/

/-- A text of one sort of characters is no longer than their run. -/
theorem length_le_run {sort : Char → Bool} {text following : List Char} (some : text ≠ [])
    (all : ∀ character ∈ text, sort character = true) (whole : text ++ following = first :: rest) :
    sort first = true ∧ text.length ≤ runLength sort rest + 1 := by
  rcases text with _ | ⟨character, run⟩
  · exact absurd rfl some
  rw [List.cons_append, List.cons.injEq] at whole
  rcases whole with ⟨rfl, rfl⟩
  rcases List.forall_mem_cons.mp all with ⟨here, later⟩
  refine ⟨here, Nat.succ_le_succ ?_⟩
  rw [runLength, List.takeWhile_append_of_pos later, List.length_append]
  exact Nat.le_add_right _ _

theorem le_wordExtent (word after : List Char) : word.length - 1 ≤ (wordExtent word after).2 := by
  unfold wordExtent
  dsimp only
  split
  · split
    · dsimp only
      omega
    · exact Nat.le_add_right _ _
  · exact le_rfl

/-- At a letter, no less than all the letters and digits are cut off. -/
theorem runLength_le_classify (letter : first.isAlphanum = true) :
    runLength Char.isAlphanum rest ≤ (classify first rest).2 := by
  have word := le_wordExtent (first :: rest.take (runLength Char.isAlphanum rest))
    (rest.drop (runLength Char.isAlphanum rest))
  rw [List.length_cons, List.length_take_of_le (runLength_le _ _), Nat.add_sub_cancel] at word
  rwa [classify_letter letter]

theorem length_of_cutOff {kind : TokenKind} {text following : List Char}
    (cutOff : CutOff kind text following) (whole : text ++ following = first :: rest) :
    text.length = (classify first rest).2 + 1 := by
  rcases cutOff with ⟨first', rest', rfl, found⟩
  rw [List.cons_append, List.cons.injEq] at whole
  rcases whole with ⟨rfl, rfl⟩
  rw [found, List.length_cons]

/-- No text that a token can have is longer than what is cut off. -/
theorem length_le_classify {kind : TokenKind} {text : List Char} (lexical : Lexical kind text)
    (starts : text <+: first :: rest) : text.length ≤ (classify first rest).2 + 1 := by
  rcases starts with ⟨following, whole⟩
  cases lexical with
  | mark isMark =>
      -- Longer marks are cut off whatever follows them, and the others are no longer than any
      -- piece.
      by_cases single : kind.label.toList.length = 1
      · rw [single]
        exact Nat.le_add_left _ _
      · have ends : ∀ next ∈ following.head?, stops kind kind.label.toList next = true := by
          intro next _
          cases kind with
          | colon | dot => exact absurd rfl single
          | opening bracket =>
              cases bracket with
              | square => exact absurd rfl single
              | paren | curly | squareColon => rfl
          | relation | operator | text | name => cases isMark
          | _ => rfl
        exact (length_of_cutOff (cutOff_mark isMark ends) whole).le
  | notIn some all => exact (length_of_cutOff (cutOff_notIn some all) whole).le
  | text closed => exact (length_of_cutOff (cutOff_text closed following) whole).le
  | word some all =>
      rcases length_le_run some all whole with ⟨letter, run⟩
      exact run.trans (Nat.succ_le_succ (runLength_le_classify letter))
  | operator some all =>
      rcases length_le_run some all whole with ⟨symbol, run⟩
      rwa [classify_operator symbol]

/-! ## The ends of a piece -/

theorem endsApart_append (front : List Char) {back : List Char} (some : back ≠ [])
    (all : ∀ character ∈ back, character.isAlphanum = false) : EndsApart (front ++ back) := by
  intro last member
  rw [List.getLast?_append_of_ne_nil _ some] at member
  exact all last (List.mem_of_getLast? member)

theorem endsApart_of_getLast {text : List Char} {last : Char} (ends : text.getLast? = some last)
    (apart : last.isAlphanum = false) : EndsApart text := by
  intro other member
  rw [ends] at member
  rwa [← Option.some.inj member]

theorem endsApart_label {kind : TokenKind} (isMark : kind.isMark = true) :
    EndsApart kind.label.toList := by
  cases kind with
  | relation | operator | text | name => cases isMark
  | opening bracket | closing bracket =>
      cases bracket <;> exact endsApart_of_getLast rfl (by decide)
  | _ => exact endsApart_of_getLast rfl (by decide)

/-- The word `not` is only left unrecognized together with the blanks after it. -/
theorem endsApart_of_wordExtent {word after : List Char} (some : word ≠ [])
    (bare : ∀ kind, (wordExtent word after).1 ≠ .token kind) :
    EndsApart (word ++ after.take ((wordExtent word after).2 + 1 - word.length)) := by
  revert bare
  unfold wordExtent
  dsimp only
  split
  · next negated =>
    split
    · exact fun bare => absurd rfl (bare _)
    · intro _
      have length : word.length - 1 + runLength isBlank after + 1 - word.length
          = runLength isBlank after := by
        have positive := List.length_pos_iff.mpr some
        omega
      rw [length, take_runLength]
      apply endsApart_append
      · exact List.length_pos_iff.mp negated.2
      · intro character member
        exact (of_isBlank (List.mem_takeWhile_imp member)).1
  · exact fun bare => absurd rfl (bare _)

/-- A piece that is no token does not end with a letter, or nothing is left after it. -/
theorem endsApart_of_bare (bare : ∀ kind, (classify first rest).1 ≠ .token kind) :
    EndsApart (first :: rest.take (classify first rest).2)
      ∨ rest.drop (classify first rest).2 = [] := by
  by_cases letter : first.isAlphanum = true
  · left
    have long : runLength Char.isAlphanum rest ≤ (classify first rest).2 :=
      runLength_le_classify letter
    rw [classify_letter letter] at bare long ⊢
    have apart := endsApart_of_wordExtent (List.cons_ne_nil _ _) bare
    generalize (wordExtent _ _).2 = length at long apart ⊢
    rw [List.length_cons, List.length_take_of_le (runLength_le _ _), Nat.add_sub_add_right] at apart
    rwa [List.cons_append, ← List.take_add, Nat.add_sub_cancel' long] at apart
  revert bare
  unfold classify
  split
  case h_17 =>
    split
    · exact fun bare => absurd rfl (bare _)
    · exact fun _ => .inr List.drop_length
  case h_18 =>
    rw [if_neg letter]
    have alone : EndsApart (first :: rest.take 0) := by simpa [EndsApart] using letter
    split
    · exact fun _ => .inl alone
    · split
      · exact fun bare => absurd rfl (bare _)
      · exact fun _ => .inl alone
  all_goals exact fun bare => absurd rfl (bare _)

/-- A letter continues what ends with a letter, unless that is a `not in`. -/
theorem lexical_concat {kind : TokenKind} {text : List Char} (lexical : Lexical kind text)
    {last next : Char} (ends : text.getLast? = some last) (lastLetter : last.isAlphanum = true)
    (nextLetter : next.isAlphanum = true) :
    kind = .relation .notIn ∨ ∃ longer, Lexical longer (text ++ [next]) := by
  have notApart : ¬ EndsApart text := by
    intro apart
    simp [apart last ends] at lastLetter
  cases lexical with
  | word some all =>
      refine .inr ⟨wordKind (text ++ [next]), .word (by simp) ?_⟩
      rw [List.forall_mem_append]
      exact ⟨all, List.forall_mem_singleton.mpr nextLetter⟩
  | notIn => exact .inl rfl
  | mark isMark => exact absurd (endsApart_label isMark) notApart
  | operator some all =>
      apply absurd (endsApart_append [] some _) notApart
      intro character member
      exact (of_isOperatorCharacter (all character member)).2.1
  | text closed =>
      exact absurd (endsApart_of_getLast List.getLast?_concat (by decide)) notApart

/-- A letter right after a piece that ends with a letter comes right after a `not in`. -/
theorem notIn_of_letters {last next : Char}
    (ends : (first :: rest.take (classify first rest).2).getLast? = some last)
    (starts : (rest.drop (classify first rest).2).head? = some next)
    (lastLetter : last.isAlphanum = true) (nextLetter : next.isAlphanum = true) :
    (classify first rest).1 = .token (.relation .notIn) := by
  rcases List.head?_eq_some_iff.mp starts with ⟨after, split⟩
  have bare : ∃ kind, (classify first rest).1 = .token kind := by
    by_contra bare
    rcases endsApart_of_bare (not_exists.mp bare) with apart | none
    · simp [apart last ends] at lastLetter
    · simp [none] at split
  rcases bare with ⟨kind, isToken⟩
  have lexical := lexical_of_classify (Prod.ext isToken rfl)
  rcases lexical_concat lexical ends lastLetter nextLetter with rfl | ⟨longer, lexical'⟩
  · exact isToken
  · -- One character more would be a longer match.
    have starts' : (first :: rest.take (classify first rest).2) ++ [next] <+: first :: rest := by
      refine ⟨after, ?_⟩
      rw [List.append_assoc, List.singleton_append, ← split, List.cons_append,
        List.take_append_drop]
    have longest := length_le_classify lexical' starts'
    have short : (classify first rest).2 < rest.length := by
      by_contra long
      simp [List.drop_eq_nil_of_le (Nat.le_of_not_lt long)] at split
    rw [List.length_append, List.length_cons, List.length_take_of_le short.le,
      List.length_singleton] at longest
    omega

end Piece

/-! ## Words of a statement -/

/-- Words begin and end with letters or digits. -/
theorem Lexical.endLetters {kind : TokenKind} {text : List Char} (lexical : Lexical kind text)
    (isWord : kind.isWord = true) :
    (∃ first ∈ text.head?, first.isAlphanum = true)
      ∧ ∃ last ∈ text.getLast?, last.isAlphanum = true := by
  cases lexical with
  | word some all =>
      exact ⟨⟨_, List.head_mem_head? some, all _ (List.head_mem some)⟩,
        ⟨_, List.getLast_mem_getLast? some, all _ (List.getLast_mem some)⟩⟩
  | notIn =>
      refine ⟨⟨'n', rfl, by decide⟩, ⟨'n', ?_, by decide⟩⟩
      exact List.getLast?_append_of_ne_nil _ (by simp)
  | mark isMark => cases kind <;> simp_all [TokenKind.isMark, TokenKind.isWord]
  | operator =>
      unfold Piece.operatorKind at isWord
      split_ifs at isWord <;> cases isWord
  | text => cases isWord

/-- A token stands in a text right after `before` and right in front of `after`. -/
structure Token.StandsIn (token : Token) (text before after : List Char) : Prop where
  split : text = before ++ token.text.toList ++ after
  location : token.location = Location.start.advance before

/-- Where a letter stands right after a letter, one of the tokens is a `not in` that ends there. -/
def Parted (tokens : List Token) (before after : List Char) : Prop :=
  ∀ last ∈ before.getLast?, ∀ next ∈ after.head?, last.isAlphanum = true → next.isAlphanum = true →
    ∃ token ∈ tokens, token.kind = .relation .notIn
      ∧ ∃ front, token.StandsIn (before ++ after) front after

theorem Parted.mono {tokens more : List Token} {before after : List Char}
    (parted : Parted tokens before after) (among : tokens ⊆ more) : Parted more before after := by
  intro last ends next starts lastLetter nextLetter
  rcases parted last ends next starts lastLetter nextLetter with ⟨token, member, notIn⟩
  exact ⟨token, among member, notIn⟩

/-- A token stands in a text, parted from what is before it, and from what follows unless it is a
`not in`. -/
def Token.PartedIn (token : Token) (tokens : List Token) (text : List Char) : Prop :=
  ∃ before after, token.StandsIn text before after
    ∧ Parted tokens before (token.text.toList ++ after)
    ∧ ∀ last ∈ token.text.toList.getLast?, ∀ next ∈ after.head?, last.isAlphanum = true →
      next.isAlphanum = true → token.kind = .relation .notIn

/-- A piece is parted from what follows it. -/
theorem parted_piece {tokens : List Token} (before : List Char) {first : Char} {rest : List Char}
    (notIn : (Piece.classify first rest).1 = .token (.relation .notIn) →
      ⟨.relation .notIn, String.ofList (first :: rest.take (Piece.classify first rest).2),
        Location.start.advance before⟩ ∈ tokens) :
    Parted tokens (before ++ first :: rest.take (Piece.classify first rest).2)
      (rest.drop (Piece.classify first rest).2) := by
  intro last ends next starts lastLetter nextLetter
  rw [List.getLast?_append_of_ne_nil _ (List.cons_ne_nil _ _)] at ends
  have kind := Piece.notIn_of_letters ends starts lastLetter nextLetter
  exact ⟨_, notIn kind, rfl, before, by simp, rfl⟩

theorem append_piece (before : List Char) (first : Char) (rest : List Char) (length : Nat) :
    before ++ first :: rest = before ++ first :: rest.take length ++ rest.drop length := by
  simp

/-- Each token that is read is parted from what is around it, also from what was read before. -/
theorem partedIn_tokensFrom {earlier : List Token} {before text : List Char} {location : Location}
    (place : location = Location.start.advance before) (parted : Parted earlier before text) :
    ∀ token ∈ (tokensFrom location text).value,
      token.PartedIn (earlier ++ (tokensFrom location text).value) (before ++ text) := by
  -- With each piece the part of the text that was read grows, and the tokens by the piece's token.
  fun_induction tokensFrom location text generalizing earlier before with
  | case1 => exact List.forall_mem_nil _
  | case2 location first rest found piece remaining =>
      rename_i kind isToken ih
      have place' : location.advance piece = Location.start.advance (before ++ piece) := by
        rw [place, Location.advance_append]
      have parted' : Parted (earlier ++ [⟨kind, String.ofList piece, location⟩]) (before ++ piece)
          (rest.drop found.2) := by
        apply parted_piece before
        intro notIn
        obtain rfl : kind = .relation .notIn := Piece.Kind.token.inj (isToken.symm.trans notIn)
        rw [← place]
        exact List.mem_append_right _ List.mem_cons_self
      have tokens : earlier ++ ⟨kind, String.ofList piece, location⟩ :: remaining.value
          = earlier ++ [⟨kind, String.ofList piece, location⟩] ++ remaining.value := by simp
      rw [append_piece before first rest found.2, tokens]
      intro token member
      rcases List.mem_cons.mp member with rfl | later
      · refine ⟨before, rest.drop found.2, ⟨?_, place⟩, ?_, ?_⟩
        · rw [String.toList_ofList]
        · rw [String.toList_ofList, List.cons_append, List.take_append_drop]
          exact parted.mono (by simp)
        · intro last ends next starts lastLetter nextLetter
          rw [String.toList_ofList] at ends
          have notIn := Piece.notIn_of_letters ends starts lastLetter nextLetter
          exact Piece.Kind.token.inj (isToken.symm.trans notIn)
      · exact ih place' parted' token later
  | case3 location first rest found piece remaining
  | case4 location first rest found piece remaining =>
      rename_i bare ih
      rw [append_piece before first rest found.2]
      apply ih
      · rw [place, Location.advance_append]
      · apply parted_piece before
        intro notIn
        cases bare.symm.trans notIn

/-- Names and the words of relations are whole words, but for `not in`: right after a word there is
no letter and no digit unless the word is `not in`, and right before it there is none unless a
`not in` ends there. -/
theorem words_whole (text : String) :
    ∀ token ∈ (tokens text).value, token.kind.isWord = true →
      ∃ before after, token.StandsIn text.toList before after
        ∧ (∀ next ∈ after.head?, next.isAlphanum = true → token.kind = .relation .notIn)
        ∧ ∀ last ∈ before.getLast?, last.isAlphanum = true →
          ∃ notIn ∈ (tokens text).value, notIn.kind = .relation .notIn
            ∧ ∃ front, notIn.StandsIn text.toList front (token.text.toList ++ after) := by
  intro token member isWord
  have lexical := lexical_of_mem_tokensFrom token member
  rcases lexical.endLetters isWord with ⟨⟨first, starts, firstLetter⟩, last, ends, lastLetter⟩
  have nothing : Parted [] [] text.toList := by simp [Parted]
  rcases partedIn_tokensFrom rfl nothing token member with ⟨before, after, stands, parted, whole⟩
  have split : text.toList = before ++ (token.text.toList ++ after) := by
    rw [← List.append_assoc]
    exact stands.split
  refine ⟨before, after, stands, ?_, ?_⟩
  · intro next begins nextLetter
    exact whole last ends next begins lastLetter nextLetter
  · intro letter behind isLetter
    have starts' : first ∈ (token.text.toList ++ after).head? := by
      rw [List.head?_append, starts]
      rfl
    have notIn := parted letter behind first starts' isLetter firstLetter
    rwa [← split] at notIn

/-- In front of a name that begins with `is`, the word `is` is a whole word. -/
theorem words_whole_island :
    ∃ before after,
      (Token.mk (.relation .isA) "is" ⟨0, 2⟩).StandsIn "x is island".toList before after
      ∧ StartsApart after ∧ EndsApart before := by
  have among : Token.mk (.relation .isA) "is" ⟨0, 2⟩ ∈ (tokens "x is island").value := by
    decide +kernel
  have noNotIn : ∀ token ∈ (tokens "x is island").value, token.kind ≠ .relation .notIn := by
    decide +kernel
  rcases words_whole "x is island" _ among rfl with ⟨before, after, stands, behind, front⟩
  refine ⟨before, after, stands, ?_, ?_⟩
  · intro next starts
    by_contra letter
    cases behind next starts (Bool.of_not_eq_false letter)
  · intro last ends
    by_contra letter
    rcases front last ends (Bool.of_not_eq_false letter) with ⟨notIn, among, kind, -⟩
    exact noNotIn notIn among kind

/-- A name after `not` is cut where it begins with `in`, and no fault is reported. -/
theorem notIn_cuts_name :
    (tokens "x not int").value = [⟨.name, "x", ⟨0, 0⟩⟩, ⟨.relation .notIn, "not in", ⟨0, 2⟩⟩,
        ⟨.name, "t", ⟨0, 8⟩⟩]
      ∧ (tokens "x not int").problems = []
      ∧ (Token.mk (.relation .notIn) "not in" ⟨0, 2⟩).StandsIn "x not int".toList "x ".toList
        "t".toList
      ∧ ¬ StartsApart "t".toList := by
  refine ⟨by decide +kernel, by decide +kernel, ⟨rfl, rfl⟩, fun apart => ?_⟩
  exact absurd (apart 't' rfl) (by decide)

end Treatise.Statement
