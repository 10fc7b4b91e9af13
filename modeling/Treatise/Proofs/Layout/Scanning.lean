import Treatise.Layout.Indentation
import Treatise.Proofs.Layout.Recognition

/-!
# Scanning

A lexeme is cut off again from any text that begins with its own text, provided that what follows
does not continue it. Only names and operators can be continued: literals end with their closer, and
punctuation marks have fixed lengths.
-/

namespace Treatise.Layout

namespace Lexeme

open Text (runLength runLength_append runLength_le take_runLength)

/-- The lexeme is cut off when its text is followed by some characters. -/
def Reads (lexeme : Lexeme) (following : List Char) : Prop :=
  ∃ first rest, lexeme.text = first :: rest
    ∧ classify first (rest ++ following) = (lexeme.kind, rest.length)

theorem Reads.scan {lexeme : Lexeme} {following : List Char} (reads : lexeme.Reads following) :
    scan (lexeme.text ++ following) = lexeme :: scan following := by
  rcases lexeme with ⟨kind, text⟩
  rcases reads with ⟨first, rest, rfl, found⟩
  rw [List.cons_append, Lexeme.scan, found, List.take_left, List.drop_left]

/-! ## Extents -/

theorem quotationExtent_le (quote : Char) (text : List Char) :
    (quotationExtent quote text).1 ≤ text.length := by
  unfold quotationExtent
  split
  · next index found => exact (List.findIdx?_eq_some_iff_getElem.mp found).1
  · exact le_rfl

theorem idExtent_le (depth : Nat) (text : List Char) : (idExtent depth text).1 ≤ text.length := by
  fun_induction idExtent depth text <;> simp_all [extended]

theorem blockCommentExtent_le (text : List Char) :
    (blockCommentExtent text).1 ≤ text.length := by
  fun_induction blockCommentExtent text <;> simp_all [extended]

theorem nameSuffix_le (text : List Char) : (nameSuffix text).1 ≤ text.length := by
  unfold nameSuffix
  split
  · simp
  · next rest =>
    have bound := runLength_le Char.isDigit rest
    split <;> simp_all
  · next rest =>
    have bound := runLength_le Char.isAlphanum rest
    dsimp only
    split
    · next closed =>
      have long := congrArg List.length closed.2
      simp only [List.length_take, List.length_drop, List.length_cons, List.length_nil] at long ⊢
      omega
    · simp
  · simp
  · simp

theorem operatorSuffix_le (text : List Char) : operatorSuffix text ≤ text.length := by
  unfold operatorSuffix
  split
  · next rest =>
    have bound := runLength_le Char.isAlphanum rest
    split <;> simp_all
  · simp

/-- A run and what is found behind it stay within a text. -/
theorem runLength_add_le (sort : Char → Bool) {rest : List Char} {extra : Nat}
    (bound : extra ≤ (rest.drop (runLength sort rest)).length) :
    runLength sort rest + extra ≤ rest.length := by
  have run := runLength_le sort rest
  rw [List.length_drop] at bound
  omega

theorem Recognized.length_le {first : Char} {rest : List Char} {kind : Kind} {length : Nat}
    (found : Recognized first rest kind length) : length ≤ rest.length := by
  cases found with
  | newline | space | blank | placeholder | unrecognized => exact Nat.zero_le _
  | indent => simp
  | lineComment comment => exact Nat.succ_le_succ (runLength_le _ comment)
  | @blockComment comment _ _ extent => simpa [extent] using blockCommentExtent_le comment
  | quotation _ extent => simpa [extent] using quotationExtent_le first rest
  | id extent => simpa [extent] using idExtent_le 0 rest
  | mark => simp
  | name => exact runLength_add_le _ (nameSuffix_le _)
  | operator => exact runLength_add_le _ (operatorSuffix_le _)

theorem classify_le (first : Char) (rest : List Char) : (classify first rest).2 ≤ rest.length :=
  (recognized_classify first rest).length_le

/-- Every lexeme of a text is cut off in front of what follows it there. -/
theorem reads_of_mem_scan {text : List Char} {lexeme : Lexeme} (member : lexeme ∈ scan text) :
    ∃ following, lexeme.Reads following := by
  fun_induction Lexeme.scan text with
  | case1 => simp at member
  | case2 first rest found ih =>
      rcases List.mem_cons.mp member with rfl | later
      · refine ⟨rest.drop found.2, first, rest.take found.2, rfl, ?_⟩
        rw [List.take_append_drop, List.length_take, min_eq_left (classify_le first rest)]
      · exact ih later

/-! ## Names -/

/-- What follows a name without continuing it: nothing, or one of these characters. -/
def EndsName (following : List Char) : Prop :=
  ∀ next ∈ following.head?, next ∈ [',', ' ', ':', '(', ')', '}', '_', '\n']

/-- The suffixes that a name can have. -/
inductive Suffix : List Char → Prop
  | none : Suffix []
  | question : Suffix ['?']
  | digits {digits : List Char} (some : digits ≠ [])
      (all : ∀ digit ∈ digits, digit.isDigit = true) : Suffix ('#' :: digits)
  | ellipsis : Suffix ['.', '.', '.']
  | tagged {tag : List Char} (some : tag ≠ []) (all : ∀ letter ∈ tag, letter.isAlphanum = true) :
      Suffix ('.' :: '.' :: '.' :: '#' :: (tag ++ ['.', '.', '.']))

theorem EndsName.not_alphanum {following : List Char} (ends : EndsName following) :
    ∀ next ∈ following.head?, next.isAlphanum = false := by
  intro next member
  have stop := ends next member
  simp only [List.mem_cons, List.not_mem_nil, or_false] at stop
  rcases stop with rfl | rfl | rfl | rfl | rfl | rfl | rfl | rfl <;> decide

theorem nameSuffix_append {suffix following : List Char} (shape : Suffix suffix)
    (ends : EndsName following) : nameSuffix (suffix ++ following) = (suffix.length, none) := by
  have notLetter := ends.not_alphanum
  cases shape with
  | none =>
      rcases following with _ | ⟨next, rest⟩
      · rfl
      · have stop := ends next rfl
        simp only [List.mem_cons, List.not_mem_nil, or_false] at stop
        rcases stop with rfl | rfl | rfl | rfl | rfl | rfl | rfl | rfl <;> rfl
  | question => rfl
  | @digits digits some all =>
      have length := runLength_append all
        (fun next member => by
          have letter := notLetter next member
          simp only [Char.isAlphanum, Bool.or_eq_false_iff] at letter
          exact letter.2)
      have positive := List.length_pos_iff.mpr some
      simp only [List.cons_append, nameSuffix, length]
      split
      · omega
      · simp
  | ellipsis =>
      rcases following with _ | ⟨next, rest⟩
      · rfl
      · have stop := ends next rfl
        simp only [List.mem_cons, List.not_mem_nil, or_false] at stop
        rcases stop with rfl | rfl | rfl | rfl | rfl | rfl | rfl | rfl <;> rfl
  | @tagged tag some all =>
      have length : runLength Char.isAlphanum (tag ++ '.' :: '.' :: '.' :: following)
          = tag.length :=
        runLength_append all (by simp)
      have positive := List.length_pos_iff.mpr some
      simp only [List.cons_append, List.append_assoc, List.nil_append, nameSuffix, length]
      simp [positive]

theorem suffix_of_nameSuffix {text : List Char} {length : Nat}
    (found : nameSuffix text = (length, none)) : Suffix (text.take length) := by
  unfold nameSuffix at found
  split at found
  · cases found
    exact .question
  · next rest =>
    split at found
    · cases found
    · next run =>
      cases found
      rw [List.take_succ_cons, take_runLength]
      exact .digits (by simpa [runLength] using run) fun _ member => List.mem_takeWhile_imp member
  · next rest =>
    dsimp only at found
    split at found
    · next closed =>
      cases found
      rcases closed with ⟨positive, dots⟩
      have parts : rest.take (runLength Char.isAlphanum rest + 3)
          = rest.takeWhile Char.isAlphanum ++ ['.', '.', '.'] := by
        rw [List.take_add, take_runLength, dots]
      simp only [List.take_succ_cons, parts]
      exact .tagged (List.length_pos_iff.mp positive) fun _ member => List.mem_takeWhile_imp member
    · cases found
  · cases found
    exact .ellipsis
  · cases found
    exact .none

theorem classify_letter {first : Char} (letter : first.isAlphanum = true) (rest : List Char) :
    classify first rest = (.name (nameSuffix (rest.drop (runLength Char.isAlphanum rest))).2,
      runLength Char.isAlphanum rest
        + (nameSuffix (rest.drop (runLength Char.isAlphanum rest))).1) :=
  (Recognized.name letter rest).classify_eq

theorem letter_of_classify {first : Char} {rest : List Char} {flaw : Option NameFlaw} {length : Nat}
    (found : classify first rest = (.name flaw, length)) : first.isAlphanum = true := by
  cases recognized_iff.mpr found with
  | name letter => exact letter

theorem Suffix.not_alphanum {suffix following : List Char} (shape : Suffix suffix)
    (ends : EndsName following) :
    ∀ next ∈ (suffix ++ following).head?, next.isAlphanum = false := by
  cases shape with
  | none => exact ends.not_alphanum
  | question | digits _ _ | ellipsis | tagged _ _ =>
      simp only [List.cons_append, List.head?_cons, Option.mem_some_iff, forall_eq']
      decide

/-- A name without a flaw is cut off in front of anything that does not continue it. -/
theorem Reads.name {text following other : List Char}
    (reads : (Lexeme.mk (.name none) text).Reads following) (ends : EndsName other) :
    (Lexeme.mk (.name none) text).Reads other := by
  rcases reads with ⟨first, rest, rfl, found⟩
  have letter := letter_of_classify found
  rw [classify_letter letter, Prod.mk.injEq, Kind.name.injEq] at found
  rcases found with ⟨flawless, length⟩
  set run := runLength Char.isAlphanum (rest ++ following) with run_eq
  have suffix := suffix_of_nameSuffix (Prod.ext rfl flawless)
  have parts : rest = (rest ++ following).takeWhile Char.isAlphanum
      ++ ((rest ++ following).drop run).take (nameSuffix ((rest ++ following).drop run)).1 := by
    calc rest = (rest ++ following).take rest.length := (List.take_left' rfl).symm
      _ = _ := by rw [← length, List.take_add, run_eq, take_runLength]
  have letters : ∀ character ∈ (rest ++ following).takeWhile Char.isAlphanum,
      character.isAlphanum = true := fun _ member => List.mem_takeWhile_imp member
  generalize (rest ++ following).takeWhile Char.isAlphanum = letters' at parts letters
  generalize ((rest ++ following).drop run).take _ = suffix' at parts suffix
  refine ⟨first, rest, rfl, ?_⟩
  subst parts
  rw [classify_letter letter, List.append_assoc,
    runLength_append letters (suffix.not_alphanum ends), List.drop_left,
    nameSuffix_append suffix ends, List.length_append]

/-! ## Operators -/

/-- What follows an operator without continuing it: nothing, or one of these characters. -/
def EndsOperator (following : List Char) : Prop :=
  ∀ next ∈ following.head?, next ∈ [',', ')', '\n']

theorem EndsOperator.stops {following : List Char} (ends : EndsOperator following) :
    ∀ next ∈ following.head?, isOperatorCharacter next = false ∧ next.isAlphanum = false
      ∧ next ≠ '_' ∧ next ≠ '-' := by
  intro next member
  have stop := ends next member
  simp only [List.mem_cons, List.not_mem_nil, or_false] at stop
  rcases stop with rfl | rfl | rfl <;> decide

theorem EndsOperator.endsName {following : List Char} (ends : EndsOperator following) :
    EndsName following := by
  intro next member
  have stop := ends next member
  simp only [List.mem_cons, List.not_mem_nil, or_false] at stop
  rcases stop with rfl | rfl | rfl <;> decide

/-- The suffixes that an operator can have. -/
inductive Subscript : List Char → Prop
  | none : Subscript []
  | name {name : List Char} (some : name ≠ []) (all : ∀ letter ∈ name, letter.isAlphanum = true) :
      Subscript ('_' :: name)

theorem operatorSuffix_append {suffix following : List Char} (shape : Subscript suffix)
    (ends : EndsOperator following) : operatorSuffix (suffix ++ following) = suffix.length := by
  cases shape with
  | none =>
      rcases following with _ | ⟨next, rest⟩
      · rfl
      · rcases ends.stops next rfl with ⟨-, -, notUnderscore, -⟩
        unfold operatorSuffix
        split
        · next same => exact absurd (List.cons.inj same).1 notUnderscore
        · rfl
  | @name name some all =>
      have length := runLength_append all
        (fun next member => (ends.stops next member).2.1)
      have positive := List.length_pos_iff.mpr some
      simp only [List.cons_append, operatorSuffix, length]
      split
      · omega
      · simp

theorem subscript_of_operatorSuffix (text : List Char) :
    Subscript (text.take (operatorSuffix text)) := by
  unfold operatorSuffix
  split
  · next rest =>
    split
    · exact .none
    · next run =>
      rw [List.take_succ_cons, take_runLength]
      exact .name (by simpa [runLength] using run) fun _ member => List.mem_takeWhile_imp member
  · exact .none

/-- What an operator begins with, and how far it reaches. -/
theorem operator_of_classify {first : Char} {rest : List Char} {length : Nat}
    (found : classify first rest = (.operator, length)) :
    isOperatorCharacter first = true ∧ (first = '-' → rest.head? ≠ some '-')
      ∧ (first = '=' → runLength isOperatorCharacter rest ≠ 0)
      ∧ length = runLength isOperatorCharacter rest
        + operatorSuffix (rest.drop (runLength isOperatorCharacter rest)) := by
  cases recognized_iff.mpr found with
  | operator operator notComment notEquals => exact ⟨operator, notComment, notEquals, rfl⟩

theorem Subscript.stops {suffix following : List Char} (shape : Subscript suffix)
    (ends : EndsOperator following) :
    ∀ next ∈ (suffix ++ following).head?, isOperatorCharacter next = false ∧ next ≠ '-' := by
  cases shape with
  | none => exact fun next member => ⟨(ends.stops next member).1, (ends.stops next member).2.2.2⟩
  | name _ _ =>
      simp only [List.cons_append, List.head?_cons, Option.mem_some_iff, forall_eq']
      decide

/-- An operator is cut off in front of anything that does not continue it. -/
theorem Reads.operator {text following other : List Char}
    (reads : (Lexeme.mk .operator text).Reads following) (ends : EndsOperator other) :
    (Lexeme.mk .operator text).Reads other := by
  rcases reads with ⟨first, rest, rfl, found⟩
  rcases operator_of_classify found with ⟨isOperator, notComment, notEquals, length⟩
  set run := runLength isOperatorCharacter (rest ++ following) with run_eq
  have suffix := subscript_of_operatorSuffix ((rest ++ following).drop run)
  have parts : rest = (rest ++ following).takeWhile isOperatorCharacter
      ++ ((rest ++ following).drop run).take (operatorSuffix ((rest ++ following).drop run)) := by
    calc rest = (rest ++ following).take rest.length := (List.take_left' rfl).symm
      _ = _ := by rw [length, List.take_add, run_eq, take_runLength]
  have operators : ∀ character ∈ (rest ++ following).takeWhile isOperatorCharacter,
      isOperatorCharacter character = true := fun _ member => List.mem_takeWhile_imp member
  have run_length : run = ((rest ++ following).takeWhile isOperatorCharacter).length := rfl
  generalize (rest ++ following).takeWhile isOperatorCharacter = operators'
    at parts operators run_length
  generalize ((rest ++ following).drop run).take _ = suffix' at parts suffix
  have length' : runLength isOperatorCharacter (rest ++ other) = run := by
    rw [run_length, parts, List.append_assoc]
    exact runLength_append operators fun next member => (suffix.stops ends next member).1
  have notComment' : first = '-' → (rest ++ other).head? ≠ some '-' := by
    intro isMinus starts
    cases rest with
    | nil => exact (ends.stops '-' (by simpa using starts)).2.2.2 rfl
    | cons next more => exact notComment isMinus (by simpa using starts)
  have again := (Recognized.operator isOperator notComment' (length' ▸ notEquals)).classify_eq
  refine ⟨first, rest, rfl, again.trans (congrArg _ ?_)⟩
  rw [length', run_length, parts, List.append_assoc, List.drop_left,
    operatorSuffix_append suffix ends, List.length_append]

/-! ## Literals -/

end Lexeme

def Literal.opening : Literal → String
  | .blockComment => "::"
  | .string => "\""
  | .statement => "'"
  | .id => "["

def Literal.closing : Literal → String
  | .blockComment => "::"
  | .string => "\""
  | .statement => "'"
  | .id => "]"

theorem Literal.Quotes.opening {literal : Literal} {quote : Char} (quotes : literal.Quotes quote) :
    literal.opening.toList = [quote] := by
  cases quotes <;> rfl

theorem Literal.Quotes.closing {literal : Literal} {quote : Char} (quotes : literal.Quotes quote) :
    literal.closing.toList = [quote] := by
  cases quotes <;> rfl

namespace Lexeme

theorem quotationExtent_append {quote : Char} {body following : List Char}
    (found : quotationExtent quote (body ++ following) = (body.length, true)) (other : List Char) :
    quotationExtent quote (body ++ other) = (body.length, true) := by
  unfold quotationExtent at found ⊢
  rw [List.findIdx?_append] at found ⊢
  cases inside : body.findIdx? (· == quote) with
  | some index => simpa [inside] using found
  | none =>
      rw [inside, Option.none_or] at found
      cases outside : following.findIdx? (· == quote) with
      | none => simp [outside] at found
      | some index =>
          simp only [outside, Option.map_some, Prod.mk.injEq] at found
          omega

theorem idExtent_cons (depth : Nat) (first : Char) (rest : List Char) :
    idExtent depth (first :: rest)
      = if first = '\n' then (0, false)
        else if first = '[' then extended 1 (idExtent (depth + 1) rest)
        else if first = ']' then
          match depth with
          | 0 => (1, true)
          | outer + 1 => extended 1 (idExtent outer rest)
        else extended 1 (idExtent depth rest) := by
  rw [idExtent.eq_def]
  split
  · contradiction
  · simp_all
  · simp_all
  · cases depth <;> simp_all
  · simp_all

theorem extended_eq_iff {count length : Nat} {extent : Nat × Bool} :
    extended count extent = (length + count, true) ↔ extent = (length, true) := by
  simp [extended, Prod.ext_iff]

theorem idExtent_append {depth : Nat} {body following : List Char}
    (found : idExtent depth (body ++ following) = (body.length, true)) (other : List Char) :
    idExtent depth (body ++ other) = (body.length, true) := by
  induction body generalizing depth with
  | nil =>
      rcases following with _ | ⟨first, rest⟩
      · cases found
      · rw [List.nil_append, idExtent_cons] at found
        split_ifs at found
        · cases found
        · simp [extended] at found
        · split at found <;> simp [extended] at found
        · simp [extended] at found
  | cons first rest ih =>
      rw [List.cons_append, idExtent_cons] at found ⊢
      rw [List.length_cons] at found ⊢
      split_ifs at found ⊢
      · cases found
      · exact extended_eq_iff.mpr (ih (extended_eq_iff.mp found))
      · cases depth with
        | zero => exact found
        | succ outer => exact extended_eq_iff.mpr (ih (extended_eq_iff.mp found))
      · exact extended_eq_iff.mpr (ih (extended_eq_iff.mp found))

/-- What a literal begins with, and how far it reaches. -/
theorem literal_of_classify {first : Char} {rest : List Char} {literal : Literal} {closed : Bool}
    {length : Nat} (found : classify first rest = (.literal literal closed, length)) :
    (literal = .blockComment ∧ first = ':' ∧ ∃ comment extent, rest = ':' :: comment
        ∧ blockCommentExtent comment = (extent, closed) ∧ length = extent + 1)
      ∨ (literal.Quotes first ∧ quotationExtent first rest = (length, closed))
      ∨ (literal = .id ∧ first = '[' ∧ idExtent 0 rest = (length, closed)) := by
  cases recognized_iff.mpr found with
  | @blockComment comment _ _ extent => exact .inl ⟨rfl, rfl, comment, _, rfl, extent, rfl⟩
  | quotation quotes extent => exact .inr (.inl ⟨quotes, extent⟩)
  | id extent => exact .inr (.inr ⟨rfl, rfl, extent⟩)

/-- A literal that is closed is cut off in front of anything. -/
theorem Reads.literal {literal : Literal} {text following : List Char}
    (reads : (Lexeme.mk (.literal literal true) text).Reads following)
    (notComment : literal ≠ .blockComment) (other : List Char) :
    (Lexeme.mk (.literal literal true) text).Reads other := by
  rcases reads with ⟨first, rest, rfl, found⟩
  refine ⟨first, rest, rfl, ?_⟩
  rcases literal_of_classify found with ⟨rfl, -⟩ | ⟨quotes, extent⟩ | ⟨rfl, rfl, extent⟩
  · contradiction
  · exact (Recognized.quotation quotes (quotationExtent_append extent other)).classify_eq
  · exact (Recognized.id (idExtent_append extent other)).classify_eq

/-! ## Delimiters -/

theorem quotationExtent_closed {quote : Char} {text : List Char} {length : Nat}
    (found : quotationExtent quote text = (length, true)) :
    ∃ body, text.take length = body ++ [quote] := by
  unfold quotationExtent at found
  split at found
  · next index first =>
    rcases List.findIdx?_eq_some_iff_getElem.mp first with ⟨within, isQuote, -⟩
    simp only [Prod.mk.injEq, and_true] at found
    refine ⟨text.take index, ?_⟩
    rw [← found, List.take_succ_eq_append_getElem within, eq_of_beq isQuote]
  · simp at found

theorem idExtent_closed {depth length : Nat} {text : List Char}
    (found : idExtent depth text = (length, true)) :
    ∃ body, text.take length = body ++ [']'] := by
  induction text generalizing depth length with
  | nil => simp [idExtent] at found
  | cons first rest ih =>
      have step : ∀ inner, extended 1 (idExtent inner rest) = (length, true) →
          ∃ body, (first :: rest).take length = body ++ [']'] := by
        intro inner longer
        simp only [extended, Prod.mk.injEq] at longer
        rcases longer with ⟨rfl, closed⟩
        rcases ih (Prod.ext rfl closed) with ⟨body, split⟩
        exact ⟨first :: body, by rw [List.take_succ_cons, split]; rfl⟩
      rw [idExtent_cons] at found
      split_ifs at found with _ _ isCloser
      · simp at found
      · exact step _ found
      · cases depth with
        | zero =>
            obtain rfl : 1 = length := congrArg Prod.fst found
            exact ⟨[], by simp [isCloser]⟩
        | succ outer => exact step _ found
      · exact step _ found

/-- A closed literal stands between its delimiters. -/
theorem Reads.delimited {literal : Literal} {text following : List Char}
    (reads : (Lexeme.mk (.literal literal true) text).Reads following)
    (notComment : literal ≠ .blockComment) :
    ∃ body, text = literal.opening.toList ++ body ++ literal.closing.toList := by
  rcases reads with ⟨first, rest, rfl, found⟩
  rcases literal_of_classify found with ⟨rfl, -⟩ | ⟨quotes, extent⟩ | ⟨rfl, rfl, extent⟩
  · contradiction
  · rcases quotationExtent_closed extent with ⟨body, split⟩
    rw [List.take_left] at split
    exact ⟨body, by rw [split, quotes.opening, quotes.closing]; rfl⟩
  · rcases idExtent_closed extent with ⟨body, split⟩
    rw [List.take_left] at split
    exact ⟨body, by rw [split]; rfl⟩

end Lexeme

end Treatise.Layout
