import Treatise.Proofs.Statement.Recasting
import Treatise.Statement.Printer

/-!
# The words of the written form

The written form of a printable expression is a layout of its words: they stand one after the other,
with blanks between some of them, and what follows a word does not continue it. So the words are
read as tokens one by one. What can follow an expression is its end, a blank, a comma or a closing
bracket, and no blank if the expression ends in the name `not`; what is in brackets, and whatever
ends in a blank, can be followed by anything. Along the expression the layouts of its parts are put
together.
-/

namespace Treatise.Statement

namespace Word

/-- The kind of the token that a word is written as. -/
def kind : Word → TokenKind
  | exactly kind _ => kind
  | related kind => .relation kind
  | groupOpen => .opening .paren
  | groupClose => .closing .paren

/-- The text that a word is written as. -/
def text : Word → String
  | exactly _ text => text
  | related kind => kind.text
  | groupOpen => Bracket.paren.opener
  | groupClose => Bracket.paren.closer

/-- The text of a word is that of a token. -/
def Lexical (word : Word) : Prop :=
  Statement.Lexical word.kind word.text.toList

/-- The token that a word is written as. -/
def Prints (word : Word) (token : Token) : Prop :=
  token.kind = word.kind ∧ token.text = word.text ∧ word.kind.parenthesized = word.kind

theorem Fits.lexical {word : Word} {token : Token} (fits : word.Fits token)
    (lexical : Statement.Lexical token.kind token.text.toList) : word.Lexical := by
  cases word with
  | exactly kind text =>
      rcases fits with ⟨rfl, rfl⟩
      exact lexical
  | groupOpen | groupClose => exact .mark rfl
  | related kind =>
      cases kind with
      | isA => exact @Statement.Lexical.word ['i', 's'] nofun (List.all_eq_true.mp rfl)
      | isIn => exact @Statement.Lexical.word ['i', 'n'] nofun (List.all_eq_true.mp rfl)
      | viewedAs => exact @Statement.Lexical.word ['a', 's'] nofun (List.all_eq_true.mp rfl)
      | notIn => exact @Statement.Lexical.notIn [' '] nofun (List.all_eq_true.mp rfl)
      | equal => exact @Statement.Lexical.operator ['='] nofun (List.all_eq_true.mp rfl)
      | notEqual => exact @Statement.Lexical.operator ['!', '='] nofun (List.all_eq_true.mp rfl)

/-- A word is written in the place of any token that it fits. -/
theorem Fits.recast {word : Word} {token token' : Token} (fits : word.Fits token)
    (prints : word.Prints token') :
    token.Recast token' := by
  rcases prints with ⟨kind, text, same⟩
  cases word with
  | exactly _ _ =>
      rcases fits with ⟨rfl, rfl⟩
      exact ⟨kind.trans same.symm, fun _ => text⟩
  | related _ =>
      refine ⟨kind.trans (fits ▸ rfl), fun other => ?_⟩
      rw [show token.kind = _ from fits] at other
      cases other
  | groupOpen | groupClose =>
      rcases fits with fits | fits
      all_goals
        refine ⟨kind.trans (fits ▸ rfl), fun other => ?_⟩
        rw [fits] at other
        cases other

end Word

/-- Text in which words stand one after the other, some of them with blanks before them. -/
inductive Laid : List Word → List Char → Prop
  | nil : Laid [] []
  | blank {words : List Word} {text : List Char} (more : Laid words text) : Laid words (' ' :: text)
  | word {word : Word} {words : List Word} {following : List Char} (lexical : word.Lexical)
      (plain : word.kind.parenthesized = word.kind)
      (ends : ∀ next ∈ following.head?, stops word.kind word.text.toList next = true)
      (more : Laid words following) : Laid (word :: words) (word.text.toList ++ following)

/-- Each of the words is read as a token. -/
theorem Laid.tokens {words : List Word} {text : List Char} (laid : Laid words text)
    (location : Location) :
    ∃ tokens, tokensFrom location text = ⟨tokens, []⟩ ∧ List.Forall₂ Word.Prints words tokens := by
  induction laid generalizing location with
  | nil => exact ⟨[], by rw [tokensFrom]; rfl, .nil⟩
  | blank _ ih =>
      rw [tokensFrom_blank]
      exact ih _
  | @word word _ _ lexical plain ends _ ih =>
      rcases ih (location.advance word.text.toList) with ⟨tokens, found, prints⟩
      rw [tokensFrom_append lexical ends, found]
      exact ⟨_, rfl, .cons ⟨rfl, String.ofList_toList, plain⟩ prints⟩

/-! ## What stands next to an expression -/

/-- What can stand after an expression. -/
def Closed (following : List Char) : Prop :=
  ∀ next ∈ following.head?, next ∈ [' ', ',', ')', ']', '\x7d']

@[simp]
theorem closed_cons {next : Char} {following : List Char} :
    Closed (next :: following) ↔ next ∈ [' ', ',', ')', ']', '\x7d'] := by
  simp [Closed]

theorem Closed.stops {following : List Char} (closed : Closed following) {next : Char}
    (first : next ∈ following.head?) :
    next.isAlphanum = false ∧ Piece.isOperatorCharacter next = false ∧ next ≠ ':'
      ∧ (Piece.isBlank next = true → next = ' ') := by
  have all :
      [' ', ',', ')', ']', '\x7d'].all (fun c => !c.isAlphanum && !Piece.isOperatorCharacter c
      && c != ':' && (!Piece.isBlank c || c == ' ')) = true := by decide
  have stop := List.all_eq_true.mp all next (closed next first)
  simp only [Bool.and_eq_true, Bool.not_eq_true', bne_iff_ne, Bool.or_eq_true, beq_iff_eq] at stop
  rcases stop with ⟨⟨⟨letter, symbol⟩, colon⟩, blank⟩
  refine ⟨letter, symbol, colon, fun isBlank => ?_⟩
  simpa [isBlank] using blank

/-- What can stand after words without continuing the name that they may end in. -/
def NameEnds (words : List Word) (following : List Char) : Prop :=
  ∀ next ∈ following.head?, next.isAlphanum = false
    ∧ (endInNot words = true → Piece.isBlank next = false)

@[simp]
theorem nameEnds_cons {words : List Word} {next : Char} {following : List Char} :
    NameEnds words (next :: following)
      ↔ next.isAlphanum = false ∧ (endInNot words = true → Piece.isBlank next = false) := by
  simp [NameEnds]

theorem Closed.nameEnds {words : List Word} {following : List Char} (closed : Closed following)
    (apart : endInNot words = true → following.head? ≠ some ' ') : NameEnds words following := by
  intro next first
  rcases closed.stops first with ⟨letter, _, _, blank⟩
  refine ⟨letter, fun ends => ?_⟩
  by_contra other
  exact apart ends (blank (by simpa using other) ▸ first)

theorem NameEnds.of_append {words others : List Word} {following : List Char}
    (ends : NameEnds (words ++ others) following) : NameEnds others following :=
  fun next first =>
    ⟨(ends next first).1, fun last => (ends next first).2 (endInNot_append_of_right last)⟩

/-! ## Names and bracket groups -/

theorem Laid.mark {kind : TokenKind} {words : List Word} {following : List Char}
    (isMark : kind.isMark = true) (plain : kind.parenthesized = kind)
    (ends : ∀ next ∈ following.head?, stops kind kind.label.toList next = true)
    (rest : Laid words following) : Laid (.mark kind :: words) (kind.label.toList ++ following) :=
  @Laid.word (.mark kind) _ _ (.mark isMark) plain ends rest

theorem Laid.name {name : String} {words : List Word} {following : List Char}
    (lexical : (Word.exactly .name name).Lexical) (ends : NameEnds [.exactly .name name] following)
    (rest : Laid words following) :
    Laid (.exactly .name name :: words) (name.toList ++ following) := by
  refine @Laid.word (.exactly .name name) _ _ lexical rfl (fun next first => ?_) rest
  rcases ends next first with ⟨letter, blank⟩
  simp only [stops, Word.kind, Word.text, letter, Bool.not_false, Bool.true_and, Bool.not_eq_true',
    Bool.and_eq_false_iff]
  by_cases same : name.toList = "not".toList
  · exact .inr (blank (by simp [endInNot, String.toList_inj.mp same]))
  · exact .inl (beq_false_of_ne same)

theorem Laid.letter {name : String} {words : List Word} {text : List Char}
    (laid : Laid (.exactly .name name :: words) text) :
    ∀ next ∈ text.head?, next = ' ' ∨ next.isAlphanum = true := by
  cases laid with
  | blank _ => simp
  | word lexical _ _ _ =>
      rcases lexical.exists_first with ⟨first, rest, spelled, letter, _⟩
      have letter : first.isAlphanum = true := letter rfl
      simp [spelled, letter]

theorem laid_dotted {names : List String} {more : List Word} {following : List Char}
    (lexical : ∀ word ∈ dottedWords names, word.Lexical)
    (ends : NameEnds (dottedWords names) following) (rest : Laid more following) :
    Laid (dottedWords names ++ more) ((".".intercalate names).toList ++ following) := by
  induction names with
  | nil => exact rest
  | cons name names ih =>
      cases names with
      | nil =>
          rw [String.intercalate_singleton]
          exact .name (lexical _ (.head _)) ends rest
      | cons second names =>
          have words : dottedWords (name :: second :: names)
              = [.exactly .name name, .mark .dot] ++ dottedWords (second :: names) := rfl
          rw [words, List.forall_mem_append] at lexical
          rw [words] at ends
          have later := ih lexical.2 ends.of_append
          rw [words, String.intercalate_cons_of_ne_nil (by simp)]
          simp only [String.toList_append, List.append_assoc]
          refine .name (lexical.1 _ (.head _)) ?_ (.mark rfl rfl ?_ later)
          · exact nameEnds_cons.mpr ⟨by decide, fun _ => by decide⟩
          · intro next first
            have letter : next = ' ' ∨ next.isAlphanum = true := by
              cases names <;> exact later.letter next first
            rcases letter with rfl | letter
            · rfl
            · refine bne_iff_ne.mpr ?_
              rintro rfl
              cases letter

/-- Bracket groups begin with a mark that does not continue a name. -/
theorem NameEnds.groups {words : List Word} {groups : List ArgGroup} {following : List Char}
    (ends : NameEnds (words ++ groupsWritten groups) following) :
    NameEnds words ((groupsCode groups).toList ++ following) := by
  rcases groups with _ | ⟨⟨slot, items⟩, groups⟩
  · simpa [groupsWritten, groupsCode] using ends
  · cases slot
    all_goals
      simp only [groupsCode, Slot.enclose, String.toList_append, List.append_assoc]
      exact nameEnds_cons.mpr ⟨by decide, fun _ => by decide⟩

theorem commaSeparated_singleton (item : String) : commaSeparated [item] = item :=
  String.intercalate_singleton

theorem commaSeparated_cons_cons (item second : String) (rest : List String) :
    commaSeparated (item :: second :: rest) = item ++ ", " ++ commaSeparated (second :: rest) :=
  String.intercalate_cons_of_ne_nil (by simp)

/-! ## Text that can stand anywhere -/

/-- A text is laid out as words wherever it stands. -/
structure Free (words : List Word) (text : List Char) : Prop where
  laid {more : List Word} {following : List Char} (rest : Laid more following) :
    Laid (words ++ more) (text ++ following)

theorem Free.nil : Free [] [] :=
  ⟨id⟩

theorem Free.word {word : Word} (lexical : word.Lexical)
    (plain : word.kind.parenthesized = word.kind)
    (ends : ∀ next, stops word.kind word.text.toList next = true) : Free [word] word.text.toList :=
  ⟨.word lexical plain fun next _ => ends next⟩

theorem Free.mark {kind : TokenKind} (isMark : kind.isMark = true)
    (plain : kind.parenthesized = kind) (ends : ∀ next, stops kind kind.label.toList next = true) :
    Free [.mark kind] kind.label.toList :=
  ⟨.mark isMark plain fun next _ => ends next⟩

theorem Free.append {words others : List Word} {text text' : List Char} (front : Free words text)
    (back : Free others text') : Free (words ++ others) (text ++ text') := by
  constructor
  intro more following rest
  rw [List.append_assoc, List.append_assoc]
  exact front.laid (back.laid rest)

/-! ## Text that can stand where an expression can -/

/-- A text is laid out as words wherever an expression can stand. -/
structure Printed (words : List Word) (text : List Char) : Prop where
  laid {more : List Word} {following : List Char} (closed : Closed following)
    (ends : NameEnds words following) (rest : Laid more following) :
    Laid (words ++ more) (text ++ following)
  starts {following : List Char} (closed : Closed following) : ∀ next ∈ (text ++ following).head?,
    next ≠ ':' ∧ (beginWithSymbol words = false → Piece.isOperatorCharacter next = false)

theorem Printed.nil : Printed [] [] where
  laid _ _ rest := rest
  starts closed _ first := ⟨(closed.stops first).2.2.1, fun _ => (closed.stops first).2.1⟩

/-- A text whose first character is neither a colon nor that of an operator. -/
theorem Printed.of_first {words : List Word} {first : Char} {text : List Char}
    (notColon : first ≠ ':') (notSymbol : Piece.isOperatorCharacter first = false)
    (laid : ∀ {more : List Word} {following : List Char}, NameEnds words following →
      Laid more following → Laid (words ++ more) (first :: text ++ following)) :
    Printed words (first :: text) where
  laid _ ends rest := laid ends rest
  starts _ next here := by
    obtain rfl : first = next := by simpa using here
    exact ⟨notColon, fun _ => notSymbol⟩

theorem Free.printed {words : List Word} {first : Char} {text : List Char}
    (free : Free words (first :: text))
    (notColon : first ≠ ':') (notSymbol : Piece.isOperatorCharacter first = false) :
    Printed words (first :: text) :=
  .of_first notColon notSymbol fun _ rest => free.laid rest

/-- A name, and what stands behind it. -/
theorem Printed.name {name : String} {words : List Word} {text : List Char}
    (lexical : (Word.exactly .name name).Lexical)
    (behind : ∀ {more : List Word} {following : List Char},
      NameEnds (.exactly .name name :: words) following →
      Laid more following →
      NameEnds [.exactly .name name] (text ++ following)
        ∧ Laid (words ++ more) (text ++ following)) :
    Printed (.exactly .name name :: words) (name.toList ++ text) := by
  rcases lexical.exists_first with ⟨first, rest, spelled, letter, _⟩
  have letter : first.isAlphanum = true := letter rfl
  have spelled : name.toList = first :: rest := spelled
  have laid {more : List Word} {following : List Char}
      (ends : NameEnds (.exactly .name name :: words) following) (later : Laid more following) :
      Laid (.exactly .name name :: words ++ more) (name.toList ++ text ++ following) := by
    rcases behind ends later with ⟨ends, later⟩
    rw [List.append_assoc]
    exact .name lexical ends later
  rw [spelled] at laid ⊢
  refine .of_first ?_ ?_ laid
  · rintro rfl
    cases letter
  · by_contra symbol
    simp [Piece.of_isOperatorCharacter (by simpa using symbol)] at letter

/-- A backslash, and what stands behind it. -/
theorem Printed.backslash {words : List Word} {text : List Char}
    (behind : ∀ {more : List Word} {following : List Char}, NameEnds words following →
      Laid more following → Laid (words ++ more) (text ++ following)) :
    Printed (.mark .backslash :: words) ("\\".toList ++ text) := by
  refine .of_first (by decide) (by decide) fun ends rest =>
    .mark rfl rfl (fun _ _ => rfl) (behind ?_ rest)
  exact @NameEnds.of_append [.mark .backslash] _ _ ends

/-- Two texts with other words between them. -/
theorem Printed.join {words between others : List Word} {text text' separator : List Char}
    {next : Char} (left : Printed words text) (right : Printed others text')
    (closes : next ∈ [' ', ',', ')', ']', '\x7d'])
    (apart : endInNot words = true → next ≠ ' ') (separates : Free between (next :: separator)) :
    Printed (words ++ (between ++ others)) (text ++ (next :: separator ++ text')) := by
  constructor
  · intro more following closed ends rest
    simp only [List.append_assoc]
    have closes : Closed (next :: separator ++ (text' ++ following)) := closed_cons.mpr closes
    refine left.laid closes (closes.nameEnds (by simpa using apart)) (separates.laid ?_)
    exact right.laid closed ends.of_append.of_append rest
  · intro following _ first here
    rw [List.append_assoc] at here
    exact (left.starts (closed_cons.mpr closes) first here).imp_right fun other begins =>
      other (beginWithSymbol_of_append begins)

/-- Two texts with other words and blanks between them. -/
theorem Printed.spaced {words between others : List Word} {text text' middle : List Char}
    (left : Printed words text) (right : Printed others text') (keeps : endInNot words = false)
    (laid : ∀ {more : List Word} {following : List Char}, Laid more following →
      Laid (between ++ more) (middle ++ ' ' :: following)) :
    Printed (words ++ (between ++ others)) (text ++ (' ' :: (middle ++ ' ' :: text'))) := by
  have separates : Free between (' ' :: (middle ++ [' '])) :=
    ⟨fun rest => by simpa using Laid.blank (laid rest)⟩
  simpa using left.join right (by decide) (by simp [keeps]) separates

/-- A list in brackets can stand anywhere. -/
theorem Printed.enclose {words : List Word} {text : List Char} {opening closing : Word}
    (printed : Printed words text) {bracket : Bracket} (list : bracket ≠ .squareColon)
    (opens : opening.kind = .opening bracket) (opener : opening.text = bracket.opener)
    (closes : closing.kind = .closing bracket) (closer : closing.text = bracket.closer) :
    Free (opening :: (words ++ [closing]))
      (bracket.opener.toList ++ (text ++ bracket.closer.toList)) := by
  have lexicalOpening : opening.Lexical := by
    rw [Word.Lexical, opens, opener]
    exact .mark rfl
  have lexicalClosing : closing.Lexical := by
    rw [Word.Lexical, closes, closer]
    exact .mark rfl
  constructor
  intro more following rest
  simp only [List.cons_append, List.append_assoc, List.nil_append]
  have closed : Closed (bracket.closer.toList ++ following) := by
    cases bracket with
    | squareColon => exact absurd rfl list
    | _ => exact closed_cons.mpr (by decide)
  have apart : (bracket.closer.toList ++ following).head? ≠ some ' ' := by
    cases bracket <;> simp [Bracket.closer]
  have last : Laid (closing :: more) (bracket.closer.toList ++ following) := by
    rw [← closer]
    refine .word lexicalClosing ?_ (fun _ _ => ?_) rest
    · rw [closes, TokenKind.parenthesized_closing list]
    · rw [closes]
      rfl
  rw [← opener]
  refine .word lexicalOpening ?_ (fun next first => ?_)
    (printed.laid closed (closed.nameEnds fun _ => apart) last)
  · rw [opens, TokenKind.parenthesized_opening list]
  · have colon := (printed.starts closed next first).1
    rw [opens]
    cases bracket <;> simp [stops, colon]

theorem Printed.listed {words : List Word} {text : List Char} (printed : Printed words text)
    (bracket : Bracket) (list : bracket ≠ .squareColon) :
    Free (.mark (.opening bracket) :: (words ++ [.mark (.closing bracket)]))
      (bracket.opener.toList ++ (text ++ bracket.closer.toList)) :=
  printed.enclose list rfl rfl rfl rfl

/-- A name between a colon and a brace. -/
theorem Free.named {name : String} {words : List Word} {text : List Char}
    (lexical : (Word.exactly .name name).Lexical) (free : Free words ('\x7b' :: text)) :
    Free (.mark .colon :: .exactly .name name :: words)
      (':' :: (name.toList ++ '\x7b' :: text)) := by
  constructor
  intro more following rest
  simp only [List.cons_append, List.append_assoc]
  have named :=
    Laid.name lexical (nameEnds_cons.mpr ⟨by decide, fun _ => by decide⟩) (free.laid rest)
  refine @Laid.mark .colon _ _ rfl rfl (fun next first => ?_) named
  rcases named.letter next first with rfl | letter
  · rfl
  · simp only [stops, Bool.and_eq_true, bne_iff_ne]
    constructor
    all_goals
      rintro rfl
      cases letter

/-- A bracket group can stand anywhere. -/
theorem Printed.slot {words : List Word} {content : String} (printed : Printed words content.toList)
    {slot : Slot} (lexical : ∀ word ∈ slot.opening, word.Lexical) :
    Free (slot.opening ++ (words ++ [slot.closing])) (slot.enclose content).toList := by
  have curly := printed.listed .curly nofun
  cases slot with
  | square =>
      simp only [Slot.enclose, String.toList_append, List.append_assoc]
      exact printed.listed .square nofun
  | paren =>
      simp only [Slot.enclose, String.toList_append, List.append_assoc]
      exact printed.listed .paren nofun
  | curly =>
      simp only [Slot.enclose, String.toList_append, List.append_assoc]
      exact curly
  | sub =>
      simp only [Slot.enclose, String.toList_append, List.append_assoc]
      exact (@Free.mark .underscore rfl rfl fun _ => rfl).append curly
  | sup =>
      simp only [Slot.enclose, String.toList_append, List.append_assoc]
      exact (@Free.mark .caret rfl rfl fun _ => rfl).append curly
  | named name =>
      simp only [Slot.enclose, String.toList_append, List.append_assoc]
      exact .named (lexical _ (.tail _ (.head _))) curly

/-! ## Expressions -/

theorem operator_starts {operator : Operator}
    (lexical : ∀ word ∈ operatorWritten operator, word.Lexical)
    {words : List Word} (following : List Char) :
    ∀ next ∈ ((operatorCode operator).toList ++ following).head?,
      next ≠ ':' ∧ (beginWithSymbol (operatorWritten operator ++ words) = false
        → Piece.isOperatorCharacter next = false) := by
  intro next first
  cases operator with
  | symbol text _ =>
      rcases (lexical _ (.head _)).exists_first with ⟨symbol, rest, spelled, _, isSymbol⟩
      have isSymbol : Piece.isOperatorCharacter symbol = true := isSymbol rfl
      have spelled : text.toList = symbol :: rest := spelled
      obtain rfl : symbol = next := by simpa [operatorCode, spelled] using first
      refine ⟨?_, fun begins => by cases begins⟩
      rintro rfl
      cases isSymbol
  | command names groups _ =>
      obtain rfl : '\\' = next := by simpa [operatorCode] using first
      exact ⟨by decide, fun _ => by decide⟩

mutual

theorem Expr.printed :
    ∀ expr : Expr, expr.printable = true → (∀ word ∈ expr.written, word.Lexical) →
    Printed expr.written expr.code.toList
  | .name name _, _, lexical => by
      have printed := @Printed.name name [] [] (lexical _ (.head _)) fun ends rest => ⟨ends, rest⟩
      simpa [Expr.written, Expr.code] using printed
  | .variadic name _, _, lexical => by
      have dots := @Free.mark .ellipsis rfl rfl fun _ => rfl
      simp only [Expr.written, Expr.code, String.toList_append]
      refine .name (lexical _ (.head _)) fun _ rest => ⟨?_, dots.laid rest⟩
      exact nameEnds_cons.mpr ⟨by decide, fun _ => by decide⟩
  | .text text _, _, lexical => by
      have free := Free.word (lexical _ (.head _)) rfl fun _ => rfl
      simp only [Word.text, String.toList_append, List.append_assoc] at free
      simp only [Expr.written, Expr.code, String.toList_append, List.append_assoc]
      exact free.printed (by decide) (by decide)
  | .empty _, _, _ => .nil
  | .command names groups _, printable, lexical => by
      simp only [Expr.written, List.forall_mem_cons, List.forall_mem_append] at lexical
      have free := groups_free groups printable lexical.2.2
      simp only [Expr.written, Expr.code, String.toList_append, List.append_assoc]
      refine .backslash fun ends rest => ?_
      rw [List.append_assoc, List.append_assoc]
      exact laid_dotted lexical.2.1 ends.groups (free.laid rest)
  | .call true name groups _, printable, lexical => by
      simp only [Expr.written, if_true, List.forall_mem_cons, List.forall_mem_append] at lexical
      have free := groups_free groups printable lexical.2.2
      simp only [Expr.written, Expr.code, if_true, String.toList_append, List.append_assoc,
        List.cons_append, List.nil_append]
      refine .backslash fun ends rest => ?_
      rw [List.append_assoc]
      exact .name lexical.2.1 (@NameEnds.groups [_] _ _ ends) (free.laid rest)
  | .call false name groups _, printable, lexical => by
      simp only [Expr.written, Bool.false_eq_true, if_false, List.nil_append,
        List.forall_mem_cons] at lexical ⊢
      have free := groups_free groups printable lexical.2
      simp only [Expr.code, Bool.false_eq_true, if_false, String.empty_append, String.toList_append]
      exact .name lexical.1 fun ends rest => ⟨.groups ends, free.laid rest⟩
  | .function name items _, printable, lexical => by
      simp only [Expr.written, List.forall_mem_cons, List.forall_mem_append] at lexical
      have free := (list_printed items printable lexical.2.2.1).listed .paren nofun
      simp only [Expr.written, Expr.code, String.toList_append, List.append_assoc]
      refine .name lexical.1 fun _ rest => ⟨?_, free.laid rest⟩
      exact nameEnds_cons.mpr ⟨by decide, fun _ => by decide⟩
  | .tuple items _, printable, lexical => by
      simp only [Expr.written, List.forall_mem_cons, List.forall_mem_append] at lexical
      have free := (list_printed items printable lexical.2.1).listed .paren nofun
      simp only [Expr.written, Expr.code, String.toList_append, List.append_assoc]
      exact free.printed (by decide) (by decide)
  | .set items _, printable, lexical => by
      simp only [Expr.written, List.forall_mem_cons, List.forall_mem_append] at lexical
      have free := (list_printed items printable lexical.2.1).listed .curly nofun
      simp only [Expr.written, Expr.code, String.toList_append, List.append_assoc]
      exact free.printed (by decide) (by decide)
  | .grouped inner _, printable, lexical => by
      simp only [Expr.printable, Bool.and_eq_true] at printable
      simp only [Expr.written, List.forall_mem_cons, List.forall_mem_append] at lexical
      have printed := inner.printed printable.1 lexical.2.1
      have free := @Printed.enclose _ _ .groupOpen .groupClose printed .paren nofun rfl rfl rfl rfl
      simp only [Expr.written, Expr.code, String.toList_append, List.append_assoc]
      exact free.printed (by decide) (by decide)
  | .operation operator left right _, printable, lexical => by
      simp only [Expr.printable, Bool.and_eq_true, Bool.not_eq_true'] at printable
      simp only [Expr.written, List.forall_mem_append] at lexical
      rcases printable with ⟨⟨⟨operatorPrints, leftPrints⟩, rightPrints⟩, keeps⟩
      have printed := left.printed leftPrints lexical.1
      have printed' := right.printed rightPrints lexical.2.2
      have spaced := printed.spaced printed' keeps fun rest =>
        operator_laid operator operatorPrints lexical.2.1 (by rintro next ⟨⟩; decide) (.blank rest)
      simpa [Expr.written, Expr.code] using spaced
  | .prefixed operator operand _, printable, lexical => by
      simp only [Expr.printable, Bool.and_eq_true, Bool.not_eq_true'] at printable
      simp only [Expr.written, List.forall_mem_append] at lexical
      rcases printable with ⟨⟨operatorPrints, operandPrints⟩, apart⟩
      have printed := operand.printed operandPrints lexical.2
      simp only [Expr.written, Expr.code, String.toList_append]
      constructor
      · intro more following closed ends rest
        simp only [List.append_assoc]
        refine operator_laid operator operatorPrints lexical.1 ?_
          (printed.laid closed ends.of_append rest)
        -- The operand does not begin with a symbol that would run together with the operator.
        exact fun next first => (printed.starts closed next first).2 apart
      · intro following _ next first
        rw [List.append_assoc] at first
        exact operator_starts lexical.1 _ next first
  | .relation kind left right _, printable, lexical => by
      simp only [Expr.printable, Bool.and_eq_true, Bool.not_eq_true'] at printable
      simp only [Expr.written, List.forall_mem_append, List.forall_mem_cons] at lexical
      rcases printable with ⟨⟨leftPrints, rightPrints⟩, keeps⟩
      have printed := list_printed left leftPrints lexical.1
      have printed' := list_printed right rightPrints lexical.2.2
      have spaced := @Printed.spaced _ [.related kind] _ _ _ kind.text.toList printed printed' keeps
        fun rest =>
          @Laid.word (.related kind) _ _ lexical.2.1 rfl (by rintro next ⟨⟩; rfl) (.blank rest)
      simpa [Expr.written, Expr.code] using spaced
  | .assignment left right _, printable, lexical => by
      simp only [Expr.printable, Bool.and_eq_true, Bool.not_eq_true'] at printable
      simp only [Expr.written, List.forall_mem_append, List.forall_mem_cons] at lexical
      rcases printable with ⟨⟨leftPrints, rightPrints⟩, keeps⟩
      have printed := left.printed leftPrints lexical.1
      have printed' := right.printed rightPrints lexical.2.2
      have spaced := @Printed.spaced _ [.mark .assign] _ _ _ [':', '='] printed printed' keeps
        fun rest => @Laid.mark .assign _ _ rfl rfl (fun _ _ => rfl) (.blank rest)
      simpa [Expr.written, Expr.code] using spaced

theorem operator_laid : ∀ operator : Operator, operatorPrintable operator = true →
    (∀ word ∈ operatorWritten operator, word.Lexical) →
      ∀ {more : List Word} {following : List Char},
    (∀ next ∈ following.head?, Piece.isOperatorCharacter next = false) → Laid more following →
    Laid (operatorWritten operator ++ more) ((operatorCode operator).toList ++ following)
  | .symbol text _, _, lexical, _, _, ends, rest => by
      refine @Laid.word (.exactly .operator text) _ _ (lexical _ (.head _)) rfl
        (fun next first => ?_) rest
      simpa [stops, Word.kind] using ends next first
  | .command names groups _, printable, lexical, _, _, ends, rest => by
      simp only [operatorWritten, List.forall_mem_cons, List.forall_mem_append] at lexical
      have free := groups_free groups printable lexical.2.2.1
      simp only [operatorCode, operatorWritten, String.toList_append, List.append_assoc,
        List.cons_append]
      have slash := @Laid.word (.exactly .operator "/") _ _ lexical.2.2.2.1 rfl
        (fun next first => by simpa [stops, Word.kind] using ends next first) rest
      refine .mark rfl rfl (fun _ _ => rfl)
        (laid_dotted lexical.2.1 (.groups ?_) (free.laid slash))
      exact nameEnds_cons.mpr ⟨by decide, fun _ => by decide⟩

theorem groups_free : ∀ groups : List ArgGroup, groupsPrintable groups = true →
    (∀ word ∈ groupsWritten groups, word.Lexical) →
    Free (groupsWritten groups) (groupsCode groups).toList
  | [], _, _ => .nil
  | .mk slot items :: groups, printable, lexical => by
      rw [groupsPrintable, Bool.and_eq_true] at printable
      simp only [groupsWritten, List.forall_mem_append, List.forall_mem_cons] at lexical
      have printed := list_printed items printable.1 lexical.2.1
      have free := (printed.slot lexical.1).append (groups_free groups printable.2 lexical.2.2.2)
      simpa [groupsCode, groupsWritten] using free

theorem list_printed : ∀ items : List Expr, allPrintable items = true →
    (∀ word ∈ listWritten items, word.Lexical) →
    Printed (listWritten items) (commaSeparated (codes items)).toList
  | [], _, _ => .nil
  | [item], printable, lexical => by
      rw [allPrintable, allPrintable, Bool.and_true] at printable
      rw [listWritten_singleton] at lexical ⊢
      rw [codes, codes, commaSeparated_singleton]
      exact item.printed printable lexical
  | item :: second :: rest, printable, lexical => by
      have words : listWritten (item :: second :: rest)
          = item.written ++ ([.mark .comma] ++ listWritten (second :: rest)) := by
        simp [listWritten, moreWritten]
      rw [allPrintable, Bool.and_eq_true] at printable
      rw [words, List.forall_mem_append, List.forall_mem_append] at lexical
      have printed := item.printed printable.1 lexical.1
      have printed' := list_printed (second :: rest) printable.2 lexical.2.2
      have between : Free [.mark .comma] [',', ' '] :=
        ⟨fun rest => @Laid.mark .comma _ _ rfl rfl (fun _ _ => rfl) (.blank rest)⟩
      rw [words, codes, codes, commaSeparated_cons_cons, ← codes, String.append_assoc,
        String.toList_append, String.toList_append]
      exact printed.join printed' (by decide) (fun _ => by decide) between

end

end Treatise.Statement
