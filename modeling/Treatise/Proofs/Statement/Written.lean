import Mathlib.Data.List.Forall2
import Treatise.Proofs.Statement.Levels
import Treatise.Proofs.Statement.Lexing

/-!
# Statements written out as tokens

The tree of a statement that is read without a problem holds all its tokens. Written out in order,
its words fit the tokens one by one: none is dropped, doubled or moved. Only two things are not
kept, the blanks within `not in` and which of its two kinds of bracket a group has been written in.

The terms that an expression is read from stand for tokens, and those of a bracket group are
described by what has been read inside it. So the words are compared with the tokens along the
grammar, one level at a time.
-/

namespace Treatise.Statement

/-- What a token of a statement is written for. -/
inductive Word where
  | exactly (kind : TokenKind) (text : String)
  | related (kind : RelationKind)
  | groupOpen
  | groupClose
  deriving DecidableEq, Repr

namespace Word

/-- The word of a mark, all tokens of which have the same text. -/
def mark (kind : TokenKind) : Word :=
  .exactly kind kind.label

/-- The tokens that a word fits. The words of a relation may be apart by any blanks, and a group is
written in either kind of bracket. -/
def Fits : Word → Token → Prop
  | exactly kind text, token => token.kind = kind ∧ token.text = text
  | related kind, token => token.kind = .relation kind
  | groupOpen, token => token.kind = .opening .paren ∨ token.kind = .opening .squareColon
  | groupClose, token => token.kind = .closing .paren ∨ token.kind = .closing .squareColon

theorem fits_mark {kind : TokenKind} {token : Token}
    (lexical : Lexical token.kind token.text.toList) (same : token.kind = kind)
    (isMark : kind.isMark = true) : (mark kind).Fits token :=
  ⟨same, same ▸ lexical.eq_label (same ▸ isMark)⟩

end Word

/-! ## The words of an expression -/

/-- Names with dots between them. -/
def dottedWords : List String → List Word
  | [] => []
  | [name] => [.exactly .name name]
  | name :: rest => .exactly .name name :: .mark .dot :: dottedWords rest

/-- What stands before the content of a bracket group. -/
def Slot.opening : Slot → List Word
  | square => [.mark (.opening .square)]
  | sub => [.mark .underscore, .mark (.opening .curly)]
  | sup => [.mark .caret, .mark (.opening .curly)]
  | curly => [.mark (.opening .curly)]
  | named name => [.mark .colon, .exactly .name name, .mark (.opening .curly)]
  | paren => [.mark (.opening .paren)]

/-- What stands after the content of a bracket group. -/
def Slot.closing : Slot → Word
  | square => .mark (.closing .square)
  | paren => .mark (.closing .paren)
  | sub | sup | curly | named _ => .mark (.closing .curly)

mutual

/-- The words of an expression in the order in which they are written. -/
def Expr.written : Expr → List Word
  | .name name _ => [.exactly .name name]
  | .variadic name _ => [.exactly .name name, .mark .ellipsis]
  | .command names groups _ => .mark .backslash :: (dottedWords names ++ groupsWritten groups)
  | .function name params _ =>
    .exactly .name name :: .mark (.opening .paren)
      :: (listWritten params ++ [.mark (.closing .paren)])
  | .call isCommand name groups _ =>
    (if isCommand then [.mark .backslash] else []) ++ .exactly .name name :: groupsWritten groups
  | .tuple items _ => .mark (.opening .paren) :: (listWritten items ++ [.mark (.closing .paren)])
  | .set items _ => .mark (.opening .curly) :: (listWritten items ++ [.mark (.closing .curly)])
  | .grouped inner _ => .groupOpen :: (inner.written ++ [.groupClose])
  | .operation operator left right _ => left.written ++ (operatorWritten operator ++ right.written)
  | .prefixed operator operand _ => operatorWritten operator ++ operand.written
  | .relation kind left right _ => listWritten left ++ .related kind :: listWritten right
  | .assignment left right _ => left.written ++ .mark .assign :: right.written
  | .text text _ => [.exactly .text ("\"" ++ text ++ "\"")]
  | .empty _ => []

/-- The words of an operator. -/
def operatorWritten : Operator → List Word
  | .symbol text _ => [.exactly .operator text]
  | .command names groups _ =>
    .mark .backslash :: (dottedWords names ++ (groupsWritten groups ++ [.exactly .operator "/"]))

/-- The words of bracket groups. -/
def groupsWritten : List ArgGroup → List Word
  | [] => []
  | .mk slot items :: rest =>
      slot.opening ++ (listWritten items ++ slot.closing :: groupsWritten rest)

/-- The words of a list of expressions, with commas between them. -/
def listWritten : List Expr → List Word
  | [] => []
  | item :: rest => item.written ++ moreWritten rest

/-- The words of further items of a list, each after a comma. -/
def moreWritten : List Expr → List Word
  | [] => []
  | item :: rest => .mark .comma :: (item.written ++ moreWritten rest)

end

@[simp]
theorem listWritten_singleton (item : Expr) : listWritten [item] = item.written := by
  simp [listWritten, moreWritten]

@[simp]
theorem groupsWritten_append (groups others : List ArgGroup) :
    groupsWritten (groups ++ others) = groupsWritten groups ++ groupsWritten others := by
  induction groups with
  | nil => rfl
  | cons group rest ih =>
      rcases group with ⟨slot, items⟩
      simp [groupsWritten, ih]

/-! ## Operators and operands -/

/-- The words of an operator or an operand. -/
def Factor.written : Factor → List Word
  | .operand expr => expr.written
  | .operator symbol => operatorWritten symbol

theorem written_attach (tree : Expr) (operator : Operator) (operand : Expr) :
    (tree.attach operator operand).written
      = tree.written ++ (operatorWritten operator ++ operand.written) := by
  fun_induction Expr.attach tree operator operand with
  | case1 outer left right location looser ih => simp [Expr.written, ih]
  | case2 outer left right location tighter => simp [Expr.written]
  | case3 tree other => simp [Expr.written]

theorem written_prefixedBy (operators : List Operator) (operand : Expr) :
    (prefixedBy operators operand).written
      = operators.flatMap operatorWritten ++ operand.written := by
  induction operators with
  | nil => rfl
  | cons operator rest ih =>
      rw [prefixedBy, List.foldr_cons] at *
      simp [Expr.written, ih, List.append_assoc]

/-- Operators and operands are put together in the order they are found in, and none is left out. -/
theorem written_of_readFactors {location : Location} {tree : Option Expr} {pending : List Operator}
    {found : List Factor} {expr : Expr}
    (clean : readFactors location tree pending found = ⟨expr, []⟩) :
    expr.written = (tree.map Expr.written).getD [] ++ (pending.flatMap operatorWritten
      ++ found.flatMap Factor.written) := by
  fun_induction readFactors location tree pending found with
  | case1 tree pending operator rest ih => simp [ih clean, Factor.written]
  | case2 => exact absurd clean Review.report_bind_ne_clean
  | case3 operand rest tree operator operators ih =>
      simp [ih clean, Factor.written, written_attach, written_prefixedBy]
  | case4 operand rest operators ih => simp [ih clean, Factor.written, written_prefixedBy]
  | case5 tree =>
      cases Review.pure_eq_clean_iff.mp clean
      simp
  | case6 | case7 => exact absurd clean missing_bind_ne_clean

/-! ## Terms and their tokens -/

/-- The tokens in front of the terms they have been read as. Where a group is read, its words
fit. -/
inductive Holds : List Term → List Token → Prop
  | nil : Holds [] []
  | leaf {token : Token} {terms : List Term} {tokens : List Token}
      (lexical : Lexical token.kind token.text.toList) (more : Holds terms tokens) :
      Holds (.leaf token :: terms) (token :: tokens)
  | group {bracket : Bracket} {opener closer : Token} {listed : Review Fault (List Expr)}
      {whole : Review Fault Expr} {terms : List Term} {inner tokens : List Token}
      (opens : Word.Fits (.mark (.opening bracket)) opener)
      (closes : Word.Fits (.mark (.closing bracket)) closer)
      (items : ∀ items, listed = ⟨items, []⟩ → List.Forall₂ Word.Fits (listWritten items) inner)
      (expr : ∀ expr, whole = ⟨expr, []⟩ → List.Forall₂ Word.Fits expr.written inner)
      (more : Holds terms tokens) :
      Holds (.group bracket opener listed whole :: terms) (opener :: inner ++ closer :: tokens)

variable {terms others : List Term}

theorem holds_nil_iff {tokens : List Token} : Holds [] tokens ↔ tokens = [] := by
  constructor
  · rintro ⟨⟩
    rfl
  · rintro rfl
    exact .nil

theorem Holds.of_append {tokens : List Token} (holds : Holds (terms ++ others) tokens) :
    ∃ front back, tokens = front ++ back ∧ Holds terms front ∧ Holds others back := by
  induction terms generalizing tokens with
  | nil => exact ⟨[], tokens, rfl, .nil, holds⟩
  | cons term terms ih =>
      cases holds with
      | leaf lexical more =>
          rcases ih more with ⟨front, back, rfl, holds, rest⟩
          exact ⟨_, back, rfl, .leaf lexical holds, rest⟩
      | group opens closes items expr more =>
          rcases ih more with ⟨front, back, rfl, holds, rest⟩
          exact ⟨_, back, by simp, .group opens closes items expr holds, rest⟩

/-- The words fit the tokens of the terms. -/
def WrittenAs (words : List Word) (terms : List Term) : Prop :=
  ∀ tokens, Holds terms tokens → List.Forall₂ Word.Fits words tokens

theorem WrittenAs.append {words following : List Word} (written : WrittenAs words terms)
    (after : WrittenAs following others) : WrittenAs (words ++ following) (terms ++ others) := by
  intro tokens holds
  rcases holds.of_append with ⟨front, back, rfl, holds, rest⟩
  exact List.rel_append (written front holds) (after back rest)

theorem writtenAs_nil : WrittenAs [] [] := by
  intro tokens holds
  rw [holds_nil_iff.mp holds]
  exact .nil

theorem WrittenAs.leaf {words : List Word} {word : Word} {token : Token}
    (fits : Lexical token.kind token.text.toList → word.Fits token)
    (written : WrittenAs words terms) :
    WrittenAs (word :: words) (.leaf token :: terms) := by
  intro tokens holds
  cases holds with
  | leaf lexical more => exact .cons (fits lexical) (written _ more)

theorem WrittenAs.mark {words : List Word} {kind : TokenKind} {token : Token}
    (same : token.kind = kind) (isMark : kind.isMark = true) (written : WrittenAs words terms) :
    WrittenAs (.mark kind :: words) (.leaf token :: terms) :=
  .leaf (fun lexical => Word.fits_mark lexical same isMark) written

theorem WrittenAs.name {words : List Word} {token : Token}
    (isName : token.kind = .name) (written : WrittenAs words terms) :
    WrittenAs (.exactly .name token.text :: words) (.leaf token :: terms) :=
  .leaf (fun _ => ⟨isName, rfl⟩) written

theorem WrittenAs.group {words : List Word} {bracket : Bracket} {opener : Token} {items : List Expr}
    {whole : Review Fault Expr} (written : WrittenAs words terms) :
    WrittenAs (.mark (.opening bracket) :: (listWritten items ++ .mark (.closing bracket) :: words))
      (.group bracket opener ⟨items, []⟩ whole :: terms) := by
  intro tokens holds
  cases holds with
  | group opens closes inside _ more =>
      exact .cons opens (List.rel_append (inside _ rfl) (.cons closes (written _ more)))

theorem DottedSpelled.written {name : Token} {names : List String} (isName : name.kind = .name)
    (spelled : DottedSpelled names terms) :
    WrittenAs (dottedWords (name.text :: names)) (.leaf name :: terms) := by
  induction spelled generalizing name with
  | none => exact .name isName writtenAs_nil
  | more isDot isNext _ ih => exact .name isName (.mark isDot rfl (ih isNext))

theorem SlotSpelled.written {slot : Slot} {items : List Expr}
    (spelled : SlotSpelled slot items terms) :
    WrittenAs (slot.opening ++ (listWritten items ++ [slot.closing])) terms := by
  cases spelled with
  | square | curly | paren => exact .group writtenAs_nil
  | sub isUnderscore => exact .mark isUnderscore rfl (.group writtenAs_nil)
  | sup isCaret => exact .mark isCaret rfl (.group writtenAs_nil)
  | named isColon isName => exact .mark isColon rfl (.name isName (.group writtenAs_nil))

theorem SlotsSpelled.written {slots : List Slot} {groups : List ArgGroup}
    (spelled : SlotsSpelled slots groups terms) : WrittenAs (groupsWritten groups) terms := by
  induction spelled with
  | none => exact writtenAs_nil
  | skip _ ih => exact ih
  | take spelled _ ih => simpa [groupsWritten] using spelled.written.append ih

theorem NamedSpelled.written {groups : List ArgGroup} (spelled : NamedSpelled groups terms) :
    WrittenAs (groupsWritten groups) terms := by
  induction spelled with
  | none => exact writtenAs_nil
  | more spelled _ ih => simpa [groupsWritten] using spelled.written.append ih

theorem CommandSpelled.written {names : List String} {groups : List ArgGroup}
    (spelled : CommandSpelled names groups terms) :
    WrittenAs (dottedWords names ++ groupsWritten groups) terms := by
  cases spelled with
  | mk isName spelledNames spelledFront spelledNamed spelledBack =>
      have named := spelledNames.written isName
      simpa using named.append
        (spelledFront.written.append (spelledNamed.written.append spelledBack.written))

theorem OperatorSpelled.written {operator : Operator} (spelled : OperatorSpelled operator terms) :
    WrittenAs (operatorWritten operator) terms := by
  cases spelled with
  | symbol isOperator => exact .leaf (fun _ => ⟨isOperator, rfl⟩) writtenAs_nil
  | @command _ slash _ _ _ isBackslash spelled isOperator isSlash =>
      have closed : WrittenAs [.exactly .operator "/"] [.leaf slash] :=
        .leaf (fun _ => ⟨isOperator, isSlash⟩) writtenAs_nil
      simpa [operatorWritten] using (spelled.written.append closed).mark isBackslash rfl

theorem written_applied (word : String) (params : List Expr) (location : Location) :
    (applied word params location).written
      = .exactly .name word :: .mark (.opening .paren)
        :: (listWritten params ++ [.mark (.closing .paren)]) := by
  unfold applied
  dsimp only
  split
  · rw [Expr.written]
  · simp [Expr.written, groupsWritten, Slot.opening, Slot.closing]

theorem written_commandExpr (names : List String) (groups : List ArgGroup) (location : Location) :
    (commandExpr names groups location).written
      = .mark .backslash :: (dottedWords names ++ groupsWritten groups) := by
  unfold commandExpr
  split
  · simp [Expr.written, dottedWords]
  · rw [Expr.written]

theorem OperandSpelled.written {operand : Expr} (spelled : OperandSpelled operand terms) :
    WrittenAs operand.written terms := by
  cases spelled with
  | name isName => exact .name isName writtenAs_nil
  | variadic isName isEllipsis => exact .name isName (.mark isEllipsis rfl writtenAs_nil)
  | subscripted isName spelled =>
      simpa [Expr.written, groupsWritten] using spelled.written.name isName
  | subscriptedApplied isName spelled spelledParams =>
      simpa [Expr.written, groupsWritten] using
        (spelled.written.append spelledParams.written).name isName
  | applied isName spelled =>
      rw [written_applied]
      exact spelled.written.name isName
  | text isText =>
      exact .leaf (fun lexical => ⟨isText, (isText ▸ lexical).eq_quoted⟩) writtenAs_nil
  | grouped =>
      intro tokens holds
      cases holds with
      | group opens closes inside _ more =>
          rw [holds_nil_iff.mp more]
          exact .cons (.inl opens.1)
            (List.rel_append (by simpa using inside _ rfl) (.cons (.inl closes.1) .nil))
  | tuple _ => exact .group writtenAs_nil
  | set => exact .group writtenAs_nil
  | bracketed =>
      intro tokens holds
      cases holds with
      | group opens closes _ inside more =>
          rw [holds_nil_iff.mp more]
          exact .cons (.inr opens.1) (List.rel_append (inside _ rfl) (.cons (.inr closes.1) .nil))

theorem FactorsSpelled.written {found : List Factor} (spelled : FactorsSpelled found terms) :
    WrittenAs (found.flatMap Factor.written) terms := by
  induction spelled with
  | none => exact writtenAs_nil
  | operator spelled _ ih => exact spelled.written.append ih
  | operand spelled _ ih => exact spelled.written.append ih
  | command isBackslash spelled _ _ ih =>
      simpa [Factor.written, written_commandExpr]
        using (spelled.written.append ih).mark isBackslash rfl

theorem OperationSpelled.written {expr : Expr} (spelled : OperationSpelled expr terms) :
    WrittenAs expr.written terms := by
  rcases spelled with ⟨found, spelled, together⟩
  simpa [written_of_readFactors (together .start)] using spelled.written

/-! ## Relations and assignments -/

section Levels

variable {next : Expr → List Term → Prop}
variable (inner : ∀ {expr terms}, next expr terms → WrittenAs expr.written terms)

include inner

theorem SegmentsSpelled.written {items : List Expr} (spelled : SegmentsSpelled next items terms) :
    WrittenAs (listWritten items) terms := by
  induction spelled with
  | one spelled _ => simpa using inner spelled
  | more spelled _ isComma more ih =>
      have following := (inner spelled).append (ih.mark isComma rfl)
      cases more <;> simpa [listWritten, moreWritten] using following

theorem RelationSpelled.written {kinds : List RelationKind} {expr : Expr}
    (spelled : RelationSpelled next kinds expr terms) : WrittenAs expr.written terms := by
  induction spelled with
  | one spelledLeft isRelation _ spelledRight =>
      exact (spelledLeft.written inner).append
        (.leaf (fun _ => isRelation) (spelledRight.written inner))
  | @more kind relation _ right _ _ others spelledLeft isRelation _ _ ih =>
      have following : WrittenAs (.related kind :: right.written) (.leaf relation :: others) :=
        .leaf (fun _ => isRelation) ih
      simpa [Expr.written] using (spelledLeft.written inner).append following

theorem RelatedSpelled.written {kinds : List RelationKind} {expr : Expr}
    (spelled : RelatedSpelled next kinds expr terms) : WrittenAs expr.written terms := by
  rcases spelled with spelled | spelled
  · exact inner spelled
  · exact RelationSpelled.written inner spelled

theorem AssignmentSpelled.written {expr : Expr} (spelled : AssignmentSpelled next expr terms) :
    WrittenAs expr.written terms := by
  induction spelled with
  | one spelled => exact inner spelled
  | more spelled isAssign _ ih => exact (inner spelled).append (ih.mark isAssign rfl)

end Levels

theorem ExprSpelled.written {expr : Expr} (spelled : ExprSpelled expr terms) :
    WrittenAs expr.written terms :=
  AssignmentSpelled.written
    (RelatedSpelled.written
      (RelatedSpelled.written (RelatedSpelled.written OperationSpelled.written)))
    spelled

theorem ArgumentsSpelled.written {items : List Expr} (spelled : ArgumentsSpelled items terms) :
    WrittenAs (listWritten items) terms := by
  rcases spelled with ⟨rfl, rfl⟩ | spelled
  · exact writtenAs_nil
  · exact spelled.written ExprSpelled.written

/-! ## Statements -/

/-- The content of every bracket group that is read is written as its words. -/
theorem TreesSpelled.holds {trees : List TokenTree} {tokens : List Token}
    (spelled : TreesSpelled trees tokens)
    (lexical : ∀ token ∈ tokens, Lexical token.kind token.text.toList) :
    Holds (termsOf trees) tokens := by
  induction spelled with
  | nil => exact .nil
  | leaf _ _ _ ih =>
      rw [List.forall_mem_cons] at lexical
      exact .leaf lexical.1 (ih lexical.2)
  | group opens _ closes _ ih ih' =>
      simp only [List.cons_append, List.forall_mem_cons, List.forall_mem_append] at lexical
      rcases lexical with ⟨opener, inside, closer, after⟩
      refine .group (Word.fits_mark opener opens rfl) (Word.fits_mark closer closes rfl) ?_ ?_
        (ih' after)
      · intro items clean
        have spelled : ArgumentsSpelled _ _ := expr_exact.arguments_clean_iff.mp clean
        exact spelled.written _ (ih inside)
      · exact fun expr clean => (expr_exact.clean_iff.mp clean).written _ (ih inside)

/-- A statement without problems loses none of its tokens: its tree is written with all of them, in
order. -/
theorem written_fits_tokens {text : String} (clean : (read text).problems = []) :
    List.Forall₂ Word.Fits (read text).value.written (tokens text).value := by
  rcases read_clean_iff.mp (Review.eq_clean_iff.mpr ⟨rfl, clean⟩) with
    ⟨spelled, trees, lexed, grouped, whole⟩
  have lexical := @lexical_of_mem_tokensFrom .start text.toList
  rw [tokens] at lexed ⊢
  rw [lexed] at lexical ⊢
  exact whole.written _ (grouped.holds lexical)

theorem membership_fits_tokens :
    (read "\\f.g[a](z...) not  in [: -u := \"t\" :], \\op/ (p)").problems = []
      ∧ List.Forall₂ Word.Fits
        (read "\\f.g[a](z...) not  in [: -u := \"t\" :], \\op/ (p)").value.written
        (tokens "\\f.g[a](z...) not  in [: -u := \"t\" :], \\op/ (p)").value := by
  have clean : (read "\\f.g[a](z...) not  in [: -u := \"t\" :], \\op/ (p)").problems = [] := by
    decide +kernel
  exact ⟨clean, written_fits_tokens clean⟩

end Treatise.Statement
