import Treatise.Proofs.Layout.Scanning

/-!
# Written tokens

The tokens of a text without faults are written: each of them is a marker, or the token of a lexeme
that can be cut off. The text of such a token, put on another page, yields the same token again.
What a text yields on a page is put together from what its parts yield, each in front of what
follows it.
-/

namespace Treatise.Layout

/-- The markers of the layout have no text of their own. -/
def TokenKind.isMarker : TokenKind → Bool
  | .blockOpen | .blockClose | .lineBreak => true
  | _ => false

/-- A token that a lexeme without a fault becomes. -/
def Token.Written (token : Token) : Prop :=
  ∃ (lexeme : Lexeme) (following : List Char), lexeme.Reads following ∧ lexeme.fault? = none
    ∧ lexeme.kind.token? = some token.kind ∧ lexeme.tokenText = token.text

/-! ## The tokens of a text -/

namespace Reader

theorem mem_settle {reader : Reader} {level : Nat} {token : Token}
    (member : token ∈ (reader.settle level).1) : token.kind.isMarker = true := by
  unfold settle openBlock at member
  split at member
  · simp only [List.mem_cons, List.mem_replicate] at member
    rcases member with rfl | ⟨-, rfl⟩ <;> rfl
  · simp at member

theorem mem_content {reader : Reader} {location : Location} {lexeme : Lexeme} {kind : TokenKind}
    {token : Token} (member : token ∈ (reader.content location lexeme kind).1) :
    token.kind.isMarker = true ∨ token.kind = kind ∧ token.text = lexeme.tokenText := by
  simp only [content, List.mem_append, List.mem_singleton] at member
  rcases member with marker | rfl
  · split at marker
    · simp at marker
    · exact .inl (mem_settle marker)
  · exact .inr ⟨rfl, rfl⟩

theorem mem_newline {reader : Reader} {location : Location} {token : Token}
    (member : token ∈ (reader.newline location).1) : token.kind.isMarker = true := by
  unfold newline at member
  split at member
  · simp at member
  · simp at member
  · simp only [List.mem_append] at member
    rcases member with marker | break_
    · exact mem_settle marker
    · split at break_
      · rcases List.mem_singleton.mp break_ with rfl
        rfl
      · simp at break_

theorem mem_step {reader : Reader} {location : Location} {lexeme : Lexeme} {token : Token}
    (member : token ∈ (reader.step location lexeme).1) :
    token.kind.isMarker = true
      ∨ lexeme.kind.token? = some token.kind ∧ lexeme.tokenText = token.text := by
  unfold step at member
  split at member
  · exact .inl (mem_newline member)
  · split at member <;> simp at member
  · split at member <;> simp at member
  · simp at member
  · simp at member
  · split at member
    · next content =>
      rcases mem_content member with marker | ⟨kind, text⟩
      · exact .inl marker
      · exact .inr ⟨content.trans (congrArg some kind.symm), text.symm⟩
    · simp at member

theorem mem_run {reader : Reader} {location : Location} {lexemes : List Lexeme} {token : Token}
    (member : token ∈ reader.run location lexemes) :
    token.kind.isMarker = true ∨ ∃ lexeme ∈ lexemes,
      lexeme.kind.token? = some token.kind ∧ lexeme.tokenText = token.text := by
  induction lexemes generalizing reader location with
  | nil =>
      simp only [run, finish, List.mem_append, List.mem_replicate] at member
      rcases member with marker | ⟨-, rfl⟩
      · exact .inl (mem_settle marker)
      · exact .inl rfl
  | cons lexeme rest ih =>
      simp only [run, List.mem_append] at member
      rcases member with here | later
      · exact (mem_step here).imp_right fun becomes => ⟨lexeme, List.mem_cons_self, becomes⟩
      · refine (ih later).imp_right ?_
        rintro ⟨other, inside, becomes⟩
        exact ⟨other, List.mem_cons_of_mem _ inside, becomes⟩

end Reader

theorem faultsFrom_eq_nil_iff {location : Location} {lexemes : List Lexeme} :
    faultsFrom location lexemes = [] ↔ ∀ lexeme ∈ lexemes, lexeme.fault? = none := by
  induction lexemes generalizing location with
  | nil => simp [faultsFrom]
  | cons lexeme rest ih =>
      cases fault : lexeme.fault? <;> simp [faultsFrom, fault, ih]

/-- In a text without faults every token is written, except for the markers. -/
theorem written_of_mem_read {text : String} (faultless : (read text).faults = []) {token : Token}
    (member : token ∈ (read text).tokens) (content : token.kind.isMarker = false) :
    token.Written := by
  rcases Reader.mem_run member with marker | ⟨lexeme, inside, becomes⟩
  · simp [content] at marker
  · rcases Lexeme.reads_of_mem_scan inside with ⟨following, reads⟩
    exact ⟨lexeme, following, reads, faultsFrom_eq_nil_iff.mp faultless lexeme inside, becomes⟩

/-! ## What a text yields -/

/-- A lexeme inside a line that is content or a space. -/
structure Lexeme.Inline (lexeme : Lexeme) : Prop where
  content : lexeme.kind = .space ∨ lexeme.kind.token?.isSome
  unowned : ∀ closed, lexeme.kind ≠ .literal .blockComment closed
  faultless : lexeme.fault? = none

/-- The token that a lexeme with content becomes, at no place. -/
def Lexeme.unplaced? (lexeme : Lexeme) : Option Token :=
  lexeme.kind.token?.map fun kind => ⟨kind, lexeme.tokenText, .nowhere⟩

/-- In front of what follows, a text is cut into lexemes that become the tokens. -/
def Yields (text following : List Char) (tokens : List Token) : Prop :=
  ∃ lexemes : List Lexeme, Lexeme.scan (text ++ following) = lexemes ++ Lexeme.scan following
    ∧ (∀ lexeme ∈ lexemes, lexeme.Inline) ∧ lexemes.filterMap Lexeme.unplaced? = tokens

namespace Yields

variable {first second following : List Char} {tokens others : List Token}

theorem nil : Yields [] following [] := ⟨[], rfl, by simp, rfl⟩

theorem append (left : Yields first (second ++ following) tokens)
    (right : Yields second following others) :
    Yields (first ++ second) following (tokens ++ others) := by
  rcases left with ⟨lexemes, cut, inline, rfl⟩
  rcases right with ⟨lexemes', cut', inline', rfl⟩
  refine ⟨lexemes ++ lexemes', ?_, ?_, List.filterMap_append⟩
  · rw [List.append_assoc, cut, cut', List.append_assoc]
  · exact List.forall_mem_append.mpr ⟨inline, inline'⟩

theorem of_reads {lexeme : Lexeme} (reads : lexeme.Reads following) (inline : lexeme.Inline) :
    Yields lexeme.text following lexeme.unplaced?.toList := by
  refine ⟨[lexeme], reads.scan, by simpa using inline, ?_⟩
  cases found : lexeme.unplaced? <;> simp [found]

/-- A single space before something else than a space. -/
theorem space (apart : following.head? ≠ some ' ') : Yields [' '] following [] := by
  have reads : (Lexeme.mk .space [' ']).Reads following := by
    refine ⟨' ', [], rfl, ?_⟩
    rcases following with _ | ⟨next, rest⟩
    · rfl
    · have notSpace : next ≠ ' ' := by simpa using apart
      simp [Lexeme.classify, notSpace]
  exact of_reads reads ⟨.inl rfl, by simp, rfl⟩

end Yields

/-! ## What written tokens yield -/

/-- A token at no place. -/
def Token.unplaced (token : Token) : Token := token.mapLocation fun _ => .nowhere

theorem Lexeme.tokenText_eq {lexeme : Lexeme} (faultless : lexeme.fault? = none)
    (unowned : ∀ closed, lexeme.kind ≠ .literal .blockComment closed) :
    lexeme.tokenText = String.ofList lexeme.text := by
  rcases lexeme with ⟨kind, text⟩
  cases kind with
  | literal literal closed =>
      cases closed with
      | false => simp [Lexeme.fault?] at faultless
      | true =>
          cases literal with
          | blockComment => exact absurd rfl (unowned true)
          | string | statement | id => simp [Lexeme.tokenText, Lexeme.ownsNewline]
  | newline | indent | space | lineComment | name _ | placeholder | operator | mark _
  | unrecognized => simp [Lexeme.tokenText, Lexeme.ownsNewline]

/-- A lexeme yields its token wherever it is cut off. -/
theorem Yields.of_lexeme {lexeme : Lexeme} {token : Token} {following : List Char}
    (reads : lexeme.Reads following) (faultless : lexeme.fault? = none)
    (unowned : ∀ closed, lexeme.kind ≠ .literal .blockComment closed)
    (kind : lexeme.kind.token? = some token.kind) (text : lexeme.tokenText = token.text) :
    Yields token.text.toList following [token.unplaced] := by
  have same : token.text.toList = lexeme.text := by
    rw [← text, Lexeme.tokenText_eq faultless unowned, String.toList_ofList]
  have becomes : lexeme.unplaced? = some token.unplaced := by
    simp [Lexeme.unplaced?, kind, text, Token.unplaced, Token.mapLocation]
  have whole := Yields.of_reads reads ⟨.inr (by simp [kind]), unowned, faultless⟩
  rwa [← same, becomes] at whole

theorem placeholder_of_classify {first : Char} {rest : List Char} {length : Nat}
    (found : Lexeme.classify first rest = (.placeholder, length)) : first = '?' ∧ length = 0 := by
  cases Lexeme.recognized_iff.mpr found with
  | placeholder => exact ⟨rfl, rfl⟩

/-- A written name yields itself if nothing continues it. -/
theorem Token.Written.yields_name {token : Token} (written : token.Written)
    (isName : token.kind = .name) {other : List Char} (ends : Lexeme.EndsName other) :
    Yields token.text.toList other [token.unplaced] := by
  rcases written with ⟨⟨kind, text⟩, following, reads, faultless, becomes, tokenText⟩
  rw [isName] at becomes
  have again : (Lexeme.mk kind text).Reads other := by
    cases kind with
    | name flaw =>
        cases flaw with
        | none => exact reads.name ends
        | some flaw => simp [Lexeme.fault?] at faultless
    | placeholder =>
        rcases reads with ⟨first, rest, rfl, found⟩
        rcases placeholder_of_classify found with ⟨rfl, length⟩
        rcases List.length_eq_zero_iff.mp length with rfl
        exact ⟨'?', [], rfl, rfl⟩
    | newline | indent | space | lineComment | literal _ _ | operator | mark _ | unrecognized =>
        simp [Lexeme.Kind.token?] at becomes
  refine Yields.of_lexeme again faultless (fun closed same => ?_) (by rw [becomes, isName])
    tokenText
  dsimp only at same
  simp [same, Lexeme.Kind.token?] at becomes

/-- A written operator yields itself if nothing continues it. -/
theorem Token.Written.yields_operator {token : Token} (written : token.Written)
    (isOperator : token.kind = .operator) {other : List Char} (ends : Lexeme.EndsOperator other) :
    Yields token.text.toList other [token.unplaced] := by
  rcases written with ⟨⟨kind, text⟩, following, reads, faultless, becomes, tokenText⟩
  rw [isOperator] at becomes
  cases kind with
  | operator =>
      exact Yields.of_lexeme (reads.operator ends) faultless (by simp) (by rw [becomes, isOperator])
        tokenText
  | newline | indent | space | lineComment | literal _ _ | name _ | placeholder | mark _
  | unrecognized => simp [Lexeme.Kind.token?] at becomes

/-- A written literal yields itself. -/
theorem Token.Written.yields_literal {token : Token} (written : token.Written) {literal : Literal}
    (isLiteral : token.kind = .literal literal) (notComment : literal ≠ .blockComment)
    (other : List Char) : Yields token.text.toList other [token.unplaced] := by
  rcases written with ⟨⟨kind, text⟩, following, reads, faultless, becomes, tokenText⟩
  rw [isLiteral] at becomes
  cases kind with
  | literal found closed =>
      obtain rfl : found = literal := by simpa [Lexeme.Kind.token?] using becomes
      cases closed with
      | false => simp [Lexeme.fault?] at faultless
      | true =>
          refine Yields.of_lexeme (reads.literal notComment other) faultless (fun closed same => ?_)
            (by rw [becomes, isLiteral]) tokenText
          exact notComment (Lexeme.Kind.literal.inj same).1
  | newline | indent | space | lineComment | operator | name _ | placeholder | mark _
  | unrecognized => simp [Lexeme.Kind.token?] at becomes

/-- A written literal stands between its delimiters. -/
theorem Token.Written.delimited {token : Token} (written : token.Written) {literal : Literal}
    (isLiteral : token.kind = .literal literal) (notComment : literal ≠ .blockComment) :
    ∃ body, token.text.toList = literal.opening.toList ++ body ++ literal.closing.toList := by
  rcases written with ⟨⟨kind, text⟩, following, reads, faultless, becomes, tokenText⟩
  rw [isLiteral] at becomes
  cases kind with
  | literal found closed =>
      obtain rfl : found = literal := by simpa [Lexeme.Kind.token?] using becomes
      cases closed with
      | false => simp [Lexeme.fault?] at faultless
      | true =>
          rcases reads.delimited notComment with ⟨body, split⟩
          refine ⟨body, ?_⟩
          rw [← tokenText, Lexeme.tokenText_eq faultless (fun closed same =>
            notComment (Lexeme.Kind.literal.inj same).1), String.toList_ofList]
          exact split
  | newline | indent | space | lineComment | operator | name _ | placeholder | mark _
  | unrecognized => simp [Lexeme.Kind.token?] at becomes

/-- A written token does not begin with a blank. -/
theorem Token.Written.head_ne_space {token : Token} (written : token.Written)
    (unowned : token.kind ≠ .literal .blockComment) :
    ∃ first rest, token.text.toList = first :: rest ∧ first ≠ ' ' := by
  rcases written with
    ⟨⟨kind, text⟩, following, ⟨first, rest, rfl, found⟩, faultless, becomes, tokenText⟩
  have plain : ∀ closed, kind ≠ .literal .blockComment closed := by
    rintro closed rfl
    exact unowned (by simpa [Lexeme.Kind.token?, eq_comm] using becomes)
  rw [Lexeme.tokenText_eq faultless plain] at tokenText
  refine ⟨first, rest, by simp [← tokenText], ?_⟩
  rintro rfl
  have layout : kind = .indent ∨ kind = .space := by
    have kinds := congrArg Prod.fst found
    dsimp only at kinds
    rw [← kinds]
    rcases rest ++ following with _ | ⟨next, more⟩
    · exact .inr rfl
    · by_cases blank : next = ' '
      · exact .inl (by simp [blank, Lexeme.classify])
      · exact .inr (by simp [blank, Lexeme.classify])
  rcases layout with rfl | rfl <;> simp [Lexeme.Kind.token?] at becomes

/-! ## Lists of tokens -/

def unplaced (tokens : List Token) : List Token :=
  tokens.map Token.unplaced

/-- Every token is written. -/
def Written (tokens : List Token) : Prop :=
  ∀ token ∈ tokens, token.Written

variable {first : Token} {rest tokens others : List Token}

@[simp]
theorem written_cons : Written (first :: rest) ↔ first.Written ∧ Written rest :=
  List.forall_mem_cons

@[simp]
theorem written_append : Written (tokens ++ others) ↔ Written tokens ∧ Written others :=
  List.forall_mem_append

@[simp]
theorem unplaced_nil : unplaced [] = [] := rfl

@[simp]
theorem unplaced_cons : unplaced (first :: rest) = first.unplaced :: unplaced rest := rfl

@[simp]
theorem unplaced_append : unplaced (tokens ++ others) = unplaced tokens ++ unplaced others :=
  List.map_append

/-! ## Marks -/

/-- A punctuation mark as a token without a place. -/
def Mark.token (mark : Mark) : Token := ⟨.mark mark, mark.text, .nowhere⟩

theorem Mark.written_comma : Mark.comma.token.Written :=
  ⟨⟨.mark .comma, [',']⟩, [], ⟨',', [], rfl, rfl⟩, rfl, rfl, rfl⟩

theorem mark_of_classify {first : Char} {rest : List Char} {mark : Mark} {length : Nat}
    (found : Lexeme.classify first rest = (.mark mark, length)) :
    first :: rest.take length = mark.text.toList := by
  cases Lexeme.recognized_iff.mpr found with
  | mark text => rw [List.take_left, text]

/-- A written mark is the mark and nothing else. -/
theorem Token.Written.unplaced_mark {token : Token} (written : token.Written) {mark : Mark}
    (isMark : token.kind = .mark mark) : token.unplaced = mark.token := by
  rcases written with
    ⟨⟨kind, text⟩, following, ⟨first, rest, rfl, found⟩, faultless, becomes, tokenText⟩
  rw [isMark] at becomes
  cases kind with
  | mark which =>
      obtain rfl : which = mark := by simpa [Lexeme.Kind.token?] using becomes
      have text := mark_of_classify found
      rw [List.take_left' rfl] at text
      rw [Lexeme.tokenText_eq faultless (by simp)] at tokenText
      simp only [text, String.ofList_toList] at tokenText
      simp [Token.unplaced, Token.mapLocation, Mark.token, ← tokenText, ← isMark]
  | newline | indent | space | lineComment | operator | name _ | placeholder | literal _ _
  | unrecognized => simp [Lexeme.Kind.token?] at becomes

/-- A mark that nothing continues yields itself. -/
theorem Mark.yields {mark : Mark} {following : List Char}
    (reads : (Lexeme.mk (.mark mark) mark.text.toList).Reads following) :
    Yields mark.text.toList following [mark.token] := by
  have text : (Lexeme.mk (.mark mark) mark.text.toList).tokenText = mark.token.text := by
    rw [Lexeme.tokenText_eq rfl (by simp), String.ofList_toList]
    rfl
  have whole : Yields mark.token.text.toList following [mark.token.unplaced] :=
    Yields.of_lexeme reads rfl (by simp) rfl text
  exact whole

end Treatise.Layout
