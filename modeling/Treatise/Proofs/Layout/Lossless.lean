import Treatise.Proofs.Layout.Account
import Treatise.Proofs.Layout.Concatenation
import Treatise.Proofs.Layout.Forest

/-!
# Nothing is lost

Reading a text accounts for all of it. The pieces are the lexemes: each lexeme is spelled as a
token, or it is blank, a line comment or a stray character, by how it is cut off. The reader puts
markers among the tokens of the lexemes and changes nothing else.

A text is read with a newline at its end. It is accounted for with that newline first, and then
without it.
-/

namespace Treatise.Layout

open Text (runLength take_runLength drop_runLength)

variable {place : Location} {rest text : List Char} {kind : TokenKind}

/-! ## Extents -/

namespace Lexeme

theorem quotationExtent_open {quote : Char} (isOpen : (quotationExtent quote text).2 = false) :
    text.length ≤ (quotationExtent quote text).1 := by
  unfold quotationExtent at isOpen ⊢
  split at isOpen
  · cases isOpen
  · exact le_rfl

theorem blockCommentExtent_open (isOpen : (blockCommentExtent text).2 = false) :
    text.length ≤ (blockCommentExtent text).1 := by
  fun_induction blockCommentExtent text with
  | case1 rest ih | case4 _ rest _ _ _ ih =>
      have inside := ih isOpen
      simp only [extended, List.length_cons]
      omega
  | case2 | case3 => cases isOpen
  | case5 => exact le_rfl

/-- A closed block comment ends with its closer, or with the newline right after it. -/
theorem blockCommentExtent_closed (closed : (blockCommentExtent text).2 = true) :
    ∃ body, text.take (blockCommentExtent text).1 = body ++ [':', ':']
      ∨ text.take (blockCommentExtent text).1 = body ++ [':', ':', '\n'] := by
  rcases exists_closed closed with ⟨body, after, rfl, extent⟩
  refine ⟨body, ?_⟩
  rw [extent after id, Nat.add_assoc, List.take_length_add_append]
  by_cases newline : after.head? = some '\n'
  · rcases List.head?_eq_some_iff.mp newline with ⟨rest, rfl⟩
    exact .inr rfl
  · exact .inl (by rw [if_neg newline]; rfl)

/-- An id that is not closed takes what is left of its line. -/
theorem idExtent_open {depth : Nat} (isOpen : (idExtent depth text).2 = false) :
    AtLineEnd (text.drop (idExtent depth text).1) := by
  fun_induction idExtent depth text with
  | case1 => simp [AtLineEnd]
  | case2 => simp [AtLineEnd]
  | case3 _ _ ih => simpa [extended] using ih isOpen
  | case4 => cases isOpen
  | case5 _ _ ih => simpa [extended] using ih isOpen
  | case6 _ first _ _ _ _ ih => simpa [extended] using ih isOpen

/-! ## Spelling -/

theorem not_endsLine_run {sort : Char → Bool} (stops : sort '\n' = false) {first : Char}
    (inline : first ≠ '\n') {extra : Nat}
    (unended : ¬ EndsLine ((rest.drop (runLength sort rest)).take extra)) :
    ¬ EndsLine (first :: rest.take (runLength sort rest + extra)) := by
  intro ends
  rw [List.take_add, take_runLength, ← List.cons_append] at ends
  refine unended (ends.of_append _ ?_)
  rw [List.mem_cons, not_or]
  refine ⟨Ne.symm inline, fun newline => ?_⟩
  simpa [stops] using List.mem_takeWhile_imp newline

theorem not_endsLine_name {first : Char} {flaw : Option NameFlaw} {length : Nat}
    (found : classify first rest = (.name flaw, length)) :
    ¬ EndsLine (first :: rest.take length) := by
  have letter := letter_of_classify found
  have inline : first ≠ '\n' := by
    rintro rfl
    exact absurd letter (by decide)
  rw [classify_letter letter] at found
  cases found
  exact not_endsLine_run (by decide) inline (not_endsLine_nameSuffix _)

theorem not_endsLine_operator {first : Char} {length : Nat}
    (found : classify first rest = (.operator, length)) :
    ¬ EndsLine (first :: rest.take length) := by
  rcases operator_of_classify found with ⟨operator, -, -, rfl⟩
  have inline : first ≠ '\n' := by
    rintro rfl
    exact absurd operator (by decide)
  exact not_endsLine_run (by decide) inline (subscript_of_operatorSuffix _).not_endsLine

theorem not_endsLine_mark {first : Char} {mark : Mark} {length : Nat}
    (found : classify first rest = (.mark mark, length)) :
    ¬ EndsLine (first :: rest.take length) := by
  rw [mark_of_classify found]
  cases mark <;> simp [Mark.text, EndsLine]

theorem comment_of_classify {first : Char} {closed : Bool} {length : Nat}
    (found : classify first rest = (.literal .blockComment closed, length)) :
    first = ':' ∧ ∃ comment, rest = ':' :: comment
      ∧ closed = (blockCommentExtent comment).2 ∧ length = (blockCommentExtent comment).1 + 1 := by
  rcases literal_of_classify found with
    ⟨-, colon, comment, _, begins, extent, reach⟩ | ⟨⟨⟩, -⟩ | ⟨⟨⟩, -⟩
  exact ⟨colon, comment, begins, by rw [extent], by rw [extent, reach]⟩

/-- The text of a token is the text of its lexeme, unless a newline or a closer makes a
difference. -/
theorem tokenText_of_not_endsLine {shape : Lexeme.Kind}
    (closed : ∀ literal, shape ≠ .literal literal false) (unended : ¬ EndsLine text) :
    (Lexeme.mk shape text).tokenText.toList = text := by
  have notOwning : (Lexeme.mk shape text).ownsNewline = false := by
    unfold ownsNewline
    split
    · simpa [EndsLine] using unended
    · rfl
  simp only [tokenText, notOwning, Bool.false_eq_true, if_false]
  exact String.toList_ofList

/-- A block comment that is closed is spelled without the newline that it owns. -/
theorem spelled_comment {first : Char} {length : Nat}
    (found : classify first rest = (.literal .blockComment true, length)) :
    Spelled (first :: rest.take length) (rest.drop length) (.literal .blockComment)
      (Lexeme.mk (.literal .blockComment true) (first :: rest.take length)).tokenText.toList
        [] := by
  rcases comment_of_classify found with ⟨rfl, comment, rfl, closed, rfl⟩
  rw [List.take_succ_cons]
  rcases blockCommentExtent_closed closed.symm with ⟨body, split | split⟩
  · have piece : ':' :: ':' :: (body ++ [':', ':']) = Literal.blockComment.enclose body := rfl
    rw [split, piece, tokenText_of_not_endsLine (by simp) (Literal.not_endsLine_enclose _ _)]
    exact .closed
  · have piece : ':' :: ':' :: (body ++ [':', ':', '\n'])
        = Literal.blockComment.enclose body ++ ['\n'] := by
      simp [Literal.enclose, Literal.opening, Literal.closer]
    rw [split, piece]
    simpa [tokenText, ownsNewline] using Spelled.comment

/-- Other literals that are closed are spelled as they are. -/
theorem spelled_quotation {first : Char} {length : Nat} {literal : Literal}
    (notComment : literal ≠ .blockComment)
    (found : classify first rest = (.literal literal true, length)) :
    Spelled (first :: rest.take length) (rest.drop length) (.literal literal)
      (Lexeme.mk (.literal literal true) (first :: rest.take length)).tokenText.toList [] := by
  have reads := reads_classify first rest
  rw [found] at reads
  rcases reads.delimited notComment with ⟨body, split⟩
  have piece : first :: rest.take length = literal.enclose body := by
    rw [split]
    cases literal <;> rfl
  rw [piece, tokenText_of_not_endsLine (by simp) (Literal.not_endsLine_enclose _ _)]
  exact .closed

/-- A string or a statement that is not closed takes all that is left. -/
theorem spelled_openQuote {quote : Char} {length : Nat} {literal : Literal}
    (quotes : literal.Quotes quote) (ends : EndsLine (quote :: rest))
    (extent : quotationExtent quote rest = (length, false)) :
    Spelled (quote :: rest.take length) (rest.drop length) (.literal literal)
      (Lexeme.mk (.literal literal false) (quote :: rest.take length)).tokenText.toList
      [.unterminated literal] := by
  have all := quotationExtent_open (congrArg Prod.snd extent)
  rw [extent] at all
  rw [List.take_of_length_le all, List.drop_of_length_le all]
  have spelled : Spelled (quote :: rest) [] (.literal literal)
      (withFinalNewline (quote :: rest) ++ literal.closer.toList) [.unterminated literal] := by
    refine .openQuote (by cases quotes <;> simp) ?_
    rw [quotes.opening]
    exact List.prefix_append [quote] rest
  rw [withFinalNewline_of_endsLine ends] at spelled
  cases quotes <;> simpa [tokenText, ownsNewline] using spelled

/-- An id that is not closed takes what is left of its line. -/
theorem spelled_openId {length : Nat} (extent : idExtent 0 rest = (length, false)) :
    Spelled ('[' :: rest.take length) (rest.drop length) (.literal .id)
      (Lexeme.mk (.literal .id false) ('[' :: rest.take length)).tokenText.toList
      [.unterminated .id] := by
  have inline := idExtent_inline 0 rest
  have stops := idExtent_open (congrArg Prod.snd extent)
  rw [extent] at inline stops
  have spelled : Spelled ('[' :: rest.take length) (rest.drop length) (.literal .id)
      ('[' :: rest.take length ++ Literal.id.closer.toList) [.unterminated .id] := by
    refine .openId ?_ ?_ stops
    · exact List.prefix_append ['['] (rest.take length)
    · simpa using inline
  simpa [tokenText, ownsNewline] using spelled

/-- A block comment that is not closed takes all that is left. -/
theorem spelled_openComment {comment : List Char} {length : Nat}
    (ends : EndsLine (':' :: ':' :: comment))
    (extent : blockCommentExtent comment = (length, false)) :
    Spelled (':' :: ':' :: comment.take length) (comment.drop length) (.literal .blockComment)
      (Lexeme.mk (.literal .blockComment false)
        (':' :: ':' :: comment.take length)).tokenText.toList
      [.unterminated .blockComment] := by
  have all := blockCommentExtent_open (congrArg Prod.snd extent)
  rw [extent] at all
  rw [List.take_of_length_le all, List.drop_of_length_le all]
  rcases List.getLast?_eq_some_iff.mp ends with ⟨body, split⟩
  have spelled : Spelled (':' :: ':' :: comment) [] (.literal .blockComment)
      (body ++ Literal.blockComment.closer.toList) [.unterminated .blockComment] := by
    refine .openComment ?_ ?_
    · exact List.prefix_append [':', ':'] comment
    · rw [withFinalNewline_of_endsLine ends, split]
  rw [split] at spelled ⊢
  simpa [tokenText, ownsNewline] using spelled

/-- A literal that is not closed is spelled with its closer. -/
theorem spelled_open {first : Char} {length : Nat} {literal : Literal}
    (ends : EndsLine (first :: rest))
    (found : classify first rest = (.literal literal false, length)) :
    Spelled (first :: rest.take length) (rest.drop length) (.literal literal)
      (Lexeme.mk (.literal literal false) (first :: rest.take length)).tokenText.toList
      [.unterminated literal] := by
  rcases literal_of_classify found with
    ⟨rfl, rfl, comment, reach, rfl, extent, rfl⟩ | ⟨quotes, extent⟩ | ⟨rfl, rfl, extent⟩
  · exact spelled_openComment ends extent
  · exact spelled_openQuote quotes ends extent
  · exact spelled_openId extent

/-- The lexemes of a text that ends with a newline are spelled as tokens. -/
theorem spelled_of_classify {first : Char} {length : Nat} {shape : Lexeme.Kind}
    (ends : EndsLine (first :: rest)) (found : classify first rest = (shape, length))
    (content : shape.token? = some kind) :
    Spelled (first :: rest.take length) (rest.drop length) kind
      (Lexeme.mk shape (first :: rest.take length)).tokenText.toList
      (Lexeme.mk shape (first :: rest.take length)).fault?.toList := by
  cases shape with
  | newline | indent | space | lineComment | unrecognized => cases content
  | literal literal closed =>
      cases content
      cases closed with
      | false => exact spelled_open ends found
      | true =>
          by_cases comment : literal = .blockComment
          · subst comment
            exact spelled_comment found
          · exact spelled_quotation comment found
  | name flaw =>
      cases content
      have unended := not_endsLine_name found
      rw [tokenText_of_not_endsLine (by simp) unended]
      cases flaw with
      | none => exact .plain (by simp) unended
      | some flaw => exact .flawed unended
  | placeholder =>
      cases content
      rcases placeholder_of_classify found with ⟨rfl, rfl⟩
      have unended : ¬ EndsLine ('?' :: rest.take 0) := by simp [EndsLine]
      rw [tokenText_of_not_endsLine (by simp) unended]
      exact .plain (by simp) unended
  | operator =>
      cases content
      have unended := not_endsLine_operator found
      rw [tokenText_of_not_endsLine (by simp) unended]
      exact .plain (by simp) unended
  | mark which =>
      cases content
      have unended := not_endsLine_mark found
      rw [tokenText_of_not_endsLine (by simp) unended]
      exact .plain (by simp) unended

/-! ## Lexemes as pieces -/

theorem atLineEnd_dropWhile (text : List Char) : AtLineEnd (text.dropWhile (· != '\n')) := by
  cases after : text.dropWhile (· != '\n') with
  | nil => exact .inl rfl
  | cons next rest =>
      have stopped := List.head?_dropWhile_not (· != '\n') text
      simp only [after, List.head?_cons] at stopped
      exact .inr (by simpa using stopped)

/-- The diagnostics of a lexeme at a place. -/
def diagnosticsAt (place : Location) (lexeme : Lexeme) : List Diagnostic :=
  lexeme.fault?.toList.map fun fault => Fault.diagnostic ⟨place, fault⟩

/-- A lexeme that becomes no token is blank, a line comment, or a stray character that is
reported. -/
theorem piece_of_bare {first : Char} {length : Nat} {shape : Lexeme.Kind}
    (found : Recognized first rest shape length) (bare : shape.token? = none) :
    Piece place (first :: rest.take length) (rest.drop length) []
      (diagnosticsAt place ⟨shape, first :: rest.take length⟩) := by
  cases found with
  | newline | indent | space => exact .blank (by simp [blanks])
  | blank blank =>
      refine .blank fun character member => ?_
      obtain rfl : character = first := by simpa using member
      simp only [blanks, List.mem_cons, List.not_mem_nil, or_false] at blank ⊢
      tauto
  | lineComment comment =>
      rw [List.take_succ_cons, List.drop_succ_cons, take_runLength]
      refine .comment ?_ ?_
      · intro newline
        simpa using List.mem_takeWhile_imp newline
      · rw [drop_runLength]
        exact atLineEnd_dropWhile comment
  | blockComment | quotation | id | placeholder | mark | name | operator => cases bare
  | unrecognized stray => exact .unrecognized stray

/-- The lexemes of a text that ends with a newline are its pieces. -/
theorem piece_of_classify (place : Location) {first : Char} {length : Nat} {shape : Lexeme.Kind}
    (ends : EndsLine (first :: rest)) (found : classify first rest = (shape, length)) :
    Piece place (first :: rest.take length) (rest.drop length)
      (Line.token? ⟨place, ⟨shape, first :: rest.take length⟩⟩).toList
      (diagnosticsAt place ⟨shape, first :: rest.take length⟩) := by
  cases content : shape.token? with
  | some kind =>
      have spelled := spelled_of_classify ends found content
      simpa [Line.token?, content, diagnosticsAt] using @Piece.token place _ _ _ _ _ spelled
  | none => simpa [Line.token?, content] using piece_of_bare (recognized_iff.mpr found) content

end Lexeme

theorem faultsFrom_cons (place : Location) (lexeme : Lexeme) (lexemes : List Lexeme) :
    (faultsFrom place (lexeme :: lexemes)).map Fault.diagnostic
      = lexeme.diagnosticsAt place
        ++ (faultsFrom (place.advance lexeme.text) lexemes).map Fault.diagnostic := by
  cases fault : lexeme.fault? <;> simp [faultsFrom, Lexeme.diagnosticsAt, fault]

/-- A text that ends with a newline is accounted for by the lexemes that it is cut into. -/
theorem accounted_scan (ends : text = [] ∨ EndsLine text) (place : Location) :
    Accounted place text (Line.tokens (placed place (Lexeme.scan text)))
      ((faultsFrom place (Lexeme.scan text)).map Fault.diagnostic) := by
  fun_induction Lexeme.scan text generalizing place with
  | case1 => exact .done
  | case2 first rest found ih =>
      have ends := ends.resolve_left (List.cons_ne_nil first rest)
      have here := Lexeme.piece_of_classify place ends (Prod.eta (Lexeme.classify first rest)).symm
      have later := ih (Lexeme.endsLine_drop_classify ends)
        (place.advance (first :: rest.take found.2))
      have account := Accounted.piece (List.cons_ne_nil _ _) here later
      rw [List.cons_append, List.take_append_drop] at account
      rwa [placed, Line.tokens_cons, faultsFrom_cons]

/-! ## The tokens of the reader -/

namespace Reader

/-- A reader yields the tokens of the lexemes with content, among markers. -/
theorem contents_run (reader : Reader) (place : Location) (lexemes : List Lexeme) :
    contents (reader.run place lexemes) = Line.tokens (placed place lexemes) := by
  have closings : ∀ count location, contents (List.replicate count (Token.blockClose location))
      = [] := by
    simp [contents, Token.blockClose]
  rw [run_eq_steps, contents_append, contents_steps, finish, contents_append, contents_settle,
    closings, List.append_nil, List.append_nil]

end Reader

/-- A text is accounted for by its tokens and its diagnostics, also without a newline at its end. -/
theorem account_read (text : String) :
    Accounted .start text.toList (contents (read text).tokens) (read text).diagnostics := by
  have full : Accounted .start (withFinalNewline text.toList) (contents (read text).tokens)
      (read text).diagnostics := by
    rw [read, Reader.contents_run]
    exact accounted_scan (.inr (endsLine_withFinalNewline text.toList)) .start
  by_cases ends : EndsLine text.toList
  · rwa [withFinalNewline_of_endsLine ends] at full
  · rw [withFinalNewline_of_not_endsLine ends] at full
    exact full.unended ends

/-- Reading a text accounts for all of it: what becomes no token is blank, a line comment, or a
stray character that is reported. Each token with content is spelled by the piece of the text at its
place. These tokens stand at different places, in order, and the markers keep to that order too, as
long as no row and no column goes beyond 32 bits, those of the newline that is added included. -/
theorem accounted_read (text : String) :
    Accounted .start text.toList (contents (read text).tokens) (read text).diagnostics
      ∧ (∀ token ∈ contents (read text).tokens, ∃ before piece after faults,
          text.toList = before ++ piece ++ after ∧ token.location = Location.start.advance before
            ∧ Spelled piece after token.kind token.text.toList faults)
      ∧ (Location.InRange (withFinalNewline text.toList) →
        (contents (read text).tokens).Pairwise
            (fun first second => first.location.Before second.location)
          ∧ (read text).tokens.Pairwise fun first second =>
            first.location.le second.location) := by
  have account := account_read text
  refine ⟨account, account.exists_piece, fun inRange => ⟨?_, sorted_read inRange⟩⟩
  have whole : Location.InRange text.toList := fun front starts =>
    inRange front (starts.trans (prefix_withFinalNewline text.toList))
  exact (account.increasing (@Location.InRange.climbs [] _ whole)).1

/-- A text of two lines with a stray character and a comment is in range. -/
theorem accounted_over_lines :
    Location.InRange (withFinalNewline "a: $\n-- b\n. c".toList)
      ∧ (contents (read "a: $\n-- b\n. c").tokens).Pairwise
        (fun first second => first.location.Before second.location)
      ∧ (read "a: $\n-- b\n. c").tokens.Pairwise
        fun first second => first.location.le second.location := by
  have inRange : Location.InRange (withFinalNewline "a: $\n-- b\n. c".toList) :=
    Location.inRange_of_length_lt (by decide)
  exact ⟨inRange, (accounted_read "a: $\n-- b\n. c").2.2 inRange⟩

/-- Two names with lines between them that are empty. -/
def farApart (lines : Nat) : String :=
  String.ofList ("a\n".toList ++ (List.replicate lines '\n' ++ "b\n".toList))

theorem tokens_newlines (place : Location) (lines : Nat) :
    Line.tokens (placed place (List.replicate lines ⟨.newline, ['\n']⟩)) = [] := by
  induction lines generalizing place with
  | zero => rfl
  | succ lines ih => exact ih _

theorem advance_farApart (lines : Nat) :
    Location.start.advance ("a\n".toList ++ List.replicate lines '\n')
      = ⟨.ofNat (lines + 1), 0⟩ := by
  induction lines with
  | zero => rfl
  | succ lines ih =>
      rw [List.replicate_succ', ← List.append_assoc, Location.advance_append, ih,
        Int32.ofNat_add (lines + 1)]
      rfl

/-- The row of the second name goes round when there are too many lines. -/
theorem contents_farApart (lines : Nat) : contents (read (farApart lines)).tokens
    = [⟨.name, "a", .start⟩, ⟨.name, "b", ⟨.ofNat (lines + 1), 0⟩⟩] := by
  have ends : EndsLine ("a\n".toList ++ (List.replicate lines '\n' ++ "b\n".toList)) := by
    rw [EndsLine, List.getLast?_append_of_ne_nil _ (by simp),
      List.getLast?_append_of_ne_nil _ (by simp)]
    rfl
  have cut : Lexeme.scan (withFinalNewline (farApart lines).toList)
      = [⟨.name none, ['a']⟩, ⟨.newline, ['\n']⟩]
        ++ (List.replicate lines ⟨.newline, ['\n']⟩
          ++ [⟨.name none, ['b']⟩, ⟨.newline, ['\n']⟩]) := by
    have first : Lexeme.scan "a\n".toList = [⟨.name none, ['a']⟩, ⟨.newline, ['\n']⟩] := by
      decide +kernel
    have last : Lexeme.scan "b\n".toList = [⟨.name none, ['b']⟩, ⟨.newline, ['\n']⟩] := by
      decide +kernel
    rw [farApart, String.toList_ofList, withFinalNewline_of_endsLine ends, ← last,
      ← scan_newlines, ← first]
    have ended : EndsLine "a\n".toList := rfl
    exact Lexeme.scan_concat (.inr ended) (by rw [first]; decide) _
  have between : (List.replicate lines (Lexeme.mk .newline ['\n'])).flatMap Lexeme.text
      = List.replicate lines '\n' := by
    rw [List.flatMap_replicate]
    exact List.flatten_replicate_singleton
  rw [read, Reader.contents_run, cut, placed_append, placed_append, Line.tokens_append,
    Line.tokens_append, tokens_newlines, between, ← advance_farApart, Location.advance_append]
  rfl

/-- A statement that is not closed holds the newline that reading adds, so its token has more than a
piece of the text and the closer. And a name that stands 2 ^ 31 rows below another one does not have
a later place. -/
theorem added_newline_and_far_row :
    (∃ token ∈ contents (read "'abc").tokens, token.kind = .literal .statement
      ∧ token.location = .start ∧ ∀ piece, piece <+: "'abc".toList →
        token.text ≠ String.ofList piece
          ∧ token.text ≠ String.ofList piece ++ Literal.statement.closer)
      ∧ ¬ (contents (read (farApart (2 ^ 31 - 1))).tokens).Pairwise
        (fun first second => first.location.Before second.location) := by
  refine ⟨⟨⟨.literal .statement, "'abc\n'", .start⟩, by decide +kernel, rfl, rfl, ?_⟩, ?_⟩
  · intro piece starts
    have inline : '\n' ∉ piece := fun newline => absurd (starts.subset newline) (by decide)
    refine ⟨fun same => ?_, fun same => ?_⟩
    · have newline : '\n' ∈ (String.ofList piece).toList := same ▸ by decide
      exact inline (by simpa using newline)
    · have newline : '\n' ∈ (String.ofList piece ++ Literal.statement.closer).toList :=
        same ▸ by decide
      exact inline (by simpa [Literal.closer] using newline)
  · rw [contents_farApart, List.pairwise_pair]
    decide

end Treatise.Layout
