import Treatise.Proofs.Layout.LineEnds
import Treatise.Proofs.Layout.Order

/-!
# Accounts of a text

A text is made of pieces that are all accounted for: each is blank, a line comment, a stray
character, which is reported, or the piece of a token, which has the text of its piece and stands
where the piece begins. There are three exceptions to the text: a block comment leaves out the
newline after it, a literal that is not closed gets its closer, and a string or a statement that is
not closed also gets the newline that reading adds to a text without one at its end.

The tokens of an account stand at different places, in order, as long as the places of the text
climb. An account of a text that ends with a newline is also one of the text without that newline,
since no piece but the exceptions ends with it.
-/

namespace Treatise.Layout

/-! ## Accounts -/

/-- What follows a piece that never leaves its line: the end of the line or of the text. -/
def AtLineEnd (following : List Char) : Prop :=
  following = [] ∨ following.head? = some '\n'

/-- A literal that is closed, by what stands between its delimiters. -/
def Literal.enclose (literal : Literal) (body : List Char) : List Char :=
  literal.opening.toList ++ body ++ literal.closer.toList

/-- How a piece of text in front of `rest` is spelled as a token, and the faults found in it. -/
inductive Spelled : List Char → List Char → TokenKind → List Char → List Fault → Prop
  | plain {piece rest kind} (other : ∀ literal, kind ≠ .literal literal)
    (inside : ¬ EndsLine piece) :
      Spelled piece rest kind piece []
  | flawed {piece rest flaw} (inside : ¬ EndsLine piece) :
      Spelled piece rest .name piece [.malformedName flaw]
  | closed {literal body rest} :
      Spelled (literal.enclose body) rest (.literal literal) (literal.enclose body) []
  | comment {body rest} :
      Spelled (Literal.blockComment.enclose body ++ ['\n']) rest (.literal .blockComment)
        (Literal.blockComment.enclose body) []
  | openId {piece rest} (starts : Literal.id.opening.toList <+: piece) (inline : '\n' ∉ piece)
      (stops : AtLineEnd rest) :
      Spelled piece rest (.literal .id) (piece ++ Literal.id.closer.toList) [.unterminated .id]
  | openComment {piece body} (starts : Literal.blockComment.opening.toList <+: piece)
      (split : withFinalNewline piece = body ++ ['\n']) :
      Spelled piece [] (.literal .blockComment) (body ++ Literal.blockComment.closer.toList)
        [.unterminated .blockComment]
  | openQuote {piece literal} (quotes : literal = .string ∨ literal = .statement)
      (starts : literal.opening.toList <+: piece) :
      Spelled piece [] (.literal literal) (withFinalNewline piece ++ literal.closer.toList)
        [.unterminated literal]

/-- The tokens and the diagnostics of a piece of text at a place, in front of `rest`. -/
inductive Piece (place : Location) : List Char → List Char → List Token → List Diagnostic → Prop
  | blank {piece rest} (all : ∀ character ∈ piece, character ∈ blanks) :
      Piece place piece rest [] []
  | comment {body rest} (inline : '\n' ∉ body) (stops : AtLineEnd rest) :
      Piece place ('-' :: '-' :: body) rest [] []
  | unrecognized {character rest} (stray : Stray character rest) :
      Piece place [character] rest []
        [⟨.lex, "Unrecognized character " ++ character.toString, place⟩]
  | token {piece rest kind text faults} (spelled : Spelled piece rest kind text faults) :
      Piece place piece rest [⟨kind, String.ofList text, place⟩]
        (faults.map fun fault => Fault.diagnostic ⟨place, fault⟩)

/-- A text that begins at a place, made of pieces that become the tokens and the diagnostics. -/
inductive Accounted : Location → List Char → List Token → List Diagnostic → Prop
  | done {place} : Accounted place [] [] []
  | piece {place piece rest tokens more diagnostics others} (some : piece ≠ [])
      (first : Piece place piece rest tokens diagnostics)
      (later : Accounted (place.advance piece) rest more others) :
      Accounted place (piece ++ rest) (tokens ++ more) (diagnostics ++ others)

variable {place : Location} {piece rest text source front : List Char} {tokens : List Token}
  {diagnostics : List Diagnostic} {kind : TokenKind} {faults : List Fault}

/-! ## The places of an account -/

theorem Piece.location_of_mem (first : Piece place piece rest tokens diagnostics) :
    ∀ token ∈ tokens, token.location = place := by
  cases first <;> simp

theorem Piece.length_tokens_le (first : Piece place piece rest tokens diagnostics) :
    tokens.length ≤ 1 := by
  cases first <;> simp

/-- The tokens of an account of a text that climbs stand at different places, in order. -/
theorem Accounted.increasing (account : Accounted place text tokens diagnostics)
    (climbs : place.Climbs text) :
    tokens.Pairwise (fun first second => first.location.Before second.location)
      ∧ ∀ token ∈ tokens, place.le token.location = true := by
  induction account with
  | done => simp
  | @piece place piece rest tokens more diagnostics others some first later ih =>
      rw [Location.climbs_append] at climbs
      rcases ih climbs.2 with ⟨increasing, after⟩
      have here := first.location_of_mem
      have beyond : ∀ token ∈ more, place.Before token.location := fun token member =>
        (climbs.1.before_advance some).trans_le (after token member)
      refine ⟨List.pairwise_append.mpr ⟨?_, increasing, ?_⟩, ?_⟩
      · match tokens, first.length_tokens_le with
        | [], _ => exact .nil
        | [_], _ => exact List.pairwise_singleton ..
      · intro token tokenMem other otherMem
        rw [here token tokenMem]
        exact beyond other otherMem
      · intro token member
        rcases List.mem_append.mp member with early | late
        · rw [here token early]
          exact sorts_locationLe.refl place
        · exact (beyond token late).le

/-- Each token of an account is spelled by the piece of the text at its place, and its faults are
reported. -/
theorem Accounted.exists_reported (account : Accounted place text tokens diagnostics) :
    ∀ token ∈ tokens, ∃ before piece after faults, text = before ++ piece ++ after
      ∧ token.location = place.advance before
      ∧ Spelled piece after token.kind token.text.toList faults
      ∧ ∀ fault ∈ faults, Fault.diagnostic ⟨token.location, fault⟩ ∈ diagnostics := by
  induction account with
  | done => simp
  | @piece place piece rest tokens more diagnostics others some first later ih =>
      intro token member
      rcases List.mem_append.mp member with early | late
      · cases first with
        | blank | comment | unrecognized => simp at early
        | @token _ _ kind text faults spelled =>
            rcases List.mem_singleton.mp early with rfl
            refine ⟨[], piece, rest, faults, rfl, rfl, ?_, ?_⟩
            · rwa [String.toList_ofList]
            · intro fault found
              exact List.mem_append_left _ (List.mem_map_of_mem found)
      · rcases ih token late with ⟨before, inner, after, faults, rfl, location, spelled, reported⟩
        refine ⟨piece ++ before, inner, after, faults, by simp, ?_, spelled, ?_⟩
        · rw [location, Location.advance, Location.advance, Location.advance, List.foldl_append]
        · intro fault found
          exact List.mem_append_right _ (reported fault found)

theorem Accounted.exists_piece (account : Accounted place text tokens diagnostics) :
    ∀ token ∈ tokens, ∃ before piece after faults, text = before ++ piece ++ after
      ∧ token.location = place.advance before
      ∧ Spelled piece after token.kind token.text.toList faults := by
  intro token member
  rcases account.exists_reported token member with
    ⟨before, piece, after, faults, split, location, spelled, -⟩
  exact ⟨before, piece, after, faults, split, location, spelled⟩

/-! ## Taking the last newline away -/

theorem AtLineEnd.unended (stops : AtLineEnd (front ++ ['\n'])) : AtLineEnd front := by
  cases front with
  | nil => exact .inl rfl
  | cons first more => simpa [AtLineEnd] using stops

theorem withFinalNewline_of_endsLine (ends : EndsLine text) : withFinalNewline text = text :=
  if_pos ends

theorem withFinalNewline_of_not_endsLine (unended : ¬ EndsLine source) :
    withFinalNewline source = source ++ ['\n'] :=
  if_neg unended

theorem prefix_withFinalNewline (text : List Char) : text <+: withFinalNewline text := by
  unfold withFinalNewline
  split
  · exact List.prefix_rfl
  · exact List.prefix_append _ _

theorem Literal.enclose_ne_nil (literal : Literal) (body : List Char) :
    literal.enclose body ≠ [] := by
  cases literal <;> simp [enclose, opening]

theorem Literal.not_endsLine_enclose (literal : Literal) (body : List Char) :
    ¬ EndsLine (literal.enclose body) := by
  cases literal <;> simp [enclose, closer, EndsLine]

theorem opening_prefix_concat {literal : Literal}
    (starts : literal.opening.toList <+: source ++ ['\n']) : literal.opening.toList <+: source := by
  rcases List.prefix_concat_iff.mp starts with whole | inside
  · have newline : '\n' ∈ literal.opening.toList := by simp [whole]
    cases literal <;> simp [Literal.opening] at newline
  · exact inside

/-- In front of the last newline of a text a token is spelled as if the newline were missing. -/
theorem Spelled.unended (spelled : Spelled piece (front ++ ['\n']) kind text faults) :
    Spelled piece front kind text faults := by
  generalize following : front ++ ['\n'] = rest at spelled
  cases spelled with
  | plain other inside => exact .plain other inside
  | flawed inside => exact .flawed inside
  | closed => exact .closed
  | comment => exact .comment
  | openId starts inline stops => exact .openId starts inline (following ▸ stops).unended
  | openComment => simp at following
  | openQuote => simp at following

/-- A token whose piece ends the text is spelled as if the newline were missing. -/
theorem Spelled.unended_last (spelled : Spelled (source ++ ['\n']) [] kind text faults)
    (unended : ¬ EndsLine source) : source ≠ [] ∧ Spelled source [] kind text faults := by
  have ends : EndsLine (source ++ ['\n']) := List.getLast?_concat
  have newline : withFinalNewline (source ++ ['\n']) = withFinalNewline source := by
    rw [withFinalNewline_of_endsLine ends, withFinalNewline_of_not_endsLine unended]
  have some : ∀ {literal : Literal}, literal.opening.toList <+: source → source ≠ [] := by
    rintro literal starts rfl
    cases literal <;> simp [Literal.opening] at starts
  generalize whole : source ++ ['\n'] = piece at spelled
  cases spelled with
  | plain _ inside => exact absurd (whole ▸ ends) inside
  | flawed inside => exact absurd (whole ▸ ends) inside
  | closed => exact absurd (whole ▸ ends) (Literal.not_endsLine_enclose _ _)
  | comment =>
      rw [List.append_cancel_right whole]
      exact ⟨Literal.enclose_ne_nil _ _, .closed⟩
  | openId starts inline stops => exact absurd (List.mem_of_getLast? (whole ▸ ends)) inline
  | openComment starts split =>
      subst whole
      have starts := opening_prefix_concat starts
      exact ⟨some starts, .openComment starts (newline ▸ split)⟩
  | openQuote quotes starts =>
      subst whole
      have starts := opening_prefix_concat starts
      rw [newline]
      exact ⟨some starts, .openQuote quotes starts⟩

theorem Stray.unended {character : Char} (stray : Stray character (front ++ ['\n'])) :
    Stray character front := by
  refine { stray with notDots := fun isDot => ?_ }
  rcases stray.notDots isDot with ⟨notSpace, notDots⟩
  exact ⟨fun starts => notSpace (starts.trans (List.prefix_append _ _)),
    fun starts => notDots (starts.trans (List.prefix_append _ _))⟩

theorem Piece.unended (first : Piece place piece (front ++ ['\n']) tokens diagnostics) :
    Piece place piece front tokens diagnostics := by
  cases first with
  | blank all => exact .blank all
  | comment inline stops => exact .comment inline stops.unended
  | unrecognized stray => exact .unrecognized stray.unended
  | token spelled => exact .token spelled.unended

/-- The newline that ends a text is blank, or its piece becomes the same without it. -/
theorem Piece.unended_last (first : Piece place (source ++ ['\n']) [] tokens diagnostics)
    (unended : ¬ EndsLine source) :
    source = [] ∧ tokens = [] ∧ diagnostics = []
      ∨ source ≠ [] ∧ Piece place source [] tokens diagnostics := by
  have ends : EndsLine (source ++ ['\n']) := List.getLast?_concat
  generalize whole : source ++ ['\n'] = piece at first
  cases first with
  | blank all =>
      by_cases empty : source = []
      · exact .inl ⟨empty, rfl, rfl⟩
      · refine .inr ⟨empty, .blank fun character member => all character ?_⟩
        rw [← whole]
        exact List.mem_append_left _ member
  | comment inline stops =>
      have newline := List.mem_of_getLast? (whole ▸ ends)
      simp [inline] at newline
  | @unrecognized character _ stray =>
      rw [whole] at ends
      have newline : character = '\n' := Option.some.inj ends
      exact absurd (by simp [newline, blanks]) stray.notBlank
  | token spelled =>
      subst whole
      exact .inr ((spelled.unended_last unended).imp_right .token)

theorem Accounted.eq_nil (account : Accounted place [] tokens diagnostics) :
    tokens = [] ∧ diagnostics = [] := by
  generalize empty : [] = text at account
  cases account with
  | done => exact ⟨rfl, rfl⟩
  | piece some _ _ => exact absurd (List.append_eq_nil_iff.mp empty.symm).1 some

/-- A text is accounted for without the newline at its end as it is with it. -/
theorem Accounted.unended (account : Accounted place (source ++ ['\n']) tokens diagnostics)
    (unended : ¬ EndsLine source) : Accounted place source tokens diagnostics := by
  generalize whole : source ++ ['\n'] = text at account
  induction account generalizing source with
  | done => simp at whole
  | @piece place piece rest tokens more diagnostics others some first later ih =>
      rcases List.eq_nil_or_concat' rest with rfl | ⟨front, last, rfl⟩
      · rcases later.eq_nil with ⟨rfl, rfl⟩
        rw [List.append_nil] at whole ⊢
        rw [List.append_nil]
        subst whole
        rcases first.unended_last unended with ⟨rfl, rfl, rfl⟩ | ⟨some, first⟩
        · exact .done
        · simpa using Accounted.piece some first .done
      · rw [← List.append_assoc, List.append_singleton_inj] at whole
        rcases whole with ⟨rfl, rfl⟩
        refine .piece some first.unended (ih ?_ rfl)
        intro ends
        refine unended ?_
        cases front with
        | nil => exact absurd ends not_endsLine_nil
        | cons => rwa [EndsLine, List.getLast?_append_of_ne_nil _ (List.cons_ne_nil _ _)]

end Treatise.Layout
