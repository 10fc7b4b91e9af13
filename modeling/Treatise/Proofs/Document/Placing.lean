import Treatise.Document.Leaf
import Treatise.Proofs.Layout.Lossless
import Treatise.Proofs.Location

/-!
# Places in a formula

A formula stands between the delimiters of a statement or of an id, and its places count from there.
Moved to the place after the opening delimiter, they are the places of the same characters in the
source, also where the formula goes on over several lines, and whatever the characters before it.
-/

namespace Treatise.Document

open Layout (Literal Spelled Token contents)
open Location (lastLine)
open Treatise.Text (byteLength)

/-- A literal that is not reported to lack its closer. -/
def Complete (source : String) (token : Token) : Prop :=
  ∀ literal, Layout.Fault.diagnostic ⟨token.location, .unterminated literal⟩
    ∉ (Layout.read source).diagnostics

/-- A literal without the fault that its closer is missing has its delimiters in the source. -/
theorem enclosed_of_spelled {piece rest text : List Char} {literal : Literal}
    {faults : List Layout.Fault} (spelled : Spelled piece rest (.literal literal) text faults)
    (notComment : literal ≠ .blockComment) (closed : ∀ other, .unterminated other ∉ faults) :
    ∃ body, piece = literal.enclose body ∧ text = literal.enclose body := by
  cases spelled with
  | plain other => exact absurd rfl (other literal)
  | closed => exact ⟨_, rfl, rfl⟩
  | comment => exact absurd rfl notComment
  | openId | openComment | openQuote => exact absurd List.mem_cons_self (closed _)

theorem enclose_formula {literal : Literal} (isFormula : literal = .statement ∨ literal = .id)
    (body : List Char) :
    ∃ opener closer, literal.enclose body = opener :: (body ++ [closer]) ∧ opener ≠ '\n' := by
  rcases isFormula with rfl | rfl
  · exact ⟨'\'', '\'', rfl, by decide⟩
  · exact ⟨'[', ']', rfl, by decide⟩

theorem toList_withoutDelimiters {text : String} {opener closer : Char} {body : List Char}
    (delimited : text.toList = opener :: (body ++ [closer])) :
    (withoutDelimiters text).toList = body := by
  simp [withoutDelimiters, delimited]

/-- A formula stands in the source between two delimiters, the first of which begins right after
`before`. -/
theorem exists_delimited {source : String} {token : Token}
    (member : token ∈ (Layout.read source).tokens)
    (isFormula : token.kind = .literal .statement ∨ token.kind = .literal .id)
    (complete : Complete source token) :
    ∃ before opener closer after, source.toList = before ++ token.text.toList ++ after
      ∧ token.location = Location.start.advance before
      ∧ token.text.toList = opener :: ((Formula.ofToken token).text.toList ++ [closer])
      ∧ opener ≠ '\n' := by
  have content : token ∈ contents (Layout.read source).tokens := by
    apply List.mem_filter.mpr
    rcases isFormula with kind | kind <;> simp [kind, member]
  rcases (Layout.account_read source).exists_reported token content with
    ⟨before, piece, after, faults, split, location, spelled, reported⟩
  have closed : ∀ other, .unterminated other ∉ faults :=
    fun other missing => complete other (reported _ missing)
  obtain ⟨literal, isFormula, kind⟩ :
      ∃ literal, (literal = .statement ∨ literal = .id) ∧ token.kind = .literal literal := by
    rcases isFormula with kind | kind
    · exact ⟨.statement, .inl rfl, kind⟩
    · exact ⟨.id, .inr rfl, kind⟩
  rw [kind] at spelled
  have notComment : literal ≠ .blockComment := by
    rcases isFormula with rfl | rfl <;> simp
  rcases enclosed_of_spelled spelled notComment closed with ⟨body, rfl, text⟩
  rcases enclose_formula isFormula body with ⟨opener, closer, delimited, inline⟩
  have between := toList_withoutDelimiters (text.trans delimited)
  refine ⟨before, opener, closer, after, ?_, location, ?_, inline⟩
  · rw [split, text]
  · rw [text, delimited]
    exact congrArg (fun body => opener :: (body ++ [closer])) between.symm

/-- The places of a text that stands in the source right after a delimiter, moved to where it
stands. -/
theorem within_origin {token : Token} {before front : List Char} {opener : Char}
    (location : token.location = Location.start.advance before) (inline : opener ≠ '\n')
    (short : (before ++ opener :: front).length < 2 ^ 31) :
    (Location.start.advance front).within (Formula.ofToken token).origin
      = Location.start.advance (before ++ opener :: front) := by
  have origin : (Formula.ofToken token).origin = Location.start.advance (before ++ [opener]) := by
    rw [Location.advance_append, ← location]
    simp [Formula.origin, Formula.ofToken, Formula.ofText, Location.advance, Location.step, inline]
  have whole : before ++ opener :: front = before ++ [opener] ++ front := by simp
  rw [whole] at short ⊢
  rw [origin, Location.within_advance short]

/-- Between two characters of a text, an offset has the row of the newlines before it and the column
of the characters since the last newline, and both are exact in a text of fewer than 2 ^ 31
characters. So for each boundary in a formula that is complete in such a source, the place in the
formula, moved to where the formula begins, is the place of the same boundary in the source. -/
theorem places_of_formula (source : String) :
    (∀ (text : String) (front back : List Char), text.toList = front ++ back →
      Location.ofOffset text (byteLength front)
          = ⟨.ofNat (front.count '\n'), .ofNat (lastLine front).length⟩
        ∧ (text.length < 2 ^ 31 →
          (Location.ofOffset text (byteLength front)).row = front.count '\n'
            ∧ (Location.ofOffset text (byteLength front)).column = (lastLine front).length))
    ∧ (source.length < 2 ^ 31 → ∀ token ∈ (Layout.read source).tokens,
      token.kind = .literal .statement ∨ token.kind = .literal .id → Complete source token →
        ∃ before opener closer after, source.toList = before ++ token.text.toList ++ after
          ∧ token.text.toList = opener :: ((Formula.ofToken token).text.toList ++ [closer])
          ∧ token.location = Location.ofOffset source (byteLength before)
          ∧ ∀ front back, (Formula.ofToken token).text.toList = front ++ back →
            (Location.ofOffset (Formula.ofToken token).text (byteLength front)).within
                (Formula.ofToken token).origin
              = Location.ofOffset source (byteLength (before ++ opener :: front))) := by
  refine ⟨fun text front back split => ?_, fun short token member isFormula complete => ?_⟩
  · rw [Location.ofOffset_of_append split]
    refine ⟨Location.start_advance front, fun short => ?_⟩
    rw [← String.length_toList, split] at short
    exact (Location.inRange_of_length_lt short).row_column
  · rcases exists_delimited member isFormula complete with
      ⟨before, opener, closer, after, split, location, delimited, inline⟩
    refine ⟨before, opener, closer, after, split, delimited, ?_, fun front back inside => ?_⟩
    · have split' : source.toList = before ++ (token.text.toList ++ after) := by
        rw [split, List.append_assoc]
      rw [location, Location.ofOffset_of_append split']
    · have split' : source.toList = before ++ opener :: front ++ (back ++ closer :: after) := by
        rw [split, delimited, inside]
        simp
      have length := congrArg List.length split'
      rw [String.length_toList, List.length_append] at length
      rw [Location.ofOffset_of_append inside, Location.ofOffset_of_append split',
        within_origin location inline (by omega)]

/-- A statement that goes on over two lines, with characters of two bytes before it and in it. -/
theorem places_of_formula_over_lines :
    ∃ before opener closer after,
      "-- é\na: 'ä\nx é y'\n".toList = before ++ "'ä\nx é y'".toList ++ after
      ∧ "'ä\nx é y'".toList = opener :: ("ä\nx é y".toList ++ [closer])
      ∧ ⟨1, 3⟩ = Location.ofOffset "-- é\na: 'ä\nx é y'\n" (byteLength before)
      ∧ ∀ front back, "ä\nx é y".toList = front ++ back →
        (Location.ofOffset "ä\nx é y" (byteLength front)).within ⟨1, 4⟩
          = Location.ofOffset "-- é\na: 'ä\nx é y'\n" (byteLength (before ++ opener :: front)) := by
  have clean : (Layout.read "-- é\na: 'ä\nx é y'\n").diagnostics = [] := by decide +kernel
  have member : ⟨.literal .statement, "'ä\nx é y'", ⟨1, 3⟩⟩
      ∈ (Layout.read "-- é\na: 'ä\nx é y'\n").tokens := by decide +kernel
  have complete : Complete "-- é\na: 'ä\nx é y'\n" ⟨.literal .statement, "'ä\nx é y'", ⟨1, 3⟩⟩ := by
    simp [Complete, clean]
  exact (places_of_formula "-- é\na: 'ä\nx é y'\n").2 (by decide) _ member (.inl rfl) complete

end Treatise.Document
