import Treatise.Proofs.Layout.LineEnds
import Treatise.Proofs.Layout.Lines
import Treatise.Proofs.Location
import Treatise.Proofs.Sorting

/-!
# The order of tokens

The markers of a line are put out only when the next line with content is known, but they stand at
the newline between the two. So the tokens are still in the order of their places: a reader never
puts out anything before the newline that it keeps, or before the place that it has reached if it
keeps none.

The invariant that carries the proof is that the newline that is kept lies behind the reader, and
that none is kept inside the content of a line.
-/

namespace Treatise

namespace Location

/-- One place comes before another. -/
def Before (first second : Location) : Prop :=
  first.row < second.row ∨ first.row = second.row ∧ first.column < second.column

instance (first second : Location) : Decidable (first.Before second) :=
  inferInstanceAs (Decidable (_ ∨ _))

theorem le_iff {first second : Location} :
    first.le second = true
      ↔ first.row < second.row ∨ first.row = second.row ∧ first.column ≤ second.column := by
  simp [le]

theorem Before.le {first second : Location} (before : first.Before second) :
    first.le second = true := by
  rw [le_iff]
  unfold Before at before
  omega

theorem Before.trans_le {first second third : Location} (before : first.Before second)
    (onward : second.le third = true) : first.Before third := by
  rw [le_iff] at onward
  unfold Before at before ⊢
  omega

/-- Each character of a text that begins at a place leads to a later place. -/
def Climbs : Location → List Char → Prop
  | _, [] => True
  | place, character :: rest =>
    place.Before (place.step character) ∧ (place.step character).Climbs rest

theorem climbs_append {place : Location} {first second : List Char} :
    place.Climbs (first ++ second) ↔ place.Climbs first ∧ (place.advance first).Climbs second := by
  induction first generalizing place with
  | nil => simp [Climbs, advance]
  | cons character rest ih => simp [Climbs, ih, advance, and_assoc]

theorem Climbs.le_advance {place : Location} {text : List Char} (climbs : place.Climbs text) :
    place.le (place.advance text) = true := by
  induction text generalizing place with
  | nil => exact sorts_locationLe.refl place
  | cons character rest ih => exact sorts_locationLe.trans _ _ _ climbs.1.le (ih climbs.2)

theorem Climbs.before_advance {place : Location} {text : List Char} (climbs : place.Climbs text)
    (some : text ≠ []) : place.Before (place.advance text) := by
  cases text with
  | nil => contradiction
  | cons character rest => exact climbs.1.trans_le climbs.2.le_advance

/-- In range, the place after a character is later than its own. -/
theorem InRange.before_step {front : List Char} {character : Char}
    (inRange : InRange (front ++ [character])) :
    (start.advance front).Before ((start.advance front).step character) := by
  have onward : (start.advance front).step character = start.advance (front ++ [character]) := by
    rw [advance_append]
    rfl
  have whole : InRange (front ++ [character] ++ []) := by rwa [List.append_nil]
  rcases inRange.row_column with ⟨row, column⟩
  rcases whole.row_column with ⟨row', column'⟩
  rw [onward, Before, row, column, row', column']
  by_cases newline : character = '\n'
  · left
    subst newline
    rw [List.count_append, List.count_singleton_self]
    omega
  · right
    have sameRow : (front ++ [character]).count '\n' = front.count '\n' := by
      simp [newline]
    rw [lastLine_concat front newline, sameRow, List.length_append, List.length_singleton]
    omega

/-- A text in range climbs, whatever part of it has been passed. -/
theorem InRange.climbs {front back : List Char} (inRange : InRange (front ++ back)) :
    (start.advance front).Climbs back := by
  induction back generalizing front with
  | nil => trivial
  | cons character rest ih =>
      have here : InRange (front ++ [character]) := fun part starts =>
        inRange part (starts.trans ⟨rest, by simp⟩)
      have later : InRange (front ++ [character] ++ rest) := by simpa using inRange
      have further := ih later
      rw [advance_append] at further
      exact ⟨here.before_step, further⟩

end Location

namespace Layout

variable {place middle last : Location} {tokens more : List Token}

/-- Tokens that stand between two places, in the order of their places. -/
structure Rising (place last : Location) (tokens : List Token) : Prop where
  onward : place.le last = true
  sorted : tokens.Pairwise fun first second => first.location.le second.location
  after : ∀ token ∈ tokens, place.le token.location = true
  upTo : ∀ token ∈ tokens, token.location.le last = true

namespace Rising

theorem nil (onward : place.le last = true) : Rising place last [] where
  onward := onward
  sorted := .nil
  after := by simp
  upTo := by simp

/-- Tokens that all stand at one place. -/
theorem of_forall (here : ∀ token ∈ tokens, token.location = place) :
    Rising place place tokens where
  onward := sorts_locationLe.refl place
  sorted := by
    refine List.pairwise_of_forall_mem_list ?_
    intro first firstMem second secondMem
    rw [here first firstMem, here second secondMem]
    exact sorts_locationLe.refl place
  after token member := by
    rw [here token member]
    exact sorts_locationLe.refl place
  upTo token member := by
    rw [here token member]
    exact sorts_locationLe.refl place

theorem append (first : Rising place middle tokens) (second : Rising middle last more) :
    Rising place last (tokens ++ more) where
  onward := sorts_locationLe.trans _ _ _ first.onward second.onward
  sorted := by
    refine List.pairwise_append.mpr ⟨first.sorted, second.sorted, ?_⟩
    intro token tokenMem later laterMem
    exact sorts_locationLe.trans _ _ _ (first.upTo token tokenMem) (second.after later laterMem)
  after token member := by
    rcases List.mem_append.mp member with early | late
    · exact first.after token early
    · exact sorts_locationLe.trans _ _ _ first.onward (second.after token late)
  upTo token member := by
    rcases List.mem_append.mp member with early | late
    · exact sorts_locationLe.trans _ _ _ (first.upTo token early) second.onward
    · exact second.upTo token late

theorem mono (rising : Rising place middle tokens) (onward : middle.le last = true) :
    Rising place last tokens := by
  rw [← List.append_nil tokens]
  exact rising.append (.nil onward)

end Rising

namespace Reader

variable {reader : Reader}

/-- The earliest place where a reader that has reached a place can still put out a token. -/
def earliest (reader : Reader) (place : Location) : Location :=
  reader.pending.getD place

/-- The newline that a reader keeps lies behind the place that it has reached. -/
structure Trailing (reader : Reader) (place : Location) : Prop where
  behind : ∀ newline ∈ reader.pending, newline.le place = true
  settled : reader.line = .content → reader.pending = none

theorem trailing_initial (place : Location) : initial.Trailing place :=
  ⟨by simp [initial], by simp [initial]⟩

theorem Trailing.earliest_le (trailing : reader.Trailing place) :
    (reader.earliest place).le place = true := by
  unfold earliest
  cases pending : reader.pending with
  | none => exact sorts_locationLe.refl place
  | some newline => exact trailing.behind newline pending

theorem location_of_mem_settle {level : Nat} {token : Token}
    (member : token ∈ (reader.settle level).1) : reader.pending = some token.location := by
  cases pending : reader.pending with
  | none => simp [settle_of_none pending] at member
  | some newline =>
      rw [settle_of_some pending, openBlock_fst] at member
      rcases List.mem_cons.mp member with rfl | closing
      · rfl
      · rw [List.eq_of_mem_replicate closing]
        rfl

/-- The markers of the line before, and then tokens at the place that is reached. -/
theorem Trailing.rising_settle (trailing : reader.Trailing place) (level : Nat)
    (here : ∀ token ∈ tokens, token.location = place) :
    Rising (reader.earliest place) place ((reader.settle level).1 ++ tokens) := by
  have markers :
      Rising (reader.earliest place) (reader.earliest place) (reader.settle level).1 := by
    refine .of_forall fun token member => ?_
    rw [earliest, location_of_mem_settle member, Option.getD_some]
  exact (markers.mono trailing.earliest_le).append (.of_forall here)

/-- What one step of a reader preserves. -/
structure Onward (reader : Reader) (place last : Location)
    (yield : List Token × Reader) : Prop where
  trailing : yield.2.Trailing last
  rising : Rising (reader.earliest place) (yield.2.earliest last) yield.1

/-- A step that yields nothing and leaves the pending newline as it is. -/
theorem Trailing.silent (trailing : reader.Trailing place) {after : Reader}
    (onward : place.le last = true)
    (kept : after.pending = reader.pending)
    (line : after.line = .content → reader.line = .content) :
    reader.Onward place last ([], after) := by
  have behind : after.Trailing last := by
    refine ⟨?_, fun inside => kept ▸ trailing.settled (line inside)⟩
    intro newline member
    rw [kept] at member
    exact sorts_locationLe.trans _ _ _ (trailing.behind newline member) onward
  refine ⟨behind, .nil ?_⟩
  unfold earliest
  rw [kept]
  cases reader.pending with
  | none => exact onward
  | some newline => exact sorts_locationLe.refl newline

/-- A step that puts out the markers of the line before and tokens at the place that is reached. -/
theorem Trailing.settles (trailing : reader.Trailing place) {after : Reader}
    (onward : place.le last = true)
    (level : Nat) (settled : after.pending = none)
    (here : ∀ token ∈ tokens, token.location = place) :
    reader.Onward place last ((reader.settle level).1 ++ tokens, after) := by
  have rising := (trailing.rising_settle level here).mono onward
  have emptied : after.earliest last = last := by simp [earliest, settled]
  refine ⟨⟨by simp [settled], fun _ => settled⟩, ?_⟩
  rwa [emptied]

theorem Trailing.newline (trailing : reader.Trailing place) (onward : place.le last = true) :
    reader.Onward place last (reader.newline place) := by
  cases line : reader.line with
  | content =>
      have none_ := trailing.settled line
      simp only [Reader.newline, line]
      refine ⟨⟨?_, by simp [freshLine]⟩, .nil ?_⟩
      · intro newline member
        obtain rfl : place = newline := by simpa [freshLine] using member
        exact onward
      · simp only [earliest, none_, freshLine, Option.getD_none, Option.getD_some]
        exact sorts_locationLe.refl place
  | comment =>
      simp only [Reader.newline, line]
      exact trailing.silent onward rfl (by simp [freshLine])
  | nothing =>
      simp only [Reader.newline, line]
      refine trailing.settles onward 0 ?_ ?_
      · simp [freshLine, settle_pending]
      · split <;> simp [Token.lineBreak]

theorem Trailing.content (trailing : reader.Trailing place) (onward : place.le last = true)
    (lexeme : Lexeme) (kind : TokenKind) :
    reader.Onward place last (reader.content place lexeme kind) := by
  have here : ∀ token ∈ [Token.mk kind lexeme.tokenText place], token.location = place := by simp
  simp only [Reader.content]
  by_cases inside : reader.line = .content
  · -- Inside the content of a line there is nothing to settle.
    have settle := settle_of_none (trailing.settled inside) 0
    rw [if_pos inside, ← settle]
    refine trailing.settles onward 0 ?_ here
    split <;> simp [freshLine, settle_pending]
  · rw [if_neg inside]
    refine trailing.settles onward _ ?_ here
    split <;> simp [freshLine, settle_pending]

/-- One step puts out tokens in order, none before the newline that was kept. -/
theorem Trailing.step (trailing : reader.Trailing place) (onward : place.le last = true)
    (lexeme : Lexeme) : reader.Onward place last (reader.step place lexeme) := by
  cases kind : lexeme.kind with
  | newline =>
      simp only [Reader.step, kind]
      exact trailing.newline onward
  | indent =>
      simp only [Reader.step, kind]
      split
      · exact trailing.silent onward rfl id
      · exact trailing.silent onward rfl id
  | lineComment =>
      simp only [Reader.step, kind]
      split
      · exact trailing.silent onward rfl id
      · exact trailing.silent onward rfl (by simp)
  | space | unrecognized =>
      simp only [Reader.step, kind]
      exact trailing.silent onward rfl id
  | literal _ _ | name _ | placeholder | operator | mark _ =>
      simp only [Reader.step, kind, Lexeme.Kind.token?]
      exact trailing.content onward lexeme _

theorem Trailing.finish (trailing : reader.Trailing place) :
    Rising (reader.earliest place) place (reader.finish place) := by
  refine trailing.rising_settle 0 ?_
  intro token member
  rw [List.eq_of_mem_replicate member]
  rfl

/-- A reader puts out tokens in order, up to the end of the text, as long as the text climbs. -/
theorem Trailing.run (trailing : reader.Trailing place) {lexemes : List Lexeme}
    (climbs : place.Climbs (lexemes.flatMap Lexeme.text)) :
    Rising (reader.earliest place) (place.advance (lexemes.flatMap Lexeme.text))
      (reader.run place lexemes) := by
  induction lexemes generalizing reader place with
  | nil => exact trailing.finish
  | cons lexeme rest ih =>
      rw [List.flatMap_cons, Location.climbs_append] at climbs
      have first := trailing.step climbs.1.le_advance lexeme
      have later := ih first.trailing climbs.2
      rw [List.flatMap_cons, Location.advance, List.foldl_append]
      exact first.rising.append later

end Reader

/-- The tokens of a text in range, markers included, are in the order of their places. -/
theorem sorted_read {text : String} (inRange : Location.InRange (withFinalNewline text.toList)) :
    (read text).tokens.Pairwise fun first second => first.location.le second.location := by
  have climbs : Location.start.Climbs
      ((Lexeme.scan (withFinalNewline text.toList)).flatMap Lexeme.text) := by
    rw [Lexeme.flatMap_text_scan]
    exact @Location.InRange.climbs [] _ inRange
  exact ((Reader.trailing_initial .start).run climbs).sorted

end Layout

end Treatise
