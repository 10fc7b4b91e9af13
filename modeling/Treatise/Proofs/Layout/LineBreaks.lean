import Treatise.Proofs.Layout.Concatenation

/-!
# Line breaks and blocks

A blank line settles the pending newline at level zero, which closes all blocks, and only then does
it leave a line break. A block comment that owns the newline after it leaves none pending: if it
stands inside a block, that block is still open at the line break of a blank line right after it.

Main statement: every other line break stands outside all blocks.
-/

namespace Treatise.Layout

variable {tokens more : List Token} {mark : Token}

/-- All blocks that open in the tokens are closed in them, unless a block comment comes last. -/
def Outside (tokens : List Token) : Prop :=
  opens tokens = closes tokens ∨ ∃ last ∈ tokens.getLast?, last.kind = .literal .blockComment

/-- Every line break among the tokens stands outside all blocks, unless it follows a block
comment. -/
def Grounded (tokens : List Token) : Prop :=
  ∀ earlier mark, earlier ++ [mark] <+: tokens → mark.kind = .lineBreak → Outside earlier

theorem outside_of_depthAfter (closed : depthAfter 0 tokens = some 0) : Outside tokens :=
  .inl (by simpa using (closes_add_depth closed).symm)

theorem grounded_nil : Grounded [] := by
  intro earlier mark initial
  simp at initial

theorem Grounded.concat (grounded : Grounded tokens)
    (outside : mark.kind = .lineBreak → Outside tokens) : Grounded (tokens ++ [mark]) := by
  intro earlier last initial isBreak
  rcases List.prefix_concat_iff.mp initial with same | inside
  · simp only [List.append_singleton_inj] at same
    rcases same with ⟨rfl, rfl⟩
    exact outside isBreak
  · exact grounded earlier last inside isBreak

theorem Grounded.append (grounded : Grounded tokens)
    (unbroken : ∀ token ∈ more, token.kind ≠ .lineBreak) : Grounded (tokens ++ more) := by
  induction more using List.reverseRecOn with
  | nil => rwa [List.append_nil]
  | append_singleton front last ih =>
      rw [← List.append_assoc]
      refine (ih fun token member => unbroken token (List.mem_append_left _ member)).concat ?_
      intro isBreak
      exact absurd isBreak (unbroken last (by simp))

namespace Reader

variable {reader : Reader}

theorem unbroken_settle (level : Nat) :
    ∀ token ∈ (reader.settle level).1, token.kind ≠ .lineBreak := by
  intro token member
  cases pending : reader.pending with
  | none => simp [settle_of_none pending] at member
  | some location =>
      rw [settle_of_some pending, openBlock_fst, List.mem_cons, List.mem_replicate] at member
      rcases member with rfl | ⟨-, rfl⟩ <;> simp [Token.blockOpen, Token.blockClose]

/-- What holds of a reader that has yielded some tokens, if their line breaks are grounded. -/
structure Grounds (reader : Reader) (tokens : List Token) : Prop where
  reached : reader.Reached tokens
  depth : depthAfter 0 tokens = some reader.openBlocks
  grounded : Grounded tokens
  breakable : reader.breakable = true → ∀ last ∈ tokens.getLast?, last.kind ≠ .lineBreak

theorem grounds_initial : initial.Grounds [] where
  reached := reached_initial
  depth := rfl
  grounded := grounded_nil
  breakable := nofun

namespace Grounds

/-- Where a blank line may leave a line break, it has closed all blocks. -/
theorem outside_settle (grounds : reader.Grounds tokens) (line : reader.line = .nothing)
    (breakable : (reader.settle 0).2.breakable = true) :
    Outside (tokens ++ (reader.settle 0).1) := by
  cases pending : reader.pending with
  | some location =>
      refine outside_of_depthAfter ?_
      rw [depthAfter_append, grounds.depth, Option.bind_some, depthAfter_settle,
        openBlocks_settle_zero grounds.reached.sound pending]
  | none =>
      rw [settle_of_none pending] at breakable ⊢
      rw [List.append_nil]
      rcases grounds.reached.settled pending (by simp [line]) with closed | ⟨last, member, kind⟩
      · exact outside_of_depthAfter (by rw [grounds.depth, closed])
      · exact .inr ⟨last, member, kind.resolve_left (grounds.breakable breakable last member)⟩

theorem newline (grounds : reader.Grounds tokens) (location : Location) :
    Grounded (tokens ++ (reader.newline location).1)
      ∧ ((reader.newline location).2.breakable = true →
        ∀ last ∈ (tokens ++ (reader.newline location).1).getLast?, last.kind ≠ .lineBreak) := by
  unfold Reader.newline
  split
  · rw [List.append_nil]
    exact ⟨grounds.grounded, grounds.breakable⟩
  · rw [List.append_nil]
    exact ⟨grounds.grounded, grounds.breakable⟩
  · next line =>
    refine ⟨?_, nofun⟩
    dsimp only
    have settled : Grounded (tokens ++ (reader.settle 0).1) :=
      grounds.grounded.append (unbroken_settle 0)
    split
    · next breakable =>
      rw [← List.append_assoc]
      exact settled.concat fun _ => grounds.outside_settle line breakable
    · rwa [List.append_nil]

theorem content (grounds : reader.Grounds tokens) (location : Location) {lexeme : Lexeme}
    {kind : TokenKind} (becomes : lexeme.kind.token? = some kind) :
    Grounded (tokens ++ (reader.content location lexeme kind).1)
      ∧ ∀ last ∈ (tokens ++ (reader.content location lexeme kind).1).getLast?,
        last.kind ≠ .lineBreak := by
  have notBreak : kind ≠ .lineBreak := (Lexeme.Kind.token?_ne_marker becomes).2.2
  unfold Reader.content
  dsimp only
  generalize level : (if kind = .mark .dotSpace then reader.indent + 1 else reader.indent) = depth
  have settled : Grounded (tokens
      ++ (if reader.line = .content then ([], reader) else reader.settle depth).1) := by
    split
    · simpa using grounds.grounded
    · exact grounds.grounded.append (unbroken_settle depth)
  rw [← List.append_assoc]
  exact ⟨settled.concat fun isBreak => absurd isBreak notBreak, by simpa using notBreak⟩

theorem step (grounds : reader.Grounds tokens) (location : Location) (lexeme : Lexeme) :
    (reader.step location lexeme).2.Grounds (tokens ++ (reader.step location lexeme).1) := by
  have reached := grounds.reached.step location lexeme
  have depth : depthAfter 0 (tokens ++ (reader.step location lexeme).1)
      = some (reader.step location lexeme).2.openBlocks := by
    rw [depthAfter_append, grounds.depth, Option.bind_some, depthAfter_step]
  suffices Grounded (tokens ++ (reader.step location lexeme).1)
      ∧ ((reader.step location lexeme).2.breakable = true →
        ∀ last ∈ (tokens ++ (reader.step location lexeme).1).getLast?, last.kind ≠ .lineBreak) from
    ⟨reached, depth, this.1, this.2⟩
  have same : Grounded (tokens ++ []) ∧ (reader.breakable = true →
      ∀ last ∈ (tokens ++ []).getLast?, last.kind ≠ .lineBreak) := by
    rw [List.append_nil]
    exact ⟨grounds.grounded, grounds.breakable⟩
  unfold Reader.step
  split
  · exact grounds.newline location
  · split <;> exact same
  · split <;> exact same
  · exact same
  · exact same
  · split
    · next becomes =>
      rcases grounds.content location becomes with ⟨grounded, last⟩
      exact ⟨grounded, fun _ => last⟩
    · exact same

theorem steps (grounds : reader.Grounds tokens) (lexemes : List (Located Lexeme)) :
    (reader.steps lexemes).2.Grounds (tokens ++ (reader.steps lexemes).1) := by
  induction lexemes generalizing reader tokens with
  | nil => simpa using grounds
  | cons found rest ih =>
      simpa [Reader.steps] using ih (grounds.step found.location found.value)

end Grounds

theorem unbroken_finish (location : Location) :
    ∀ token ∈ reader.finish location, token.kind ≠ .lineBreak := by
  intro token member
  rcases List.mem_append.mp member with settled | closes
  · exact unbroken_settle 0 token settled
  · rw [(List.mem_replicate.mp closes).2]
    simp [Token.blockClose]

end Reader

/-- The line breaks of a text are grounded. -/
theorem grounded_read (text : String) : Grounded (read text).tokens := by
  simp only [read, Reader.run_eq_steps]
  exact (Reader.grounds_initial.steps _).grounded.append (Reader.unbroken_finish _)

end Treatise.Layout
