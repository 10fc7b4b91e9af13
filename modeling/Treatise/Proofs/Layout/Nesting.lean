import Mathlib.Data.List.Induction
import Treatise.Proofs.Layout.Stack

/-!
# Nesting of blocks

The markers of a text are nested: no block closes before it is open, and at the end all are closed.
The depth after some tokens is the number of open blocks that the reader keeps, so this follows step
by step.
-/

namespace Treatise.Layout

/-- How many blocks open in tokens. -/
def opens (tokens : List Token) : Nat :=
  tokens.countP fun token => token.kind == .blockOpen

/-- How many blocks close in tokens. -/
def closes (tokens : List Token) : Nat :=
  tokens.countP fun token => token.kind == .blockClose

/-- No beginning of the tokens closes more blocks than it opens. -/
def Nested (tokens : List Token) : Prop :=
  ∀ start, start <+: tokens → closes start ≤ opens start

/-- How many blocks are open after tokens, unless they close a block that is not open. -/
def depthAfter (depth : Nat) : List Token → Option Nat
  | [] => some depth
  | token :: rest =>
    match token.kind, depth with
    | .blockOpen, _ => depthAfter (depth + 1) rest
    | .blockClose, 0 => none
    | .blockClose, outer + 1 => depthAfter outer rest
    | _, _ => depthAfter depth rest

@[simp]
theorem depthAfter_nil (depth : Nat) : depthAfter depth [] = some depth := rfl

@[simp]
theorem depthAfter_blockOpen (depth : Nat) (location : Location) (rest : List Token) :
    depthAfter depth (Token.blockOpen location :: rest) = depthAfter (depth + 1) rest := rfl

@[simp]
theorem depthAfter_zero_blockClose (location : Location) (rest : List Token) :
    depthAfter 0 (Token.blockClose location :: rest) = none := rfl

@[simp]
theorem depthAfter_succ_blockClose (depth : Nat) (location : Location) (rest : List Token) :
    depthAfter (depth + 1) (Token.blockClose location :: rest) = depthAfter depth rest := rfl

theorem depthAfter_append (depth : Nat) (first second : List Token) :
    depthAfter depth (first ++ second)
      = (depthAfter depth first).bind fun reached => depthAfter reached second := by
  induction first generalizing depth with
  | nil => rfl
  | cons token rest ih =>
      cases kind : token.kind <;> cases depth <;> simp [depthAfter, kind, ih]

theorem depthAfter_blockCloses (depth count : Nat) (location : Location) :
    depthAfter depth (List.replicate count (Token.blockClose location))
      = if count ≤ depth then some (depth - count) else none := by
  induction count generalizing depth with
  | zero => simp
  | succ count ih =>
      cases depth with
      | zero => simp [List.replicate_succ]
      | succ depth => simp [List.replicate_succ, ih]

/-- Tokens that are no markers leave the depth as it is. -/
theorem depthAfter_of_unmarked {tokens : List Token}
    (unmarked : ∀ token ∈ tokens, token.kind ≠ .blockOpen ∧ token.kind ≠ .blockClose)
    (depth : Nat) : depthAfter depth tokens = some depth := by
  induction tokens with
  | nil => rfl
  | cons token rest ih =>
      rcases List.forall_mem_cons.mp unmarked with ⟨⟨notOpen, notClose⟩, later⟩
      cases kind : token.kind <;> simp_all [depthAfter]

/-- The depth after tokens balances what they open and close. -/
theorem closes_add_depth {tokens : List Token} {depth reached : Nat}
    (reaches : depthAfter depth tokens = some reached) :
    closes tokens + reached = opens tokens + depth := by
  induction tokens generalizing depth with
  | nil => simpa [closes, opens, eq_comm] using reaches
  | cons token rest ih =>
      cases kind : token.kind with
      | blockOpen =>
          have later := ih (by simpa [depthAfter, kind] using reaches)
          simp only [closes, opens, List.countP_cons, kind] at later ⊢
          simp at later ⊢
          omega
      | blockClose =>
          cases depth with
          | zero => simp [depthAfter, kind] at reaches
          | succ outer =>
              have later := ih (by simpa [depthAfter, kind] using reaches)
              simp only [closes, opens, List.countP_cons, kind] at later ⊢
              simp at later ⊢
              omega
      | lineBreak | name | operator | literal _ | mark _ =>
          have later := ih (by simpa [depthAfter, kind] using reaches)
          simpa [closes, opens, List.countP_cons, kind] using later

/-- There is a depth after tokens exactly if each of their beginnings closes what is open only. -/
theorem isSome_depthAfter_iff (tokens : List Token) (depth : Nat) :
    (depthAfter depth tokens).isSome
      ↔ ∀ start, start <+: tokens → closes start ≤ opens start + depth := by
  constructor
  · rintro reaches start ⟨rest, rfl⟩
    rw [depthAfter_append] at reaches
    cases before : depthAfter depth start with
    | none => simp [before] at reaches
    | some reached =>
        have balance := closes_add_depth before
        omega
  · intro bounded
    induction tokens using List.reverseRecOn with
    | nil => rfl
    | append_singleton front token ih =>
        rcases Option.isSome_iff_exists.mp
          (ih fun start initial => bounded start (initial.trans (List.prefix_append _ _))) with
          ⟨reached, reaches⟩
        have balance := closes_add_depth reaches
        have last := bounded (front ++ [token]) List.prefix_rfl
        rw [depthAfter_append, reaches]
        simp only [closes, opens, List.countP_append, List.countP_singleton] at balance last ⊢
        cases kind : token.kind with
        | blockClose =>
            simp only [kind] at last
            cases reached with
            | zero => simp at balance last; omega
            | succ outer => simp [depthAfter, kind]
        | blockOpen | lineBreak | name | operator | literal _ | mark _ => simp [depthAfter, kind]

theorem nested_iff {tokens : List Token} : Nested tokens ↔ (depthAfter 0 tokens).isSome :=
  (isSome_depthAfter_iff tokens 0).symm

/-! ## The depth of the reader -/

theorem Lexeme.Kind.token?_ne_marker {kind : Lexeme.Kind} {token : TokenKind}
    (content : kind.token? = some token) :
    token ≠ .blockOpen ∧ token ≠ .blockClose ∧ token ≠ .lineBreak := by
  cases kind <;> simp only [token?, Option.some.injEq, reduceCtorEq] at content <;>
    subst content <;> simp

namespace Reader

theorem depthAfter_settle (reader : Reader) (level : Nat) :
    depthAfter reader.openBlocks (reader.settle level).1
      = some (reader.settle level).2.openBlocks := by
  cases pending : reader.pending with
  | none => simp [settle_of_none pending]
  | some location =>
      have bound := closings_le { reader with pending := none } level
      rw [settle_of_some pending, openBlock_fst, openBlocks_openBlock]
      simp only [depthAfter_blockOpen, depthAfter_blockCloses]
      rw [if_pos bound]

theorem depthAfter_content (reader : Reader) (location : Location) (lexeme : Lexeme)
    {kind : TokenKind} (content : lexeme.kind.token? = some kind) :
    depthAfter reader.openBlocks (reader.content location lexeme kind).1
      = some (reader.content location lexeme kind).2.openBlocks := by
  have unmarked : ∀ depth, depthAfter depth [⟨kind, lexeme.tokenText, location⟩] = some depth :=
    depthAfter_of_unmarked (by
      have marker := Lexeme.Kind.token?_ne_marker content
      simpa using ⟨marker.1, marker.2.1⟩)
  simp only [Reader.content, depthAfter_append]
  by_cases inside : reader.line = .content
  · simp only [inside, if_true, depthAfter_nil, Option.bind_some, unmarked]
    split_ifs <;> rfl
  · simp only [inside, if_false, depthAfter_settle, Option.bind_some, unmarked]
    split_ifs <;> rfl

theorem depthAfter_newline (reader : Reader) (location : Location) :
    depthAfter reader.openBlocks (reader.newline location).1
      = some (reader.newline location).2.openBlocks := by
  cases line : reader.line with
  | content => simp [newline, line, freshLine]
  | comment => simp [newline, line, freshLine]
  | nothing =>
      simp only [newline, line, depthAfter_append, depthAfter_settle, Option.bind_some, freshLine]
      split_ifs <;> simp [depthAfter, Token.lineBreak]

/-- A step keeps count of the open blocks. -/
theorem depthAfter_step (reader : Reader) (location : Location) (lexeme : Lexeme) :
    depthAfter reader.openBlocks (reader.step location lexeme).1
      = some (reader.step location lexeme).2.openBlocks := by
  cases kind : lexeme.kind with
  | newline => simpa [step, kind] using depthAfter_newline reader location
  | indent | lineComment =>
      simp only [step, kind]
      split_ifs <;> rfl
  | space | unrecognized => simp [step, kind]
  | literal _ _ | name _ | placeholder | operator | mark _ =>
      simpa [step, kind, Lexeme.Kind.token?] using
        depthAfter_content reader location lexeme (by rw [kind]; rfl)

theorem depthAfter_steps (reader : Reader) (lexemes : List (Located Lexeme)) :
    depthAfter reader.openBlocks (reader.steps lexemes).1
      = some (reader.steps lexemes).2.openBlocks := by
  induction lexemes generalizing reader with
  | nil => rfl
  | cons found rest ih =>
      simp only [steps, depthAfter_append, depthAfter_step, Option.bind_some, ih]

theorem depthAfter_finish (reader : Reader) (location : Location) :
    depthAfter reader.openBlocks (reader.finish location) = some 0 := by
  simp [finish, depthAfter_append, depthAfter_settle, depthAfter_blockCloses]

end Reader

/-- The depth of a whole text is zero. -/
theorem depthAfter_read (text : String) : depthAfter 0 (read text).tokens = some 0 := by
  simp only [read, Reader.run_eq_steps, depthAfter_append]
  rw [show (0 : Nat) = Reader.initial.openBlocks from rfl, Reader.depthAfter_steps,
    Option.bind_some, Reader.depthAfter_finish]
  rfl

end Treatise.Layout
