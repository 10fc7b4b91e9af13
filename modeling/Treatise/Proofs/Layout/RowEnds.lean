import Treatise.Proofs.Layout.Concatenation

/-!
# The ends of rows

The kinds and the texts of the tokens do not depend on where a text stands on its page. Nor do they
depend on the blanks in front of a newline, or on what a line comment says: a reader yields the same
for lexemes when these are trimmed.

Each row with content that ends with a newline opens a block. A block comment that owns the newline
of its row ends the row too, and opens none.
-/

namespace Treatise.Layout

/-! ## Reading at no place -/

namespace Reader

/-- Reads lexemes that are at no place. -/
def bare (reader : Reader) : List Lexeme → List Token
  | [] => reader.finish .nowhere
  | lexeme :: rest =>
    (reader.step .nowhere lexeme).1 ++ (reader.step .nowhere lexeme).2.bare rest

theorem unplaced_run {reader other : Reader} (alike : Alike (fun _ => .nowhere) reader other)
    (location : Location) (lexemes : List Lexeme) :
    unplaced (reader.run location lexemes) = other.bare lexemes := by
  induction lexemes generalizing reader other location with
  | nil => exact (alike.finish location).symm
  | cons lexeme rest ih =>
      rcases alike.step location lexeme with ⟨tokens, after⟩
      rw [run, unplaced_append, ih after, bare, tokens]
      rfl

end Reader

theorem unplaced_read (text : String) :
    unplaced (read text).tokens
      = Reader.initial.bare (Lexeme.scan (withFinalNewline text.toList)) :=
  Reader.unplaced_run ⟨Reader.sound_initial, Reader.sound_initial, rfl, rfl, rfl, rfl, rfl⟩ _ _

/-! ## Trimmed lexemes -/

namespace Lexeme

/-- A blank inside a line. -/
def isBlank (lexeme : Lexeme) : Bool :=
  lexeme.kind == .space || lexeme.kind == .indent

def startsNewline (lexemes : List Lexeme) : Bool :=
  lexemes.head?.any (·.kind == .newline)

/-- Puts a lexeme in front of others, but for a blank in front of a newline and the text of a
comment. -/
def trim (lexeme : Lexeme) (rest : List Lexeme) : List Lexeme :=
  if lexeme.isBlank && startsNewline rest then rest
  else if lexeme.kind = .lineComment then ⟨.lineComment, []⟩ :: rest
  else lexeme :: rest

/-- Lexemes without the blanks in front of newlines and without the texts of line comments. -/
def trimmed (lexemes : List Lexeme) : List Lexeme :=
  lexemes.foldr trim []

theorem trimmed_cons (lexeme : Lexeme) (rest : List Lexeme) :
    trimmed (lexeme :: rest) = lexeme.trim (trimmed rest) := rfl

def lineEnd : Lexeme := ⟨.newline, ['\n']⟩

@[simp]
theorem trimmed_lineEnd (rest : List Lexeme) :
    trimmed (lineEnd :: rest) = lineEnd :: trimmed rest := rfl

@[simp]
theorem trimmed_lineComment (text : List Char) (rest : List Lexeme) :
    trimmed (⟨.lineComment, text⟩ :: rest) = ⟨.lineComment, []⟩ :: trimmed rest := rfl

theorem trimmed_of_content {lexeme : Lexeme} (content : lexeme.kind.token?.isSome)
    (rest : List Lexeme) : trimmed (lexeme :: rest) = lexeme :: trimmed rest := by
  rcases lexeme with ⟨kind, text⟩
  cases kind with
  | newline | indent | space | lineComment | unrecognized => cases content
  | literal _ _ | name _ | placeholder | operator | mark _ => rfl

theorem trimmed_blank {blank : Lexeme} (isBlank : blank.isBlank = true) {rest more : List Lexeme}
    (ends : trimmed rest = lineEnd :: more) : trimmed (blank :: rest) = lineEnd :: more := by
  have starts : startsNewline (trimmed rest) = true := by
    rw [ends]
    rfl
  rw [trimmed_cons, trim, isBlank, starts, Bool.and_self, if_pos rfl, ends]

theorem trimmed_blanks {blanks : List Lexeme} (all : ∀ lexeme ∈ blanks, lexeme.isBlank = true)
    (rest : List Lexeme) : trimmed (blanks ++ lineEnd :: rest) = lineEnd :: trimmed rest := by
  induction blanks with
  | nil => rfl
  | cons lexeme blanks ih =>
      rcases List.forall_mem_cons.mp all with ⟨blank, later⟩
      exact trimmed_blank blank (ih later)

end Lexeme

namespace Reader

open Lexeme (trimmed trim)

/-- A newline forgets the indents of its line. -/
theorem newline_shifted (reader : Reader) (indent : Nat) (location : Location) :
    { reader with indent := indent }.newline location = reader.newline location := by
  have shifted := settle_shifted reader indent reader.line 0
  unfold newline
  dsimp only
  rw [shifted]
  rfl

/-- A blank in front of a newline yields nothing. -/
theorem bare_blank (reader : Reader) {blank : Lexeme} (isBlank : blank.isBlank = true)
    {rest : List Lexeme} (starts : Lexeme.startsNewline rest = true) :
    reader.bare (blank :: rest) = reader.bare rest := by
  rcases blank with ⟨kind, text⟩
  rcases rest with _ | ⟨⟨kind', text'⟩, rest⟩
  · cases starts
  obtain rfl : kind' = .newline := by simpa [Lexeme.startsNewline] using starts
  rcases (by simpa [Lexeme.isBlank] using isBlank : kind = .space ∨ kind = .indent) with rfl | rfl
  · rfl
  · rw [bare]
    simp only [step]
    split
    · rfl
    · simp only [bare, step, newline_shifted, List.nil_append]

theorem bare_trim (reader : Reader) (lexeme : Lexeme) (rest : List Lexeme) :
    reader.bare (lexeme.trim rest) = reader.bare (lexeme :: rest) := by
  unfold trim
  split
  · next blank =>
    rw [Bool.and_eq_true] at blank
    exact (bare_blank reader blank.1 blank.2).symm
  · split
    · next comment => simp only [bare, step, comment]
    · rfl

/-- Trimmed lexemes are read the same. -/
theorem bare_trimmed (reader : Reader) (lexemes : List Lexeme) :
    reader.bare (trimmed lexemes) = reader.bare lexemes := by
  induction lexemes generalizing reader with
  | nil => rfl
  | cons lexeme rest ih => rw [Lexeme.trimmed_cons, bare_trim, bare, bare, ih]

end Reader

/-! ## Rows with content -/

/-- How many newlines end a row with content. A block comment that owns the newline of its row is no
such newline. The row of the first lexeme has content before it if it is `begun`. -/
def contentRows (begun : Bool) : List Lexeme → Nat
  | [] => 0
  | lexeme :: rest =>
    if lexeme.kind = .newline then begun.toNat + contentRows false rest
    else if lexeme.kind.token?.isSome then contentRows (!lexeme.ownsNewline) rest
    else contentRows begun rest

theorem contentRows_of_content (begun : Bool) {lexeme : Lexeme} {kind : TokenKind}
    (content : lexeme.kind.token? = some kind) (rest : List Lexeme) :
    contentRows begun (lexeme :: rest) = contentRows (!lexeme.ownsNewline) rest := by
  have inline : lexeme.kind ≠ .newline := by
    intro newline
    simp [newline, Lexeme.Kind.token?] at content
  rw [contentRows, if_neg inline, content]
  rfl

theorem contentRows_of_bare (begun : Bool) {lexeme : Lexeme} (bare : lexeme.kind.token? = none)
    (inline : lexeme.kind ≠ .newline) (rest : List Lexeme) :
    contentRows begun (lexeme :: rest) = contentRows begun rest := by
  rw [contentRows, if_neg inline, bare]
  rfl

/-- How many blocks open among tokens. -/
def openings (tokens : List Token) : Nat :=
  tokens.countP (·.kind == .blockOpen)

theorem openings_append (first second : List Token) :
    openings (first ++ second) = openings first + openings second :=
  List.countP_append

theorem openings_replicate_blockClose (count : Nat) (location : Location) :
    openings (List.replicate count (Token.blockClose location)) = 0 := by
  simp [openings, Token.blockClose]

namespace Reader

/-- A pending newline opens one block. -/
theorem openings_settle (reader : Reader) (level : Nat) :
    openings (reader.settle level).1 = reader.pending.toList.length := by
  cases pending : reader.pending with
  | none => rw [settle_of_none pending]; rfl
  | some location =>
      rw [settle_of_some pending, openBlock_fst, openings, List.countP_cons]
      exact congrArg (· + 1) (openings_replicate_blockClose _ location)

/-- Nothing is pending inside a row with content. -/
def Begun (reader : Reader) : Prop :=
  reader.line = .content → reader.pending = none

theorem begun_of_line {reader : Reader} (outside : reader.line ≠ .content) : reader.Begun :=
  (absurd · outside)

/-- The blocks that open from here on: for a pending newline, and for the rows with content. -/
def due (reader : Reader) (lexemes : List Lexeme) : Nat :=
  reader.pending.toList.length + contentRows (decide (reader.line = .content)) lexemes

theorem due_newline {reader : Reader} (begun : reader.Begun) (location : Location)
    (rest : List Lexeme) :
    (reader.newline location).2.Begun
      ∧ openings (reader.newline location).1 + (reader.newline location).2.due rest
        = reader.pending.toList.length
          + ((decide (reader.line = .content)).toNat + contentRows false rest) := by
  cases line : reader.line with
  | nothing =>
      have opened := openings_settle reader 0
      have unbroken : openings (if (reader.settle 0).2.breakable then [Token.lineBreak location]
          else []) = 0 := by
        split <;> rfl
      simp only [newline, line, openings_append, opened, unbroken, due, freshLine, settle_pending]
      refine ⟨begun_of_line (by simp), by simp⟩
  | comment =>
      simp only [newline, line, due, freshLine]
      exact ⟨begun_of_line (by simp), by simp [openings]⟩
  | content =>
      simp only [newline, line, due, freshLine, begun line]
      exact ⟨begun_of_line (by simp), by simp [openings]⟩

theorem due_content {reader : Reader} (begun : reader.Begun) (location : Location)
    {lexeme : Lexeme} {kind : TokenKind} (content : lexeme.kind.token? = some kind)
    (rest : List Lexeme) :
    (reader.content location lexeme kind).2.Begun
      ∧ openings (reader.content location lexeme kind).1
          + (reader.content location lexeme kind).2.due rest
        = reader.pending.toList.length + contentRows (!lexeme.ownsNewline) rest := by
  unfold Reader.content
  dsimp only
  generalize (if kind = .mark .dotSpace then reader.indent + 1 else reader.indent) = level
  have before : openings (if reader.line = .content then ([], reader) else reader.settle level).1
        = reader.pending.toList.length
      ∧ (if reader.line = .content then ([], reader) else reader.settle level).2.pending
        = none := by
    split
    · next inside => exact ⟨by rw [begun inside]; rfl, begun inside⟩
    · exact ⟨openings_settle reader level, settle_pending reader level⟩
  have unmarked : openings [⟨kind, lexeme.tokenText, location⟩] = 0 := by
    have apart : kind ≠ .blockOpen := by
      rintro rfl
      cases shape : lexeme.kind <;> simp [shape, Lexeme.Kind.token?] at content
    simp [openings, apart]
  rcases before with ⟨opened, settled⟩
  rw [openings_append, opened, unmarked]
  cases lexeme.ownsNewline with
  | true => exact ⟨fun _ => settled, by simp [due, freshLine, settled]⟩
  | false => exact ⟨fun _ => settled, by simp [due, settled]⟩

theorem due_step {reader : Reader} (begun : reader.Begun) (location : Location) (lexeme : Lexeme)
    (rest : List Lexeme) :
    (reader.step location lexeme).2.Begun
      ∧ openings (reader.step location lexeme).1 + (reader.step location lexeme).2.due rest
        = reader.due (lexeme :: rest) := by
  cases becomes : lexeme.kind.token? with
  | some kind =>
      rw [@step_of_token? ⟨location, lexeme⟩ kind becomes]
      simp only [due, contentRows_of_content _ becomes]
      exact due_content begun location becomes rest
  | none =>
      cases shape : lexeme.kind with
      | newline => simpa [step, shape, due, contentRows] using due_newline begun location rest
      | space | unrecognized =>
          simp only [step, shape, due, contentRows_of_bare _ becomes (by simp [shape])]
          exact ⟨begun, by simp [openings]⟩
      | indent =>
          simp only [step, shape, due, contentRows_of_bare _ becomes (by simp [shape])]
          split <;> exact ⟨begun, by simp [openings]⟩
      | lineComment =>
          simp only [step, shape, due, contentRows_of_bare _ becomes (by simp [shape])]
          split
          · exact ⟨begun, by simp [openings]⟩
          · next outside => exact ⟨begun_of_line (by simp), by simp [openings, outside]⟩
      | literal _ _ | name _ | placeholder | operator | mark _ =>
          simp [shape, Lexeme.Kind.token?] at becomes

theorem openings_bare {reader : Reader} (begun : reader.Begun) (lexemes : List Lexeme) :
    openings (reader.bare lexemes) = reader.due lexemes := by
  induction lexemes generalizing reader with
  | nil =>
      rw [bare, finish, openings_append, openings_settle, openings_replicate_blockClose]
      rfl
  | cons lexeme rest ih =>
      rcases due_step begun .nowhere lexeme rest with ⟨after, due⟩
      rw [bare, openings_append, ih after, due]

end Reader

end Treatise.Layout
