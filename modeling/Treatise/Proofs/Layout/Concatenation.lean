import Mathlib.Data.List.Chain
import Treatise.Proofs.Layout.LineEnds
import Treatise.Proofs.Layout.Lines
import Treatise.Proofs.Layout.Nesting
import Treatise.Proofs.Layout.Writing
import Treatise.Proofs.Location

/-!
# Texts below each other

Whatever a text leaves behind, a blank line brings the reader back to where it is at the beginning
of a text, unless a block comment stands inside a block. Then the block is still open. In an outline
without a problem there is no such comment, which shows in its tokens: they are `Shut`.

Main statement: with a blank line between them, two texts are read as the first text and the second
one further down.
-/

namespace Treatise

namespace Location

/-- After whole lines a text goes on at the beginning of a row. -/
theorem advance_of_endsLine {text : List Char} (ends : Layout.EndsLine text) (place : Location) :
    place.advance text = ⟨place.line + .ofNat (text.count '\n'), 0⟩ := by
  rcases List.getLast?_eq_some_iff.mp ends with ⟨front, rfl⟩
  have line := line_advance place (front ++ ['\n'])
  rw [advance_append] at line ⊢
  rw [← line]
  rfl

end Location

namespace Layout

namespace Reader

/-! ## Readers at other places -/

/-- Two readers that know the same, but at places that `f` changes. -/
structure Alike (f : Location → Location) (reader other : Reader) : Prop where
  sound : reader.Sound
  otherSound : other.Sound
  stack : other.stack = reader.stack
  pending : other.pending = reader.pending.map f
  indent : other.indent = reader.indent
  line : other.line = reader.line
  breakable : other.breakable = reader.breakable

namespace Alike

variable {f : Location → Location} {reader other : Reader}

theorem openBlocks (alike : Alike f reader other) : other.openBlocks = reader.openBlocks := by
  have length := congrArg List.length alike.stack
  rw [length_stack alike.sound, length_stack alike.otherSound] at length
  omega

theorem closings (alike : Alike f reader other) (level : Nat) :
    other.closings level = reader.closings level := by
  rw [Reader.closings, Reader.closings, alike.stack]

theorem openBlock (alike : Alike f reader other) (location : Location) (level : Nat) :
    (other.openBlock (f location) level).1
        = (reader.openBlock location level).1.map (Token.mapLocation f)
      ∧ Alike f (reader.openBlock location level).2 (other.openBlock (f location) level).2 := by
  refine ⟨?_, ⟨sound_openBlock alike.sound _ _, sound_openBlock alike.otherSound _ _, ?_,
    alike.pending, alike.indent, alike.line, rfl⟩⟩
  · simp [openBlock_fst, alike.closings, Token.blockOpen, Token.blockClose, Token.mapLocation]
  · rw [stack_openBlock alike.otherSound, stack_openBlock alike.sound, alike.stack]

theorem settle (alike : Alike f reader other) (level : Nat) :
    (other.settle level).1 = (reader.settle level).1.map (Token.mapLocation f)
      ∧ Alike f (reader.settle level).2 (other.settle level).2 := by
  have pending := alike.pending
  cases pending' : reader.pending with
  | none =>
      rw [pending', Option.map_none] at pending
      rw [settle_of_none pending, settle_of_none pending']
      exact ⟨rfl, alike⟩
  | some location =>
      rw [pending', Option.map_some] at pending
      rw [settle_of_some pending, settle_of_some pending']
      have settled : Alike f { reader with pending := none } { other with pending := none } :=
        { alike with pending := rfl }
      exact settled.openBlock location level

theorem newline (alike : Alike f reader other) (location : Location) :
    (other.newline (f location)).1 = (reader.newline location).1.map (Token.mapLocation f)
      ∧ Alike f (reader.newline location).2 (other.newline (f location)).2 := by
  unfold Reader.newline
  rw [alike.line]
  split
  · exact ⟨rfl, { alike with pending := rfl, indent := rfl, line := rfl }⟩
  · exact ⟨rfl, { alike with indent := rfl, line := rfl }⟩
  · rcases alike.settle 0 with ⟨markers, settled⟩
    dsimp only
    rw [markers, settled.breakable, List.map_append]
    refine ⟨?_, { settled with indent := rfl, line := rfl, breakable := rfl }⟩
    split <;> rfl

theorem content (alike : Alike f reader other) (location : Location) (lexeme : Lexeme)
    (kind : TokenKind) :
    (other.content (f location) lexeme kind).1
        = (reader.content location lexeme kind).1.map (Token.mapLocation f)
      ∧ Alike f (reader.content location lexeme kind).2
          (other.content (f location) lexeme kind).2 := by
  unfold Reader.content
  dsimp only
  generalize level : (if kind = .mark .dotSpace then reader.indent + 1 else reader.indent) = depth
  have before : (if other.line = .content then ([], other) else other.settle depth).1
        = (if reader.line = .content then ([], reader) else reader.settle depth).1.map
          (Token.mapLocation f)
      ∧ Alike f (if reader.line = .content then ([], reader) else reader.settle depth).2
        (if other.line = .content then ([], other) else other.settle depth).2 := by
    rw [alike.line]
    split
    · exact ⟨rfl, alike⟩
    · exact alike.settle depth
  rcases before with ⟨markers, settled⟩
  rw [alike.indent, level, markers, List.map_append]
  cases lexeme.ownsNewline with
  | true => exact ⟨rfl, { settled with indent := rfl, line := rfl, breakable := rfl }⟩
  | false => exact ⟨rfl, { settled with line := rfl, breakable := rfl }⟩

theorem step (alike : Alike f reader other) (location : Location) (lexeme : Lexeme) :
    (other.step (f location) lexeme).1 = (reader.step location lexeme).1.map (Token.mapLocation f)
      ∧ Alike f (reader.step location lexeme).2 (other.step (f location) lexeme).2 := by
  unfold Reader.step
  rw [alike.line]
  split
  · exact alike.newline location
  · split
    · exact ⟨rfl, alike⟩
    · exact ⟨rfl, { alike with indent := congrArg (· + 1) alike.indent, line := rfl }⟩
  · split
    · exact ⟨rfl, alike⟩
    · exact ⟨rfl, { alike with line := rfl }⟩
  · exact ⟨rfl, alike⟩
  · exact ⟨rfl, alike⟩
  · split
    · exact alike.content location lexeme _
    · exact ⟨rfl, alike⟩

theorem finish (alike : Alike f reader other) (location : Location) :
    other.finish (f location) = (reader.finish location).map (Token.mapLocation f) := by
  rcases alike.settle 0 with ⟨markers, settled⟩
  simp [Reader.finish, markers, settled.openBlocks, Token.blockClose, Token.mapLocation]

/-- Alike readers read the same tokens at places that `f` changes. -/
theorem run (alike : Alike f reader other)
    (moves : ∀ place text, f (Location.advance place text) = (f place).advance text)
    (location : Location) (lexemes : List Lexeme) :
    other.run (f location) lexemes = (reader.run location lexemes).map (Token.mapLocation f) := by
  induction lexemes generalizing reader other location with
  | nil => exact alike.finish location
  | cons lexeme rest ih =>
      rcases alike.step location lexeme with ⟨tokens, after⟩
      simp only [Reader.run, tokens, List.map_append, ← moves, ih after]

end Alike

/-! ## Between lines -/

theorem stack_settle_getLast? {reader : Reader} (sound : reader.Sound)
    (bottom : reader.stack.getLast? = some 0) (level : Nat) :
    (reader.settle level).2.stack.getLast? = some 0 := by
  cases pending : reader.pending with
  | none => rwa [settle_of_none pending]
  | some location =>
      rw [(settle_pending_eq sound pending level).2]
      rcases List.getLast?_eq_some_iff.mp bottom with ⟨front, split⟩
      cases level with
      | zero =>
          rw [List.dropWhile_eq_nil_iff.mpr (by simp)]
          rfl
      | succ level =>
          rw [split, List.dropWhile_append]
          split_ifs <;> simp [List.getLast?_cons]

end Reader

theorem Lexeme.token?_of_ownsNewline {lexeme : Lexeme} (owns : lexeme.ownsNewline = true) :
    lexeme.kind.token? = some (.literal .blockComment) := by
  unfold Lexeme.ownsNewline at owns
  split at owns
  · next kind => rw [kind, Lexeme.Kind.token?]
  · cases owns

/-- Tokens between the groups of an outline: line breaks and block comments. -/
def Token.Separates (token : Token) : Prop :=
  token.kind = .lineBreak ∨ token.kind = .literal .blockComment

/-- No block closes right after a line break or a block comment. -/
def Shut (tokens : List Token) : Prop :=
  tokens.IsChain fun mark next => mark.Separates → next.kind ≠ .blockClose

namespace Reader

/-- What holds of a reader that has yielded some tokens. -/
structure Reached (reader : Reader) (tokens : List Token) : Prop where
  sound : reader.Sound
  bottom : reader.stack.getLast? = some 0
  settled : reader.pending = none → reader.line ≠ .content →
    reader.openBlocks = 0 ∨ ∃ last ∈ tokens.getLast?, last.Separates
  broken : reader.breakable = false → ∀ last ∈ tokens.getLast?, last.kind = .lineBreak

theorem reached_initial : initial.Reached [] where
  sound := sound_initial
  bottom := rfl
  settled _ _ := .inl rfl
  broken _ := by simp

namespace Reached

variable {reader : Reader} {tokens : List Token}

theorem newline (reached : reader.Reached tokens) (location : Location) :
    (reader.newline location).2.Reached (tokens ++ (reader.newline location).1) := by
  unfold Reader.newline
  split
  · rw [List.append_nil]
    exact { reached with settled := nofun }
  · next line =>
    rw [List.append_nil]
    exact { reached with settled := fun pending _ => reached.settled pending (by simp [line]) }
  · next line =>
    have sound := sound_settle reached.sound 0
    have bottom := stack_settle_getLast? reached.sound reached.bottom 0
    cases breakable : (reader.settle 0).2.breakable with
    | true =>
        have last : (tokens ++ ((reader.settle 0).1 ++ [Token.lineBreak location])).getLast?
            = some (Token.lineBreak location) := by
          rw [← List.append_assoc, List.getLast?_concat]
        simp only [breakable, if_true]
        exact ⟨sound, bottom, fun _ _ => .inr ⟨_, last, .inl rfl⟩, fun _ => by simp [last]; rfl⟩
    | false =>
        -- A pending newline would have left a token that a line break can follow.
        cases pending : reader.pending with
        | some place => simp [settle_of_some pending, openBlock] at breakable
        | none =>
            rw [settle_of_none pending] at breakable ⊢
            dsimp only
            rw [breakable, if_neg Bool.false_ne_true, List.append_nil, List.append_nil]
            exact { reached with
              settled := fun pending _ => reached.settled pending (by simp [line])
              broken := fun _ => reached.broken breakable }

theorem content (reached : reader.Reached tokens) (location : Location) {lexeme : Lexeme}
    {kind : TokenKind} (becomes : lexeme.kind.token? = some kind) :
    (reader.content location lexeme kind).2.Reached
      (tokens ++ (reader.content location lexeme kind).1) := by
  unfold Reader.content
  dsimp only
  generalize level : (if kind = .mark .dotSpace then reader.indent + 1 else reader.indent) = depth
  have before : (if reader.line = .content then ([], reader) else reader.settle depth).2.Sound
      ∧ (if reader.line = .content then ([], reader)
        else reader.settle depth).2.stack.getLast? = some 0 := by
    split
    · exact ⟨reached.sound, reached.bottom⟩
    · exact ⟨sound_settle reached.sound depth,
        stack_settle_getLast? reached.sound reached.bottom depth⟩
  rw [← List.append_assoc]
  cases owns : lexeme.ownsNewline with
  | false => exact ⟨before.1, before.2, fun _ inside => absurd rfl inside, nofun⟩
  | true =>
      have comment : kind = .literal .blockComment :=
        Option.some.inj (becomes.symm.trans (Lexeme.token?_of_ownsNewline owns))
      exact ⟨before.1, before.2, fun _ _ => .inr ⟨_, List.getLast?_concat, .inr comment⟩, nofun⟩

theorem step (reached : reader.Reached tokens) (location : Location) (lexeme : Lexeme) :
    (reader.step location lexeme).2.Reached (tokens ++ (reader.step location lexeme).1) := by
  have same : reader.Reached (tokens ++ []) := by rwa [List.append_nil]
  unfold Reader.step
  split
  · exact reached.newline location
  · split
    · exact same
    · exact { same with }
  · split
    · exact same
    · next outside => exact { same with settled := fun pending _ => same.settled pending outside }
  · exact same
  · exact same
  · split
    · next becomes => exact reached.content location becomes
    · exact same

theorem steps (reached : reader.Reached tokens) (lexemes : List (Located Lexeme)) :
    (reader.steps lexemes).2.Reached (tokens ++ (reader.steps lexemes).1) := by
  induction lexemes generalizing reader tokens with
  | nil => simpa using reached
  | cons found rest ih =>
      simpa [Reader.steps] using ih (reached.step found.location found.value)

end Reached

/-! ## Below whole lines -/

theorem fresh_step {lexeme : Lexeme} (ends : lexeme.EndsRow) (reader : Reader)
    (location : Location) : (reader.step location lexeme).2.Fresh := by
  rcases ends with kind | owns
  · simp only [Reader.step, kind]
    unfold Reader.newline
    split <;> exact ⟨rfl, rfl⟩
  · have step := @step_of_token? ⟨location, lexeme⟩ _ (Lexeme.token?_of_ownsNewline owns) reader
    rw [step, Reader.content]
    dsimp only
    rw [if_pos owns]
    exact ⟨rfl, rfl⟩

/-- After whole lines that leave no literal open the reader is at the beginning of a line. -/
theorem fresh_steps {text : List Char} (ends : EndsLine text)
    (closed : ∀ lexeme ∈ Lexeme.scan text, lexeme.kind.isUnclosed = false) (reader : Reader)
    (location : Location) : (reader.steps (placed location (Lexeme.scan text))).2.Fresh := by
  rcases Lexeme.endsRow_of_getLast ends closed with ⟨front, last, cut, endsRow⟩
  rw [cut, placed_append, steps_append]
  exact fresh_step endsRow _ _

/-- When no block closes after a break, a blank line closes all blocks. -/
theorem Reached.openBlocks_settle {reader : Reader} {tokens : List Token} {location : Location}
    (reached : reader.Reached tokens) (fresh : reader.Fresh)
    (shut : Shut (tokens ++ reader.finish location)) : (reader.settle 0).2.openBlocks = 0 := by
  cases pending : reader.pending with
  | some place => exact openBlocks_settle_zero reached.sound pending
  | none =>
      rw [settle_of_none pending]
      change reader.openBlocks = 0
      by_contra opened
      rcases reached.settled pending (by simp [fresh.2]) with closed | ⟨last, member, separates⟩
      · exact opened closed
      · rcases Nat.exists_eq_succ_of_ne_zero opened with ⟨count, blocks⟩
        rw [Shut, List.isChain_append, finish, settle_of_none pending] at shut
        refine shut.2.2 last member (Token.blockClose location) ?_ separates rfl
        simp [blocks, List.replicate_succ]

/-- After a blank line the reader is where it is at the beginning of a text. -/
theorem Reached.alike_blank {reader : Reader} {tokens : List Token}
    (reached : reader.Reached tokens) (fresh : reader.Fresh)
    (closed : (reader.settle 0).2.openBlocks = 0) (f : Location → Location) :
    Alike f initial { (reader.settle 0).2 with breakable := false } := by
  have sound := sound_settle reached.sound 0
  have stack : (reader.settle 0).2.stack = [0] := by
    rcases List.length_eq_one_iff.mp (by rw [length_stack sound, closed]) with ⟨level, single⟩
    have bottom := stack_settle_getLast? reached.sound reached.bottom 0
    obtain rfl : level = 0 := by simpa [single] using bottom
    exact single
  exact ⟨sound_initial, sound, stack, settle_pending reader 0,
    (settle_indent reader 0).trans fresh.1,
    (settle_line reader 0).trans fresh.2, rfl⟩

theorem run_append (reader : Reader) (location : Location) (first second : List Lexeme) :
    reader.run location (first ++ second) = (reader.steps (placed location first)).1
      ++ (reader.steps (placed location first)).2.run
        (location.advance (first.flatMap Lexeme.text)) second := by
  simp only [run_eq_steps, placed_append, steps_append, List.flatMap_append,
    Location.advance_append, List.append_assoc]

theorem newline_of_fresh {reader : Reader} (fresh : reader.Fresh) (location : Location) :
    reader.newline location = ((reader.settle 0).1
        ++ (if (reader.settle 0).2.breakable then [Token.lineBreak location] else []),
      { (reader.settle 0).2 with breakable := false }) := by
  have indent := (settle_indent reader 0).trans fresh.1
  have line := (settle_line reader 0).trans fresh.2
  simp only [newline, fresh.2, freshLine, Prod.mk.injEq, true_and]
  generalize (reader.settle 0).2 = settled at indent line ⊢
  rw [← indent, ← line]

/-- Blank lines after the first one change nothing. -/
theorem run_newlines {reader : Reader} (fresh : reader.Fresh) (settled : reader.pending = none)
    (unbroken : reader.breakable = false) (location : Location) (count : Nat)
    (lexemes : List Lexeme) :
    reader.run location (List.replicate count ⟨.newline, ['\n']⟩ ++ lexemes)
      = reader.run (location.advance (List.replicate count '\n')) lexemes := by
  induction count generalizing location with
  | zero => rfl
  | succ count ih =>
      have step : reader.newline location = ([], reader) := by
        have same : { reader with breakable := false } = reader := by rw [← unbroken]
        simp [newline_of_fresh fresh, settle_of_none settled, unbroken, same]
      rw [List.replicate_succ, List.cons_append, run]
      simp only [Reader.step, step, List.nil_append, ih]
      rfl

/-- Below whole lines and a blank line, lexemes are read as at the beginning of a text. -/
theorem Reached.run_below {reader : Reader} {tokens : List Token} (reached : reader.Reached tokens)
    (fresh : reader.Fresh) {place : Location} (shut : Shut (tokens ++ reader.finish place))
    {f : Location → Location}
    (moves : ∀ place text, f (Location.advance place text) = (f place).advance text)
    {gap : Nat} (starts : f .start = place.advance (List.replicate (gap + 1) '\n'))
    (lexemes : List Lexeme) :
    ∃ breaks, tokens ++ reader.run place (List.replicate (gap + 1) ⟨.newline, ['\n']⟩ ++ lexemes)
        = tokens ++ reader.finish place ++ breaks
          ++ (initial.run .start lexemes).map (Token.mapLocation f)
      ∧ ((∃ location, breaks = [Token.lineBreak location])
        ∨ breaks = []
          ∧ ∀ last ∈ (tokens ++ reader.finish place).getLast?, last.kind = .lineBreak) := by
  -- The first blank line closes all blocks, as the end of the text would, and the others change
  -- nothing.
  have closed := reached.openBlocks_settle fresh shut
  have finish : reader.finish place = (reader.settle 0).1 := by
    simp [Reader.finish, closed]
  have alike := reached.alike_blank fresh closed f
  have below : ({ (reader.settle 0).2 with breakable := false } : Reader).run
      (place.advance ['\n']) (List.replicate gap ⟨.newline, ['\n']⟩ ++ lexemes)
        = (initial.run .start lexemes).map (Token.mapLocation f) := by
    have blank : ({ (reader.settle 0).2 with breakable := false } : Reader).Fresh :=
      ⟨alike.indent, alike.line⟩
    rw [run_newlines blank alike.pending rfl, ← Location.advance_append, List.singleton_append,
      ← List.replicate_succ, ← starts, alike.run moves]
  rw [finish]
  refine ⟨if (reader.settle 0).2.breakable then [Token.lineBreak place] else [], ?_, ?_⟩
  · rw [List.replicate_succ, List.cons_append, run]
    simp only [Reader.step, newline_of_fresh fresh, below, List.append_assoc]
  · cases breakable : (reader.settle 0).2.breakable with
    | true => exact .inl ⟨place, by simp⟩
    | false =>
        refine .inr ⟨by simp, ?_⟩
        cases pending : reader.pending with
        | some place => simp [settle_of_some pending, openBlock] at breakable
        | none =>
            rw [settle_of_none pending] at breakable ⊢
            rw [List.append_nil]
            exact reached.broken breakable

end Reader

/-! ## The text -/

theorem endsLine_withFinalNewline (text : List Char) : EndsLine (withFinalNewline text) := by
  unfold withFinalNewline
  split
  · assumption
  · exact List.getLast?_concat

theorem withFinalNewline_append (first : List Char) {second : List Char} (some : second ≠ []) :
    withFinalNewline (first ++ second) = first ++ withFinalNewline second := by
  unfold withFinalNewline
  rw [List.getLast?_append_of_ne_nil _ some]
  split <;> simp

theorem exists_gap (text : List Char) :
    ∃ gap, text ++ ['\n', '\n'] = withFinalNewline text ++ List.replicate (gap + 1) '\n' := by
  unfold withFinalNewline
  split
  · exact ⟨1, rfl⟩
  · exact ⟨0, by simp⟩

/-- Below lines, the newline at the end of an empty text is not repeated. -/
theorem exists_tail (lines : List Char) (text : String) (clean : (read text).faults = []) :
    ∃ tail, withFinalNewline (lines ++ ['\n', '\n'] ++ text.toList) = lines ++ ['\n', '\n'] ++ tail
      ∧ Reader.initial.run .start (Lexeme.scan tail) = (read text).tokens
      ∧ ∀ lexeme ∈ Lexeme.scan tail, lexeme.fault? = none := by
  by_cases empty : text.toList = []
  · obtain rfl : text = "" := by simpa using empty
    refine ⟨[], ?_, by decide +kernel, by simp [Lexeme.scan]⟩
    exact if_pos (by simp)
  · exact ⟨_, withFinalNewline_append _ empty, rfl, faultsFrom_eq_nil_iff.mp clean⟩

theorem scan_newlines (count : Nat) (text : List Char) :
    Lexeme.scan (List.replicate count '\n' ++ text)
      = List.replicate count ⟨.newline, ['\n']⟩ ++ Lexeme.scan text := by
  induction count with
  | zero => rfl
  | succ count ih =>
      rw [List.replicate_succ, List.cons_append, Lexeme.scan]
      simp only [Lexeme.classify, List.take_zero, List.drop_zero, ih]
      rfl

/-- Two texts without faults can be put below each other with a blank line between them. The tokens
of the second text move down, and a line break stands between the tokens, unless the first text has
no tokens or ends with a line break of its own. -/
theorem read_below {first second : String} (clean : (read first).faults = [])
    (clean' : (read second).faults = []) (shut : Shut (read first).tokens) :
    (read (first ++ "\n\n" ++ second)).faults = []
      ∧ ∃ breaks, (read (first ++ "\n\n" ++ second)).tokens
          = (read first).tokens ++ breaks ++ (read second).tokens.map
            (Token.mapLocation (Location.lower (first.toList.count '\n' + 2)))
        ∧ ((∃ location, breaks = [Token.lineBreak location])
          ∨ breaks = [] ∧ ∀ last ∈ (read first).tokens.getLast?, last.kind = .lineBreak) := by
  rcases exists_gap first.toList with ⟨gap, lines⟩
  rcases exists_tail first.toList second clean' with ⟨tail, below, tokens, cleanTail⟩
  have cleanFront := faultsFrom_eq_nil_iff.mp clean
  have closed : ∀ lexeme ∈ Lexeme.scan (withFinalNewline first.toList),
      lexeme.kind.isUnclosed = false :=
    fun lexeme member => Lexeme.isUnclosed_of_faultless (cleanFront lexeme member)
  have ends := endsLine_withFinalNewline first.toList
  have cut : Lexeme.scan (withFinalNewline (first ++ "\n\n" ++ second).toList)
      = Lexeme.scan (withFinalNewline first.toList)
        ++ (List.replicate (gap + 1) ⟨.newline, ['\n']⟩ ++ Lexeme.scan tail) := by
    rw [String.toList_append, String.toList_append]
    change Lexeme.scan (withFinalNewline (first.toList ++ ['\n', '\n'] ++ second.toList)) = _
    rw [below, lines, List.append_assoc, Lexeme.scan_concat (.inr ends) closed, scan_newlines]
  refine ⟨?_, ?_⟩
  · rw [read, cut, faultsFrom_eq_nil_iff]
    simp only [List.forall_mem_append]
    exact ⟨cleanFront, by simp [Lexeme.fault?], cleanTail⟩
  · have reached := Reader.reached_initial.steps
      (placed .start (Lexeme.scan (withFinalNewline first.toList)))
    have run := Reader.run_append Reader.initial .start
      (Lexeme.scan (withFinalNewline first.toList)) []
    rw [List.append_nil, Lexeme.flatMap_text_scan, Reader.run] at run
    have starts : Location.lower (first.toList.count '\n' + 2) .start
        = (Location.start.advance (withFinalNewline first.toList)).advance
          (List.replicate (gap + 1) '\n') := by
      have ends : EndsLine (first.toList ++ ['\n', '\n']) := by simp [EndsLine]
      rw [← Location.advance_append, ← lines, Location.advance_of_endsLine ends, List.count_append]
      rfl
    rw [List.nil_append] at reached
    rw [read, run] at shut
    simp only [read, cut]
    rw [Reader.run_append, Lexeme.flatMap_text_scan, run]
    simp only [read] at tokens
    rw [← tokens]
    exact reached.run_below (Reader.fresh_steps ends closed Reader.initial .start) shut
      (Location.lower_advance _) starts _

end Layout

end Treatise
