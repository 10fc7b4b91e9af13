import Treatise.Proofs.Layout.Lines
import Treatise.Proofs.Layout.Writing

/-!
# Pages

A page at a level is a text of whole lines, the outermost of which stand at the level. What it
yields does not depend on what is read before: the tokens come between what the level closes before
the page and what it closes after it, and the levels below stay as they are. So pages at one level
can be put one after the other, and a page put below a line is the block of that line.
-/

namespace Treatise.Layout

/-- The marker that opens a block, at no place. -/
def openMark : Token := Token.blockOpen .nowhere

/-- The marker that closes a block, at no place. -/
def closeMark : Token := Token.blockClose .nowhere

/-- The marker of a blank line, at no place. -/
def breakMark : Token := Token.lineBreak .nowhere

/-! ## Levels -/

section Levels

variable {levels outer : List Nat} {level : Nat}

theorem takeWhile_dropWhile (levels : List Nat) (level : Nat) :
    (levels.dropWhile (level ≤ ·)).takeWhile (level ≤ ·) = [] := by
  induction levels with
  | nil => rfl
  | cons first rest ih =>
      by_cases above : level ≤ first
      · simpa [above] using ih
      · simp [above]

/-- Below the levels that are deeper there is the level itself. -/
theorem leave_next (split : levels.dropWhile (level + 1 ≤ ·) = level :: outer)
    (ends : outer.takeWhile (level ≤ ·) = []) :
    (levels.takeWhile (level ≤ ·)).length = (levels.takeWhile (level + 1 ≤ ·)).length + 1
      ∧ levels.dropWhile (level ≤ ·) = outer := by
  have parts : levels = levels.takeWhile (level + 1 ≤ ·) ++ level :: outer := by
    rw [← split, List.takeWhile_append_dropWhile]
  have deeper : ∀ above ∈ levels.takeWhile (level + 1 ≤ ·), decide (level ≤ above) = true := by
    intro above member
    have bound : level + 1 ≤ above := by simpa using List.mem_takeWhile_imp member
    exact decide_eq_true (by omega)
  have rest : outer.dropWhile (level ≤ ·) = outer := by
    have whole :=
      List.takeWhile_append_dropWhile (p := fun above => decide (level ≤ above)) (l := outer)
    rwa [ends, List.nil_append] at whole
  generalize levels.takeWhile (level + 1 ≤ ·) = inner at parts deeper
  subst parts
  rw [List.takeWhile_append_of_pos deeper, List.dropWhile_append_of_pos deeper]
  simp [ends, rest]

end Levels

namespace Reader

/-- At the beginning of a line at a level: a newline is pending, unless all blocks are closed. -/
structure At (reader : Reader) (level : Nat) : Prop where
  atLine : reader.AtLine
  pending : reader.pending.isSome ∨ level = 0

variable {reader : Reader} {level : Nat}

theorem at_initial : initial.At 0 := ⟨atLine_initial, .inr rfl⟩

/-- The stack once a line at the level has been reached. -/
theorem At.stack_settle (start : reader.At level) :
    (reader.settle level).2.stack = level :: reader.stack.dropWhile (level ≤ ·) := by
  cases pending : reader.pending with
  | some location => exact (settle_pending_eq start.atLine.sound pending level).2
  | none =>
      obtain rfl : level = 0 := by simpa [pending] using start.pending
      rw [settle_of_none pending, start.atLine.closed pending]
      rfl

/-- The markers of a level at no place. -/
theorem unplaced_settle (sound : reader.Sound) (pending : reader.pending.isSome) (level : Nat) :
    unplaced (reader.settle level).1
      = openMark :: List.replicate (reader.closings level) closeMark := by
  rcases Option.isSome_iff_exists.mp pending with ⟨location, pending⟩
  rw [(settle_pending_eq sound pending level).1, unplaced_cons, unplaced, List.map_replicate]
  rfl

/-- The tokens that lexemes add at a level, and what they leave. -/
structure Adds (reader : Reader) (level : Nat) (lexemes : List (Located Lexeme))
    (tokens : List Token) : Prop where
  ends : (reader.steps lexemes).2.At level
  stack : (reader.steps lexemes).2.stack.dropWhile (level ≤ ·) = reader.stack.dropWhile (level ≤ ·)
  tokens : unplaced ((reader.steps lexemes).1 ++ ((reader.steps lexemes).2.settle level).1)
    = unplaced (reader.settle level).1 ++ tokens
  pending : lexemes ≠ [] → (reader.steps lexemes).2.pending.isSome

theorem Adds.nil (start : reader.At level) : reader.Adds level [] [] where
  ends := start
  stack := rfl
  tokens := by simp
  pending := by simp

theorem Adds.append {first second : List (Located Lexeme)} {tokens others : List Token}
    (left : reader.Adds level first tokens)
    (right : (reader.steps first).2.Adds level second others) :
    reader.Adds level (first ++ second) (tokens ++ others) where
  ends := by
    rw [steps_append]
    exact right.ends
  stack := by
    rw [steps_append]
    exact right.stack.trans left.stack
  tokens := by
    have later := right.tokens
    have sooner := left.tokens
    simp only [unplaced_append] at later sooner
    rw [steps_append]
    simp only [unplaced_append, List.append_assoc, later]
    rw [← List.append_assoc, sooner, List.append_assoc]
  pending some := by
    rw [steps_append]
    by_cases empty : second = []
    · subst empty
      exact left.pending (by simpa using some)
    · exact right.pending empty

/-- A line at a level and a page one level deeper make the block of the line. -/
theorem Adds.block {line : Line} {inner : List (Located Lexeme)} {tokens : List Token}
    (start : reader.At level) (ended : Ended line) (unowned : Unowned line)
    (content : line.isContent = true) (stands : line.level = level)
    (within : ∀ next : Reader, next.At (level + 1) → next.Adds (level + 1) inner tokens) :
    reader.Adds level (line ++ inner)
      (unplaced line.tokens ++ openMark :: tokens ++ [closeMark]) := by
  rcases start.atLine.steps_content ended unowned content with
    ⟨after, location, read_, -, pending, atLine, stack⟩
  have inside := within after ⟨atLine, .inl (by simp [pending])⟩
  rw [stands] at read_ stack
  rw [start.stack_settle] at stack
  have outer := takeWhile_dropWhile reader.stack level
  -- One level deeper, only the block of the line opens.
  have opened : unplaced (after.settle (level + 1)).1 = [openMark] := by
    rw [unplaced_settle atLine.sound (by simp [pending]), closings, stack]
    simp
  have left : after.stack.dropWhile (level + 1 ≤ ·)
      = level :: reader.stack.dropWhile (level ≤ ·) := by
    rw [stack]
    simp
  have still : (after.steps inner).2.pending.isSome := by simpa using inside.ends.pending
  rcases leave_next (inside.stack.trans left) outer with ⟨closed, rest⟩
  have sound := inside.ends.atLine.sound
  refine ⟨?_, ?_, ?_, ?_⟩
  · rw [steps_append, read_]
    exact ⟨inside.ends.atLine, .inl still⟩
  · rw [steps_append, read_]
    dsimp only
    rw [rest]
  · have tokens_eq := inside.tokens
    rw [unplaced_append, opened, unplaced_settle sound still] at tokens_eq
    rw [steps_append, read_]
    dsimp only
    simp only [unplaced_append, List.append_assoc, unplaced_settle sound still]
    have one_more : List.replicate ((after.steps inner).2.closings level) closeMark
        = List.replicate ((after.steps inner).2.closings (level + 1)) closeMark ++ [closeMark] := by
      rw [← List.replicate_succ', closings, closings, closed]
    have regroup : unplaced (after.steps inner).1 ++ openMark
        :: (List.replicate ((after.steps inner).2.closings (level + 1)) closeMark ++ [closeMark])
        = openMark :: (tokens ++ [closeMark]) := by
      rw [← List.cons_append, ← List.append_assoc, tokens_eq]
      rfl
    rw [one_more, regroup, List.cons_append]
  · rw [steps_append, read_]
    exact fun _ => still

end Reader

/-! ## Lines of lexemes -/

/-- The lexeme of a two-space indent. -/
def indentLexeme : Lexeme := ⟨.indent, [' ', ' ']⟩

def newlineLexeme : Lexeme := ⟨.newline, ['\n']⟩

/-- The lexeme of a dot with a space. -/
def dotLexeme : Lexeme := ⟨.mark .dotSpace, ['.', ' ']⟩

namespace Line

variable {line rest : Line}

theorem unplaced_tokens (line : Line) :
    unplaced line.tokens = (line.map Located.value).filterMap Lexeme.unplaced? := by
  induction line with
  | nil => rfl
  | cons found rest ih =>
      cases kind : found.value.kind.token? with
      | none => simpa [tokens, token?, kind, Lexeme.unplaced?] using ih
      | some kind_ =>
          simp only [tokens, token?, kind, Option.map_some, List.filterMap_cons, List.map_cons,
            Lexeme.unplaced?, unplaced_cons]
          exact congrArg₂ _ rfl ih

theorem isContent_iff : line.isContent = true ↔ line.tokens ≠ [] := by
  simp [isContent, tokens, token?, List.filterMap_eq_nil_iff, Option.isSome_iff_ne_none]

/-- Indents before the rest of a line add to its level. -/
theorem level_indents {indents : Line} (all : ∀ found ∈ indents, found.value.kind = .indent) :
    level (indents ++ rest) = indents.length + level rest := by
  have bare : ∀ found ∈ indents, found.value.kind.token?.isNone = true := fun found member => by
    simp [all found member, Lexeme.Kind.token?]
  have count : Line.indents indents = indents.length :=
    List.countP_eq_length.mpr fun found member => by simp [all found member]
  have margin_eq : margin (indents ++ rest) = indents ++ rest.margin :=
    List.takeWhile_append_of_pos bare
  have body_eq : body (indents ++ rest) = rest.body := List.dropWhile_append_of_pos bare
  simp only [level, margin_eq, body_eq]
  rw [show Line.indents (indents ++ rest.margin) = Line.indents indents + rest.margin.indents from
    List.countP_append, count, Nat.add_assoc]

/-- A line without indents stands at level zero or, if it begins with a dot, at level one. -/
theorem level_unindented (plain : ∀ found ∈ line, found.value.kind ≠ .indent) {first : Token}
    {more : List Token} (begins : line.tokens = first :: more) :
    line.level = if first.kind = .mark .dotSpace then 1 else 0 := by
  have content : line.isContent = true := isContent_iff.mpr (by simp [begins])
  rcases exists_body content with ⟨found, others, kind, split, token⟩
  have none_ : line.margin.indents = 0 := by
    refine List.countP_eq_zero.mpr fun inside member => ?_
    have whole : inside ∈ line := List.takeWhile_subset _ member
    simpa using plain inside whole
  have head : line.tokens = ⟨kind, found.value.tokenText, found.location⟩ :: tokens others := by
    calc line.tokens = tokens (line.margin ++ found :: others) := by
          rw [← split, margin_append_body]
      _ = tokens (found :: others) := by rw [tokens_append, tokens_margin, List.nil_append]
      _ = _ := by simp [tokens, token?, token]
  rw [begins] at head
  rcases List.cons.inj head with ⟨rfl, -⟩
  simp only [level, none_, split, Reader.isDot_iff token]
  split_ifs <;> rfl

end Line

/-! ## Pages -/

/-- A text of whole lines, none of which has a fault, that adds tokens at a level. -/
structure Page (level : Nat) (text : List Char) (tokens : List Token) : Prop where
  ends : text ≠ [] → text.getLast? = some '\n'
  adds : ∀ following, ∃ lexemes : List Lexeme,
    Lexeme.scan (text ++ following) = lexemes ++ Lexeme.scan following
    ∧ (∀ lexeme ∈ lexemes, lexeme.fault? = none)
    ∧ ∀ (reader : Reader) (location : Location), reader.At level →
      reader.Adds level (placed location lexemes) tokens

theorem mem_of_placed {location : Location} {lexemes : List Lexeme} {found : Located Lexeme}
    (member : found ∈ placed location lexemes) : found.value ∈ lexemes := by
  have image := List.mem_map_of_mem (f := Located.value) member
  rwa [map_value_placed] at image

theorem length_placed (location : Location) (lexemes : List Lexeme) :
    (placed location lexemes).length = lexemes.length := by
  rw [← List.length_map (f := Located.value), map_value_placed]

namespace Page

variable {level : Nat} {text other : List Char} {tokens others : List Token}

theorem nil (level : Nat) : Page level [] [] :=
  ⟨by simp, fun _ => ⟨[], rfl, by simp, fun _ _ start => Reader.Adds.nil start⟩⟩

/-- One page after another at the same level. -/
theorem append (first : Page level text tokens) (second : Page level other others) :
    Page level (text ++ other) (tokens ++ others) := by
  refine ⟨fun some => ?_, fun following => ?_⟩
  · by_cases empty : other = []
    · subst empty
      rw [List.append_nil] at some ⊢
      exact first.ends some
    · rw [List.getLast?_append, second.ends empty]
      rfl
  rcases first.adds (other ++ following) with ⟨lexemes, cut, faultless, adds⟩
  rcases second.adds following with ⟨lexemes', cut', faultless', adds'⟩
  refine ⟨lexemes ++ lexemes', by rw [List.append_assoc, cut, cut', List.append_assoc],
    List.forall_mem_append.mpr ⟨faultless, faultless'⟩, fun reader location start => ?_⟩
  rw [placed_append]
  have left := adds reader location start
  exact left.append (adds' _ _ left.ends)

end Page

/-! ## The lines of a page -/

/-- The two-space indents of a depth. -/
def indents (depth : Nat) : List Char :=
  (List.replicate depth [' ', ' ']).flatten

theorem scan_indents (depth : Nat) (following : List Char) :
    Lexeme.scan (indents depth ++ following)
      = List.replicate depth indentLexeme ++ Lexeme.scan following := by
  induction depth with
  | zero => rfl
  | succ depth ih =>
      have reads : indentLexeme.Reads (indents depth ++ following) := ⟨' ', [' '], rfl, rfl⟩
      rw [List.replicate_succ, List.cons_append, ← ih, ← reads.scan]
      rfl

/-- What the lines of a level begin with, and the tokens of that. -/
inductive Lead : Nat → List Char → List Token → Prop
  | margin (depth : Nat) : Lead depth (indents depth) []
  | bullet (depth : Nat) : Lead (depth + 1) (indents depth ++ ['.', ' ']) [Mark.dotSpace.token]

/-- The lexemes at the beginning of a line: its indents and the dot that may follow. -/
theorem Lead.exists_lexemes {level : Nat} {lead : List Char} {tokens : List Token}
    (leads : Lead level lead tokens) :
    ∃ (depth : Nat) (dots : List Lexeme),
      (∀ following, Lexeme.scan (lead ++ following)
        = List.replicate depth indentLexeme ++ dots ++ Lexeme.scan following)
      ∧ dots.filterMap Lexeme.unplaced? = tokens ∧ (∀ lexeme ∈ dots, lexeme.Inline)
      ∧ ∀ (line : Line) (first : Token) (more : List Token),
        (∀ found ∈ line, found.value.kind ≠ .indent) → first.kind ≠ .mark .dotSpace →
        unplaced line.tokens = tokens ++ first :: more → depth + line.level = level := by
  cases leads with
  | margin =>
      refine ⟨level, [], fun following => by rw [scan_indents, List.append_nil], rfl, by simp,
        fun line first more plain notDot begins => ?_⟩
      rcases List.map_eq_cons_iff.mp begins with ⟨token, others, split, same, -⟩
      have kind : token.kind = first.kind := by
        rw [← same]
        rfl
      rw [Line.level_unindented plain split, kind, if_neg notDot, Nat.add_zero]
  | bullet depth =>
      have inline : dotLexeme.Inline := ⟨.inr rfl, by simp [dotLexeme], rfl⟩
      refine ⟨depth, [dotLexeme], fun following => ?_, rfl, by simpa using inline,
        fun line first more plain notDot begins => ?_⟩
      · have reads : dotLexeme.Reads following := ⟨'.', [' '], rfl, rfl⟩
        rw [List.append_assoc, scan_indents, List.append_assoc, List.singleton_append, ← reads.scan]
        rfl
      · rcases List.map_eq_cons_iff.mp begins with ⟨token, others, split, same, -⟩
        have kind : token.kind = .mark .dotSpace := by
          calc token.kind = token.unplaced.kind := rfl
            _ = .mark .dotSpace := by
              rw [same]
              rfl
        rw [Line.level_unindented plain split, if_pos kind]

theorem Lexeme.Inline.kind_ne {lexeme : Lexeme} (inline : lexeme.Inline) :
    lexeme.kind ≠ .newline ∧ lexeme.kind ≠ .indent := by
  rcases inline.content with kind | kind
  · simp [kind]
  · constructor <;> intro same <;> simp [same, Lexeme.Kind.token?] at kind

theorem Lexeme.Inline.not_owning {lexeme : Lexeme} (inline : lexeme.Inline) :
    lexeme.ownsNewline = false := by
  have unowned := inline.unowned
  cases kind : lexeme.kind <;> simp only [Lexeme.ownsNewline, kind]
  next literal closed =>
    cases literal
    · exact absurd kind (unowned closed)
    all_goals rfl

/-- A line of lexemes that stands at a level. -/
theorem placed_line {depth level : Nat} {lexemes : List Lexeme} {first : Token}
    {before more : List Token} (inline : ∀ lexeme ∈ lexemes, lexeme.Inline)
    (yields : lexemes.filterMap Lexeme.unplaced? = before ++ first :: more)
    (stands : ∀ line : Line, (∀ found ∈ line, found.value.kind ≠ .indent) →
      unplaced line.tokens = before ++ first :: more → depth + line.level = level)
    (location : Location) :
    ∃ line : Line,
      line = placed location (List.replicate depth indentLexeme ++ lexemes ++ [newlineLexeme])
      ∧ unplaced line.tokens = before ++ first :: more ∧ Ended line ∧ Unowned line
      ∧ line.isContent = true ∧ line.level = level := by
  have tokens_eq : ∀ (extra : List Lexeme) (location : Location),
      extra.filterMap Lexeme.unplaced? = [] →
      unplaced (Line.tokens (placed location (extra ++ lexemes ++ [newlineLexeme])))
        = before ++ first :: more := by
    intro extra location silent
    rw [Line.unplaced_tokens, map_value_placed, List.filterMap_append,
      List.filterMap_append, silent, yields]
    simp [Lexeme.unplaced?, newlineLexeme, Lexeme.Kind.token?]
  have whole := tokens_eq (List.replicate depth indentLexeme) location
    (List.filterMap_eq_nil_iff.mpr fun lexeme member => by
      rw [List.eq_of_mem_replicate member]
      rfl)
  refine ⟨_, rfl, whole, ?_, ?_, ?_, ?_⟩
  · rw [placed_append]
    refine ⟨_, _, rfl, fun found member => ?_, rfl⟩
    rcases List.mem_append.mp (mem_of_placed member) with indent | here
    · rw [List.eq_of_mem_replicate indent]
      simp [indentLexeme]
    · exact (inline _ here).kind_ne.1
  · intro found member
    rcases List.mem_append.mp (mem_of_placed member) with front | last
    · rcases List.mem_append.mp front with indent | here
      · rw [List.eq_of_mem_replicate indent]
        rfl
      · exact (inline _ here).not_owning
    · rw [List.mem_singleton.mp last]
      rfl
  · refine Line.isContent_iff.mpr fun none_ => ?_
    rw [none_] at whole
    simp at whole
  · rw [List.append_assoc, placed_append, Line.level_indents fun found member => by
        rw [List.eq_of_mem_replicate (mem_of_placed member)]
        rfl,
      length_placed, List.length_replicate]
    refine stands _ (fun found member => ?_) (tokens_eq [] _ rfl)
    rcases List.mem_append.mp (mem_of_placed member) with here | last
    · exact (inline _ here).kind_ne.2
    · rw [List.mem_singleton.mp last]
      simp [newlineLexeme]

/-- A line of a level and a page one level deeper. -/
theorem Page.line {level : Nat} {lead content inner : List Char} {before more tokens : List Token}
    {first : Token} (leads : Lead level lead before)
    (yields : ∀ following, Yields content ('\n' :: following) (first :: more))
    (notDot : first.kind ≠ .mark .dotSpace) (inside : Page (level + 1) inner tokens) :
    Page level (lead ++ (content ++ '\n' :: inner))
      (before ++ first :: more ++ openMark :: tokens ++ [closeMark]) := by
  refine ⟨fun _ => ?_, fun following => ?_⟩
  · rw [List.getLast?_append, List.getLast?_append, List.getLast?_cons]
    by_cases empty : inner = []
    · rw [empty]
      rfl
    · rw [inside.ends empty]
      rfl
  rcases leads.exists_lexemes with ⟨depth, dots, leading, dotTokens, inlineDots, level_eq⟩
  rcases yields (inner ++ following) with ⟨body, cut, inlineBody, bodyTokens⟩
  rcases inside.adds following with ⟨lexemes, cut', faultless, adds⟩
  have newline : newlineLexeme.Reads (inner ++ following) := ⟨'\n', [], rfl, rfl⟩
  have inline : ∀ lexeme ∈ dots ++ body, lexeme.Inline :=
    List.forall_mem_append.mpr ⟨inlineDots, inlineBody⟩
  refine ⟨List.replicate depth indentLexeme ++ (dots ++ body) ++ [newlineLexeme] ++ lexemes,
    ?_, ?_, fun reader location start => ?_⟩
  · have ended := newline.scan
    simp only [newlineLexeme, List.singleton_append] at ended
    simp only [List.append_assoc, List.cons_append, leading, cut, ended, cut']
    rfl
  · intro lexeme member
    simp only [List.mem_append, List.mem_singleton, List.mem_replicate] at member
    rcases member with ((⟨-, rfl⟩ | here) | rfl) | later
    · rfl
    · exact (inline lexeme (List.mem_append.mpr here)).faultless
    · rfl
    · exact faultless lexeme later
  · rcases placed_line inline
      (by rw [List.filterMap_append, dotTokens, bodyTokens])
      (fun line plain begins => level_eq line first more plain notDot begins) location with
      ⟨line, line_eq, tokens_eq, ended, unowned, content_, stands⟩
    rw [placed_append, ← line_eq, ← tokens_eq]
    exact Reader.Adds.block start ended unowned content_ stands fun next at_ => adds next _ at_

/-! ## Pages with blank lines between them -/

namespace Reader

variable {reader : Reader}

/-- Outside every block the end of the text adds nothing but the pending markers. -/
theorem AtLine.finish_eq (start : reader.AtLine) (location : Location) :
    reader.finish location = (reader.settle 0).1 := by
  have outside : (reader.settle 0).2.stack = [0] := by
    rw [(At.mk start (.inr rfl)).stack_settle]
    simp
  have none_ : (reader.settle 0).2.openBlocks = 0 := by
    have length := length_stack (sound_settle start.sound 0)
    rw [outside] at length
    simpa using length
  simp [finish, none_]

/-- A blank line after a page leaves a line break. -/
theorem AtLine.steps_break (start : reader.AtLine) (pending : reader.pending.isSome)
    (location : Location) :
    ∃ after place, reader.steps [⟨location, newlineLexeme⟩]
        = ((reader.settle 0).1 ++ [Token.lineBreak place], after)
      ∧ after.AtLine ∧ after.pending = none := by
  have ended : Ended [⟨location, newlineLexeme⟩] := ⟨[], _, rfl, by simp [Unbroken], rfl⟩
  rcases start.steps_blank ended rfl with ⟨after, place, read_, atLine, settled⟩
  rcases Option.isSome_iff_exists.mp pending with ⟨place', pending⟩
  have breakable : (reader.settle 0).2.breakable = true := by
    rw [settle_of_some pending]
    rfl
  rw [breakable, if_pos rfl] at read_
  exact ⟨after, place, read_, atLine, settled⟩

/-- A page at level zero that begins outside every block. -/
theorem Adds.outermost {lexemes : List (Located Lexeme)} {tokens : List Token}
    (adds : reader.Adds 0 lexemes tokens) (settled : reader.pending = none) (some : tokens ≠ []) :
    (reader.steps lexemes).2.AtLine ∧ (reader.steps lexemes).2.pending.isSome
      ∧ unplaced ((reader.steps lexemes).1 ++ ((reader.steps lexemes).2.settle 0).1) = tokens := by
  have whole := adds.tokens
  rw [settle_of_none settled, unplaced_nil, List.nil_append] at whole
  refine ⟨adds.ends.atLine, adds.pending ?_, whole⟩
  rintro rfl
  rw [steps_nil, settle_of_none settled] at whole
  exact some whole.symm

end Reader

/-- A page at level zero that is not empty. -/
structure Sheet (page : List Char × List Token) : Prop where
  whole : Page 0 page.1 page.2
  some : page.2 ≠ []

theorem Sheet.text_ne_nil {page : List Char × List Token} (sheet : Sheet page) : page.1 ≠ [] := by
  intro empty
  rcases sheet.whole.adds [] with ⟨lexemes, cut, -, adds⟩
  rw [empty, List.nil_append, List.self_eq_append_left] at cut
  have pending := ((adds Reader.initial .start Reader.at_initial).outermost rfl sheet.some).2.1
  rw [cut] at pending
  cases pending

/-- Pages after blank lines add their tokens after line breaks. -/
theorem exists_lexemes_of_sheets {pages : List (List Char × List Token)}
    (sheets : ∀ page ∈ pages, Sheet page) :
    ∃ lexemes : List Lexeme, Lexeme.scan (pages.flatMap fun page => '\n' :: page.1) = lexemes
      ∧ (∀ lexeme ∈ lexemes, lexeme.fault? = none)
      ∧ ∀ (reader : Reader) (location last : Location), reader.AtLine → reader.pending.isSome →
        unplaced ((reader.steps (placed location lexemes)).1
            ++ (reader.steps (placed location lexemes)).2.finish last)
          = unplaced (reader.settle 0).1 ++ pages.flatMap fun page => breakMark :: page.2 := by
  induction pages with
  | nil =>
      refine ⟨[], by simp [Lexeme.scan], by simp, fun reader location last start pending => ?_⟩
      simp only [placed, Reader.steps_nil, List.nil_append, start.finish_eq, List.flatMap_nil,
        List.append_nil]
  | cons page more ih =>
      rcases List.forall_mem_cons.mp sheets with ⟨sheet, sheets⟩
      rcases ih sheets with ⟨others, cut, faultless, later⟩
      rcases sheet.whole.adds (more.flatMap fun page => '\n' :: page.1) with
        ⟨lexemes, cut', faultless', adds⟩
      refine ⟨newlineLexeme :: (lexemes ++ others), ?_, ?_,
        fun reader location last start pending => ?_⟩
      · have newline : newlineLexeme.Reads
            (page.1 ++ more.flatMap fun page => '\n' :: page.1) := ⟨'\n', [], rfl, rfl⟩
        have whole := newline.scan
        rw [cut', cut] at whole
        rw [List.flatMap_cons, ← whole]
        rfl
      · simp only [List.mem_cons, List.mem_append]
        rintro lexeme (rfl | here | there)
        · rfl
        · exact faultless' lexeme here
        · exact faultless lexeme there
      -- The blank line closes the page before it, so each page begins outside every block.
      · rcases start.steps_break pending location with ⟨after, place, broken, atLine, settled⟩
        have pageAdds := adds after (location.advance newlineLexeme.text) ⟨atLine, .inr rfl⟩
        rcases pageAdds.outermost settled sheet.some with ⟨atEnd, pendingAgain, tokens⟩
        have rest := later _ ((location.advance newlineLexeme.text).advance
          (lexemes.flatMap Lexeme.text)) last atEnd pendingAgain
        have split : placed location (newlineLexeme :: (lexemes ++ others))
            = [⟨location, newlineLexeme⟩]
              ++ (placed (location.advance newlineLexeme.text) lexemes
              ++ placed ((location.advance newlineLexeme.text).advance
                (lexemes.flatMap Lexeme.text)) others) := by
          rw [← placed_append]
          rfl
        rw [split, Reader.steps_append, broken, Reader.steps_append]
        dsimp only
        rw [unplaced_append] at rest tokens
        simp only [unplaced_append, List.append_assoc, rest]
        rw [← List.append_assoc (unplaced (after.steps _).1), tokens]
        rfl

/-- Pages with blank lines between them. -/
def joined (pages : List (List Char × List Token)) : List Char × List Token :=
  match pages with
  | [] => ([], [])
  | first :: rest => (first.1 ++ rest.flatMap fun page => '\n' :: page.1,
      first.2 ++ rest.flatMap fun page => breakMark :: page.2)

theorem getLast?_sheets {pages : List (List Char × List Token)}
    (sheets : ∀ page ∈ pages, Sheet page) (some : pages ≠ []) :
    (pages.flatMap fun page => '\n' :: page.1).getLast? = Option.some '\n' := by
  induction pages with
  | nil => exact absurd rfl some
  | cons page more ih =>
      rcases List.forall_mem_cons.mp sheets with ⟨sheet, sheets⟩
      rw [List.flatMap_cons, List.getLast?_append]
      by_cases last : more = []
      · subst last
        rw [List.getLast?_cons, sheet.whole.ends sheet.text_ne_nil]
        rfl
      · rw [ih sheets last]
        rfl

theorem getLast?_joined {page : List Char × List Token} {pages : List (List Char × List Token)}
    (sheets : ∀ sheet ∈ page :: pages, Sheet sheet) :
    (joined (page :: pages)).1.getLast? = some '\n' := by
  rcases List.forall_mem_cons.mp sheets with ⟨sheet, sheets⟩
  rw [joined, List.getLast?_append]
  by_cases last : pages = []
  · subst last
    rw [sheet.whole.ends sheet.text_ne_nil]
    rfl
  · rw [getLast?_sheets sheets last]
    rfl

/-- Pages with blank lines between them are read without faults, each for itself. -/
theorem read_joined {pages : List (List Char × List Token)} (sheets : ∀ page ∈ pages, Sheet page) :
    (read (String.ofList (joined pages).1)).faults = []
      ∧ unplaced (read (String.ofList (joined pages).1)).tokens = (joined pages).2 := by
  cases pages with
  | nil => exact ⟨by decide +kernel, by decide +kernel⟩
  | cons page more =>
      have ends := getLast?_joined sheets
      rcases List.forall_mem_cons.mp sheets with ⟨sheet, sheets⟩
      rcases exists_lexemes_of_sheets sheets with ⟨others, cut, faultless, later⟩
      rcases sheet.whole.adds (more.flatMap fun page => '\n' :: page.1) with
        ⟨lexemes, cut', faultless', adds⟩
      have whole : Lexeme.scan (withFinalNewline (String.ofList (joined (page :: more)).1).toList)
          = lexemes ++ others := by
        rw [String.toList_ofList, withFinalNewline, if_pos ends, joined, cut', cut]
      rcases (adds Reader.initial .start Reader.at_initial).outermost rfl sheet.some with
        ⟨atEnd, pending, tokens⟩
      simp only [read, whole]
      refine ⟨faultsFrom_eq_nil_iff.mpr (List.forall_mem_append.mpr ⟨faultless', faultless⟩), ?_⟩
      have rest := later _ (Location.start.advance (lexemes.flatMap Lexeme.text))
        (Location.start.advance ((lexemes ++ others).flatMap Lexeme.text)) atEnd pending
      rw [unplaced_append] at rest tokens
      rw [Reader.run_eq_steps, placed_append, Reader.steps_append]
      simp only [unplaced_append, List.append_assoc, rest]
      rw [← List.append_assoc (unplaced (Reader.initial.steps _).1), tokens]
      rfl

end Treatise.Layout
