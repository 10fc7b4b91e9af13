import Treatise.Proofs.Layout.Lines
import Treatise.Proofs.Layout.Nesting

/-!
# Blocks are the forest of levels

Consider lines without a blank line among them, whose first content stands at level zero, in a text
without block comments. The block that opens at the end of a line with content is still open at a
later line exactly if that line and all lines with content in between stand at deeper levels.

The invariant that carries the proof concerns the stack of the reader. Right after a line with
content its level is at the top. While only deeper lines follow, the stack is made of levels that
are deeper, and below them of the stack as it was; as many blocks are open inside the block of the
line as there are deeper levels, but for the last one, whose block opens next. The first line that
is not deeper leaves all of these levels, and the level of the line itself.
-/

namespace Treatise.Layout

/-- The tokens that are no markers. -/
def contents (tokens : List Token) : List Token :=
  tokens.filter fun token =>
    token.kind != .blockOpen && token.kind != .blockClose && token.kind != .lineBreak

theorem contents_append (first second : List Token) :
    contents (first ++ second) = contents first ++ contents second :=
  List.filter_append ..

namespace Line

theorem kind_of_mem_tokens {line : Line} {token : Token} (member : token ∈ line.tokens) :
    token.kind ≠ .blockOpen ∧ token.kind ≠ .blockClose ∧ token.kind ≠ .lineBreak := by
  rcases List.mem_filterMap.mp member with ⟨found, -, becomes⟩
  rcases Option.map_eq_some_iff.mp becomes with ⟨kind, content, rfl⟩
  exact Lexeme.Kind.token?_ne_marker content

theorem depthAfter_tokens (line : Line) (depth : Nat) :
    depthAfter depth line.tokens = some depth :=
  depthAfter_of_unmarked (fun _ member =>
    ⟨(kind_of_mem_tokens member).1, (kind_of_mem_tokens member).2.1⟩) depth

end Line

namespace Reader

theorem contents_settle (reader : Reader) (level : Nat) :
    contents (reader.settle level).1 = [] := by
  cases pending : reader.pending with
  | none => simp [settle_of_none pending, contents]
  | some location =>
      rw [settle_of_some pending, openBlock_fst]
      simp [contents, Token.blockOpen, Token.blockClose]

theorem contents_step (reader : Reader) (found : Located Lexeme) :
    contents (reader.step found.location found.value).1 = (Line.token? found).toList := by
  cases content : found.value.kind.token? with
  | some kind =>
      rcases Lexeme.Kind.token?_ne_marker content with ⟨notOpen, notClose, notBreak⟩
      have becomes : Line.token? found = some ⟨kind, found.value.tokenText, found.location⟩ := by
        simp [Line.token?, content]
      have kept : contents [⟨kind, found.value.tokenText, found.location⟩]
          = [⟨kind, found.value.tokenText, found.location⟩] := by
        simp [contents, notOpen, notClose, notBreak]
      rw [step_of_token? content, Reader.content, becomes]
      dsimp only
      rw [contents_append, kept]
      split
      · rfl
      · rw [contents_settle]
        rfl
  | none =>
      have becomes : Line.token? found = none := by simp [Line.token?, content]
      rw [becomes]
      cases shape : found.value.kind with
      | newline =>
          simp only [step, shape, Reader.newline]
          split
          · rfl
          · rfl
          · rw [contents_append, contents_settle]
            split <;> simp [contents, Token.lineBreak]
      | indent | lineComment =>
          simp only [step, shape]
          split <;> rfl
      | space | unrecognized => simp [step, shape, contents]
      | literal _ _ | name _ | placeholder | operator | mark _ =>
          simp [shape, Lexeme.Kind.token?] at content

/-- A reader yields the tokens of the content that it reads, among markers. -/
theorem contents_steps (reader : Reader) (lexemes : List (Located Lexeme)) :
    contents (reader.steps lexemes).1 = Line.tokens lexemes := by
  induction lexemes generalizing reader with
  | nil => rfl
  | cons found rest ih => rw [steps, contents_append, contents_step, ih, Line.tokens_cons]

/-- Every line leads from the beginning of a line to the beginning of a line. -/
theorem AtLine.steps {reader : Reader} (start : reader.AtLine) {line : Line} (ended : Ended line)
    (unowned : Unowned line) :
    (reader.steps line).2.AtLine ∧ contents (reader.steps line).1 = line.tokens := by
  refine ⟨?_, contents_steps reader line⟩
  by_cases content : line.isContent = true
  · rcases start.steps_content ended unowned content with ⟨after, location, read_, -, -, atLine, -⟩
    rwa [read_]
  · have bare : line.isContent = false := by simpa using content
    by_cases blank : line.isBlank = true
    · rcases start.steps_blank ended blank with ⟨after, location, read_, atLine, -⟩
      rwa [read_]
    · rwa [start.steps_comment ended bare (by simpa using blank)]

theorem AtLine.steps_flatten {reader : Reader} (start : reader.AtLine) {group : List Line}
    (ended : ∀ line ∈ group, Ended line) (unowned : ∀ line ∈ group, Unowned line) :
    (reader.steps group.flatten).2.AtLine
      ∧ contents (reader.steps group.flatten).1 = group.flatMap Line.tokens := by
  induction group generalizing reader with
  | nil => exact ⟨start, rfl⟩
  | cons line more ih =>
      rcases List.forall_mem_cons.mp ended with ⟨endedLine, endedMore⟩
      rcases List.forall_mem_cons.mp unowned with ⟨unownedLine, unownedMore⟩
      rcases start.steps endedLine unownedLine with ⟨atLine, here⟩
      rcases ih atLine endedMore unownedMore with ⟨atEnd, later⟩
      rw [List.flatten_cons, steps_append]
      exact ⟨atEnd, by rw [contents_append, here, later, List.flatMap_cons]⟩

/-- Among lines that are not blank, a pending newline stays pending or gives way to another. -/
theorem AtLine.pending_flatten {reader : Reader} (start : reader.AtLine) {group : List Line}
    (ended : ∀ line ∈ group, Ended line) (unowned : ∀ line ∈ group, Unowned line)
    (nonblank : ∀ line ∈ group, line.isBlank = false) :
    (reader.pending.isSome ∨ ∃ line ∈ group, line.isContent = true)
        ∧ (reader.steps group.flatten).2.pending.isSome
      ∨ (∀ line ∈ group, line.isContent = false) ∧ (reader.steps group.flatten).2 = reader := by
  induction group generalizing reader with
  | nil => exact Or.inr ⟨by simp, rfl⟩
  | cons line more ih =>
      rcases List.forall_mem_cons.mp ended with ⟨endedLine, endedMore⟩
      rcases List.forall_mem_cons.mp unowned with ⟨unownedLine, unownedMore⟩
      rcases List.forall_mem_cons.mp nonblank with ⟨nonblankLine, nonblankMore⟩
      rw [List.flatten_cons, steps_append]
      by_cases content : line.isContent = true
      · rcases start.steps_content endedLine unownedLine content with
          ⟨after, location, read_, -, pending, atLine, -⟩
        rw [read_]
        refine Or.inl ⟨Or.inr ⟨line, List.mem_cons_self, content⟩, ?_⟩
        rcases ih atLine endedMore unownedMore nonblankMore with ⟨-, stays⟩ | ⟨-, same⟩
        · exact stays
        · simp [same, pending]
      · have bare : line.isContent = false := by simpa using content
        rw [start.steps_comment endedLine bare nonblankLine]
        rcases ih start endedMore unownedMore nonblankMore with ⟨either, stays⟩ | ⟨none_, same⟩
        · refine Or.inl ⟨either.imp_right ?_, stays⟩
          rintro ⟨later, member, content⟩
          exact ⟨later, List.mem_cons_of_mem _ member, content⟩
        · exact Or.inr ⟨List.forall_mem_cons.mpr ⟨bare, none_⟩, same⟩

/-! ## Inside a block -/

variable {reader : Reader} {inner outer : List Nat} {top level : Nat}

/-- A deeper level leaves only levels above the top of a block. -/
theorem closings_of_deeper (split : reader.stack = inner ++ top :: outer) (deeper : top < level) :
    reader.closings level = (inner.takeWhile (level ≤ ·)).length
      ∧ reader.stack.dropWhile (level ≤ ·) = inner.dropWhile (level ≤ ·) ++ top :: outer := by
  simp only [closings, split]
  clear split
  induction inner with
  | nil => simp [Nat.not_le.mpr deeper]
  | cons first rest ih =>
      by_cases above : level ≤ first
      · simpa [above] using ih
      · simp [above]

/-- A level that is not deeper leaves the top of a block and all levels above it. -/
theorem closings_of_not_deeper (split : reader.stack = inner ++ top :: outer)
    (within : ∀ above ∈ inner, top < above) (notDeeper : level ≤ top) :
    inner.length < reader.closings level := by
  have all : ∀ above ∈ inner, decide (level ≤ above) = true := fun above member =>
    decide_eq_true (notDeeper.trans (within above member).le)
  simp only [closings, split]
  rw [List.takeWhile_append_of_pos all, List.takeWhile_cons_of_pos (by simpa using notDeeper),
    List.length_append, List.length_cons]
  omega

/-- The depth inside a block after a line settles the pending newline. -/
theorem depthAfter_closings (split : reader.stack = inner ++ top :: outer)
    (within : ∀ above ∈ inner, top < above) (level : Nat) (location : Location) :
    depthAfter inner.length (List.replicate (reader.closings level) (Token.blockClose location))
      = if top < level then some (inner.dropWhile (level ≤ ·)).length else none := by
  rw [depthAfter_blockCloses]
  by_cases deeper : top < level
  · have parts := congrArg List.length (List.takeWhile_append_dropWhile
      (p := fun under => decide (level ≤ under)) (l := inner))
    rw [List.length_append] at parts
    rw [(closings_of_deeper split deeper).1, if_pos (by omega), if_pos deeper]
    congr 1
    omega
  · have many := closings_of_not_deeper split within (Nat.not_lt.mp deeper)
    rw [if_neg (by omega), if_neg deeper]

/-- What lines and the markers of one more line at a level yield. -/
def toLevel (reader : Reader) (middle : List Line) (level : Nat) : List Token :=
  (reader.steps middle.flatten).1 ++ ((reader.steps middle.flatten).2.settle level).1

theorem toLevel_cons (reader : Reader) (line : Line) (middle : List Line) (level : Nat) :
    reader.toLevel (line :: middle) level
      = (reader.steps line).1 ++ (reader.steps line).2.toLevel middle level := by
  simp [toLevel, steps_append]

/-- Inside a block there is a depth as long as all lines are deeper than the line of the block. -/
theorem AtLine.isSome_depthAfter_toLevel (start : reader.AtLine) (pending : reader.pending.isSome)
    {last : Nat} (split : reader.stack = last :: inner ++ top :: outer)
    (within : ∀ above ∈ last :: inner, top < above) {middle : List Line}
    (ended : ∀ line ∈ middle, Ended line) (unowned : ∀ line ∈ middle, Unowned line)
    (nonblank : ∀ line ∈ middle, line.isBlank = false) (level : Nat) :
    (depthAfter inner.length (reader.toLevel middle level)).isSome
      ↔ (∀ line ∈ middle, line.isContent = true → top < line.level) ∧ top < level := by
  -- `inner` holds one level for each block that is open inside; the block of `last` is still to
  -- open.
  induction middle generalizing reader last inner with
  | nil =>
      rcases Option.isSome_iff_exists.mp pending with ⟨location, pending⟩
      have markers := (settle_pending_eq start.sound pending level).1
      have depth := depthAfter_closings split within level location
      rw [List.length_cons] at depth
      simp only [toLevel, List.flatten_nil, steps_nil, List.nil_append, markers,
        depthAfter_blockOpen, depth]
      by_cases deeper : top < level <;> simp [deeper]
  | cons line more ih =>
      rcases List.forall_mem_cons.mp ended with ⟨endedLine, endedMore⟩
      rcases List.forall_mem_cons.mp unowned with ⟨unownedLine, unownedMore⟩
      rcases List.forall_mem_cons.mp nonblank with ⟨nonblankLine, nonblankMore⟩
      rw [toLevel_cons, List.forall_mem_cons]
      by_cases content : line.isContent = true
      · rcases Option.isSome_iff_exists.mp pending with ⟨location, pending⟩
        have settled := settle_pending_eq start.sound pending line.level
        have depth := depthAfter_closings split within line.level location
        rcases start.steps_content endedLine unownedLine content with
          ⟨after, next, read_, -, nextPending, atLine, stack⟩
        rw [List.length_cons] at depth
        rw [read_, settled.1]
        simp only [List.cons_append, List.append_assoc, depthAfter_blockOpen,
          depthAfter_append, depth]
        by_cases deeper : top < line.level
        · have kept : after.stack
              = line.level :: (last :: inner).dropWhile (line.level ≤ ·) ++ top :: outer := by
            rw [stack, settled.2, (closings_of_deeper split deeper).2, List.cons_append]
          have later := ih atLine (by simp [nextPending]) kept
            (List.forall_mem_cons.mpr ⟨deeper, fun above member =>
              within above ((List.dropWhile_suffix _).subset member)⟩)
            endedMore unownedMore nonblankMore
          simp [deeper, content, Line.depthAfter_tokens, later]
        · simp [deeper, content]
      · have bare : line.isContent = false := by simpa using content
        rw [start.steps_comment endedLine bare nonblankLine, List.nil_append,
          ih start pending split within endedMore unownedMore nonblankMore]
        simp [bare]

/-- The block of the line at the top of the stack opens, and stays open below deeper lines only. -/
theorem AtLine.toLevel_eq (start : reader.AtLine) {location : Location}
    (pending : reader.pending = some location) (split : reader.stack = top :: outer)
    {middle : List Line} (ended : ∀ line ∈ middle, Ended line)
    (unowned : ∀ line ∈ middle, Unowned line) (nonblank : ∀ line ∈ middle, line.isBlank = false)
    (level : Nat) :
    ∃ inside, reader.toLevel middle level = Token.blockOpen location :: inside
      ∧ ((depthAfter 0 inside).isSome
        ↔ (∀ line ∈ middle, line.isContent = true → top < line.level) ∧ top < level) := by
  have whole : reader.stack = [] ++ top :: outer := split
  induction middle with
  | nil =>
      have depth := depthAfter_closings whole (by simp) level location
      rw [List.length_nil] at depth
      refine ⟨_, by simp [toLevel, (settle_pending_eq start.sound pending level).1]; rfl, ?_⟩
      rw [depth]
      by_cases deeper : top < level <;> simp [deeper]
  | cons line more ih =>
      rcases List.forall_mem_cons.mp ended with ⟨endedLine, endedMore⟩
      rcases List.forall_mem_cons.mp unowned with ⟨unownedLine, unownedMore⟩
      rcases List.forall_mem_cons.mp nonblank with ⟨nonblankLine, nonblankMore⟩
      rw [toLevel_cons, List.forall_mem_cons]
      by_cases content : line.isContent = true
      · have settled := settle_pending_eq start.sound pending line.level
        have depth := depthAfter_closings whole (by simp) line.level location
        rcases start.steps_content endedLine unownedLine content with
          ⟨after, next, read_, -, nextPending, atLine, stack⟩
        rw [List.length_nil] at depth
        rw [read_, settled.1]
        refine ⟨_, by simp only [List.cons_append]; rfl, ?_⟩
        simp only [List.append_assoc, depthAfter_append, depth]
        by_cases deeper : top < line.level
        · have kept : after.stack = line.level :: [] ++ top :: outer := by
            rw [stack, settled.2, (closings_of_deeper whole deeper).2]
            rfl
          have later := atLine.isSome_depthAfter_toLevel (by simp [nextPending]) kept
            (by simpa using deeper) endedMore unownedMore nonblankMore level
          simpa [deeper, content, Line.depthAfter_tokens] using later
        · simp [deeper, content]
      · have bare : line.isContent = false := by simpa using content
        rw [start.steps_comment endedLine bare nonblankLine, List.nil_append]
        simpa [bare] using ih endedMore unownedMore nonblankMore

end Reader

/-! ## Runs of lines -/

/-- A run of lines without a blank line among them, which begins after a blank line or with the
text, and whose first content stands at level zero. -/
structure Run (before run after : List Line) (text : List Line) : Prop where
  split : text = before ++ run ++ after
  begins : ∀ line ∈ before.getLast?, line.isBlank = true
  unbroken : ∀ line ∈ run, line.isBlank = false
  rooted : ∀ line ∈ run.find? Line.isContent, line.level = 0

/-- The lexemes of a text with their places. -/
def found (text : String) : List (Located Lexeme) :=
  placed .start (Lexeme.scan (withFinalNewline text.toList))

/-- No lexeme of a text is a block comment. -/
def Uncommented (text : String) : Prop :=
  ∀ lexeme ∈ found text, ∀ closed, lexeme.value.kind ≠ .literal .blockComment closed

theorem Uncommented.unowned {text : String} (uncommented : Uncommented text) {line : Line}
    (member : line ∈ lines (found text)) : Unowned line := fun lexeme inside => by
  have whole : lexeme ∈ found text := by
    rw [← flatten_lines (found text)]
    exact List.mem_flatten_of_mem member inside
  have plain := uncommented lexeme whole
  cases kind : lexeme.value.kind <;> simp only [Lexeme.ownsNewline, kind]
  next literal closed =>
    cases literal
    · exact absurd kind (plain closed)
    all_goals rfl

/-- Lines that another line follows end with their newlines. -/
theorem ended_of_followed {lexemes : List (Located Lexeme)} {lead rest : List Line} {line : Line}
    (split : lines lexemes = lead ++ line :: rest) : ∀ earlier ∈ lead, Ended earlier := by
  intro earlier member
  rcases List.append_of_mem member with ⟨front, back, rfl⟩
  exact lines_ends (by simpa using split) (by simp)

/-- After a line with content in a run, that line is at the top of the stack. -/
theorem Reader.AtLine.top_of_run {reader : Reader} (start : reader.AtLine)
    (closed : reader.pending = none) {lead : List Line} {line : Line}
    (ended : ∀ earlier ∈ lead ++ [line], Ended earlier)
    (unowned : ∀ earlier ∈ lead ++ [line], Unowned earlier)
    (nonblank : ∀ earlier ∈ lead ++ [line], earlier.isBlank = false)
    (rooted : ∀ first ∈ (lead ++ [line]).find? Line.isContent, first.level = 0)
    (content : line.isContent = true) :
    ∃ markers after location outer,
      reader.steps (lead ++ [line]).flatten
          = ((reader.steps lead.flatten).1 ++ markers ++ line.tokens, after)
        ∧ line.getLast?.map Located.location = some location ∧ contents markers = []
        ∧ after.pending = some location ∧ after.AtLine ∧ after.stack = line.level :: outer := by
  rcases List.forall_mem_append.mp ended with ⟨endedLead, endedLine⟩
  rcases List.forall_mem_append.mp unowned with ⟨unownedLead, unownedLine⟩
  rcases List.forall_mem_append.mp nonblank with ⟨nonblankLead, -⟩
  have middle := (start.steps_flatten endedLead unownedLead).1
  rcases middle.steps_content
    (endedLine line List.mem_cons_self) (unownedLine line List.mem_cons_self) content with
    ⟨after, location, read_, place, pending, atLine, stack⟩
  have top : ∃ outer, ((reader.steps lead.flatten).2.settle line.level).2.stack
      = line.level :: outer := by
    rcases start.pending_flatten endedLead unownedLead nonblankLead with ⟨-, stays⟩ | ⟨bare, same⟩
    · rcases Option.isSome_iff_exists.mp stays with ⟨place, stays⟩
      exact ⟨_, (settle_pending_eq middle.sound stays line.level).2⟩
    · have first : (lead ++ [line]).find? Line.isContent = some line := by
        rw [List.find?_append, List.find?_eq_none.mpr (by simpa using bare)]
        simp [content]
      have base := rooted line (by simp [first])
      rw [same, settle_of_none closed, start.closed closed, base]
      exact ⟨[], rfl⟩
  rcases top with ⟨outer, top⟩
  refine ⟨((reader.steps lead.flatten).2.settle line.level).1, after, location, outer, ?_, place,
    contents_settle _ _, pending, atLine, stack.trans top⟩
  rw [List.flatten_append, List.flatten_singleton, steps_append, read_, List.append_assoc]

/-- Before a run no newline is pending. -/
theorem Reader.pending_before_run {before : List Line} (ended : ∀ line ∈ before, Ended line)
    (unowned : ∀ line ∈ before, Unowned line)
    (begins : ∀ line ∈ before.getLast?, line.isBlank = true) :
    (initial.steps before.flatten).2.pending = none := by
  rcases List.eq_nil_or_concat before with rfl | ⟨front, last, rfl⟩
  · rfl
  · rw [List.concat_eq_append] at *
    rcases List.forall_mem_append.mp ended with ⟨endedFront, endedLast⟩
    rcases List.forall_mem_append.mp unowned with ⟨unownedFront, -⟩
    have middle := (atLine_initial.steps_flatten endedFront unownedFront).1
    rw [List.flatten_append, List.flatten_singleton, steps_append]
    rcases middle.steps_blank (endedLast last List.mem_cons_self) (begins last (by simp)) with
      ⟨after, location, read_, -, settled⟩
    rw [read_]
    exact settled

/-- Lines with content yield their tokens after the markers, whether they end with a newline or
not. -/
theorem Reader.AtLine.fst_steps_content {reader : Reader} (start : reader.AtLine) {line : Line}
    (shape : Unbroken line ∨ Ended line) (unowned : Unowned line)
    (content : line.isContent = true) :
    (reader.steps line).1 = (reader.settle line.level).1 ++ line.tokens := by
  rcases shape with unbroken | ended
  · rw [Reader.steps_content start.fresh unbroken unowned content]
  · rcases start.steps_content ended unowned content with ⟨after, location, read_, -⟩
    rw [read_]

/-- The block of a line is open at a later line if and only if all lines up to that line are
deeper. -/
theorem Reader.AtLine.block_of_line {reader : Reader} (start : reader.AtLine)
    (closed : reader.pending = none) {first middle : List Line} {upper lower : Line}
    (ended : ∀ line ∈ first ++ upper :: middle, Ended line)
    (unowned : ∀ line ∈ first ++ upper :: middle ++ [lower], Unowned line)
    (nonblank : ∀ line ∈ first ++ upper :: middle, line.isBlank = false)
    (rooted : ∀ line ∈ (first ++ [upper]).find? Line.isContent, line.level = 0)
    (upperContent : upper.isContent = true) (shape : Unbroken lower ∨ Ended lower)
    (lowerContent : lower.isContent = true) :
    ∃ location earlier inside,
      upper.getLast?.map Located.location = some location
      ∧ (reader.steps (first ++ upper :: middle ++ [lower]).flatten).1
        = earlier ++ upper.tokens ++ Token.blockOpen location :: (inside ++ lower.tokens)
      ∧ contents earlier = first.flatMap Line.tokens
      ∧ contents inside = middle.flatMap Line.tokens
      ∧ (Nested inside ↔
          ∀ line ∈ middle ++ [lower], line.isContent = true → upper.level < line.level) := by
  simp only [List.forall_mem_append, List.forall_mem_cons] at ended unowned nonblank
  rcases ended with ⟨endedFirst, endedUpper, endedMiddle⟩
  rcases unowned with ⟨⟨unownedFirst, unownedUpper, unownedMiddle⟩, unownedLower, -⟩
  rcases nonblank with ⟨nonblankFirst, nonblankUpper, nonblankMiddle⟩
  rcases start.top_of_run closed (by simpa [or_imp, forall_and] using ⟨endedFirst, endedUpper⟩)
      (by simpa [or_imp, forall_and] using ⟨unownedFirst, unownedUpper⟩)
      (by simpa [or_imp, forall_and] using ⟨nonblankFirst, nonblankUpper⟩) rooted upperContent with
    ⟨markers, afterUpper, location, outer, readUpper, place, unmarked, pending, atUpper, stack⟩
  rcases atUpper.toLevel_eq pending stack endedMiddle
    unownedMiddle nonblankMiddle lower.level with ⟨inside, opening, stays⟩
  rcases atUpper.steps_flatten endedMiddle unownedMiddle with ⟨atLower, contentsMiddle⟩
  have readLower := atLower.fst_steps_content shape unownedLower lowerContent
  have contentsFirst := (start.steps_flatten endedFirst unownedFirst).2
  have contentsInside : contents inside = middle.flatMap Line.tokens := by
    calc contents inside = contents (afterUpper.toLevel middle lower.level) := by
          simp [opening, contents, Token.blockOpen]
      _ = middle.flatMap Line.tokens := by
          rw [toLevel, contents_append, contentsMiddle, contents_settle, List.append_nil]
  have regroup : (first ++ upper :: middle ++ [lower]).flatten
      = (first ++ [upper]).flatten ++ (middle.flatten ++ lower) := by simp
  refine ⟨location, (reader.steps first.flatten).1 ++ markers, inside, place, ?_, ?_,
    contentsInside, ?_⟩
  · calc (reader.steps (first ++ upper :: middle ++ [lower]).flatten).1
        = (reader.steps first.flatten).1 ++ markers ++ upper.tokens
            ++ (afterUpper.toLevel middle lower.level ++ lower.tokens) := by
          rw [regroup, steps_append, readUpper, steps_append]
          simp only [readLower, toLevel, List.append_assoc]
      _ = _ := by rw [opening, List.cons_append]
  · rw [contents_append, contentsFirst, unmarked, List.append_nil]
  · rw [nested_iff, stays]
    simp [or_imp, forall_and, lowerContent]

/-- Blocks are nested and all closed at the end of a text. In a run of lines of a text without block
comments, the block that opens at the end of the line `upper` is open at the line `lower` exactly if
all lines with content after the one and up to the other are deeper than `upper`. The tokens of the
text are split at the tokens of the two lines and at the marker that opens the block at the end of
`upper`. -/
theorem blocks_are_forest (text : String) :
    (Nested (read text).tokens ∧ opens (read text).tokens = closes (read text).tokens)
      ∧ (Uncommented text → ∀ before first middle last after upper lower,
        Run before (first ++ upper :: middle ++ lower :: last) after (lines (found text)) →
        upper.isContent = true → lower.isContent = true →
        ∃ location earlier inside later,
          upper.getLast?.map Located.location = some location
          ∧ (read text).tokens = earlier ++ upper.tokens
              ++ Token.blockOpen location :: (inside ++ lower.tokens ++ later)
          ∧ contents earlier = (before ++ first).flatMap Line.tokens
          ∧ contents inside = middle.flatMap Line.tokens
          ∧ (Nested inside ↔
              ∀ line ∈ middle ++ [lower], line.isContent = true → upper.level < line.level)) := by
  have depth := depthAfter_read text
  refine ⟨⟨nested_iff.mpr (by simp [depth]), by simpa using (closes_add_depth depth).symm⟩, ?_⟩
  intro uncommented before first middle last after upper lower run upperContent lowerContent
  have split : lines (found text)
      = (before ++ first ++ upper :: middle) ++ lower :: (last ++ after) := by
    simpa using run.split
  have ended := ended_of_followed split
  have unowned : ∀ line ∈ before ++ (first ++ upper :: middle ++ [lower]), Unowned line := by
    intro line member
    refine uncommented.unowned (split ▸ ?_)
    have regroup : before ++ first ++ upper :: middle ++ lower :: (last ++ after)
        = before ++ (first ++ upper :: middle ++ [lower]) ++ (last ++ after) := by simp
    rw [regroup]
    exact List.mem_append_left _ member
  rw [List.append_assoc] at ended
  rcases List.forall_mem_append.mp ended with ⟨endedBefore, endedRun⟩
  rcases List.forall_mem_append.mp unowned with ⟨unownedBefore, unownedRun⟩
  have rooted : ∀ line ∈ (first ++ [upper]).find? Line.isContent, line.level = 0 := by
    intro line member
    refine run.rooted line ?_
    have regroup : first ++ upper :: middle ++ lower :: last
        = (first ++ [upper]) ++ (middle ++ lower :: last) := by simp
    rw [regroup, List.find?_append, Option.mem_def.mp member]
    rfl
  have memberLower : lower ∈ lines (found text) := by
    rw [split]
    exact List.mem_append_right _ List.mem_cons_self
  rcases Reader.atLine_initial.steps_flatten endedBefore unownedBefore with ⟨start, contentsBefore⟩
  rcases start.block_of_line (Reader.pending_before_run endedBefore unownedBefore run.begins)
    endedRun
      unownedRun (List.forall_mem_append.mp run.unbroken).1 rooted upperContent
      (mem_lines memberLower) lowerContent with
    ⟨location, earlier, inside, place, readRun, contentsFirst, contentsInside, isOpen⟩
  have regroup : found text = before.flatten
      ++ ((first ++ upper :: middle ++ [lower]).flatten ++ (last ++ after).flatten) := by
    rw [← flatten_lines (found text), split]
    simp
  obtain ⟨later, tokens⟩ : ∃ later, (read text).tokens = (Reader.initial.steps before.flatten).1
      ++ (earlier ++ upper.tokens
        ++ Token.blockOpen location :: (inside ++ lower.tokens) ++ later) := by
    obtain ⟨finish, whole⟩ : ∃ finish,
        (read text).tokens = (Reader.initial.steps (found text)).1 ++ finish :=
      ⟨_, Reader.run_eq_steps ..⟩
    rw [whole, regroup, Reader.steps_append, Reader.steps_append, readRun]
    exact ⟨_, by simp only [List.append_assoc]; rfl⟩
  refine ⟨location, (Reader.initial.steps before.flatten).1 ++ earlier, inside, later,
    place, ?_, ?_,
    contentsInside, isOpen⟩
  · rw [tokens]
    simp only [List.append_assoc, List.cons_append]
  · rw [contents_append, contentsBefore, contentsFirst, List.flatMap_append]

/-- A dotted line lies inside the block of the line above it. -/
theorem dotted_line_is_inside : ∃ upper lower, lines (found "A:\n. b\n") = [upper, lower]
    ∧ ∃ location earlier inside later, (read "A:\n. b\n").tokens = earlier ++ upper.tokens
        ++ Token.blockOpen location :: (inside ++ lower.tokens ++ later) ∧ Nested inside := by
  have split : lines (found "A:\n. b\n") = [
      [⟨⟨0, 0⟩, .name none, ['A']⟩, ⟨⟨0, 1⟩, .mark .colon, [':']⟩, ⟨⟨0, 2⟩, .newline, ['\n']⟩],
      [⟨⟨1, 0⟩, .mark .dotSpace, ['.', ' ']⟩, ⟨⟨1, 2⟩, .name none, ['b']⟩,
        ⟨⟨1, 3⟩, .newline, ['\n']⟩]] := by
    decide +kernel
  have uncommented : Uncommented "A:\n. b\n" := by
    unfold Uncommented
    decide +kernel
  rcases (blocks_are_forest "A:\n. b\n").2 uncommented [] [] [] [] [] _ _
      ⟨split, by simp, by decide, by decide⟩ rfl rfl with
    ⟨location, earlier, inside, later, -, tokens, -, -, isOpen⟩
  exact ⟨_, _, split, location, earlier, inside, later, tokens, isOpen.mpr (by decide)⟩

end Treatise.Layout
