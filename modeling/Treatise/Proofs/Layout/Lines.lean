import Treatise.Proofs.Layout.Stack

/-!
# Lines

A line is made of the lexemes up to a newline that is a lexeme of its own; a newline inside a
literal ends no line. A line with content yields the tokens of its content, after the markers that
settle the newline before it at the level of the line. A line that holds a comment only yields
nothing, and a blank line settles the pending newline at level zero.

The reader is fresh at the beginning of a line. As long as no block comment takes the newline after
it, all blocks are closed whenever no newline is pending at the beginning of a line.
-/

namespace Treatise.Layout

/-- The lexemes of a line with their places. A newline, if there is one, comes last. -/
abbrev Line := List (Located Lexeme)

/-- Cuts lexemes after each newline. -/
def lines : List (Located Lexeme) → List Line
  | [] => []
  | found :: rest =>
    if found.value.kind = .newline then [found] :: lines rest
    else match lines rest with
      | [] => [[found]]
      | line :: more => (found :: line) :: more

namespace Line

/-- The token that a lexeme with content becomes. -/
def token? (found : Located Lexeme) : Option Token :=
  found.value.kind.token?.map fun kind => ⟨kind, found.value.tokenText, found.location⟩

/-- The tokens of the content of a line. -/
def tokens (line : Line) : List Token :=
  line.filterMap token?

def isContent (line : Line) : Bool :=
  line.any fun found => found.value.kind.token?.isSome

/-- Whether a line has a comment. -/
def hasComment (line : Line) : Bool :=
  line.any fun found => found.value.kind == .lineComment

/-- Whether a line has neither content nor a comment. -/
def isBlank (line : Line) : Bool :=
  !line.isContent && !line.hasComment

/-- The lexemes before the first content of a line. -/
def margin (line : Line) : Line :=
  line.takeWhile fun found => found.value.kind.token?.isNone

/-- The lexemes from the first content of a line on. -/
def body (line : Line) : Line :=
  line.dropWhile fun found => found.value.kind.token?.isNone

/-- How many two-space indents there are among lexemes. -/
def indents (line : Line) : Nat :=
  line.countP fun found => found.value.kind == .indent

/-- The two-space indents before the first content, and one more if that is a dot with a space. -/
def level (line : Line) : Nat :=
  line.margin.indents + match line.body with
    | first :: _ => if first.value.kind = .mark .dotSpace then 1 else 0
    | [] => 0

theorem margin_append_body (line : Line) : line.margin ++ line.body = line :=
  List.takeWhile_append_dropWhile

theorem token?_of_mem_margin {line : Line} {found : Located Lexeme} (member : found ∈ line.margin) :
    found.value.kind.token? = none := by
  simpa using List.mem_takeWhile_imp member

theorem tokens_margin (line : Line) : tokens line.margin = [] := by
  refine List.filterMap_eq_nil_iff.mpr fun found member => ?_
  simp [token?, token?_of_mem_margin member]

theorem tokens_cons (found : Located Lexeme) (line : Line) :
    tokens (found :: line) = (token? found).toList ++ tokens line := by
  cases becomes : token? found <;> simp [tokens, becomes]

theorem tokens_append (first second : Line) :
    tokens (first ++ second) = tokens first ++ tokens second :=
  List.filterMap_append

/-- The first content of a line, and what follows it. -/
theorem exists_body {line : Line} (content : line.isContent = true) :
    ∃ first rest kind, line.body = first :: rest ∧ first.value.kind.token? = some kind := by
  cases split : line.body with
  | nil =>
      have all := List.dropWhile_eq_nil_iff.mp split
      rcases List.any_eq_true.mp content with ⟨found, member, some_⟩
      have none_ := all found member
      simp [Option.isNone_iff_eq_none.mp none_] at some_
  | cons first rest =>
      have stops := List.head?_dropWhile_not (fun found : Located Lexeme =>
        found.value.kind.token?.isNone) line
      rw [show line.dropWhile _ = first :: rest from split] at stops
      rcases Option.isSome_iff_exists.mp (by simpa using stops) with ⟨kind, some_⟩
      exact ⟨first, rest, kind, rfl, some_⟩

end Line

/-- There is no newline among the lexemes of a line. -/
def Unbroken (line : Line) : Prop :=
  ∀ found ∈ line, found.value.kind ≠ .newline

/-- No lexeme of a line is a block comment that owns the newline after it. -/
def Unowned (line : Line) : Prop :=
  ∀ found ∈ line, found.value.ownsNewline = false

/-- A line that ends with its newline. -/
def Ended (line : Line) : Prop :=
  ∃ front last, line = front ++ [last] ∧ Unbroken front ∧ last.value.kind = .newline

namespace Line

variable {front : Line} {last : Located Lexeme}

theorem isContent_ended (ends : last.value.kind = .newline) :
    isContent (front ++ [last]) = isContent front := by
  simp [isContent, ends, Lexeme.Kind.token?]

theorem hasComment_ended (ends : last.value.kind = .newline) :
    hasComment (front ++ [last]) = hasComment front := by
  simp [hasComment, ends]

theorem tokens_ended (ends : last.value.kind = .newline) :
    tokens (front ++ [last]) = tokens front := by
  simp [tokens, token?, ends, Lexeme.Kind.token?]

theorem level_ended (content : isContent front = true) :
    level (front ++ [last]) = level front := by
  rcases exists_body content with ⟨first, rest, kind, split, token⟩
  have parts := margin_append_body front
  rw [split] at parts
  have bare : ∀ found ∈ front.margin, found.value.kind.token?.isNone = true :=
    fun found member => by
    simp [token?_of_mem_margin member]
  have margin_eq : margin (front ++ [last]) = front.margin := by
    calc margin (front ++ [last]) = margin (front.margin ++ first :: (rest ++ [last])) := by
          rw [← List.cons_append, ← List.append_assoc, parts]
      _ = front.margin := by
          simp only [margin] at bare ⊢
          rw [List.takeWhile_append_of_pos bare, List.takeWhile_cons_of_neg (by simp [token]),
            List.append_nil]
  have body_eq : body (front ++ [last]) = first :: (rest ++ [last]) := by
    have whole := margin_append_body (front ++ [last])
    rw [margin_eq] at whole
    refine List.append_cancel_left (whole.trans ?_)
    rw [← List.cons_append, ← List.append_assoc, parts]
  simp only [level, margin_eq, body_eq, split]

end Line

/-! ## Cutting lines -/

theorem flatten_lines (found : List (Located Lexeme)) : (lines found).flatten = found := by
  induction found with
  | nil => rfl
  | cons first rest ih =>
      simp only [lines]
      split_ifs
      · simp [ih]
      · split
        · next none_ =>
          rw [none_] at ih
          simpa using ih
        · next line more cut =>
          rw [cut] at ih
          simpa using ih

/-- The parts that a line is made of: lexemes without a newline, and the newline unless it is
last. -/
theorem mem_lines {found : List (Located Lexeme)} {line : Line} (member : line ∈ lines found) :
    Unbroken line ∨ Ended line := by
  induction found generalizing line with
  | nil => simp [lines] at member
  | cons first rest ih =>
      simp only [lines] at member
      split_ifs at member with newline
      · rcases List.mem_cons.mp member with rfl | later
        · exact Or.inr ⟨[], first, rfl, by simp [Unbroken], newline⟩
        · exact ih later
      · split at member
        · have sole : line = [first] := by simpa using member
          subst sole
          exact Or.inl (by simpa [Unbroken] using newline)
        · next head more cut =>
          have headParts : Unbroken head ∨ Ended head := ih (by simp [cut])
          rcases List.mem_cons.mp member with rfl | later
          · rcases headParts with unbroken | ⟨front, last, rfl, unbroken, ends⟩
            · exact Or.inl (by simpa [Unbroken, newline] using unbroken)
            · exact Or.inr ⟨first :: front, last, rfl, by simpa [Unbroken, newline] using unbroken,
                ends⟩
          · exact ih (by simp [cut, later])

/-- Every line but the last ends with a newline. -/
theorem lines_ends {found : List (Located Lexeme)} {before after : List Line} {line : Line}
    (split : lines found = before ++ line :: after) (followed : after ≠ []) : Ended line := by
  induction found generalizing before line with
  | nil => simp [lines] at split
  | cons first rest ih =>
      simp only [lines] at split
      split_ifs at split with newline
      · cases before with
        | nil =>
            simp only [List.nil_append, List.cons.injEq] at split
            exact ⟨[], first, split.1.symm, by simp [Unbroken], newline⟩
        | cons head before =>
            simp only [List.cons_append, List.cons.injEq] at split
            exact ih split.2
      · cases cut : lines rest with
        | nil =>
            rw [cut] at split
            cases before <;> simp_all
        | cons head more =>
            rw [cut] at split
            cases before with
            | nil =>
                simp only [List.nil_append, List.cons.injEq] at split
                rcases split with ⟨rfl, rfl⟩
                have here : lines rest = [] ++ head :: more := cut
                rcases ih here with ⟨front, last, rfl, unbroken, ends⟩
                exact ⟨first :: front, last, rfl, by simpa [Unbroken, newline] using unbroken, ends⟩
            | cons other before =>
                simp only [List.cons_append, List.cons.injEq] at split
                have later : lines rest = head :: before ++ line :: after := by simp [cut, split.2]
                exact ih later

namespace Reader

/-- The reader is at the beginning of a line. -/
def Fresh (reader : Reader) : Prop :=
  reader.indent = 0 ∧ reader.line = .nothing

theorem fresh_initial : initial.Fresh := ⟨rfl, rfl⟩

/-! ## The parts of a line -/

/-- Lexemes without content yield nothing and shift the line. -/
theorem steps_margin {reader : Reader} (started : reader.line ≠ .content) {margin : Line}
    (bare : ∀ found ∈ margin, found.value.kind.token? = none) (unbroken : Unbroken margin) :
    reader.steps margin = ([], { reader with
      indent := reader.indent + margin.indents
      line := if margin.hasComment then .comment else reader.line }) := by
  induction margin generalizing reader with
  | nil => simp [Line.indents, Line.hasComment]
  | cons found rest ih =>
      rcases List.forall_mem_cons.mp bare with ⟨bareFound, bareRest⟩
      rcases List.forall_mem_cons.mp unbroken with ⟨notNewline, unbrokenRest⟩
      cases kind : found.value.kind with
      | newline => exact absurd kind notNewline
      | indent =>
          have shifted : ({ reader with indent := reader.indent + 1 } : Reader).line ≠ .content :=
            started
          have later := ih shifted bareRest unbrokenRest
          simp [steps, step, kind, started, later, Line.indents, Line.hasComment, Nat.add_assoc,
            Nat.add_comm]
      | space | unrecognized =>
          have later := ih started bareRest unbrokenRest
          simp [steps, step, kind, later, Line.indents, Line.hasComment]
      | lineComment =>
          have commented : ({ reader with line := .comment } : Reader).line ≠ .content := by simp
          have later := ih commented bareRest unbrokenRest
          simp [steps, step, kind, started, later, Line.indents, Line.hasComment]
      | literal _ _ | name _ | placeholder | operator | mark _ =>
          simp [kind, Lexeme.Kind.token?] at bareFound

/-- On a line whose content has begun, lexemes yield their tokens and nothing else. -/
theorem steps_body (reader : Reader) (inside : reader.line = .content)
    (breakable : reader.breakable = true) {body : Line} (unbroken : Unbroken body)
    (unowned : Unowned body) : reader.steps body = (Line.tokens body, reader) := by
  have same : { reader with line := .content, breakable := true } = reader := by
    cases reader
    simp_all
  induction body with
  | nil => rfl
  | cons found rest ih =>
      rcases List.forall_mem_cons.mp unbroken with ⟨notNewline, unbrokenRest⟩
      rcases List.forall_mem_cons.mp unowned with ⟨notOwning, unownedRest⟩
      have later := ih unbrokenRest unownedRest
      cases kind : found.value.kind with
      | newline => exact absurd kind notNewline
      | indent | space | lineComment | unrecognized =>
          simp [steps, step, kind, inside, later, Line.tokens, Line.token?, Lexeme.Kind.token?]
      | literal _ _ | name _ | placeholder | operator | mark _ =>
          simp [steps, step, content, kind, inside, notOwning, same, later, Line.tokens,
            Line.token?, Lexeme.Kind.token?]

/-! ## Whole lines -/

theorem settle_shifted (reader : Reader) (indent : Nat) (line : LineContent) (level : Nat) :
    { reader with indent := indent, line := line }.settle level
      = ((reader.settle level).1,
        { (reader.settle level).2 with indent := indent, line := line }) := by
  cases pending : reader.pending <;> simp [settle, openBlock, pending]

theorem settle_indent (reader : Reader) (level : Nat) :
    (reader.settle level).2.indent = reader.indent := by
  cases pending : reader.pending <;> simp [settle, openBlock, pending]

theorem settle_line (reader : Reader) (level : Nat) :
    (reader.settle level).2.line = reader.line := by
  cases pending : reader.pending <;> simp [settle, openBlock, pending]

theorem settle_pending (reader : Reader) (level : Nat) :
    (reader.settle level).2.pending = none := by
  cases pending : reader.pending <;> simp [settle, openBlock, pending]

theorem step_of_token? {found : Located Lexeme} {kind : TokenKind}
    (content : found.value.kind.token? = some kind) (reader : Reader) :
    reader.step found.location found.value = reader.content found.location found.value kind := by
  cases shape : found.value.kind <;>
    simp_all [step, Lexeme.Kind.token?]

theorem isDot_iff {kind : Lexeme.Kind} {token : TokenKind} (content : kind.token? = some token) :
    kind = .mark .dotSpace ↔ token = .mark .dotSpace := by
  cases kind <;> simp only [Lexeme.Kind.token?, Option.some.injEq, reduceCtorEq] at content <;>
    subst content <;> simp

/-- The content of a line comes after the markers of its level. -/
theorem steps_content {reader : Reader} (fresh : reader.Fresh) {line : Line}
    (unbroken : Unbroken line) (unowned : Unowned line) (content : line.isContent = true) :
    reader.steps line = ((reader.settle line.level).1 ++ line.tokens,
      { (reader.settle line.level).2 with
        indent := line.margin.indents, line := .content, breakable := true }) := by
  rcases Line.exists_body content with ⟨first, rest, kind, split, token⟩
  have parts := line.margin_append_body
  rw [split] at parts
  have unbrokenMargin : Unbroken line.margin := fun found member =>
    unbroken found (parts ▸ List.mem_append_left _ member)
  have unbrokenRest : Unbroken rest := fun found member =>
    unbroken found (parts ▸ List.mem_append_right _ (List.mem_cons_of_mem _ member))
  have unownedFirst : first.value.ownsNewline = false :=
    unowned first (parts ▸ List.mem_append_right _ List.mem_cons_self)
  have unownedRest : Unowned rest := fun found member =>
    unowned found (parts ▸ List.mem_append_right _ (List.mem_cons_of_mem _ member))
  have empty : reader.line ≠ .content := by simp [fresh.2]
  have before := steps_margin empty
    (fun found member => Line.token?_of_mem_margin member) unbrokenMargin
  -- The level at which the newline before the line is settled is that of the line.
  have level : (if kind = .mark .dotSpace then line.margin.indents + 1 else line.margin.indents)
      = line.level := by
    simp only [Line.level, split, isDot_iff token]
    split_ifs <;> rfl
  have tokens : line.tokens
      = ⟨kind, first.value.tokenText, first.location⟩ :: Line.tokens rest := by
    calc line.tokens = Line.tokens (line.margin ++ first :: rest) := by rw [parts]
      _ = Line.tokens (first :: rest) := by rw [Line.tokens_append, Line.tokens_margin]; rfl
      _ = _ := by simp [Line.tokens, Line.token?, token]
  have shifted := settle_shifted reader line.margin.indents
    (if line.margin.hasComment then .comment else .nothing) line.level
  have after := steps_body { (reader.settle line.level).2 with
    indent := line.margin.indents, line := .content, breakable := true } rfl rfl unbrokenRest
    unownedRest
  have started : (if line.margin.hasComment then LineContent.comment else .nothing) ≠ .content := by
    split_ifs <;> simp
  calc reader.steps line = reader.steps (line.margin ++ first :: rest) := by rw [parts]
    _ = _ := by
      rw [steps_append, before]
      simp only [fresh.1, fresh.2, Nat.zero_add, steps, step_of_token? token, Reader.content,
        started, if_false, level, shifted, unownedFirst, Bool.false_eq_true, after, tokens,
        List.nil_append,
        List.append_assoc, List.singleton_append]

/-- A line with content that ends with a newline leaves that newline pending. -/
theorem steps_contentLine {reader : Reader} (fresh : reader.Fresh) {front : Line}
    {last : Located Lexeme} (unbroken : Unbroken front) (unowned : Unowned front)
    (content : front.isContent = true) (ends : last.value.kind = .newline) :
    reader.steps (front ++ [last]) = ((reader.settle front.level).1 ++ front.tokens,
      { (reader.settle front.level).2 with pending := some last.location, breakable := true }) := by
  rw [steps_append, steps_content fresh unbroken unowned content]
  simp only [steps, step, ends, newline, freshLine, List.append_nil, Prod.mk.injEq, true_and]
  rw [← fresh.1, ← fresh.2, ← settle_indent reader front.level, ← settle_line reader front.level]

/-- A line that holds only a comment yields nothing. -/
theorem steps_commentLine {reader : Reader} (fresh : reader.Fresh) {front : Line}
    {last : Located Lexeme} (unbroken : Unbroken front) (bare : front.isContent = false)
    (comment : front.hasComment = true) (ends : last.value.kind = .newline) :
    reader.steps (front ++ [last]) = ([], reader) := by
  have none_ : ∀ found ∈ front, found.value.kind.token? = none := by
    simpa [Line.isContent] using bare
  rw [steps_append, steps_margin (by simp [fresh.2]) none_ unbroken]
  simp only [comment, if_true, steps, step, ends, newline, freshLine, List.append_nil,
    Prod.mk.injEq, true_and]
  rw [← fresh.1, ← fresh.2]

/-- A blank line settles the pending newline and leaves a line break after a token that is none. -/
theorem steps_blankLine {reader : Reader} (fresh : reader.Fresh) {front : Line}
    {last : Located Lexeme} (unbroken : Unbroken front) (bare : front.isContent = false)
    (uncommented : front.hasComment = false) (ends : last.value.kind = .newline) :
    reader.steps (front ++ [last]) = ((reader.settle 0).1
        ++ (if (reader.settle 0).2.breakable then [Token.lineBreak last.location] else []),
      { (reader.settle 0).2 with breakable := false }) := by
  have none_ : ∀ found ∈ front, found.value.kind.token? = none := by
    simpa [Line.isContent] using bare
  have shifted := settle_shifted reader front.indents .nothing 0
  rw [steps_append, steps_margin (by simp [fresh.2]) none_ unbroken]
  simp only [uncommented, Bool.false_eq_true, if_false, fresh.1, fresh.2, Nat.zero_add, steps, step,
    ends, newline, shifted, freshLine, List.append_nil, List.nil_append, Prod.mk.injEq, true_and]
  have indent := (settle_indent reader 0).trans fresh.1
  have line := (settle_line reader 0).trans fresh.2
  generalize (reader.settle 0).2 = settled at indent line ⊢
  rw [← indent, ← line]

/-- What a newline leaves pending, told by the stack. -/
theorem settle_pending_eq {reader : Reader} (sound : reader.Sound) {location : Location}
    (pending : reader.pending = some location) (level : Nat) :
    (reader.settle level).1 = Token.blockOpen location
        :: List.replicate (reader.closings level) (Token.blockClose location)
      ∧ (reader.settle level).2.stack = level :: reader.stack.dropWhile (level ≤ ·) := by
  rw [settle_of_some pending]
  exact ⟨openBlock_fst _ _ _,
    stack_openBlock sound location level⟩

/-! ## Between lines -/

/-- What holds at the beginning of a line. Without a pending newline all blocks are closed. -/
structure AtLine (reader : Reader) : Prop where
  fresh : reader.Fresh
  sound : reader.Sound
  closed : reader.pending = none → reader.stack = [0]

theorem atLine_initial : initial.AtLine := ⟨fresh_initial, sound_initial, fun _ => rfl⟩

/-- A line with content, in terms of the line as a whole. -/
theorem AtLine.steps_content {reader : Reader} (start : reader.AtLine) {line : Line}
    (ended : Ended line) (unowned : Unowned line) (content : line.isContent = true) :
    ∃ after location, reader.steps line = ((reader.settle line.level).1 ++ line.tokens, after)
      ∧ line.getLast?.map Located.location = some location ∧ after.pending = some location
      ∧ after.AtLine ∧ after.stack = (reader.settle line.level).2.stack := by
  rcases ended with ⟨front, last, rfl, unbroken, ends⟩
  rw [Line.isContent_ended ends] at content
  have unownedFront : Unowned front := fun found member =>
    unowned found (List.mem_append_left _ member)
  rw [Line.level_ended content, Line.tokens_ended ends]
  refine ⟨_, last.location,
    steps_contentLine start.fresh unbroken unownedFront content ends, by simp,
    rfl, ⟨⟨?_, ?_⟩, sound_settle start.sound _, fun none_ => by simp at none_⟩, rfl⟩
  · exact (settle_indent reader _).trans start.fresh.1
  · exact (settle_line reader _).trans start.fresh.2

/-- A line that holds a comment only. -/
theorem AtLine.steps_comment {reader : Reader} (start : reader.AtLine) {line : Line}
    (ended : Ended line) (bare : line.isContent = false) (nonblank : line.isBlank = false) :
    reader.steps line = ([], reader) := by
  have comment : line.hasComment = true := by simpa [Line.isBlank, bare] using nonblank
  rcases ended with ⟨front, last, rfl, unbroken, ends⟩
  rw [Line.isContent_ended ends] at bare
  rw [Line.hasComment_ended ends] at comment
  exact steps_commentLine start.fresh unbroken bare comment ends

/-- A blank line closes all blocks and leaves a line break after a token that is none. -/
theorem AtLine.steps_blank {reader : Reader} (start : reader.AtLine) {line : Line}
    (ended : Ended line) (blank : line.isBlank = true) :
    ∃ after location, reader.steps line = ((reader.settle 0).1
        ++ (if (reader.settle 0).2.breakable then [Token.lineBreak location] else []), after)
      ∧ after.AtLine ∧ after.pending = none := by
  rcases ended with ⟨front, last, rfl, unbroken, ends⟩
  simp only [Line.isBlank, Line.isContent_ended ends, Line.hasComment_ended ends, Bool.and_eq_true,
    Bool.not_eq_true'] at blank
  refine ⟨_, _, steps_blankLine start.fresh unbroken blank.1 blank.2 ends,
    ⟨⟨?_, ?_⟩, sound_settle start.sound 0, fun _ => ?_⟩, settle_pending reader 0⟩
  · exact (settle_indent reader 0).trans start.fresh.1
  · exact (settle_line reader 0).trans start.fresh.2
  · change (reader.settle 0).2.stack = [0]
    cases pending : reader.pending with
    | none => rw [settle_of_none pending, start.closed pending]
    | some location => simp [(settle_pending_eq start.sound pending 0).2]

end Reader

end Treatise.Layout
