import Treatise.Proofs.Layout.Padding

/-!
# Comment lines

A line that holds nothing but blanks and a line comment is passed over: the reader is the same after
it. So it can be put below whole lines, and all that changes is where the text below it stands.
Lines are whole when no string, statement or block comment is open where they end, since such a
literal would take the comment.
-/

namespace Treatise.Layout

/-! ## Whole lines -/

/-- The text ends with a newline that is not inside a string, a statement or a block comment. At the
end of a text, these are the literals that are still open there: a newline right after the closer of
a block comment is outside, although the comment owns it. -/
def EndsOutside (text : List Char) : Prop :=
  EndsLine text ∧ ∀ last ∈ (Lexeme.scan text).getLast?, last.kind.isUnclosed = false

instance (text : List Char) : Decidable (EndsOutside text) :=
  inferInstanceAs (Decidable (text.getLast? = some '\n' ∧ _))

namespace Lexeme

/-- A literal that is left open takes all that is left of a text. -/
theorem drop_of_unclosed {first : Char} {rest : List Char}
    (unclosed : (classify first rest).1.isUnclosed = true) :
    rest.drop (classify first rest).2 = [] := by
  apply List.drop_eq_nil_of_le
  rcases found : classify first rest with ⟨kind, length⟩
  rw [found] at unclosed
  cases recognized_iff.mpr found with
  | newline | indent | space | blank | lineComment | id | placeholder | mark | name | operator
  | unrecognized => cases unclosed
  | @blockComment comment length closed extent =>
      obtain rfl : closed = false := by simpa [Kind.isUnclosed] using unclosed
      simpa [extent] using blockCommentExtent_open (congrArg Prod.snd extent)
  | @quotation _ _ _ _ closed quotes extent =>
      obtain rfl : closed = false := by cases quotes <;> simpa [Kind.isUnclosed] using unclosed
      simpa [extent] using quotationExtent_open (congrArg Prod.snd extent)

/-- Only the last lexeme of a text can be an open literal. -/
theorem closed_of_getLast {text : List Char}
    (outside : ∀ last ∈ (scan text).getLast?, last.kind.isUnclosed = false) :
    ∀ lexeme ∈ scan text, lexeme.kind.isUnclosed = false := by
  fun_induction Lexeme.scan text with
  | case1 => exact List.forall_mem_nil _
  | case2 first rest found ih =>
      cases later : scan (rest.drop found.2) with
      | nil =>
          rw [later] at outside
          simpa using outside
      | cons next more =>
          -- After an open literal there would be no next lexeme.
          have here : found.1.isUnclosed = false := by
            by_contra unclosed
            have all : rest.drop found.2 = [] := drop_of_unclosed (Bool.of_not_eq_false unclosed)
            rw [all, scan] at later
            cases later
          rw [later, List.getLast?_cons_cons, ← later] at outside
          rw [← later]
          exact List.forall_mem_cons.mpr ⟨here, ih outside⟩

end Lexeme

/-! ## The line -/

/-- A line that holds nothing but blanks and a line comment. -/
def commentLine (blanks comment : List Char) : List Char :=
  blanks ++ '-' :: '-' :: (comment ++ ['\n'])

variable {blanks comment : List Char}

theorem endsLine_commentLine (lines : List Char) :
    EndsLine (lines ++ commentLine blanks comment) := by
  have concat : lines ++ commentLine blanks comment
      = lines ++ blanks ++ '-' :: '-' :: comment ++ ['\n'] := by
    simp [commentLine]
  rw [EndsLine, concat, List.getLast?_concat]

/-- Blanks and line comments end no line, become no token and have no fault. -/
theorem Lexeme.silent_of_layout {lexeme : Lexeme}
    (layout : lexeme.isBlank = true ∨ lexeme.kind = .lineComment) :
    lexeme.kind ≠ .newline ∧ lexeme.kind.token? = none ∧ lexeme.fault? = none := by
  have kinds : lexeme.kind = .space ∨ lexeme.kind = .indent ∨ lexeme.kind = .lineComment := by
    simpa [isBlank, or_assoc] using layout
  rcases kinds with kind | kind | kind <;> simp [kind, Kind.token?, fault?]

section

variable (blank : ∀ character ∈ blanks, character ∈ lineBlanks) (inline : '\n' ∉ comment)

include blank inline

/-- A comment line is cut into blanks, the comment and a newline. -/
theorem Lexeme.scan_commentLine (after : List Char) :
    ∃ front : List Lexeme, scan (commentLine blanks comment ++ after)
      = front ++ [lineEnd] ++ scan after
      ∧ (∀ lexeme ∈ front, lexeme.isBlank = true ∨ lexeme.kind = .lineComment)
      ∧ ∃ lexeme ∈ front, lexeme.kind = .lineComment := by
  have apart : ('-' :: '-' :: comment ++ '\n' :: after).head? ≠ some ' ' := by simp
  rcases scan_blanks blank apart with ⟨margin, all, cut⟩
  rw [(reads_lineComment inline after).scan, scan_lineEnd] at cut
  refine ⟨margin ++ [⟨.lineComment, '-' :: '-' :: comment⟩], ?_, ?_, ?_⟩
  · simpa [commentLine] using cut
  · intro lexeme member
    rcases List.mem_append.mp member with inside | last
    · exact .inl (all lexeme inside)
    · exact .inr (by rw [List.mem_singleton.mp last])
  · exact ⟨_, List.mem_append_right margin List.mem_cons_self, rfl⟩

/-- At the beginning of a line, a reader passes over a comment line. -/
theorem Reader.run_commentLine {reader : Reader} (fresh : reader.Fresh) (location : Location)
    (after : List Char) :
    reader.run location (Lexeme.scan (commentLine blanks comment ++ after))
      = reader.run (location.advance (commentLine blanks comment)) (Lexeme.scan after) := by
  rcases Lexeme.scan_commentLine blank inline after with ⟨front, cut, layout, lexeme, member, kind⟩
  have whole : (front ++ [Lexeme.lineEnd]).flatMap Lexeme.text = commentLine blanks comment := by
    have both := congrArg (List.flatMap Lexeme.text) cut
    rw [List.flatMap_append, Lexeme.flatMap_text_scan, Lexeme.flatMap_text_scan] at both
    exact (List.append_cancel_right both).symm
  have values : (placed location front).map Located.value = front := map_value_placed location front
  have silent : ∀ found ∈ placed location front,
      found.value.kind ≠ .newline ∧ found.value.kind.token? = none := by
    intro found inside
    have value : found.value ∈ front := values ▸ List.mem_map_of_mem inside
    have silent := Lexeme.silent_of_layout (layout found.value value)
    exact ⟨silent.1, silent.2.1⟩
  have yields : reader.steps (placed location (front ++ [Lexeme.lineEnd])) = ([], reader) := by
    rw [placed_append]
    apply steps_commentLine fresh
    · exact fun found inside => (silent found inside).1
    · simpa [Line.isContent] using fun found inside => (silent found inside).2
    · rcases List.mem_map.mp (values.symm ▸ member) with ⟨found, inside, rfl⟩
      exact List.any_eq_true.mpr ⟨found, inside, by simpa using kind⟩
    · rfl
  rw [cut, run_append, whole, yields, List.nil_append]

/-- A comment line has no faults. -/
theorem Lexeme.faults_commentLine (after : List Char) :
    (scan (commentLine blanks comment ++ after)).filterMap fault?
      = (scan after).filterMap fault? := by
  rcases scan_commentLine blank inline after with ⟨front, cut, layout, -⟩
  have none : front.filterMap fault? = [] :=
    List.filterMap_eq_nil_iff.mpr fun lexeme member => (silent_of_layout (layout lexeme member)).2.2
  rw [cut, List.filterMap_append, List.filterMap_append, none]
  rfl

end

/-! ## Below whole lines -/

/-- The kinds and the texts that a reader yields do not depend on where it stands. -/
theorem Reader.unplaced_run_congr {reader : Reader} (sound : reader.Sound) (here there : Location)
    (lexemes : List Lexeme) :
    unplaced (reader.run here lexemes) = unplaced (reader.run there lexemes) := by
  have alike : Alike (fun _ => .nowhere) reader
      { reader with pending := reader.pending.map fun _ => .nowhere } :=
    ⟨sound, sound, rfl, rfl, rfl, rfl, rfl⟩
  rw [unplaced_run alike, unplaced_run alike]

theorem map_message_faultsFrom (location : Location) (lexemes : List Lexeme) :
    ((faultsFrom location lexemes).map Fault.diagnostic).map Diagnostic.message
      = (lexemes.filterMap Lexeme.fault?).map Fault.message := by
  induction lexemes generalizing location with
  | nil => rfl
  | cons lexeme rest ih =>
      rw [faultsFrom, List.map_append, List.map_append, ih]
      cases fault : lexeme.fault? with
      | none => simp [fault]
      | some fault' => simp [fault, Fault.diagnostic, Diagnostic.ofLocated]

/-- What is read below whole lines: a text with a newline at its end, unless there is none. -/
def tailOf (text : List Char) : List Char :=
  if text = [] then [] else withFinalNewline text

/-- Whole lines are read as they are, and nothing is read from the newline of an empty text. -/
theorem read_lines {lines : List Char} (whole : lines = [] ∨ EndsLine lines) (text : List Char) :
    read (String.ofList (lines ++ text))
      = ⟨Reader.initial.run .start (Lexeme.scan (lines ++ tailOf text)),
        faultsFrom .start (Lexeme.scan (lines ++ tailOf text))⟩ := by
  by_cases empty : text = []
  · subst empty
    rcases whole with rfl | ends
    · simp [read, tailOf, withFinalNewline]
      decide +kernel
    · rw [read]
      simp [tailOf, withFinalNewline, show lines.getLast? = some '\n' from ends]
  · rw [read, String.toList_ofList, withFinalNewline_append lines empty, tailOf, if_neg empty]

theorem fresh_below {above : List Char} (whole : above = [] ∨ EndsLine above)
    (closed : ∀ lexeme ∈ Lexeme.scan above, lexeme.kind.isUnclosed = false) :
    (Reader.initial.steps (placed .start (Lexeme.scan above))).2.Fresh := by
  rcases whole with rfl | ends
  · rw [Lexeme.scan]
    exact Reader.fresh_initial
  · exact Reader.fresh_steps ends closed Reader.initial .start

/-- An open string takes the line. -/
example : unplaced (read "\"a\n-- c\n").tokens ≠ unplaced (read "\"a\n").tokens := by decide +kernel

end Treatise.Layout
