import Treatise.Proofs.Layout.Lossless

/-!
# What a lexeme looks at

Each lexeme is cut off by its own text and by a little of what follows: a blank goes by the next
character, a line comment by the newline, a literal by nothing but its closer, and a block comment
also by a newline right after the closer. Any other content goes by the rest of its line.
-/

namespace Treatise.Layout

theorem inline_of_blanks {run : List Char} (blank : ∀ character ∈ run, character ∈ lineBlanks) :
    '\n' ∉ run :=
  fun newline => absurd (blank _ newline) (by decide)

namespace Lexeme

variable {first : Char} {rest text after : List Char} {kind : Kind}

/-! ## Layout -/

/-- What a lexeme without content begins with, and how far it reaches. -/
theorem layout_of_classify {length : Nat} (found : classify first rest = (kind, length)) :
    match kind with
    | .newline => first = '\n' ∧ length = 0
    | .space | .indent => first ∈ lineBlanks
    | .lineComment => first = '-' ∧ ∃ comment, rest = '-' :: comment
        ∧ length = Text.runLength (· != '\n') comment + 1
    | _ => True := by
  cases recognized_iff.mpr found with
  | newline => exact ⟨rfl, rfl⟩
  | indent | space => simp [lineBlanks]
  | blank blank => exact List.mem_cons_of_mem ' ' blank
  | lineComment comment => exact ⟨rfl, comment, rfl, rfl⟩
  | blockComment | quotation | id | placeholder | mark | name | operator | unrecognized => trivial

theorem newline_of_reads (reads : (Lexeme.mk .newline text).Reads after) : text = ['\n'] := by
  rcases reads with ⟨first, rest, rfl, found⟩
  rcases layout_of_classify found with ⟨rfl, length⟩
  rw [List.length_eq_zero_iff.mp length]

theorem classify_lineBlank (blank : first ∈ lineBlanks) (rest : List Char) :
    classify first rest
      = if first = ' ' ∧ rest.head? = some ' ' then (.indent, 1) else (.space, 0) := by
  simp only [lineBlanks, List.mem_cons, List.not_mem_nil, or_false] at blank
  rcases blank with rfl | rfl | rfl | rfl
  · rcases rest with _ | ⟨next, more⟩
    · rfl
    · by_cases space : next = ' '
      · subst space
        rfl
      · simp [classify, space]
  · rfl
  · rfl
  · rfl

/-- A blank goes by the next character only. -/
theorem reads_blank (reads : (Lexeme.mk kind text).Reads after)
    (blank : kind = .space ∨ kind = .indent) {other : List Char}
    (same : other.head? = after.head?) :
    (∀ character ∈ text, character ∈ lineBlanks) ∧ (Lexeme.mk kind text).Reads other := by
  rcases reads with ⟨first, rest, rfl, found⟩
  have here : first ∈ lineBlanks := by
    rcases blank with rfl | rfl
    · exact layout_of_classify found
    · exact layout_of_classify found
  have heads : (rest ++ other).head? = (rest ++ after).head? := by
    cases rest <;> simp [same]
  refine ⟨?_, first, rest, rfl, ?_⟩
  · rw [classify_lineBlank here] at found
    split at found
    · next indent =>
      rcases rest with _ | ⟨next, _ | more⟩
      · cases found
      · have next_eq : next = ' ' := by simpa using indent.2
        simpa [next_eq] using ⟨here, indent.1 ▸ here⟩
      · cases found
    · obtain rfl : rest = [] := List.length_eq_zero_iff.mp (Prod.mk.inj found).2.symm
      simpa using here
  · rw [← found, classify_lineBlank here, classify_lineBlank here, heads]

theorem reads_lineComment {comment : List Char} (inline : '\n' ∉ comment) (after : List Char) :
    (Lexeme.mk .lineComment ('-' :: '-' :: comment)).Reads ('\n' :: after) := by
  have length : Text.runLength (· != '\n') (comment ++ '\n' :: after) = comment.length :=
    Text.runLength_append
      (fun character member => by simpa using ne_of_mem_of_not_mem member inline)
      (by simp)
  refine ⟨'-', '-' :: comment, rfl, ?_⟩
  rw [List.cons_append, classify, length, List.length_cons]

theorem comment_of_reads (reads : (Lexeme.mk .lineComment text).Reads after) :
    ∃ comment, text = '-' :: '-' :: comment ∧ '\n' ∉ comment ∧ AtLineEnd after := by
  rcases reads with ⟨first, rest, rfl, found⟩
  rcases layout_of_classify found with ⟨rfl, comment, whole, length⟩
  have here : rest = '-' :: comment.takeWhile (· != '\n') := by
    rw [← Text.take_runLength, ← List.take_succ_cons, ← length, ← whole, List.take_left]
  have later : after = comment.dropWhile (· != '\n') := by
    rw [← Text.drop_runLength, ← List.drop_succ_cons, ← length, ← whole, List.drop_left]
  refine ⟨comment.takeWhile (· != '\n'), by rw [here], fun newline => ?_, ?_⟩
  · simpa using List.mem_takeWhile_imp newline
  · rw [later]
    exact atLineEnd_dropWhile comment

/-! ## Content -/

theorem ownsNewline_of_not_literal (notLiteral : ∀ literal closed, kind ≠ .literal literal closed)
    (text : List Char) : (Lexeme.mk kind text).ownsNewline = false := by
  unfold ownsNewline
  split
  · next comment => exact absurd comment (notLiteral _ _)
  · rfl

/-- A lexeme with content that is no literal stays on its line, and goes by that line only. -/
theorem reads_content (reads : (Lexeme.mk kind text).Reads after)
    (clean : (Lexeme.mk kind text).fault? = none) (content : kind.token?.isSome)
    (notLiteral : ∀ literal closed, kind ≠ .literal literal closed)
    (ends : EndsLine (text ++ after)) :
    '\n' ∉ text ∧ ∀ other, SameLine after other → (Lexeme.mk kind text).Reads other := by
  rcases reads with ⟨first, rest, rfl, found⟩
  have again : ∀ other, SameLine (rest ++ after) other →
      classify first other = (kind, rest.length) := by
    intro other same
    exact ((recognized_iff.mpr found).sameLine same content notLiteral).classify_eq
  refine ⟨?_, fun other same => ⟨first, rest, rfl, again _ (same.append_left rest)⟩⟩
  have notNewline : first ≠ '\n' := by
    rintro rfl
    rcases Prod.mk.inj found with ⟨rfl, -⟩
    cases content
  -- The lexeme is also cut off from its line alone, and does not take the newline there.
  rcases List.eq_append_cons_of_mem (List.mem_of_getLast? (ends.of_cons notNewline)) with
    ⟨line, more, split, inline⟩
  have cut : classify first (line ++ ['\n']) = (kind, rest.length) := by
    refine again _ ?_
    rw [show rest ++ after = line ++ '\n' :: more from split]
    exact .append_left line (.stop List.mem_cons_self more [])
  have alone : EndsLine (first :: (line ++ ['\n'])) := by simp [EndsLine, List.getLast?_cons]
  have short := (recognized_iff.mpr cut).lt_or_endsRow alone (isUnclosed_of_faultless clean)
  have within : rest.length ≤ line.length := by
    rcases short with short | newline | owns
    · simpa [Nat.lt_succ_iff] using short
    · obtain rfl : kind = .newline := newline
      cases content
    · rw [ownsNewline_of_not_literal notLiteral] at owns
      cases owns
  have start : rest = line.take rest.length := by
    calc rest = (rest ++ after).take rest.length := List.take_left.symm
      _ = (line ++ '\n' :: more).take rest.length := congrArg (List.take rest.length) split
      _ = line.take rest.length := List.take_append_of_le_length within
  rw [List.mem_cons, not_or, start]
  exact ⟨Ne.symm notNewline, fun member => inline (List.mem_of_mem_take member)⟩

/-! ## Literals -/

theorem inline_of_id (reads : (Lexeme.mk (.literal .id true) text).Reads after) : '\n' ∉ text := by
  rcases reads with ⟨first, rest, rfl, found⟩
  rcases literal_of_classify found with ⟨⟨⟩, -⟩ | ⟨⟨⟩, -⟩ | ⟨-, rfl, extent⟩
  have inline := idExtent_inline 0 (rest ++ after)
  rw [extent, List.take_left] at inline
  simpa using inline

/-- A block comment ends with its closer or with the newline right after it. With the newline it is
cut off in front of everything, and without it in front of everything that is no newline, unless a
brace would make a difference. -/
theorem reads_blockComment
    (reads : (Lexeme.mk (.literal .blockComment true) text).Reads after) :
    ∃ shut, shut.getLast? = some ':'
      ∧ (text = shut ∧ after.head? ≠ some '\n' ∨ text = shut ++ ['\n'])
      ∧ (∀ other : List Char, other.head? ≠ some '\n' →
          (other.head? = some '}' → text = shut ∧ after.head? = some '}') →
          (Lexeme.mk (.literal .blockComment true) shut).Reads other)
      ∧ ∀ other, (Lexeme.mk (.literal .blockComment true) (shut ++ ['\n'])).Reads other := by
  rcases reads with ⟨first, rest, rfl, found⟩
  rcases comment_of_classify found with ⟨rfl, comment, whole, closed, length⟩
  rcases exists_closed closed.symm with ⟨body, tail, rfl, extent⟩
  rw [extent tail id] at length
  have parts : rest = ':' :: (body ++ [':', ':']) ∧ after = tail ∧ tail.head? ≠ some '\n'
      ∨ rest = ':' :: (body ++ [':', ':', '\n']) := by
    by_cases newline : tail.head? = some '\n'
    · rcases List.head?_eq_some_iff.mp newline with ⟨more, rfl⟩
      have split : rest ++ after = ':' :: (body ++ [':', ':', '\n']) ++ more := by simpa using whole
      exact .inr (List.append_inj split (by simpa using length)).1
    · have split : rest ++ after = ':' :: (body ++ [':', ':']) ++ tail := by simpa using whole
      rcases List.append_inj split (by simpa [newline] using length) with ⟨here, later⟩
      exact .inl ⟨here, later, newline⟩
  refine ⟨':' :: ':' :: (body ++ [':', ':']), ?_, ?_, fun other inline brace => ?_, fun other => ?_⟩
  · simp [List.getLast?_cons]
  · rcases parts with ⟨rfl, rfl, inline⟩ | rfl
    · exact .inl ⟨rfl, inline⟩
    · exact .inr (by simp)
  · have brace' : other.head? = some '}' → tail.head? = some '}' := by
      intro starts
      rcases brace starts with ⟨same, next⟩
      rcases parts with ⟨-, rfl, -⟩ | rfl
      · exact next
      · simp at same
    refine ⟨':', ':' :: (body ++ [':', ':']), rfl, ?_⟩
    have cut := extent other brace'
    rw [if_neg inline] at cut
    simp [classify, cut]
  · refine ⟨':', ':' :: (body ++ [':', ':', '\n']), by simp, ?_⟩
    have cut := extent ('\n' :: other) (by simp)
    simp [classify, cut]

end Lexeme

end Treatise.Layout
