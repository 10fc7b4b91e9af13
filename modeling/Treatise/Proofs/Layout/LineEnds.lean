import Treatise.Proofs.Layout.SameLine

/-!
# Lines in front of other text

Lexemes do not look beyond the end of a line, except for literals, which end with their closer. So
lines that leave no string, statement or block comment open are cut into the same lexemes whatever
text follows them, and the last of these lexemes ends the last line: it is a newline, or a block
comment that owns one.
-/

namespace Treatise.Layout

/-! ## Characters that end a line -/

/-- Characters that end with a newline. -/
def EndsLine (text : List Char) : Prop :=
  text.getLast? = some '\n'

theorem not_endsLine_nil : ¬ EndsLine [] := nofun

theorem EndsLine.length_pos {text : List Char} (ends : EndsLine text) : 0 < text.length :=
  List.length_pos_iff.mpr fun empty => not_endsLine_nil (empty ▸ ends)

theorem EndsLine.of_cons {first : Char} {rest : List Char} (ends : EndsLine (first :: rest))
    (apart : first ≠ '\n') : EndsLine rest := by
  cases rest with
  | nil => exact absurd (Option.some.inj ends) apart
  | cons next more => simpa [EndsLine] using ends

theorem EndsLine.of_append (start : List Char) {rest : List Char} (ends : EndsLine (start ++ rest))
    (sameLine : '\n' ∉ start) : EndsLine rest := by
  induction start with
  | nil => exact ends
  | cons first start ih =>
      rw [List.mem_cons, not_or] at sameLine
      exact ih (ends.of_cons (Ne.symm sameLine.1)) sameLine.2

theorem EndsLine.drop {text : List Char} (ends : EndsLine text) {count : Nat}
    (short : count < text.length) : EndsLine (text.drop count) := by
  rwa [EndsLine, List.getLast?_drop, if_neg (by omega)]

/-- What stands on one line in front of a longer text stands in front of the line. -/
theorem EndsLine.starts {text : List Char} (ends : EndsLine text) (start : List Char)
    (sameLine : '\n' ∉ start) {following tail : List Char}
    (begins : text ++ following = start ++ tail) : ∃ rest, text = start ++ rest := by
  rcases List.append_eq_append_iff.mp begins with ⟨more, whole, -⟩ | ⟨rest, split, -⟩
  · apply absurd (List.mem_of_getLast? ends)
    intro newline
    exact sameLine (whole ▸ List.mem_append_left more newline)
  · exact ⟨rest, split⟩

theorem EndsLine.starts_of_append {text : List Char} (ends : EndsLine text)
    {start following : List Char} (sameLine : '\n' ∉ start)
    (starts : start <+: text ++ following) : start <+: text := by
  rcases starts with ⟨tail, begins⟩
  exact (ends.starts start sameLine begins.symm).imp fun _ => Eq.symm

theorem EndsLine.sameLine {text : List Char} (ends : EndsLine text) (following : List Char) :
    SameLine text (text ++ following) := by
  induction text with
  | nil => exact absurd ends not_endsLine_nil
  | cons first rest ih =>
      by_cases newline : first = '\n'
      · subst newline
        exact .stop List.mem_cons_self rest (rest ++ following)
      · exact .cons first (ih (ends.of_cons newline))

theorem Stray.concat {character : Char} {rest : List Char} (stray : Stray character rest)
    (ends : EndsLine rest) (following : List Char) : Stray character (rest ++ following) where
  __ := stray
  notDots isDot := by
    rcases stray.notDots isDot with ⟨notSpace, notDots⟩
    exact ⟨fun starts => notSpace (ends.starts_of_append (by decide) starts),
      fun starts => notDots (ends.starts_of_append (by decide) starts)⟩

namespace Lexeme

open Text (runLength runLength_le)

/-! ## Extents on a line -/

theorem runLength_lt (sort : Char → Bool) (stops : sort '\n' = false) {text : List Char}
    (ends : EndsLine text) : runLength sort text < text.length := by
  refine lt_of_le_of_ne (runLength_le sort text) fun all => ?_
  have run := (List.takeWhile_sublist sort).eq_of_length all
  have newline := List.mem_takeWhile_imp  (run ▸ List.mem_of_getLast? ends)
  simp [stops] at newline

/-- A run that a newline stops does not reach what follows the newline. -/
theorem runLength_concat (sort : Char → Bool) (stops : sort '\n' = false) {text : List Char}
    (ends : EndsLine text) (following : List Char) :
    runLength sort (text ++ following) = runLength sort text := by
  have short := runLength_lt sort stops ends
  unfold runLength at short ⊢
  rw [List.takeWhile_append, if_neg short.ne]

theorem quotationExtent_concat {quote : Char} {text : List Char} {length : Nat}
    (found : quotationExtent quote text = (length, true)) (following : List Char) :
    quotationExtent quote (text ++ following) = (length, true) := by
  unfold quotationExtent at found ⊢
  split at found
  · next index first =>
    rw [List.findIdx?_append, first]
    exact found
  · cases found

/-- A quotation that is closed stays on its line. -/
theorem quotationExtent_lt {literal : Literal} {quote : Char} (quotes : literal.Quotes quote)
    {text : List Char} {length : Nat} (ends : EndsLine text)
    (found : quotationExtent quote text = (length, true)) : length < text.length := by
  apply lt_of_le_of_ne (by simpa [found] using quotationExtent_le quote text)
  rintro rfl
  rcases quotationExtent_closed found with ⟨body, split⟩
  rw [List.take_length] at split
  rw [split] at ends
  cases quotes <;> simp [EndsLine] at ends

/-- A block comment that is closed is closed there whatever follows its line. -/
theorem blockCommentExtent_concat {text : List Char} (ends : EndsLine text)
    (closed : (blockCommentExtent text).2 = true) (following : List Char) :
    blockCommentExtent (text ++ following) = blockCommentExtent text := by
  rcases exists_closed closed with ⟨body, after, rfl, reads⟩
  have inside : EndsLine after := by
    refine EndsLine.of_append [':', ':'] ?_ (by decide)
    simpa [EndsLine] using ends
  have head : (after ++ following).head? = after.head? := by
    cases after with
    | nil => exact absurd inside not_endsLine_nil
    | cons => rfl
  have whole := reads (after ++ following) fun brace => head ▸ brace
  rw [List.append_assoc, List.cons_append, List.cons_append, whole, reads after id, head]

/-- An id stays on its line. -/
theorem idExtent_inline (depth : Nat) (text : List Char) :
    '\n' ∉ text.take (idExtent depth text).1 := by
  fun_induction idExtent depth text with
  | case1 | case2 => simp
  | case3 _ _ ih => simpa [extended] using ih
  | case4 => simp
  | case5 _ _ ih => simpa [extended] using ih
  | case6 _ first _ notNewline _ _ ih => simpa [extended, Ne.symm notNewline] using ih

theorem idExtent_lt (depth : Nat) {text : List Char} (ends : EndsLine text) :
    (idExtent depth text).1 < text.length := by
  apply lt_of_le_of_ne (idExtent_le depth text)
  intro all
  apply idExtent_inline depth text
  rw [all, List.take_length]
  exact List.mem_of_getLast? ends

/-- An id reaches as far as on its line whatever follows the line, closed or not. -/
theorem idExtent_concat (depth : Nat) {text : List Char} (ends : EndsLine text)
    (following : List Char) : idExtent depth (text ++ following) = idExtent depth text := by
  induction text generalizing depth with
  | nil => exact absurd ends not_endsLine_nil
  | cons first rest ih =>
      rw [List.cons_append, idExtent_cons, idExtent_cons]
      split_ifs with newline opens closes
      · rfl
      · rw [ih _ (ends.of_cons newline)]
      · cases depth with
        | zero => rfl
        | succ outer => simp only [ih outer (ends.of_cons newline)]
      · rw [ih _ (ends.of_cons newline)]

/-! ## Lexemes on a line -/

/-- A string, a statement or a block comment without its closer, which takes all that is left of a
text. -/
def Kind.isUnclosed : Kind → Bool
  | .literal .id _ => false
  | .literal _ closed => !closed
  | _ => false

theorem isUnclosed_of_faultless {lexeme : Lexeme} (clean : lexeme.fault? = none) :
    lexeme.kind.isUnclosed = false := by
  rcases lexeme with ⟨kind, text⟩
  cases kind with
  | literal literal closed =>
      cases closed with
      | false => cases clean
      | true => cases literal <;> rfl
  | newline | indent | space | lineComment | name _ | placeholder | operator | mark _
  | unrecognized => rfl

theorem quotation_closed {literal : Literal} {quote : Char} (quotes : literal.Quotes quote)
    {closed : Bool} (shut : (Kind.literal literal closed).isUnclosed = false) : closed = true := by
  cases quotes <;> simpa [Kind.isUnclosed] using shut

theorem reads_classify (first : Char) (rest : List Char) :
    (Lexeme.mk (classify first rest).1 (first :: rest.take (classify first rest).2)).Reads
      (rest.drop (classify first rest).2) := by
  refine ⟨first, rest.take (classify first rest).2, rfl, ?_⟩
  rw [List.take_append_drop, List.length_take, min_eq_left (classify_le first rest)]

/-- A lexeme is cut off whatever follows its line, unless it is an open literal. -/
theorem Recognized.concat {first : Char} {rest : List Char} {kind : Kind} {length : Nat}
    (found : Recognized first rest kind length) (ends : EndsLine (first :: rest))
    (closed : kind.isUnclosed = false) (following : List Char) :
    Recognized first (rest ++ following) kind length := by
  by_cases newline : first = '\n'
  · subst newline
    rcases Prod.mk.inj found.classify_eq with ⟨rfl, rfl⟩
    exact .newline (rest ++ following)
  have inside := ends.of_cons newline
  -- A lexeme with content goes by its line, unless it is a literal, which goes by its closer.
  have content := found.sameLine (inside.sameLine following)
  cases found with
  | newline => contradiction
  | indent rest => exact .indent (rest ++ following)
  | space single =>
      rcases List.exists_cons_of_length_pos inside.length_pos with ⟨next, more, rfl⟩
      exact .space single
  | blank blank => exact .blank blank (rest ++ following)
  | lineComment comment =>
      have after : EndsLine comment := inside.of_append ['-'] (by decide)
      rw [← runLength_concat (· != '\n') (by decide) after following]
      exact .lineComment (comment ++ following)
  | @blockComment comment length closed extent =>
      have after : EndsLine comment := inside.of_append [':'] (by decide)
      have shut : (blockCommentExtent comment).2 = true := by
        simpa [extent, Kind.isUnclosed] using closed
      exact .blockComment ((blockCommentExtent_concat after shut following).trans extent)
  | quotation quotes extent =>
      obtain rfl := quotation_closed quotes closed
      exact .quotation quotes (quotationExtent_concat extent following)
  | id extent => exact .id ((idExtent_concat 0 inside following).trans extent)
  | placeholder | mark | name | operator => exact content rfl (by simp)
  | unrecognized stray => exact .unrecognized (stray.concat inside following)

/-! ## The end of a line -/

theorem Suffix.not_endsLine {suffix : List Char} (shape : Suffix suffix) : ¬ EndsLine suffix := by
  intro ends
  have newline := List.mem_of_getLast? ends
  cases shape with
  | none => simp at newline
  | question | ellipsis => simp at newline
  | digits some all => simpa using all '\n' (by simpa using newline)
  | tagged some all => simpa using all '\n' (by simpa using newline)

theorem Subscript.not_endsLine {suffix : List Char} (shape : Subscript suffix) :
    ¬ EndsLine suffix := by
  intro ends
  have newline := List.mem_of_getLast? ends
  cases shape with
  | none => simp at newline
  | name some all => simpa using all '\n' (by simpa using newline)

theorem not_endsLine_nameSuffix (text : List Char) :
    ¬ EndsLine (text.take (nameSuffix text).1) := by
  cases flaw : (nameSuffix text).2 with
  | none => exact (suffix_of_nameSuffix (Prod.ext rfl flaw)).not_endsLine
  | some flaw' =>
      -- A flawed suffix ends with the hash sign that nothing proper follows.
      revert flaw
      fun_cases nameSuffix text with
      | case2 | case5 => simp [EndsLine]
      | case1 | case3 | case4 | case6 | case7 => simp

theorem nameSuffix_lt {text : List Char} (ends : EndsLine text) :
    (nameSuffix text).1 < text.length := by
  apply lt_of_le_of_ne (nameSuffix_le text)
  intro all
  apply not_endsLine_nameSuffix text
  rwa [all, List.take_length]

theorem operatorSuffix_lt {text : List Char} (ends : EndsLine text) :
    operatorSuffix text < text.length := by
  refine lt_of_le_of_ne (operatorSuffix_le text) fun all => ?_
  have shape := subscript_of_operatorSuffix text
  rw [all, List.take_length] at shape
  exact shape.not_endsLine ends

/-- A run stays on its line if what is found behind it does. -/
theorem runLength_add_lt (sort : Char → Bool) (stops : sort '\n' = false) {rest : List Char}
    (ends : EndsLine rest) {extra : Nat}
    (bound : EndsLine (rest.drop (runLength sort rest)) →
      extra < (rest.drop (runLength sort rest)).length) :
    runLength sort rest + extra < rest.length := by
  have run := runLength_lt sort stops ends
  have behind := bound (ends.drop run)
  rw [List.length_drop] at behind
  omega

/-- A lexeme that ends a line: a newline, or a block comment that owns one. -/
def EndsRow (lexeme : Lexeme) : Prop :=
  lexeme.kind = .newline ∨ lexeme.ownsNewline = true

/-- A lexeme stays on its line, unless it ends the line or is an open literal. -/
theorem Recognized.lt_or_endsRow {first : Char} {rest : List Char} {kind : Kind} {length : Nat}
    (found : Recognized first rest kind length) (ends : EndsLine (first :: rest))
    (closed : kind.isUnclosed = false) :
    length < rest.length ∨ EndsRow ⟨kind, first :: rest.take length⟩ := by
  by_cases newline : first = '\n'
  · subst newline
    rcases Prod.mk.inj found.classify_eq with ⟨rfl, -⟩
    exact .inr (.inl rfl)
  have inside := ends.of_cons newline
  cases found with
  | newline => contradiction
  | indent => exact .inl (Nat.succ_lt_succ (inside.of_cons (by decide)).length_pos)
  | space | blank | placeholder | unrecognized => exact .inl inside.length_pos
  | lineComment comment =>
      have after : EndsLine comment := inside.of_append ['-'] (by decide)
      exact .inl (Nat.succ_lt_succ (runLength_lt (· != '\n') (by decide) after))
  | @blockComment comment length closed extent =>
      have reach : length ≤ comment.length := by simpa [extent] using blockCommentExtent_le comment
      rcases reach.eq_or_lt with rfl | short
      · refine .inr (.inr ?_)
        rw [EndsLine] at ends
        simpa [ownsNewline] using ends
      · exact .inl (Nat.succ_lt_succ short)
  | quotation quotes extent =>
      obtain rfl := quotation_closed quotes closed
      exact .inl (quotationExtent_lt quotes inside extent)
  | id extent => exact .inl (by simpa [extent] using idExtent_lt 0 inside)
  | @mark _ _ start rest written =>
      have after : EndsLine rest := inside.of_append start (inline_of_mark written)
      exact .inl (by simpa using after.length_pos)
  | name => exact .inl (runLength_add_lt Char.isAlphanum (by decide) inside nameSuffix_lt)
  | operator =>
      exact .inl (runLength_add_lt isOperatorCharacter (by decide) inside operatorSuffix_lt)

/-! ## Lines -/

theorem endsLine_drop_classify {first : Char} {rest : List Char} (ends : EndsLine (first :: rest)) :
    rest.drop (classify first rest).2 = [] ∨ EndsLine (rest.drop (classify first rest).2) := by
  rcases (classify_le first rest).eq_or_lt with all | short
  · exact .inl (List.drop_eq_nil_iff.mpr all.ge)
  · exact .inr (ends.drop (Nat.succ_lt_succ short))

/-- Lexemes hold all of the text that they are cut from. -/
theorem flatMap_text_scan (text : List Char) : (scan text).flatMap Lexeme.text = text := by
  fun_induction Lexeme.scan text with
  | case1 => rfl
  | case2 first rest found ih =>
      rw [List.flatMap_cons, ih, List.cons_append, List.take_append_drop]

/-- Lines that leave no literal open are cut into the same lexemes whatever follows them. -/
theorem scan_concat {front : List Char} (ends : front = [] ∨ EndsLine front)
    (closed : ∀ lexeme ∈ scan front, lexeme.kind.isUnclosed = false) (back : List Char) :
    scan (front ++ back) = scan front ++ scan back := by
  fun_induction Lexeme.scan front with
  | case1 => rfl
  | case2 first rest found ih =>
      rcases List.forall_mem_cons.mp closed with ⟨here, later⟩
      have line : EndsLine (first :: rest) := ends.resolve_left (List.cons_ne_nil first rest)
      have same : classify first (rest ++ back) = found :=
        ((recognized_classify first rest).concat line here back).classify_eq
      have reach : found.2 ≤ rest.length := classify_le first rest
      rw [List.cons_append, Lexeme.scan, same, List.drop_append_of_le_length reach,
        List.take_append_of_le_length reach, ih (endsLine_drop_classify line) later,
        List.cons_append]

/-- The last lexeme of lines that leave no literal open ends a line. -/
theorem endsRow_of_getLast {text : List Char} (ends : EndsLine text)
    (closed : ∀ lexeme ∈ scan text, lexeme.kind.isUnclosed = false) :
    ∃ front last, scan text = front ++ [last] ∧ EndsRow last := by
  fun_induction Lexeme.scan text with
  | case1 => exact absurd ends not_endsLine_nil
  | case2 first rest found ih =>
      rcases List.forall_mem_cons.mp closed with ⟨here, later⟩
      rcases endsLine_drop_classify ends with all | more
      · refine ⟨[], _, by rw [all, Lexeme.scan]; rfl, ?_⟩
        refine ((recognized_classify first rest).lt_or_endsRow ends here).resolve_left ?_
        exact (List.drop_eq_nil_iff.mp all).not_gt
      · rcases ih more later with ⟨front, last, cut, endsRow⟩
        exact ⟨_ :: front, last, by rw [cut]; rfl, endsRow⟩

end Lexeme

end Treatise.Layout
