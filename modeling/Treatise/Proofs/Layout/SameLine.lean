import Treatise.Proofs.Layout.Scanning

/-!
# Texts with the same first line

What is cut off does not look beyond its line, unless it is a literal, which goes by its closer. So
two texts with the same first line begin with the same lexeme, also when the line goes on with
blanks in one of them: blanks continue no name, no operator and no mark.
-/

namespace Treatise.Layout

/-- The blanks that a line can end with. -/
def lineBlanks : List Char := [' ', '\t', '\r', '\x0c']

/-- Two texts with the same first line, which may go on with a blank in the second one. -/
inductive SameLine : List Char → List Char → Prop
  | stop {next : Char} (stops : next ∈ '\n' :: lineBlanks) (rest other : List Char) :
      SameLine ('\n' :: rest) (next :: other)
  | cons (first : Char) {text other : List Char} (same : SameLine text other) :
      SameLine (first :: text) (first :: other)

namespace SameLine

variable {text other : List Char}

theorem append_left (start : List Char) (same : SameLine text other) :
    SameLine (start ++ text) (start ++ other) := by
  induction start with
  | nil => exact same
  | cons first start ih => exact .cons first ih

theorem of_cons {first : Char} (same : SameLine (first :: text) other) (apart : first ≠ '\n') :
    ∃ rest, other = first :: rest ∧ SameLine text rest := by
  cases same with
  | stop => contradiction
  | cons _ inside => exact ⟨_, rfl, inside⟩

theorem of_append (start : List Char) (sameLine : '\n' ∉ start)
    (same : SameLine (start ++ text) other) :
    ∃ rest, other = start ++ rest ∧ SameLine text rest := by
  induction start generalizing other with
  | nil => exact ⟨other, rfl, same⟩
  | cons first start ih =>
      rw [List.mem_cons, not_or] at sameLine
      rcases same.of_cons (Ne.symm sameLine.1) with ⟨more, rfl, inside⟩
      rcases ih sameLine.2 inside with ⟨rest, rfl, after⟩
      exact ⟨rest, rfl, after⟩

/-- What the second text begins with before any blank begins the first text too. -/
theorem starts (start : List Char) (apart : ∀ character ∈ start, character ∉ '\n' :: lineBlanks)
    {more : List Char} (same : SameLine text (start ++ more)) : ∃ rest, text = start ++ rest := by
  induction start generalizing text with
  | nil => exact ⟨text, rfl⟩
  | cons first start ih =>
      rcases List.forall_mem_cons.mp apart with ⟨here, later⟩
      cases same with
      | stop stops => exact absurd stops here
      | cons _ inside =>
          rcases ih later inside with ⟨rest, rfl⟩
          exact ⟨rest, rfl⟩

theorem prefix_iff (start : List Char)
    (apart : ∀ character ∈ start, character ∉ '\n' :: lineBlanks) (same : SameLine text other) :
    start <+: other ↔ start <+: text := by
  constructor
  · rintro ⟨more, rfl⟩
    exact (same.starts start apart).imp fun _ => Eq.symm
  · rintro ⟨rest, rfl⟩
    rcases same.of_append start fun newline => apart _ newline List.mem_cons_self with
      ⟨more, rfl, -⟩
    exact List.prefix_append start more

end SameLine

namespace Lexeme

open Text (runLength runLength_eq_zero_iff)

/-! ## Extents on a line -/

variable {text other : List Char}

/-- A run that blanks stop ends on its line. -/
theorem runLength_sameLine (sort : Char → Bool)
    (stops : ('\n' :: lineBlanks).any sort = false) (same : SameLine text other) :
    runLength sort other = runLength sort text
      ∧ SameLine (text.drop (runLength sort text)) (other.drop (runLength sort text)) := by
  induction same with
  | stop blank rest other =>
      have ends := List.any_eq_false.mp stops
      simp only [runLength, List.takeWhile_cons, ends _ blank, ends _ List.mem_cons_self]
      exact ⟨rfl, .stop blank rest other⟩
  | cons first same ih =>
      cases sorted : sort first with
      | true => simpa [runLength, List.takeWhile_cons, sorted] using ih
      | false => simpa [runLength, List.takeWhile_cons, sorted] using same.cons first

/-- A name that ends on its line has the suffix it has there. -/
theorem nameSuffix_sameLine (same : SameLine text other) : nameSuffix other = nameSuffix text := by
  have digits : ('\n' :: lineBlanks).any Char.isDigit = false := by decide
  have letters : ('\n' :: lineBlanks).any Char.isAlphanum = false := by decide
  fun_cases nameSuffix text with
  | case1 =>
      rcases same.of_cons (by decide) with ⟨more, rfl, -⟩
      rfl
  | case2 rest none | case3 rest some =>
      rcases same.of_cons (by decide) with ⟨more, rfl, inside⟩
      rw [nameSuffix, (runLength_sameLine Char.isDigit digits inside).1]
      split <;> simp_all
  | case4 rest length closed | case5 rest length closed =>
      rcases same.of_append ['.', '.', '.', '#'] (by decide) with ⟨more, rfl, inside⟩
      rcases runLength_sameLine Char.isAlphanum letters inside with ⟨run, after⟩
      have dots : (more.drop length).take 3 = ['.', '.', '.']
          ↔ (rest.drop length).take 3 = ['.', '.', '.'] := by
        simpa [List.prefix_iff_eq_take, eq_comm] using
          after.prefix_iff ['.', '.', '.'] (by simp [lineBlanks])
      simp only [List.cons_append, List.nil_append, nameSuffix, run]
      simp [length, dots, closed]
  | case6 rest notTagged =>
      rcases same.of_append ['.', '.', '.'] (by decide) with ⟨more, rfl, inside⟩
      have notTagged' : ∀ tag, more = '#' :: tag → False := by
        rintro tag rfl
        exact (inside.starts ['#'] (by simp [lineBlanks])).elim notTagged
      rw [List.cons_append, List.cons_append, List.cons_append, List.nil_append, nameSuffix]
      exact notTagged'
  | case7 _ notQuestion notHash notTagged notEllipsis =>
      rw [nameSuffix.eq_def]
      split
      · exact ((same.starts ['?'] (by simp [lineBlanks])).elim notQuestion).elim
      · exact ((same.starts ['#'] (by simp [lineBlanks])).elim notHash).elim
      · exact ((same.starts ['.', '.', '.', '#'] (by simp [lineBlanks])).elim notTagged).elim
      · exact ((same.starts ['.', '.', '.'] (by simp [lineBlanks])).elim notEllipsis).elim
      · rfl

theorem operatorSuffix_sameLine (same : SameLine text other) :
    operatorSuffix other = operatorSuffix text := by
  have letters : ('\n' :: lineBlanks).any Char.isAlphanum = false := by decide
  fun_cases operatorSuffix text with
  | case1 rest none | case2 rest some =>
      rcases same.of_cons (by decide) with ⟨more, rfl, inside⟩
      rw [operatorSuffix, (runLength_sameLine Char.isAlphanum letters inside).1]
      split <;> simp_all
  | case3 _ notUnderscore =>
      rw [operatorSuffix.eq_def]
      split
      · exact ((same.starts ['_'] (by simp [lineBlanks])).elim notUnderscore).elim
      · rfl

/-! ## Lexemes on a line -/

theorem inline_of_mark {mark : Mark} {first : Char} {start : List Char}
    (written : mark.text.toList = first :: start) : '\n' ∉ start := by
  intro newline
  have within : '\n' ∈ mark.text.toList := written ▸ List.mem_cons_of_mem first newline
  cases mark <;> simp [Mark.text] at within

theorem continues_blank (mark : Mark) : ('\n' :: lineBlanks).any mark.continues = false := by
  cases mark <;> decide

/-- A lexeme with content that is no literal is cut off whatever follows its line. -/
theorem Recognized.sameLine {first : Char} {kind : Kind} {length : Nat}
    (found : Recognized first text kind length) (same : SameLine text other)
    (content : kind.token?.isSome) (notLiteral : ∀ literal closed, kind ≠ .literal literal closed) :
    Recognized first other kind length := by
  cases found with
  | newline | indent | space | blank | lineComment | unrecognized => cases content
  | blockComment | quotation | id => exact absurd rfl (notLiteral _ _)
  | placeholder => exact .placeholder other
  | @mark mark _ start rest written alone =>
      rcases same.of_append start (inline_of_mark written) with ⟨more, rfl, after⟩
      refine .mark written (runLength_eq_zero_iff.mp ?_)
      rw [(runLength_sameLine mark.continues (continues_blank mark) after).1,
        runLength_eq_zero_iff.mpr alone]
  | name letter =>
      have letters : ('\n' :: lineBlanks).any Char.isAlphanum = false := by decide
      rcases runLength_sameLine Char.isAlphanum letters same with ⟨run, after⟩
      rw [← nameSuffix_sameLine after, ← run]
      exact .name letter other
  | operator operator notComment notEquals =>
      have operators : ('\n' :: lineBlanks).any isOperatorCharacter = false := by decide
      rcases runLength_sameLine isOperatorCharacter operators same with ⟨run, after⟩
      rw [← operatorSuffix_sameLine after, ← run]
      rw [← run] at notEquals
      refine .operator operator (fun isMinus begins => notComment isMinus ?_) notEquals
      rcases List.head?_eq_some_iff.mp begins with ⟨comment, rfl⟩
      rcases same.starts ['-'] (by simp [lineBlanks]) with ⟨rest, rfl⟩
      rfl

/-! ## Block comments -/

theorem blockCommentExtent_closer (following : List Char) :
    blockCommentExtent (':' :: ':' :: following)
      = (2 + (if following.head? = some '\n' then 1 else 0), true) := by
  rcases following with _ | ⟨next, rest⟩
  · rfl
  · by_cases newline : next = '\n'
    · subst newline
      rfl
    · simp [blockCommentExtent, newline]

/-- A block comment that is closed is closed there whatever follows, unless a brace follows. The
newline right after the closer belongs to the comment. -/
theorem exists_closed (closed : (blockCommentExtent text).2 = true) :
    ∃ body after, text = body ++ ':' :: ':' :: after
      ∧ ∀ following : List Char, (following.head? = some '}' → after.head? = some '}') →
        blockCommentExtent (body ++ ':' :: ':' :: following)
          = (body.length + 2 + (if following.head? = some '\n' then 1 else 0), true) := by
  fun_induction blockCommentExtent text with
  | case1 rest ih =>
      rcases ih closed with ⟨body, after, rfl, reads⟩
      refine ⟨'{' :: ':' :: ':' :: '}' :: body, after, rfl, fun following brace => ?_⟩
      simp only [List.cons_append, blockCommentExtent, reads following brace, extended,
        List.length_cons, Prod.mk.injEq, and_true]
      omega
  | case2 rest =>
      exact ⟨[], _, rfl, fun following _ => (blockCommentExtent_closer following).trans (by simp)⟩
  | case3 rest notNewline =>
      exact ⟨[], _, rfl, fun following _ => (blockCommentExtent_closer following).trans (by simp)⟩
  | case4 first rest notBraces notNewline notColons ih =>
      rcases ih closed with ⟨body, after, rfl, reads⟩
      refine ⟨first :: body, after, rfl, fun following brace => ?_⟩
      have notCloser :
          ∀ more, first = ':' → body ++ ':' :: ':' :: following = ':' :: more → False := by
        rintro more rfl closes
        rcases body with _ | ⟨_, body⟩
        · exact notColons _ rfl rfl
        · exact notColons _ rfl (by rw [List.cons_append, (List.cons.inj closes).1])
      rw [List.cons_append, blockCommentExtent, reads following brace]
      · simp only [extended, List.length_cons, Prod.mk.injEq, and_true]
        omega
      · -- Only a closer at the very beginning can be escaped by what follows it.
        rintro more rfl escaped
        rcases body with _ | ⟨_, _ | ⟨_, _ | ⟨_, body⟩⟩⟩
        · obtain rfl : following = '}' :: more := by simpa using escaped
          rcases List.head?_eq_some_iff.mp (brace rfl) with ⟨_, rfl⟩
          exact notBraces _ rfl rfl
        · simp at escaped
        · simp at escaped
        · simp only [List.cons_append, List.cons.injEq] at escaped
          rcases escaped with ⟨rfl, rfl, rfl, -⟩
          exact notBraces _ rfl rfl
      · exact fun more => notCloser ('\n' :: more)
      · exact notCloser
  | case5 => cases closed

end Lexeme

end Treatise.Layout
