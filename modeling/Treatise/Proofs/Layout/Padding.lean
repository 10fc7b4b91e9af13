import Treatise.Proofs.Layout.Lookahead
import Treatise.Proofs.Layout.RowEnds

/-!
# Padded texts

A text is padded when something is put in front of its newlines. Blanks that are put there become
blank lexemes in front of a newline, or belong to a line comment, and the lexemes are the same
otherwise. But a newline that a block comment owns is a lexeme of its own when something is put in
front of it.
-/

namespace Treatise.Layout

/-! ## Blanks in front of newlines -/

/-- What is put at each position, as seen from `count` positions further on. -/
def shifted (pads : Nat → List Char) (count : Nat) : Nat → List Char :=
  fun position => pads (position + count)

/-- The text with `pads position` in front of the newline at each position. -/
def padded (pads : Nat → List Char) : List Char → List Char
  | [] => []
  | first :: rest => (if first = '\n' then pads 0 else []) ++ first :: padded (shifted pads 1) rest

/-- Only blanks are put in front of newlines. -/
def Blank (pads : Nat → List Char) : Prop :=
  ∀ position, ∀ character ∈ pads position, character ∈ lineBlanks

theorem Blank.shifted {pads : Nat → List Char} (blank : Blank pads) (count : Nat) :
    Blank (shifted pads count) :=
  fun position => blank (position + count)

theorem shifted_shifted (pads : Nat → List Char) (count more : Nat) :
    shifted (shifted pads count) more = shifted pads (more + count) :=
  funext fun position => congrArg pads (Nat.add_assoc position more count)

theorem padded_append (pads : Nat → List Char) (front back : List Char) :
    padded pads (front ++ back) = padded pads front ++ padded (shifted pads front.length) back := by
  induction front generalizing pads with
  | nil => rfl
  | cons first front ih =>
      rw [List.cons_append, padded, ih, padded, List.append_assoc, List.cons_append]
      rfl

/-- Only what is put in front of newlines matters. -/
theorem padded_congr {pads others : Nat → List Char} {text : List Char}
    (same : ∀ position, text[position]? = some '\n' → pads position = others position) :
    padded pads text = padded others text := by
  induction text generalizing pads others with
  | nil => rfl
  | cons first rest ih =>
      have here : (if first = '\n' then pads 0 else [])
          = if first = '\n' then others 0 else [] := by
        split
        · next newline => exact same 0 (congrArg some newline)
        · rfl
      have later := @ih (shifted pads 1) (shifted others 1)
        fun position newline => same (position + 1) newline
      rw [padded, padded, here, later]

theorem padded_of_bare {pads : Nat → List Char} {text : List Char}
    (bare : ∀ position, text[position]? = some '\n' → pads position = []) :
    padded pads text = text := by
  induction text generalizing pads with
  | nil => rfl
  | cons first rest ih =>
      have here : (if first = '\n' then pads 0 else []) = [] := by
        split
        · next newline => exact bare 0 (congrArg some newline)
        · rfl
      have later := @ih (shifted pads 1) fun position newline => bare (position + 1) newline
      rw [padded, here, later, List.nil_append]

theorem padded_of_inline (pads : Nat → List Char) {text : List Char} (inline : '\n' ∉ text) :
    padded pads text = text :=
  padded_of_bare fun _ newline => absurd (List.mem_of_getElem? newline) inline

theorem head?_padded (pads : Nat → List Char) {text : List Char} (inline : text.head? ≠ some '\n') :
    (padded pads text).head? = text.head? := by
  cases text with
  | nil => rfl
  | cons first rest =>
      have apart : first ≠ '\n' := by simpa using inline
      rw [padded, if_neg apart]
      rfl

/-- Blanks in front of newlines do not change what stands on the first line. -/
theorem sameLine_padded {pads : Nat → List Char} (blank : Blank pads) {text : List Char}
    (ends : EndsLine text) : SameLine text (padded pads text) := by
  induction text generalizing pads with
  | nil => exact absurd ends not_endsLine_nil
  | cons first rest ih =>
      by_cases newline : first = '\n'
      · subst newline
        rw [padded, if_pos rfl]
        cases here : pads 0 with
        | nil => exact .stop List.mem_cons_self _ _
        | cons next more =>
            have stops : next ∈ lineBlanks := blank 0 next (here ▸ List.mem_cons_self)
            exact .stop (List.mem_cons_of_mem _ stops) _ _
      · rw [padded, if_neg newline]
        exact .cons first (ih (blank.shifted 1) (ends.of_cons newline))

namespace Lexeme

/-! ## Positions -/

/-- A literal that may reach over several lines, which an id does not. -/
def isMultiline (lexeme : Lexeme) : Bool :=
  match lexeme.kind with
  | .literal literal _ => literal != .id
  | _ => false

/-- The lexeme that a position of the text is in, and how far into the lexeme it is. -/
def at? : List Lexeme → Nat → Option (Lexeme × Nat)
  | [], _ => none
  | lexeme :: rest, position =>
    if position < lexeme.text.length then some (lexeme, position)
    else at? rest (position - lexeme.text.length)

/-- At the position stands the newline that a block comment owns. -/
def OwnedAt (lexemes : List Lexeme) (position : Nat) : Prop :=
  ∃ found ∈ at? lexemes position, found.1.ownsNewline = true ∧ found.2 + 1 = found.1.text.length

/-- The position is inside a block comment, a string or a statement. -/
def EnclosedAt (lexemes : List Lexeme) (position : Nat) : Prop :=
  (∃ found ∈ at? lexemes position, found.1.isMultiline = true) ∧ ¬ OwnedAt lexemes position

instance (lexemes : List Lexeme) (position : Nat) : Decidable (OwnedAt lexemes position) :=
  inferInstanceAs (Decidable (∃ _ ∈ at? lexemes position, _))

instance (lexemes : List Lexeme) (position : Nat) : Decidable (EnclosedAt lexemes position) :=
  inferInstanceAs (Decidable ((∃ _ ∈ at? lexemes position, _) ∧ ¬ OwnedAt lexemes position))

theorem at?_of_lt {lexeme : Lexeme} {position : Nat} (within : position < lexeme.text.length)
    (rest : List Lexeme) : at? (lexeme :: rest) position = some (lexeme, position) :=
  if_pos within

theorem at?_add (lexeme : Lexeme) (rest : List Lexeme) (position : Nat) :
    at? (lexeme :: rest) (position + lexeme.text.length) = at? rest position := by
  rw [at?, if_neg (by omega), Nat.add_sub_cancel]

theorem ownedAt_add (lexeme : Lexeme) (rest : List Lexeme) (position : Nat) :
    OwnedAt (lexeme :: rest) (position + lexeme.text.length) ↔ OwnedAt rest position := by
  rw [OwnedAt, OwnedAt, at?_add]

theorem enclosedAt_add (lexeme : Lexeme) (rest : List Lexeme) (position : Nat) :
    EnclosedAt (lexeme :: rest) (position + lexeme.text.length) ↔ EnclosedAt rest position := by
  rw [EnclosedAt, EnclosedAt, at?_add, ownedAt_add]

theorem ownedAt_of_lt {lexeme : Lexeme} {position : Nat} (within : position < lexeme.text.length)
    (rest : List Lexeme) : OwnedAt (lexeme :: rest) position
      ↔ lexeme.ownsNewline = true ∧ position + 1 = lexeme.text.length := by
  simp [OwnedAt, at?_of_lt within]

theorem enclosedAt_of_lt {lexeme : Lexeme} {position : Nat} (within : position < lexeme.text.length)
    (rest : List Lexeme) : EnclosedAt (lexeme :: rest) position ↔ lexeme.isMultiline = true
      ∧ ¬ (lexeme.ownsNewline = true ∧ position + 1 = lexeme.text.length) := by
  rw [EnclosedAt, ownedAt_of_lt within, at?_of_lt within]
  simp

/-! ## Lexemes of a padded text -/

/-- A block comment without the newline that it owns. -/
def disowned (lexeme : Lexeme) : Lexeme :=
  ⟨lexeme.kind, lexeme.text.dropLast⟩

/-- Takes the newlines from block comments that own them, where something is put in front of
these. -/
def broken (pads : Nat → List Char) : List Lexeme → List Lexeme
  | [] => []
  | lexeme :: rest =>
    let later := broken (shifted pads lexeme.text.length) rest
    if lexeme.ownsNewline ∧ pads (lexeme.text.length - 1) ≠ [] then
      lexeme.disowned :: lineEnd :: later
    else lexeme :: later

/-- Blanks are cut into blank lexemes, and into nothing else unless a space follows them. -/
theorem scan_blanks {run : List Char} (blank : ∀ character ∈ run, character ∈ lineBlanks)
    {following : List Char} (apart : following.head? ≠ some ' ') :
    ∃ blanks : List Lexeme, (∀ lexeme ∈ blanks, lexeme.isBlank = true)
      ∧ scan (run ++ following) = blanks ++ scan following := by
  induction length : run.length using Nat.strong_induction_on generalizing run with
  | _ length ih =>
      subst length
      cases run with
      | nil => exact ⟨[], nofun, rfl⟩
      | cons first rest =>
          rcases List.forall_mem_cons.mp blank with ⟨here, later⟩
          have cut := classify_lineBlank here (rest ++ following)
          split at cut
          · next indent =>
            rcases rest with _ | ⟨next, more⟩
            · exact absurd indent.2 apart
            · have shorter : more.length < (first :: next :: more).length :=
                (Nat.lt_succ_self _).trans (Nat.lt_succ_self _)
              rcases ih more.length shorter (List.forall_mem_cons.mp later).2 rfl with
                ⟨blanks, all, scanned⟩
              refine ⟨⟨.indent, [first, next]⟩ :: blanks, List.forall_mem_cons.mpr ⟨rfl, all⟩, ?_⟩
              rw [List.cons_append, scan, cut]
              simp [scanned]
          · rcases ih rest.length (Nat.lt_succ_self _) later rfl with ⟨blanks, all, scanned⟩
            refine ⟨⟨.space, [first]⟩ :: blanks, List.forall_mem_cons.mpr ⟨rfl, all⟩, ?_⟩
            rw [List.cons_append, scan, cut]
            simp [scanned]

theorem scan_lineEnd (after : List Char) : scan ('\n' :: after) = lineEnd :: scan after := by
  rw [scan]
  rfl

theorem trimmed_scan_blanks {run : List Char} (blank : ∀ character ∈ run, character ∈ lineBlanks)
    (after : List Char) :
    trimmed (scan (run ++ '\n' :: after)) = lineEnd :: trimmed (scan after) := by
  have apart : ('\n' :: after).head? ≠ some ' ' := by simp
  rcases scan_blanks blank apart with ⟨blanks, all, cut⟩
  rw [cut, scan_lineEnd, trimmed_blanks all]

variable {pads : Nat → List Char} {lexeme : Lexeme} {after : List Char}

/-- A lexeme that is cut off in front of the padded rest of its text. -/
theorem trimmed_of_reads (reads : lexeme.Reads (padded (shifted pads lexeme.text.length) after))
    (bare : padded pads lexeme.text = lexeme.text)
    (whole : lexeme.ownsNewline = true → pads (lexeme.text.length - 1) = [])
    (later : trimmed (scan (padded (shifted pads lexeme.text.length) after))
      = trimmed (broken (shifted pads lexeme.text.length) (scan after))) :
    trimmed (scan (padded pads (lexeme.text ++ after)))
      = trimmed (broken pads (lexeme :: scan after)) := by
  have unbroken : ¬ (lexeme.ownsNewline ∧ pads (lexeme.text.length - 1) ≠ []) :=
    fun breaks => breaks.2 (whole breaks.1)
  rw [padded_append, bare, reads.scan, broken, if_neg unbroken, trimmed_cons, trimmed_cons, later]

section

variable {kind : Kind} {text : List Char} (blank : Blank pads)
  (later : trimmed (scan (padded (shifted pads text.length) after))
    = trimmed (broken (shifted pads text.length) (scan after)))

include blank later

/-- In front of a newline, what is put there is left out. -/
theorem trimmed_newline {more : List Char} (newline : after = '\n' :: more) :
    ∃ below, padded (shifted pads text.length) after = pads text.length ++ '\n' :: below
      ∧ trimmed (broken (shifted pads text.length) (scan after))
        = lineEnd :: trimmed (scan below) := by
  subst newline
  refine ⟨padded (shifted (shifted pads text.length) 1) more, ?_, ?_⟩
  · rw [padded, if_pos rfl, shifted, Nat.zero_add]
  · rw [← later, padded, if_pos rfl, trimmed_scan_blanks (blank.shifted _ 0)]

/-- What stands in front of the newline after a line comment belongs to the comment. -/
theorem trimmed_scan_lineComment (reads : (Lexeme.mk .lineComment text).Reads after)
    (ends : EndsLine (text ++ after)) :
    trimmed (scan (padded pads (text ++ after)))
      = trimmed (broken pads (⟨.lineComment, text⟩ :: scan after)) := by
  rcases comment_of_reads reads with ⟨comment, rfl, inline, stops⟩
  have inline' : '\n' ∉ '-' :: '-' :: comment := by simpa using inline
  rcases stops with rfl | newline
  · rw [List.append_nil] at ends
    exact absurd (List.mem_of_getLast? ends) inline'
  · rcases List.head?_eq_some_iff.mp newline with ⟨more, rfl⟩
    rcases trimmed_newline blank later rfl with ⟨below, parts, rows⟩
    have pad := inline_of_blanks (blank ('-' :: '-' :: comment).length)
    generalize pads ('-' :: '-' :: comment).length = run at parts pad
    have longer : '\n' ∉ comment ++ run := by
      rw [List.mem_append, not_or]
      exact ⟨inline, pad⟩
    have whole : padded pads (('-' :: '-' :: comment) ++ '\n' :: more)
        = ('-' :: '-' :: (comment ++ run)) ++ '\n' :: below := by
      rw [padded_append, padded_of_inline pads inline', parts]
      simp
    have below' : trimmed (scan ('\n' :: below)) = lineEnd :: trimmed (scan below) :=
      trimmed_scan_blanks (List.forall_mem_nil _) below
    rw [whole, (reads_lineComment longer below).scan, trimmed_lineComment, below', broken,
      if_neg (by simp [ownsNewline]), trimmed_lineComment, rows]

/-- A blank in front of a newline is left out, and any other goes by what follows it. -/
theorem trimmed_scan_blank (reads : (Lexeme.mk kind text).Reads after)
    (isBlank : kind = .space ∨ kind = .indent) :
    trimmed (scan (padded pads (text ++ after)))
      = trimmed (broken pads (⟨kind, text⟩ :: scan after)) := by
  have unowned : (Lexeme.mk kind text).ownsNewline = false := by
    rcases isBlank with rfl | rfl <;> rfl
  have blanks := (reads_blank reads isBlank rfl).1
  have inline := inline_of_blanks blanks
  by_cases newline : after.head? = some '\n'
  · rcases List.head?_eq_some_iff.mp newline with ⟨more, rfl⟩
    rcases trimmed_newline blank later rfl with ⟨below, parts, rows⟩
    have left : (Lexeme.mk kind text).isBlank = true := by
      rcases isBlank with rfl | rfl <;> rfl
    rw [padded_append, padded_of_inline pads inline, parts, ← List.append_assoc,
      trimmed_scan_blanks (List.forall_mem_append.mpr ⟨blanks, blank _⟩), broken,
      if_neg (by simp [unowned]), trimmed_blank left rows]
  · have reads' := (reads_blank reads isBlank
      (head?_padded (shifted pads text.length) newline)).2
    exact trimmed_of_reads reads' (padded_of_inline pads inline) (by simp [unowned]) later

theorem trimmed_scan_content (reads : (Lexeme.mk kind text).Reads after)
    (clean : (Lexeme.mk kind text).fault? = none) (content : kind.token?.isSome)
    (notLiteral : ∀ literal closed, kind ≠ .literal literal closed)
    (ends : EndsLine (text ++ after)) :
    trimmed (scan (padded pads (text ++ after)))
      = trimmed (broken pads (⟨kind, text⟩ :: scan after)) := by
  rcases reads_content reads clean content notLiteral ends with ⟨inline, reads'⟩
  have same := sameLine_padded (blank.shifted text.length) (ends.of_append text inline)
  exact trimmed_of_reads (reads' _ same) (padded_of_inline pads inline)
    (by simp [ownsNewline_of_not_literal notLiteral]) later

omit blank in
theorem trimmed_scan_quotation {literal : Literal}
    (reads : (Lexeme.mk (.literal literal true) text).Reads after)
    (notComment : literal ≠ .blockComment) (bare : padded pads text = text) :
    trimmed (scan (padded pads (text ++ after)))
      = trimmed (broken pads (⟨.literal literal true, text⟩ :: scan after)) := by
  refine trimmed_of_reads (reads.literal notComment _) bare (fun owns => ?_) later
  cases literal with
  | blockComment => contradiction
  | string | statement | id => cases owns

/-- The newline that a block comment owns is a lexeme of its own if something stands in front of
it. -/
theorem trimmed_scan_disowned {shut : List Char} (split : text = shut ++ ['\n'])
    (reads : ∀ other : List Char, other.head? ≠ some '\n' → other.head? ≠ some '}' →
      (Lexeme.mk (.literal .blockComment true) shut).Reads other)
    (bare : padded pads shut = shut) (pad : pads shut.length ≠ []) :
    trimmed (scan (padded pads (text ++ after)))
      = trimmed (broken pads (⟨.literal .blockComment true, text⟩ :: scan after)) := by
  subst split
  have breaks : (Lexeme.mk (.literal .blockComment true) (shut ++ ['\n'])).ownsNewline = true
      ∧ pads ((shut ++ ['\n']).length - 1) ≠ [] := by
    simpa [ownsNewline] using pad
  have whole : padded pads (shut ++ ['\n'] ++ after)
      = shut
        ++ (pads shut.length ++ '\n' :: padded (shifted pads (shut ++ ['\n']).length) after) := by
    rw [List.append_assoc, padded_append, bare, List.singleton_append, padded, if_pos rfl,
      shifted_shifted, shifted, Nat.zero_add, List.length_append, List.length_singleton,
        Nat.add_comm]
  have apart : (Lexeme.mk (.literal .blockComment true) shut).Reads
      (pads shut.length ++ '\n' :: padded (shifted pads (shut ++ ['\n']).length) after) := by
    rcases List.exists_cons_of_ne_nil pad with ⟨next, more, starts⟩
    have stops : next ∈ lineBlanks := blank shut.length next (starts ▸ List.mem_cons_self)
    rw [starts]
    refine reads _ (fun newline => ?_) fun brace => ?_
    · obtain rfl : next = '\n' := by simpa using newline
      exact absurd stops (by decide)
    · obtain rfl : next = '}' := by simpa using brace
      exact absurd stops (by decide)
  rw [whole, apart.scan, trimmed_of_content rfl, trimmed_scan_blanks (blank _), later, broken,
    if_pos breaks, trimmed_of_content rfl, trimmed_lineEnd, disowned, List.dropLast_concat]

theorem trimmed_scan_blockComment
    (reads : (Lexeme.mk (.literal .blockComment true) text).Reads after)
    (bare : ∀ position, text[position]? = some '\n' → pads position ≠ [] →
      (Lexeme.mk (.literal .blockComment true) text).ownsNewline = true
        ∧ position + 1 = text.length) :
    trimmed (scan (padded pads (text ++ after)))
      = trimmed (broken pads (⟨.literal .blockComment true, text⟩ :: scan after)) := by
  rcases reads_blockComment reads with ⟨shut, ends, ⟨rfl, inline⟩ | split, readsShut, readsOwned⟩
  · -- All of the comment is inside it, so nothing is put there.
    have unowned : (Lexeme.mk (.literal .blockComment true) text).ownsNewline = false := by
      simp [ownsNewline, ends]
    have bare' : padded pads text = text := padded_of_bare fun position newline => by
      by_contra pad
      simp [(bare position newline pad).1] at unowned
    have head := head?_padded (shifted pads text.length) inline
    exact trimmed_of_reads (readsShut _ (head ▸ inline) fun brace => ⟨rfl, head ▸ brace⟩) bare'
      (by simp [unowned]) later
  · -- Something can be put in front of the newline that the comment owns, and nowhere else in it.
    by_cases pad : pads shut.length = []
    · have bare' : padded pads text = text := padded_of_bare fun position newline => by
        by_contra some
        obtain rfl : position = shut.length := by
          simpa [split] using (bare position newline some).2
        exact some pad
      exact trimmed_of_reads (split ▸ readsOwned _) bare' (by simp [split, pad]) later
    · have bare' : padded pads shut = shut := padded_of_bare fun position newline => by
        by_contra some
        have within : position < shut.length := (List.getElem?_eq_some_iff.mp newline).1
        have inside : text[position]? = Option.some '\n' := by
          rw [split, List.getElem?_append_left within, newline]
        have last := (bare position inside some).2
        simp only [split, List.length_append, List.length_singleton] at last
        omega
      exact trimmed_scan_disowned blank later split
        (fun other inline brace => readsShut other inline fun same => absurd same brace) bare' pad

end

/-- Blanks in front of newlines that are not inside a literal leave the same lexemes, when these are
trimmed and block comments lose the newlines that do not follow them any more. -/
theorem trimmed_scan_padded (pads : Nat → List Char) {text : List Char} (blank : Blank pads)
    (ends : text = [] ∨ EndsLine text) (clean : ∀ lexeme ∈ scan text, lexeme.fault? = none)
    (free : ∀ position, pads position ≠ [] → ¬ EnclosedAt (scan text) position) :
    trimmed (scan (padded pads text)) = trimmed (broken pads (scan text)) := by
  fun_induction Lexeme.scan text generalizing pads with
  | case1 => simp [padded, broken, scan]
  | case2 first rest found ih =>
      rcases List.forall_mem_cons.mp clean with ⟨here, below⟩
      have line : EndsLine (first :: rest) := ends.resolve_left (List.cons_ne_nil first rest)
      have reads : (Lexeme.mk found.1 (first :: rest.take found.2)).Reads (rest.drop found.2) :=
        reads_classify first rest
      have whole : first :: rest = (first :: rest.take found.2) ++ rest.drop found.2 := by
        rw [List.cons_append, List.take_append_drop]
      have later := ih (shifted pads (first :: rest.take found.2).length) (blank.shifted _)
        (endsLine_drop_classify line) below fun position pad =>
          (enclosedAt_add _ _ position).not.mp (free _ pad)
      rw [whole] at line ⊢
      generalize found.1 = kind, first :: rest.take found.2 = text, rest.drop found.2 = after at *
      have bare : ∀ position, text[position]? = some '\n' → pads position ≠ [] →
          (Lexeme.mk kind text).isMultiline = true →
          (Lexeme.mk kind text).ownsNewline = true ∧ position + 1 = text.length := by
        intro position newline pad multiline
        have within : position < text.length := (List.getElem?_eq_some_iff.mp newline).1
        have outside :=
          (@enclosedAt_of_lt ⟨kind, text⟩ _ within (scan after)).not.mp (free position pad)
        tauto
      cases kind with
      | newline =>
          obtain rfl := newline_of_reads reads
          rw [List.singleton_append, padded, if_pos rfl, trimmed_scan_blanks (blank 0)]
          rw [List.length_singleton] at later
          rw [later]
          rfl
      | space => exact trimmed_scan_blank blank later reads (.inl rfl)
      | indent => exact trimmed_scan_blank blank later reads (.inr rfl)
      | lineComment => exact trimmed_scan_lineComment blank later reads line
      | literal literal closed =>
          cases closed with
          | false => cases here
          | true =>
              by_cases comment : literal = .blockComment
              · subst comment
                exact trimmed_scan_blockComment blank later reads fun position newline pad =>
                  bare position newline pad rfl
              · refine trimmed_scan_quotation later reads comment ?_
                by_cases id : literal = .id
                · subst id
                  exact padded_of_inline pads (inline_of_id reads)
                · refine padded_of_bare fun position newline => ?_
                  by_contra pad
                  have owns :=
                    token?_of_ownsNewline (bare position newline pad (by simpa [isMultiline])).1
                  exact comment (by simpa [Kind.token?] using owns)
      | name _ | placeholder | operator | mark _ =>
          exact trimmed_scan_content blank later reads here rfl (by simp) line
      | unrecognized => cases here

end Lexeme

end Treatise.Layout
