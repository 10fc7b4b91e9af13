import Treatise.Proofs.Layout.Padding

/-!
# Trailing blanks

Blanks in front of a newline change neither the kinds nor the texts of the tokens, and so a text can
be written with other line endings. There is one exception: a block comment owns the newline right
after its closer, and with a blank between them the newline ends a row with content, which opens a
block.
-/

namespace Treatise.Layout

namespace Lexeme

/-! ## Broken block comments -/

theorem endsLine_of_ownsNewline {lexeme : Lexeme} (owns : lexeme.ownsNewline = true) :
    EndsLine lexeme.text := by
  unfold ownsNewline at owns
  split at owns
  · simpa [EndsLine] using owns
  · cases owns

theorem shut_of_mem_scan {text : List Char} {lexeme : Lexeme} (member : lexeme ∈ scan text)
    (clean : lexeme.fault? = none) (owns : lexeme.ownsNewline = true) :
    lexeme.disowned.ownsNewline = false := by
  rcases reads_of_mem_scan member with ⟨following, reads⟩
  have becomes := token?_of_ownsNewline owns
  rcases lexeme with ⟨kind, text⟩
  cases kind with
  | literal literal closed =>
      obtain rfl : literal = .blockComment := by simpa [Kind.token?] using becomes
      cases closed with
      | false => cases clean
      | true =>
          rcases reads_blockComment reads with ⟨shut, ends, ⟨rfl, -⟩ | rfl, -⟩
          · simp [ownsNewline, ends] at owns
          · simp [disowned, ownsNewline, ends]
  | newline | indent | space | lineComment | name _ | placeholder | operator | mark _
  | unrecognized => simp [Kind.token?] at becomes

theorem contentRows_cons_lt (lexeme : Lexeme) {rest more : List Lexeme}
    (fewer : ∀ begun, contentRows begun rest < contentRows begun more) (begun : Bool) :
    contentRows begun (lexeme :: rest) < contentRows begun (lexeme :: more) := by
  unfold contentRows
  split_ifs
  · exact Nat.add_lt_add_left (fewer false) _
  · exact fewer _
  · exact fewer begun

/-- Where something stands in front of the newline of a block comment, another row with content
ends. -/
theorem broken_cases (pads : Nat → List Char) {lexemes : List Lexeme}
    (shut : ∀ lexeme ∈ lexemes, lexeme.ownsNewline = true → lexeme.disowned.ownsNewline = false) :
    broken pads lexemes = lexemes ∧ (∀ position, OwnedAt lexemes position → pads position = [])
      ∨ (∃ position, OwnedAt lexemes position ∧ pads position ≠ [])
        ∧ ∀ begun, contentRows begun lexemes < contentRows begun (broken pads lexemes) := by
  -- The first comment that is broken adds a row, and no row is lost by those that follow.
  induction lexemes generalizing pads with
  | nil => exact .inl ⟨rfl, by simp [OwnedAt, at?]⟩
  | cons lexeme rest ih =>
      rcases List.forall_mem_cons.mp shut with ⟨here, below⟩
      have later := ih (shifted pads lexeme.text.length) below
      rw [broken]
      split
      · next breaks =>
        have last := Nat.sub_add_cancel (endsLine_of_ownsNewline breaks.1).length_pos
        have content := token?_of_ownsNewline breaks.1
        have content' : lexeme.disowned.kind.token? = some (.literal .blockComment) := content
        refine .inr ⟨⟨lexeme.text.length - 1, ?_, breaks.2⟩, fun begun => ?_⟩
        · exact (ownedAt_of_lt (by omega) rest).mpr ⟨breaks.1, last⟩
        · have fewer : contentRows false rest
              ≤ contentRows false (broken (shifted pads lexeme.text.length) rest) := by
            rcases later with ⟨same, -⟩ | ⟨-, fewer⟩
            · rw [same]
            · exact (fewer false).le
          rw [contentRows_of_content _ content, contentRows_of_content _ content', breaks.1,
            here breaks.1]
          exact Nat.lt_of_le_of_lt fewer (by simp [contentRows, lineEnd])
      · next whole =>
        rcases later with ⟨same, none⟩ | ⟨⟨position, owned, pad⟩, fewer⟩
        · refine .inl ⟨by rw [same], fun position owned => ?_⟩
          by_cases within : position < lexeme.text.length
          · rcases (ownedAt_of_lt within rest).mp owned with ⟨owns, last⟩
            by_contra pad
            exact whole ⟨owns, by rwa [← last, Nat.add_sub_cancel]⟩
          · rcases Nat.exists_eq_add_of_le' (Nat.le_of_not_lt within) with ⟨further, rfl⟩
            exact none further ((ownedAt_add _ _ _).mp owned)
        · exact .inr ⟨⟨position + lexeme.text.length, (ownedAt_add _ _ _).mpr owned, pad⟩,
            contentRows_cons_lt lexeme fewer⟩

end Lexeme

/-! ## Texts -/

/-- The position is inside a block comment, a string or a statement of the text. -/
def InLiteral (text : String) (position : Nat) : Prop :=
  Lexeme.EnclosedAt (Lexeme.scan (withFinalNewline text.toList)) position

/-- A block comment of the text owns the newline at the position, which is right after its
closer. -/
def Owned (text : String) (position : Nat) : Prop :=
  Lexeme.OwnedAt (Lexeme.scan (withFinalNewline text.toList)) position

instance (text : String) (position : Nat) : Decidable (InLiteral text position) :=
  inferInstanceAs (Decidable (Lexeme.EnclosedAt _ position))

instance (text : String) (position : Nat) : Decidable (Owned text position) :=
  inferInstanceAs (Decidable (Lexeme.OwnedAt _ position))

theorem getLast?_padded (pads : Nat → List Char) (text : List Char) :
    (padded pads text).getLast? = text.getLast? := by
  rcases List.eq_nil_or_concat text with rfl | ⟨front, last, rfl⟩
  · rfl
  · rw [List.concat_eq_append, padded_append, padded, padded, ← List.append_assoc,
      List.getLast?_concat, List.getLast?_concat]

/-- What is put at the newlines of a text, and nowhere else. -/
def atNewlines (pads : Nat → List Char) (text : List Char) : Nat → List Char :=
  fun position => if text[position]? = some '\n' then pads position else []

theorem Blank.atNewlines {pads : Nat → List Char} (blank : Blank pads) (text : List Char) :
    Blank (atNewlines pads text) := by
  intro position character member
  rw [Layout.atNewlines] at member
  split at member
  · exact blank position character member
  · exact absurd member List.not_mem_nil

theorem atNewlines_ne_nil {pads : Nat → List Char} {text : List Char} {position : Nat} :
    atNewlines pads text position ≠ [] ↔ text[position]? = some '\n' ∧ pads position ≠ [] := by
  simp [atNewlines]

/-- Nothing stands in front of the newline that reading adds. -/
theorem withFinalNewline_padded (pads : Nat → List Char) (text : List Char) :
    withFinalNewline (padded pads text)
      = padded (atNewlines pads text) (withFinalNewline text) := by
  have same : padded pads text = padded (atNewlines pads text) text :=
    padded_congr fun position newline => (if_pos newline).symm
  unfold withFinalNewline
  rw [getLast?_padded]
  split
  · exact same
  · rw [padded_append, ← same]
    simp [padded, shifted, atNewlines]

/-- Blanks in front of newlines that are not inside a literal change neither the kinds nor the texts
of the tokens, unless they stand in front of a newline that a block comment owns. -/
theorem unplaced_read_padded {text : String} (clean : (read text).faults = [])
    {pads : Nat → List Char} (blank : Blank pads)
    (free : ∀ position, text.toList[position]? = some '\n' → pads position ≠ [] →
      ¬ InLiteral text position) :
    unplaced (read (String.ofList (padded pads text.toList))).tokens = unplaced (read text).tokens
      ↔ ∀ position, text.toList[position]? = some '\n' → Owned text position →
        pads position = [] := by
  have clean' := faultsFrom_eq_nil_iff.mp clean
  have trimmed := Lexeme.trimmed_scan_padded _ (blank.atNewlines text.toList)
    (.inr (endsLine_withFinalNewline text.toList)) clean' fun position pad =>
      (atNewlines_ne_nil.mp pad).elim (free position)
  rw [unplaced_read, unplaced_read, String.toList_ofList, withFinalNewline_padded,
    ← Reader.bare_trimmed, trimmed, Reader.bare_trimmed]
  rcases Lexeme.broken_cases (atNewlines pads text.toList)
    (fun lexeme member => Lexeme.shut_of_mem_scan member (clean' lexeme member)) with
    ⟨same, none⟩ | ⟨⟨position, owned, pad⟩, more⟩
  · rw [same]
    refine iff_of_true rfl fun position newline owned => ?_
    by_contra pad
    exact atNewlines_ne_nil.mpr ⟨newline, pad⟩ (none position owned)
  · refine iff_of_false (fun same => ?_) fun bare => ?_
    · -- Another block opens where another row with content ends.
      have counts := congrArg openings same
      have begun : Reader.initial.Begun := fun _ => rfl
      rw [Reader.openings_bare begun, Reader.openings_bare begun] at counts
      have due : ∀ lexemes, Reader.initial.due lexemes = contentRows false lexemes :=
        fun _ => Nat.zero_add _
      rw [due, due] at counts
      exact absurd counts (Nat.ne_of_gt (more false))
    · rcases atNewlines_ne_nil.mp pad with ⟨newline, pad⟩
      exact pad (bare position newline owned)

/-! ## Line endings -/

/-- The text with a carriage return in front of every newline. -/
def withCarriageReturns (text : String) : String :=
  String.ofList (text.toList.flatMap fun character =>
    if character = '\n' then ['\r', '\n'] else [character])

theorem padded_carriageReturns (text : List Char) :
    padded (fun _ => ['\r']) text = text.flatMap fun character =>
      if character = '\n' then ['\r', '\n'] else [character] := by
  induction text with
  | nil => rfl
  | cons first rest ih =>
      have later : padded (shifted (fun _ => ['\r']) 1) rest = _ := ih
      rw [padded, later, List.flatMap_cons]
      split
      · next newline => rw [newline]; rfl
      · rfl

def padAt (index : Nat) (blanks : List Char) : Nat → List Char :=
  fun position => if position = index then blanks else []

theorem padAt_ne_nil {index position : Nat} {blanks : List Char} :
    padAt index blanks position ≠ [] ↔ position = index ∧ blanks ≠ [] := by
  simp [padAt]

theorem padded_padAt (front back blanks : List Char) :
    padded (padAt front.length blanks) (front ++ '\n' :: back)
      = front ++ blanks ++ '\n' :: back := by
  have before : padded (padAt front.length blanks) front = front := by
    refine padded_of_bare fun position newline => if_neg ?_
    have within := (List.getElem?_eq_some_iff.mp newline).1
    omega
  have here : shifted (padAt front.length blanks) front.length 0 = blanks := if_pos (Nat.zero_add _)
  have behind : padded (shifted (shifted (padAt front.length blanks) front.length) 1) back = back :=
    padded_of_bare fun position _ => if_neg (by omega)
  rw [padded_append, before, padded, if_pos rfl, here, behind, List.append_assoc]

/-- In a text without faults, blanks can be put in front of any newline that is not inside a
literal, and the kinds and the texts of the tokens stay the same, unless the newline is right after
the closer of a block comment: then the comment does not own it any more. So a text without such
newlines, and without literals over several lines, can also be written with carriage returns in
front of its newlines. -/
theorem blanks_before_newline {text : String} (clean : (read text).faults = []) :
    (∀ front back blanks : List Char, text.toList = front ++ '\n' :: back →
      (∀ character ∈ blanks, character ∈ lineBlanks) → ¬ InLiteral text front.length →
        (unplaced (read (String.ofList (front ++ blanks ++ '\n' :: back))).tokens
            = unplaced (read text).tokens
          ↔ (Owned text front.length → blanks = [])))
    ∧ ((∀ position, text.toList[position]? = some '\n' → ¬ InLiteral text position) →
        (unplaced (read (withCarriageReturns text)).tokens = unplaced (read text).tokens
          ↔ ∀ position, text.toList[position]? = some '\n' → ¬ Owned text position)) := by
  constructor
  · intro front back blanks split blank outside
    have blank' : Blank (padAt front.length blanks) := by
      intro position character member
      have pad := (padAt_ne_nil.mp (List.ne_nil_of_mem member)).1
      rw [pad, padAt, if_pos rfl] at member
      exact blank character member
    have same := unplaced_read_padded clean blank' fun position _ pad =>
      (padAt_ne_nil.mp pad).1 ▸ outside
    rw [split, padded_padAt] at same
    rw [same]
    constructor
    · intro bare owned
      simpa [padAt] using bare front.length (by simp) owned
    · intro bare position _ owned
      by_contra pad
      rcases padAt_ne_nil.mp pad with ⟨rfl, some⟩
      exact some (bare owned)
  · intro outside
    have same := @unplaced_read_padded text clean (fun _ => ['\r']) (by simp [Blank, lineBlanks])
      fun position newline _ => outside position newline
    rw [padded_carriageReturns] at same
    rw [withCarriageReturns, same]
    simp

theorem blanks_before_newline_of_comment :
    (read "a: -- c\n\nb\n").faults = []
      ∧ unplaced (read "a: -- c \t\n\nb\n").tokens = unplaced (read "a: -- c\n\nb\n").tokens
      ∧ unplaced (read "a: -- c\r\n\r\nb\r\n").tokens
        = unplaced (read "a: -- c\n\nb\n").tokens := by
  have clean : (read "a: -- c\n\nb\n").faults = [] := by decide +kernel
  have outside : ∀ position < 11, ¬ InLiteral "a: -- c\n\nb\n" position
      ∧ ¬ Owned "a: -- c\n\nb\n" position := by decide +kernel
  have within : ∀ position, "a: -- c\n\nb\n".toList[position]? = some '\n' → position < 11 :=
    fun position newline => (List.getElem?_eq_some_iff.mp newline).1
  have every := blanks_before_newline clean
  refine ⟨clean, ?_, ?_⟩
  · exact (every.1 "a: -- c".toList "\nb\n".toList [' ', '\t'] rfl (by simp [lineBlanks])
      (outside 7 (by decide)).1).mpr fun owned => absurd owned (outside 7 (by decide)).2
  · exact (every.2 fun position newline => (outside position (within position newline)).1).mpr
      fun position newline => (outside position (within position newline)).2

/-- With a blank between them, the newline after a block comment is not the comment's any more. -/
theorem blank_before_owned_newline :
    (read "::c::\nx\n").faults = [] ∧ ¬ InLiteral "::c::\nx\n" 5
      ∧ unplaced (read "::c:: \nx\n").tokens ≠ unplaced (read "::c::\nx\n").tokens
      ∧ unplaced (read (withCarriageReturns "::c::\nx\n")).tokens
        ≠ unplaced (read "::c::\nx\n").tokens := by
  decide +kernel

end Treatise.Layout
