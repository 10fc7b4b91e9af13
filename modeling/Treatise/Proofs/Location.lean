import Mathlib.Algebra.Group.Nat.Defs
import Mathlib.Data.List.DropRight
import Treatise.Location
import Treatise.Proofs.Text.Bytes

/-!
# Places of a text

The place right after some characters is given by the newlines among them and by the characters
since the last newline. Where a text goes on inside another one, its places are moved.

A byte offset is looked up among the offsets at which the lines begin. Between two characters that
gives the place right after the characters before it, whatever their number of bytes.
-/

namespace Treatise.Location

open Text (byteLength byteLength_append slice? slice?_append)

/-- A place some rows further down. -/
def lower (rows : Nat) (place : Location) : Location :=
  ⟨place.line + .ofNat rows, place.character⟩

theorem advance_append (place : Location) (first second : List Char) :
    place.advance (first ++ second) = (place.advance first).advance second :=
  List.foldl_append

theorem lower_advance (rows : Nat) (place : Location) (text : List Char) :
    lower rows (place.advance text) = (lower rows place).advance text := by
  induction text generalizing place with
  | nil => rfl
  | cons character rest ih =>
      have step : lower rows (place.step character) = (lower rows place).step character := by
        unfold Location.step
        split
        · simp only [lower, Location.mk.injEq, and_true]
          ac_rfl
        · rfl
      simp only [advance, List.foldl_cons] at ih ⊢
      rw [← step, ih]

theorem line_advance (place : Location) (text : List Char) :
    (place.advance text).line = place.line + .ofNat (text.count '\n') := by
  induction text generalizing place with
  | nil => simp [advance]
  | cons character rest ih =>
      simp only [advance, List.foldl_cons, List.count_cons] at ih ⊢
      rw [ih]
      unfold Location.step
      split
      · next newline =>
        rw [newline, beq_self_eq_true, if_pos rfl, Int32.ofNat_add]
        change place.line + 1 + .ofNat (rest.count '\n')
          = place.line + (.ofNat (rest.count '\n') + 1)
        ac_rfl
      · next other => simp [other, nextColumn]

/-! ## Rows and columns -/

/-- What stands on the last line of a text. -/
def lastLine (text : List Char) : List Char :=
  text.rtakeWhile (· != '\n')

theorem lastLine_concat_newline (text : List Char) : lastLine (text ++ ['\n']) = [] :=
  List.rtakeWhile_concat_neg _ _ _ (by simp)

theorem lastLine_concat (text : List Char) {character : Char} (inline : character ≠ '\n') :
    lastLine (text ++ [character]) = lastLine text ++ [character] :=
  List.rtakeWhile_concat_pos _ _ _ (by simpa using inline)

theorem lastLine_append (front back : List Char) :
    lastLine (front ++ back)
      = (if back.count '\n' = 0 then lastLine front else []) ++ lastLine back := by
  induction back using List.reverseRecOn with
  | nil => simp [lastLine]
  | append_singleton back character ih =>
      rw [← List.append_assoc]
      by_cases newline : character = '\n'
      · subst newline
        rw [lastLine_concat_newline, lastLine_concat_newline]
        simp
      · rw [lastLine_concat _ newline, lastLine_concat _ newline, ih]
        simp [newline]

/-- The rows before a place are the newlines before it, and the columns the characters since the
last one. -/
theorem start_advance (text : List Char) :
    start.advance text = ⟨.ofNat (text.count '\n'), .ofNat (lastLine text).length⟩ := by
  induction text using List.reverseRecOn with
  | nil => rfl
  | append_singleton text character ih =>
      rw [advance_append, ih]
      by_cases newline : character = '\n'
      · subst newline
        rw [lastLine_concat_newline]
        simp [advance, step, Int32.ofNat_add]
      · rw [lastLine_concat text newline]
        simp [advance, step, newline, nextColumn, Int32.ofNat_add]

/-! ## Places in range -/

/-- No row and no column of a text goes beyond 32 bits. -/
def InRange (text : List Char) : Prop :=
  ∀ front, front <+: text → front.count '\n' < 2 ^ 31 ∧ (lastLine front).length < 2 ^ 31

theorem length_lastLine_le (text : List Char) : (lastLine text).length ≤ text.length :=
  (List.rtakeWhile_suffix _ _).length_le

theorem inRange_of_length_lt {text : List Char} (short : text.length < 2 ^ 31) : InRange text := by
  intro front starts
  have length := starts.length_le
  have rows := List.count_le_length (a := '\n') (l := front)
  have columns := length_lastLine_le front
  omega

/-- In range, rows and columns are the numbers of the newlines and of the characters since the last
one. -/
theorem InRange.row_column {front back : List Char} (inRange : InRange (front ++ back)) :
    (start.advance front).row = front.count '\n'
      ∧ (start.advance front).column = (lastLine front).length := by
  rcases inRange front (List.prefix_append _ _) with ⟨rows, columns⟩
  rw [start_advance, row, column]
  exact ⟨Int32.toInt_ofNat_of_lt rows, Int32.toInt_ofNat_of_lt columns⟩

theorem max_zero_ofNat {number : Nat} (small : number < 2 ^ 31) :
    max 0 (Int32.ofNat number) = .ofNat number := by
  refine if_pos ?_
  rw [Int32.le_iff_toInt_le, Int32.toInt_ofNat_of_lt small]
  exact Int.natCast_nonneg _

/-- A text that goes on at a place of another text has its own places moved there. -/
theorem within_advance {before text : List Char} (short : (before ++ text).length < 2 ^ 31) :
    (start.advance text).within (start.advance before) = start.advance (before ++ text) := by
  have rowsBefore := List.count_le_length (a := '\n') (l := before)
  have rows := List.count_le_length (a := '\n') (l := text)
  have columnsBefore := length_lastLine_le before
  have columns := length_lastLine_le text
  rw [List.length_append] at short
  have firstRow : Int32.ofNat (text.count '\n') = 0 ↔ text.count '\n' = 0 := by
    rw [← Int32.toInt_inj, Int32.toInt_ofNat_of_lt (by omega)]
    simp
  rw [start_advance, start_advance, start_advance, within, lastLine_append, List.count_append,
    List.length_append, Nat.add_comm, Int32.ofNat_add]
  simp only [firstRow, ← Int32.ofNat_add]
  split
  · rw [max_zero_ofNat (by omega), max_zero_ofNat (by omega), Nat.add_comm (lastLine before).length]
  · rw [max_zero_ofNat (by omega), max_zero_ofNat (by omega), List.length_nil, Nat.zero_add]

/-! ## The beginnings of lines -/

theorem lineStartsFrom_append (offset : Nat) (front back : List Char) :
    lineStartsFrom offset (front ++ back)
      = lineStartsFrom offset front ++ lineStartsFrom (offset + byteLength front) back := by
  induction front generalizing offset with
  | nil => rfl
  | cons first rest ih =>
      have further : offset + first.utf8Size + byteLength rest
          = offset + (first.utf8Size + byteLength rest) := Nat.add_assoc ..
      simp only [List.cons_append, lineStartsFrom, byteLength, ih, further]
      split <;> rfl

theorem length_lineStartsFrom (offset : Nat) (text : List Char) :
    (lineStartsFrom offset text).length = text.count '\n' := by
  induction text generalizing offset with
  | nil => rfl
  | cons first rest ih =>
      simp only [lineStartsFrom, List.count_cons]
      split
      · next newline => simp [newline, ih]
      · next other => simp [other, ih]

theorem mem_lineStartsFrom {offset begins : Nat} {text : List Char}
    (member : begins ∈ lineStartsFrom offset text) :
    offset < begins ∧ begins ≤ offset + byteLength text := by
  induction text generalizing offset begins with
  | nil => simp [lineStartsFrom] at member
  | cons first rest ih =>
      have positive := first.utf8Size_pos
      have later : ∀ begins ∈ lineStartsFrom (offset + first.utf8Size) rest,
          offset < begins ∧ begins ≤ offset + byteLength (first :: rest) := by
        intro begins inside
        have bounds := ih inside
        rw [byteLength]
        omega
      rw [lineStartsFrom] at member
      split at member
      · rcases List.mem_cons.mp member with rfl | inside
        · rw [byteLength]
          omega
        · exact later begins inside
      · exact later begins member

/-- The last line of a text begins right after the last newline. -/
theorem getLast_lineStarts (text : List Char) :
    (0 :: lineStartsFrom 0 text).getLast (List.cons_ne_nil _ _)
      = byteLength (text.rdropWhile (· != '\n')) := by
  induction text using List.reverseRecOn with
  | nil => rfl
  | append_singleton text character ih =>
      by_cases newline : character = '\n'
      · subst newline
        rw [List.rdropWhile_concat_neg _ _ _ (by simp)]
        simp [lineStartsFrom_append, lineStartsFrom, byteLength]
      · rw [List.rdropWhile_concat_pos _ _ _ (by simpa using newline), ← ih]
        simp [lineStartsFrom_append, lineStartsFrom, newline]

/-! ## Looking up a line -/

/-- The lines from `low` up to `high` are those that may hold an offset. -/
structure Between (starts : Array Nat) (offset low high : Nat) : Prop where
  some : low < high
  inside : high ≤ starts.size
  before : starts.getD low 0 ≤ offset
  after : high < starts.size → offset < starts.getD high 0

/-- Halving the range keeps the line that holds the offset, until no other line is left. -/
theorem Between.lineAt {starts : Array Nat} {offset low high : Nat}
    (between : Between starts offset low high) :
    Between starts offset (lineAt starts offset low high) (lineAt starts offset low high + 1) := by
  rcases between with ⟨some, inside, before, after⟩
  fun_induction Location.lineAt starts offset low high with
  | case1 low high wide middle upper ih =>
      apply ih
      · omega
      · exact inside
      · exact upper
      · exact after
  | case2 low high wide middle lower ih =>
      apply ih
      · omega
      · omega
      · exact before
      · intro _
        exact Nat.lt_of_not_le lower
  | case3 low high narrow =>
      obtain rfl : high = low + 1 := by omega
      exact ⟨some, inside, before, after⟩

theorem getD_append_left {front : List Nat} (back : List Nat) {line : Nat}
    (inside : line < front.length) : (front ++ back).toArray.getD line 0 = front[line] := by
  have first : (front ++ back)[line]? = some front[line] := by
    rw [List.getElem?_append_left inside, List.getElem?_eq_getElem inside]
  simp [first]

/-- The line that is found is the one that is begun by the last start which is not past the
offset. -/
theorem lineAt_append {front back : List Nat} {offset : Nat} (some : front ≠ [])
    (before : ∀ begins ∈ front, begins ≤ offset) (after : ∀ begins ∈ back, offset < begins) :
    lineAt (front ++ back).toArray offset 0 (front ++ back).toArray.size + 1 = front.length := by
  have positive := List.length_pos_iff.mpr some
  have early : ∀ line < front.length, (front ++ back).toArray.getD line 0 ≤ offset := by
    intro line inside
    rw [getD_append_left back inside]
    exact before _ (List.getElem_mem inside)
  have late : ∀ line < (front ++ back).toArray.size, front.length ≤ line →
      offset < (front ++ back).toArray.getD line 0 := by
    intro line inside beyond
    have inside' : line - front.length < back.length := by
      simp only [List.size_toArray, List.length_append] at inside
      omega
    have looked : (front ++ back).toArray.getD line 0 = back[line - front.length] := by
      simp [List.getElem?_append_right beyond, List.getElem?_eq_getElem inside']
    rw [looked]
    exact after _ (List.getElem_mem inside')
  have size : front.length ≤ (front ++ back).toArray.size := by simp
  -- The bisection begins with all lines, and the one that is left is neither early nor late.
  have range : Between (front ++ back).toArray offset 0 (front ++ back).toArray.size := by
    refine ⟨?_, le_rfl, early 0 positive, ?_⟩
    · omega
    · intro beyond
      exact absurd beyond (lt_irrefl _)
  obtain ⟨-, inside, found, next⟩ := range.lineAt
  generalize lineAt (front ++ back).toArray offset 0 (front ++ back).toArray.size = line
    at inside found next ⊢
  have notLate : line < front.length := by
    by_contra beyond
    have := late line (by omega) (by omega)
    omega
  have notEarly : ¬ line + 1 < front.length := by
    intro early'
    have := early (line + 1) early'
    have := next (by omega)
    omega
  omega

/-- The beginnings of the lines that are begun in the front of a text, and of the others. -/
theorem lineStarts_append (front back : List Char) :
    lineStarts (front ++ back)
      = (0 :: lineStartsFrom 0 front ++ lineStartsFrom (byteLength front) back).toArray := by
  simp [lineStarts, lineStartsFrom_append]

/-- The end of a text's front is on the last line that the front begins. -/
theorem lineAt_lineStarts (front back : List Char) :
    lineAt (lineStarts (front ++ back)) (byteLength front) 0 (lineStarts (front ++ back)).size
      = front.count '\n' := by
  have before : ∀ begins ∈ 0 :: lineStartsFrom 0 front, begins ≤ byteLength front := by
    intro begins member
    rcases List.mem_cons.mp member with rfl | member
    · exact Nat.zero_le _
    · have bounds := mem_lineStartsFrom member
      omega
  have found := lineAt_append (List.cons_ne_nil _ _) before
    fun begins (member : begins ∈ lineStartsFrom (byteLength front) back) =>
      (mem_lineStartsFrom member).1
  rw [← lineStarts_append, List.length_cons, length_lineStartsFrom] at found
  omega

/-- That line begins right after the last newline of the front. -/
theorem getD_lineStarts (front back : List Char) :
    (lineStarts (front ++ back)).getD (front.count '\n') 0
      = byteLength (front.rdropWhile (· != '\n')) := by
  have inside : front.count '\n' < (0 :: lineStartsFrom 0 front).length := by
    simp [length_lineStartsFrom]
  rw [← getLast_lineStarts, lineStarts_append, getD_append_left _ inside, List.getLast_eq_getElem]
  simp [length_lineStartsFrom]

/-! ## Offsets -/

/-- Between two characters, an offset is looked up as the place right after the characters before
it. -/
theorem ofOffset_of_append {text : String} {front back : List Char}
    (split : text.toList = front ++ back) :
    ofOffset text (byteLength front) = start.advance front := by
  have inside : min (byteLength front) (byteLength (front ++ back)) = byteLength front := by
    rw [byteLength_append]
    omega
  have lines : front.rdropWhile (· != '\n') ++ lastLine front = front :=
    List.rdropWhile_append_rtakeWhile
  have onLine := slice?_append (front.rdropWhile (· != '\n')) (lastLine front) back
  rw [← List.append_assoc, lines] at onLine
  rw [start_advance, ofOffset, split]
  simp only [inside, lineAt_lineStarts, getD_lineStarts, onLine]

end Treatise.Location
