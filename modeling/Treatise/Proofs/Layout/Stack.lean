import Mathlib.Data.List.TakeWhile
import Treatise.Layout.Indentation

/-!
# The stack of open blocks

A reader keeps the levels of the enclosing lines and the number of open blocks apart, and neither
determines the other: the list of levels is seeded anew when it empties while the count goes on.
What the reader does depends only on as many levels as there are open blocks, and one more for the
line whose block opens next. These are the `stack` of the reader. Opening a block closes the blocks
at the top of the stack that are not above the new level, and the new level goes on top of what is
left.

Reading is also described lexeme by lexeme, with the place of each lexeme, so that it can be cut at
any point.
-/

namespace Treatise.Layout

/-- Lexemes with the places they begin at. -/
def placed (location : Location) : List Lexeme → List (Located Lexeme)
  | [] => []
  | lexeme :: rest => ⟨location, lexeme⟩ :: placed (location.advance lexeme.text) rest

theorem placed_append (location : Location) (first second : List Lexeme) :
    placed location (first ++ second) = placed location first
      ++ placed (location.advance (first.flatMap Lexeme.text)) second := by
  induction first generalizing location with
  | nil => rfl
  | cons lexeme rest ih => simp [placed, ih, Location.advance]

theorem map_value_placed (location : Location) (lexemes : List Lexeme) :
    (placed location lexemes).map Located.value = lexemes := by
  induction lexemes generalizing location with
  | nil => rfl
  | cons lexeme rest ih => simp [placed, ih]

namespace Reader

/-! ## Leaving levels -/

theorem leave_eq (level : Nat) (levels : List Nat) (openBlocks : Nat) :
    leave level levels openBlocks
      = (levels.drop ((levels.take openBlocks).takeWhile (level ≤ ·)).length,
        openBlocks - ((levels.take openBlocks).takeWhile (level ≤ ·)).length) := by
  induction levels generalizing openBlocks with
  | nil => cases openBlocks <;> simp [leave]
  | cons top outer ih =>
      cases openBlocks with
      | zero => simp [leave]
      | succ openBlocks =>
          by_cases above : level ≤ top <;> simp [leave, above, ih]

/-- The levels of the open blocks, below the level of the line whose block opens next. -/
def stack (reader : Reader) : List Nat :=
  reader.levels.take (reader.openBlocks + 1)

/-- There is a level for every open block and for the block that opens next. -/
def Sound (reader : Reader) : Prop :=
  reader.openBlocks < reader.levels.length

theorem sound_initial : initial.Sound := by
  simp [Sound, initial]

theorem length_stack {reader : Reader} (sound : reader.Sound) :
    reader.stack.length = reader.openBlocks + 1 := by
  simp only [Sound] at sound
  simp [stack]
  omega

/-- How many blocks a line at a level closes, the block of the line before included. -/
def closings (reader : Reader) (level : Nat) : Nat :=
  (reader.stack.takeWhile (level ≤ ·)).length

theorem closings_le (reader : Reader) (level : Nat) :
    reader.closings level ≤ reader.openBlocks + 1 :=
  (List.takeWhile_sublist _).length_le.trans (List.length_take_le _ _)

theorem openBlock_fst (reader : Reader) (location : Location) (level : Nat) :
    (reader.openBlock location level).1 = Token.blockOpen location
      :: List.replicate (reader.closings level) (Token.blockClose location) := by
  have bound := closings_le reader level
  simp only [closings, stack] at bound
  simp only [openBlock, leave_eq, closings, stack]
  congr 2
  omega

theorem openBlocks_openBlock (reader : Reader) (location : Location) (level : Nat) :
    (reader.openBlock location level).2.openBlocks
      = reader.openBlocks + 1 - reader.closings level := by
  simp [openBlock, leave_eq, closings, stack]

theorem sound_openBlock {reader : Reader} (sound : reader.Sound) (location : Location)
    (level : Nat) : (reader.openBlock location level).2.Sound := by
  have bound := closings_le reader level
  simp only [Sound, closings, stack] at *
  simp only [openBlock, leave_eq]
  split_ifs with emptied
  · rw [List.isEmpty_iff, List.drop_eq_nil_iff] at emptied
    simp only [List.length_cons, List.length_nil]
    omega
  · simp only [List.length_cons, List.length_drop]
    omega

theorem stack_openBlock {reader : Reader} (sound : reader.Sound) (location : Location)
    (level : Nat) : (reader.openBlock location level).2.stack
      = level :: reader.stack.dropWhile (level ≤ ·) := by
  have bound := closings_le reader level
  have left : reader.stack.drop (reader.closings level) = reader.stack.dropWhile (level ≤ ·) := by
    calc reader.stack.drop (reader.closings level)
        = (reader.stack.takeWhile (level ≤ ·) ++ reader.stack.dropWhile (level ≤ ·)).drop
            (reader.closings level) := by rw [List.takeWhile_append_dropWhile]
      _ = reader.stack.dropWhile (level ≤ ·) := List.drop_left' rfl
  rw [← left]
  simp only [Sound, closings, stack] at *
  simp only [openBlock, leave_eq]
  split_ifs with emptied
  · rw [List.isEmpty_iff, List.drop_eq_nil_iff] at emptied
    have all : ((reader.levels.take (reader.openBlocks + 1)).takeWhile (level ≤ ·)).length
        = reader.openBlocks + 1 := by omega
    simp [all]
  · rw [List.take_succ_cons, List.drop_take]

/-! ## Settling the pending newline -/

theorem settle_of_none {reader : Reader} (settled : reader.pending = none) (level : Nat) :
    reader.settle level = ([], reader) := by
  simp [settle, settled]

theorem settle_of_some {reader : Reader} {location : Location}
    (pending : reader.pending = some location) (level : Nat) :
    reader.settle level = { reader with pending := none }.openBlock location level := by
  simp [settle, pending]

theorem sound_settle {reader : Reader} (sound : reader.Sound) (level : Nat) :
    (reader.settle level).2.Sound := by
  cases pending : reader.pending with
  | none => rwa [settle_of_none pending]
  | some location =>
      rw [settle_of_some pending]
      exact sound_openBlock sound location level

/-- At level zero a pending newline closes all blocks. -/
theorem openBlocks_settle_zero {reader : Reader} (sound : reader.Sound) {location : Location}
    (pending : reader.pending = some location) : (reader.settle 0).2.openBlocks = 0 := by
  have all : reader.stack.takeWhile (0 ≤ ·) = reader.stack :=
    List.takeWhile_eq_self_iff.mpr (by simp)
  rw [settle_of_some pending, openBlocks_openBlock]
  change reader.openBlocks + 1 - (reader.stack.takeWhile (0 ≤ ·)).length = 0
  rw [all, length_stack sound, Nat.sub_self]

/-! ## Steps -/

/-- Reads lexemes one after the other: the tokens they yield, and what is known afterwards. -/
def steps (reader : Reader) : List (Located Lexeme) → List Token × Reader
  | [] => ([], reader)
  | found :: rest =>
    let first := reader.step found.location found.value
    let more := first.2.steps rest
    (first.1 ++ more.1, more.2)

@[simp]
theorem steps_nil (reader : Reader) : reader.steps [] = ([], reader) := rfl

theorem steps_append (reader : Reader) (first second : List (Located Lexeme)) :
    reader.steps (first ++ second)
      = ((reader.steps first).1 ++ ((reader.steps first).2.steps second).1,
        ((reader.steps first).2.steps second).2) := by
  induction first generalizing reader with
  | nil => rfl
  | cons found rest ih => simp [steps, ih]

theorem run_eq_steps (reader : Reader) (location : Location) (lexemes : List Lexeme) :
    reader.run location lexemes = (reader.steps (placed location lexemes)).1
      ++ (reader.steps (placed location lexemes)).2.finish
        (location.advance (lexemes.flatMap Lexeme.text)) := by
  induction lexemes generalizing reader location with
  | nil => simp [run, placed, Location.advance]
  | cons lexeme rest ih => simp [run, placed, steps, ih, Location.advance]

end Reader

end Treatise.Layout
