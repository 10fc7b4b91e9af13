import Mathlib.Data.List.TakeWhile
import Treatise.Text.Run

/-!
# Runs

A run is found again in any text that begins with it and does not continue it.
-/

namespace Treatise.Text

theorem runLength_le (sort : Char → Bool) (text : List Char) : runLength sort text ≤ text.length :=
  (List.takeWhile_sublist _).length_le

theorem runLength_eq_zero_iff {sort : Char → Bool} {text : List Char} :
    runLength sort text = 0 ↔ ∀ next ∈ text.head?, sort next = false := by
  cases text with
  | nil => simp [runLength]
  | cons next rest =>
      cases sorted : sort next <;> simp [runLength, sorted]

theorem runLength_append {sort : Char → Bool} {run following : List Char}
    (all : ∀ character ∈ run, sort character = true)
    (ends : ∀ next ∈ following.head?, sort next = false) :
    runLength sort (run ++ following) = run.length := by
  unfold runLength
  rw [List.takeWhile_append_of_pos all]
  cases following with
  | nil => simp
  | cons next rest => simp [ends next (by simp)]

theorem take_runLength (sort : Char → Bool) (text : List Char) :
    text.take (runLength sort text) = text.takeWhile sort :=
  (List.prefix_iff_eq_take.mp (List.takeWhile_prefix sort)).symm

theorem drop_runLength (sort : Char → Bool) (text : List Char) :
    text.drop (runLength sort text) = text.dropWhile sort := by
  calc text.drop (runLength sort text)
      = (text.takeWhile sort ++ text.dropWhile sort).drop (runLength sort text) := by
        rw [List.takeWhile_append_dropWhile]
    _ = text.dropWhile sort := List.drop_left' rfl

end Treatise.Text
