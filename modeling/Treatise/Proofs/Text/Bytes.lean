import Mathlib.Tactic.Common
import Treatise.Text.Bytes

/-!
# Bytes of a text

The offset of a boundary between two characters is the number of bytes before it, and there the text
is cut into what stands before and after it.
-/

namespace Treatise.Text

variable (front middle back : List Char)

@[simp]
theorem byteLength_append : byteLength (front ++ back) = byteLength front + byteLength back := by
  induction front with
  | nil => simp [byteLength]
  | cons first rest ih =>
      simp only [List.cons_append, byteLength, ih]
      omega

theorem cutAt?_append : cutAt? (front ++ back) (byteLength front) = some (front, back) := by
  induction front with
  | nil => cases back <;> rfl
  | cons first rest ih =>
      have some : first.utf8Size + byteLength rest ≠ 0 := by
        have positive := first.utf8Size_pos
        omega
      rw [List.cons_append, byteLength, cutAt?]
      · rw [if_pos (Nat.le_add_right _ _), Nat.add_sub_cancel_left, ih]
        rfl
      · exact some

theorem slice?_append :
    slice? (front ++ (middle ++ back)) (byteLength front) (byteLength (front ++ middle))
      = some middle := by
  simp [slice?, cutAt?_append]

end Treatise.Text
