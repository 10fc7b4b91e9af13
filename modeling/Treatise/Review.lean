import Treatise.Location

/-!
# Reviews

Reading never stops at a problem: each step yields a value and the problems it met on the way. A
`Review` is such a pair, and reviews are put together in the order in which the steps are taken.
-/

namespace Treatise

/-- A value and the problems that were met while it was made, in the order they were met. -/
structure Review (Problem α : Type) where
  value : α
  problems : List (Located Problem)
  deriving Repr

namespace Review

variable {Problem α β : Type}

/-- A value that was made without a problem. -/
protected def pure (value : α) : Review Problem α := ⟨value, []⟩

/-- One step after another: the problems of the first come first. -/
protected def bind (first : Review Problem α) (next : α → Review Problem β) : Review Problem β :=
  let second := next first.value
  ⟨second.value, first.problems ++ second.problems⟩

instance : Monad (Review Problem) where
  pure := Review.pure
  bind := Review.bind

def report (location : Location) (problem : Problem) : Review Problem Unit :=
  ⟨(), [⟨location, problem⟩]⟩

/-- Reports a problem unless a condition holds. -/
def require (condition : Bool) (location : Location) (problem : Problem) : Review Problem Unit :=
  if condition then pure () else report location problem

end Review

/-- Sorts located values by their places; values of one place keep their order. -/
def Located.sort {α : Type} (found : List (Located α)) : List (Located α) :=
  found.mergeSort fun first second => first.location.le second.location

end Treatise
