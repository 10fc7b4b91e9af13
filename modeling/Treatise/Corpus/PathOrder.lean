import Treatise.Text.Decimal

/-!
# The order of paths

Paths are compared component by component. Among the components of a path, those that begin with a
number and an underscore come before all others and in the order of their numbers, so that `2_sets`
stands before `10_topology`.
-/

namespace Treatise.Corpus

open Text (decimal)

def components (path : List Char) : List (List Char) :=
  match path with
  | [] => [[]]
  | '/' :: rest => [] :: components rest
  | character :: rest =>
    match components rest with
    | [] => [[character]]
    | first :: others => (character :: first) :: others

/-- The largest number that orders a component. -/
def maxNumber : Nat := UInt64.size - 1

/-- The number that a component begins with, and what stands after the underscore. -/
def numbered? (component : List Char) : Option (Nat × List Char) :=
  let digits := component.takeWhile Char.isDigit
  match component.dropWhile Char.isDigit with
  | '_' :: rest =>
    if digits.isEmpty || decimal digits > maxNumber then none else some (decimal digits, rest)
  | _ => none

/-- Compares characters one by one; a text comes after its beginnings. -/
def compareText : List Char → List Char → Ordering
  | [], [] => .eq
  | [], _ :: _ => .lt
  | _ :: _, [] => .gt
  | first :: rest, second :: others =>
    (compare first.toNat second.toNat).then (compareText rest others)

def compareComponents (first second : List Char) : Ordering :=
  match numbered? first, numbered? second with
  | some (number, rest), some (number', rest') =>
    (compare number number').then (compareText rest rest')
  | some _, none => .lt
  | none, some _ => .gt
  | none, none => compareText first second

/-- Compares lists of components; a path comes after the paths of what it lies in. -/
def compareAll : List (List Char) → List (List Char) → Ordering
  | [], [] => .eq
  | [], _ :: _ => .lt
  | _ :: _, [] => .gt
  | first :: rest, second :: others =>
    (compareComponents first second).then (compareAll rest others)

/-- The natural order of paths. -/
def comparePaths (first second : String) : Ordering :=
  compareAll (components first.toList) (components second.toList)

/-- Whether a path may stand before another one. -/
def pathLe (first second : String) : Bool :=
  comparePaths first second != .gt

/-- Sorts values by their paths; values of one path keep their order. -/
def sortByPath {α : Type} (path : α → String) (values : List α) : List α :=
  values.mergeSort fun first second => pathLe (path first) (path second)

end Treatise.Corpus
