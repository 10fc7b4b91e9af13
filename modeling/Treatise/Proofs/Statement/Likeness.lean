import Treatise.Statement.Expr

/-!
# Expressions that are alike

Two expressions are alike if they are built in the same way from the same words, wherever they
stand. Putting one place everywhere in both tells whether they are: the results are then equal, and
the test for equality finds exactly what is equal.
-/

namespace Treatise.Statement

/-! ## The test for equality -/

mutual

theorem Expr.same_iff (first second : Expr) : first.same second = true ↔ first = second := by
  match first with
  | .name _ _ | .variadic _ _ | .text _ _ | .empty _ => cases second <;> simp [Expr.same]
  | .command _ groups _ | .call _ _ groups _ =>
    cases second <;> simp [Expr.same, sameGroups_iff groups, and_assoc]
  | .function _ items _ | .tuple items _ | .set items _ =>
    cases second <;> simp [Expr.same, sameAll_iff items, and_assoc]
  | .grouped inner _ => cases second <;> simp [Expr.same, inner.same_iff]
  | .operation operator left right _ =>
    cases second <;> simp [Expr.same, operator.same_iff, left.same_iff, right.same_iff, and_assoc]
  | .prefixed operator operand _ =>
    cases second <;> simp [Expr.same, operator.same_iff, operand.same_iff, and_assoc]
  | .relation _ left right _ =>
    cases second <;> simp [Expr.same, sameAll_iff left, sameAll_iff right, and_assoc]
  | .assignment left right _ =>
    cases second <;> simp [Expr.same, left.same_iff, right.same_iff, and_assoc]
termination_by structural first

theorem Operator.same_iff (first second : Operator) :
    Expr.sameOperator first second = true ↔ first = second := by
  match first with
  | .symbol _ _ => cases second <;> simp [Expr.sameOperator]
  | .command _ groups _ =>
    cases second <;> simp [Expr.sameOperator, sameGroups_iff groups, and_assoc]
termination_by structural first

theorem sameGroups_iff (first second : List ArgGroup) :
    Expr.sameGroups first second = true ↔ first = second := by
  match first with
  | [] => cases second <;> simp [Expr.sameGroups]
  | .mk _ items :: rest =>
    rcases second with _ | ⟨⟨_, _⟩, _⟩ <;>
      simp [Expr.sameGroups, sameAll_iff items, sameGroups_iff rest, and_assoc]
termination_by structural first

theorem sameAll_iff (first second : List Expr) :
    Expr.sameAll first second = true ↔ first = second := by
  match first with
  | [] => cases second <;> simp [Expr.sameAll]
  | item :: rest => cases second <;> simp [Expr.sameAll, item.same_iff, sameAll_iff rest]
termination_by structural first

end

instance : LawfulBEq Expr where
  eq_of_beq same := (Expr.same_iff _ _).mp same
  rfl := (Expr.same_iff _ _).mpr rfl

/-! ## Likeness -/

mutual

/-- The expressions differ in nothing but the places they carry. -/
def Expr.Alike : Expr → Expr → Prop
  | .name word _, .name word' _ => word = word'
  | .variadic word _, .variadic word' _ => word = word'
  | .command names groups _, .command names' groups' _ =>
      names = names' ∧ GroupsAlike groups groups'
  | .function word params _, .function word' params' _ => word = word' ∧ AllAlike params params'
  | .call isCommand word groups _, .call isCommand' word' groups' _ =>
    isCommand = isCommand' ∧ word = word' ∧ GroupsAlike groups groups'
  | .tuple items _, .tuple items' _ => AllAlike items items'
  | .set items _, .set items' _ => AllAlike items items'
  | .grouped inner _, .grouped inner' _ => inner.Alike inner'
  | .operation operator left right _, .operation operator' left' right' _ =>
    operator.Alike operator' ∧ left.Alike left' ∧ right.Alike right'
  | .prefixed operator operand _, .prefixed operator' operand' _ =>
    operator.Alike operator' ∧ operand.Alike operand'
  | .relation kind left right _, .relation kind' left' right' _ =>
    kind = kind' ∧ AllAlike left left' ∧ AllAlike right right'
  | .assignment left right _, .assignment left' right' _ => left.Alike left' ∧ right.Alike right'
  | .text content _, .text content' _ => content = content'
  | .empty _, .empty _ => True
  | _, _ => False
termination_by structural first => first

def Operator.Alike : Operator → Operator → Prop
  | .symbol symbol _, .symbol symbol' _ => symbol = symbol'
  | .command names groups _, .command names' groups' _ =>
      names = names' ∧ GroupsAlike groups groups'
  | _, _ => False
termination_by structural first => first

/-- The bracket groups are alike one by one. -/
def GroupsAlike : List ArgGroup → List ArgGroup → Prop
  | [], [] => True
  | .mk slot items :: rest, .mk slot' items' :: rest' =>
    slot = slot' ∧ AllAlike items items' ∧ GroupsAlike rest rest'
  | _, _ => False
termination_by structural first => first

/-- The expressions are alike one by one. -/
def AllAlike : List Expr → List Expr → Prop
  | [], [] => True
  | item :: rest, item' :: rest' => item.Alike item' ∧ AllAlike rest rest'
  | _, _ => False
termination_by structural first => first

end

section Erasing

open Treatise.Statement.Expr

variable (place : Location)

mutual

theorem Expr.mapLocations_eq_iff (first second : Expr) :
    first.mapLocations (fun _ => place) = second.mapLocations (fun _ => place)
      ↔ first.Alike second := by
  match first with
  | .name _ _ | .variadic _ _ | .text _ _ | .empty _ => cases second <;> simp [mapLocations, Alike]
  | .command _ groups _ | .call _ _ groups _ =>
    cases second <;> simp [mapLocations, Alike, mapGroupLocations_eq_iff groups]
  | .function _ items _ | .tuple items _ | .set items _ =>
    cases second <;> simp [mapLocations, Alike, mapLocationsOf_eq_iff items]
  | .grouped inner _ => cases second <;> simp [mapLocations, Alike, inner.mapLocations_eq_iff]
  | .operation operator left right _ =>
    cases second <;> simp [mapLocations, Alike, operator.mapLocations_eq_iff,
      left.mapLocations_eq_iff, right.mapLocations_eq_iff]
  | .prefixed operator operand _ =>
    cases second <;>
      simp [mapLocations, Alike, operator.mapLocations_eq_iff, operand.mapLocations_eq_iff]
  | .relation _ left right _ =>
    cases second <;>
      simp [mapLocations, Alike, mapLocationsOf_eq_iff left, mapLocationsOf_eq_iff right]
  | .assignment left right _ =>
    cases second <;>
      simp [mapLocations, Alike, left.mapLocations_eq_iff, right.mapLocations_eq_iff]
termination_by structural first

theorem Operator.mapLocations_eq_iff (first second : Operator) :
    mapOperatorLocations (fun _ => place) first = mapOperatorLocations (fun _ => place) second
      ↔ first.Alike second := by
  match first with
  | .symbol _ _ => cases second <;> simp [mapOperatorLocations, Operator.Alike]
  | .command _ groups _ =>
    cases second <;> simp [mapOperatorLocations, Operator.Alike, mapGroupLocations_eq_iff groups]
termination_by structural first

theorem mapGroupLocations_eq_iff (first second : List ArgGroup) :
    mapGroupLocations (fun _ => place) first = mapGroupLocations (fun _ => place) second
      ↔ GroupsAlike first second := by
  match first with
  | [] => rcases second with _ | ⟨⟨_, _⟩, _⟩ <;> simp [mapGroupLocations, GroupsAlike]
  | .mk _ items :: rest =>
    rcases second with _ | ⟨⟨_, _⟩, _⟩ <;>
      simp [mapGroupLocations, GroupsAlike, mapLocationsOf_eq_iff items,
        mapGroupLocations_eq_iff rest, and_assoc]
termination_by structural first

theorem mapLocationsOf_eq_iff (first second : List Expr) :
    mapLocationsOf (fun _ => place) first = mapLocationsOf (fun _ => place) second
      ↔ AllAlike first second := by
  match first with
  | [] => cases second <;> simp [mapLocationsOf, AllAlike]
  | item :: rest =>
    cases second <;>
      simp [mapLocationsOf, AllAlike, item.mapLocations_eq_iff, mapLocationsOf_eq_iff rest]
termination_by structural first

end

end Erasing

end Treatise.Statement
