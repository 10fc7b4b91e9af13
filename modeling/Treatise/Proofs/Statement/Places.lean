import Treatise.Proofs.Statement.Written

/-!
# Expressions up to their places

How operators and operands are put together does not depend on the places at which they stand. Two
expressions are compared up to their places by forgetting these.
-/

namespace Treatise.Statement

/-- Forgets a place. -/
def forget (_ : Location) : Location :=
  .nowhere

variable (f : Location → Location)

theorem mapLocationsOf_eq_map (items : List Expr) :
    Expr.mapLocationsOf f items = items.map (Expr.mapLocations f) := by
  induction items with
  | nil => rfl
  | cons item rest ih => rw [Expr.mapLocationsOf, ih, List.map_cons]

@[simp]
theorem mapGroupLocations_append (groups others : List ArgGroup) :
    Expr.mapGroupLocations f (groups ++ others)
      = Expr.mapGroupLocations f groups ++ Expr.mapGroupLocations f others := by
  induction groups with
  | nil => rfl
  | cons group rest ih =>
      rcases group with ⟨slot, items⟩
      simp [Expr.mapGroupLocations, ih]

mutual

theorem flat_mapLocations : ∀ expr : Expr, (expr.mapLocations f).flat = expr.flat
  | .relation _ left right _ => by
      rw [Expr.mapLocations, Expr.flat, Expr.flat, flatSingle_mapLocations left,
        flatSingle_mapLocations right]
  | .assignment left right _ => by
      rw [Expr.mapLocations, Expr.flat, Expr.flat, flat_mapLocations left, flat_mapLocations right]
  | .name _ _ | .variadic _ _ | .command _ _ _ | .function _ _ _ | .call _ _ _ _ | .tuple _ _
  | .set _ _
  | .grouped _ _ | .operation _ _ _ _ | .prefixed _ _ _ | .text _ _ | .empty _ => rfl

theorem flatSingle_mapLocations : ∀ items : List Expr,
    flatSingle (Expr.mapLocationsOf f items) = flatSingle items
  | [] => rfl
  | [item] => by
      rw [Expr.mapLocationsOf, Expr.mapLocationsOf, flatSingle_singleton, flatSingle_singleton,
        flat_mapLocations item]
  | _ :: _ :: _ => rfl

end

theorem filterMap_name?_mapGroupLocations (groups : List ArgGroup) :
    (Expr.mapGroupLocations f groups).filterMap (fun group => group.slot.name?.map (":" ++ ·))
      = groups.filterMap fun group => group.slot.name?.map (":" ++ ·) := by
  induction groups with
  | nil => rfl
  | cons group rest ih =>
      rcases group with ⟨slot, items⟩
      rw [Expr.mapGroupLocations, List.filterMap_cons, List.filterMap_cons, ih]
      rfl

theorem precedence_mapLocations (operator : Operator) :
    (Expr.mapOperatorLocations f operator).precedence = operator.precedence := by
  cases operator with
  | symbol => rfl
  | command names groups location =>
      simp only [Expr.mapOperatorLocations, Operator.precedence, Operator.signature,
        commandSignature, filterMap_name?_mapGroupLocations]

theorem attach_mapLocations (tree : Expr) (operator : Operator) (operand : Expr) :
    (tree.attach operator operand).mapLocations f
      = (tree.mapLocations f).attach (Expr.mapOperatorLocations f operator)
        (operand.mapLocations f) := by
  fun_induction Expr.attach tree operator operand with
  | case1 outer left right location looser ih =>
      simp only [Expr.mapLocations, Expr.attach, precedence_mapLocations, looser, if_true, ih]
  | case2 outer left right location tighter =>
      simp only [Expr.mapLocations, Expr.attach, precedence_mapLocations, tighter, if_false]
  | case3 tree other =>
      cases tree with
      | operation => exact absurd rfl (other _ _ _ _)
      | _ => rfl

theorem prefixedBy_mapLocations (operators : List Operator) (operand : Expr) :
    (prefixedBy operators operand).mapLocations f
      = prefixedBy (operators.map (Expr.mapOperatorLocations f)) (operand.mapLocations f) := by
  induction operators with
  | nil => rfl
  | cons operator rest ih =>
      rw [prefixedBy, List.foldr_cons, List.map_cons, prefixedBy, List.foldr_cons,
        Expr.mapLocations]
      rw [prefixedBy, prefixedBy] at ih
      rw [ih]
      cases operator <;> rfl

theorem applied_mapLocations (word : String) (params : List Expr) (location : Location) :
    (applied word params location).mapLocations f
      = applied word (Expr.mapLocationsOf f params) (f location) := by
  unfold applied
  dsimp only
  rw [mapLocationsOf_eq_map, List.all_map, apply_ite (Expr.mapLocations f)]
  refine if_congr (Eq.congr_left (congrArg params.all (funext fun param => ?_))) ?_ ?_
  · cases param <;> rfl
  · rw [Expr.mapLocations, mapLocationsOf_eq_map]
  · rw [Expr.mapLocations, Expr.mapGroupLocations, Expr.mapGroupLocations, mapLocationsOf_eq_map]

theorem commandExpr_mapLocations (names : List String) (groups : List ArgGroup)
    (location : Location) : (commandExpr names groups location).mapLocations f
      = commandExpr names (Expr.mapGroupLocations f groups) (f location) := by
  rcases names with _ | ⟨_, _ | _⟩
  · rfl
  · rcases groups with _ | ⟨⟨⟨⟩, _⟩, _ | ⟨⟨_, _⟩, _⟩⟩
    all_goals rfl
  · rfl

/-- Changes every place in an operator or an operand. -/
def Factor.mapLocations : Factor → Factor
  | .operand expr => .operand (expr.mapLocations f)
  | .operator symbol => .operator (Expr.mapOperatorLocations f symbol)

/-- Operators and operands that differ only in their places are put together to trees that do so. -/
theorem readFactors_alike {location : Location} {tree tree' : Option Expr}
    {pending pending' : List Operator} {found found' : List Factor} {expr : Expr}
    (sameTree : tree'.map (Expr.mapLocations f) = tree.map (Expr.mapLocations f))
    (samePending : pending'.map (Expr.mapOperatorLocations f)
      = pending.map (Expr.mapOperatorLocations f))
    (same : found'.map (Factor.mapLocations f) = found.map (Factor.mapLocations f))
    (clean : readFactors location tree pending found = ⟨expr, []⟩) :
    ∃ expr', readFactors location tree' pending' found' = ⟨expr', []⟩
      ∧ expr'.mapLocations f = expr.mapLocations f := by
  fun_induction readFactors location tree pending found generalizing tree' pending' found' with
  | case1 tree pending operator rest ih =>
      rcases List.map_eq_cons_iff.mp same with ⟨_ | operator', rest', rfl, here, others⟩
      · cases here
      rw [Factor.mapLocations, Factor.mapLocations, Factor.operator.injEq] at here
      rw [readFactors]
      exact ih sameTree (by simp [samePending, here]) others clean
  | case2 => exact absurd clean Review.report_bind_ne_clean
  | case3 operand rest tree operator operators ih =>
      rcases List.map_eq_cons_iff.mp same with ⟨operand' | _, rest', rfl, here, others⟩
      swap
      · cases here
      rw [Factor.mapLocations, Factor.mapLocations, Factor.operand.injEq] at here
      rcases Option.map_eq_some_iff.mp sameTree with ⟨tree', rfl, sameLeft⟩
      rcases List.map_eq_cons_iff.mp samePending with
        ⟨operator', operators', rfl, sameOperator, sameOperators⟩
      rw [readFactors]
      refine ih ?_ rfl others clean
      simp only [Option.map_some, attach_mapLocations, prefixedBy_mapLocations, sameLeft,
        sameOperator, sameOperators, here]
  | case4 operand rest operators ih =>
      rcases List.map_eq_cons_iff.mp same with ⟨operand' | _, rest', rfl, here, others⟩
      swap
      · cases here
      rw [Factor.mapLocations, Factor.mapLocations, Factor.operand.injEq] at here
      obtain rfl := Option.map_eq_none_iff.mp sameTree
      rw [readFactors]
      refine ih ?_ rfl others clean
      simp only [Option.map_some, prefixedBy_mapLocations, samePending, here]
  | case5 tree =>
      obtain rfl := List.map_eq_nil_iff.mp same
      obtain rfl := List.map_eq_nil_iff.mp samePending
      rcases Option.map_eq_some_iff.mp sameTree with ⟨tree', rfl, sameTree'⟩
      cases Review.pure_eq_clean_iff.mp clean
      exact ⟨tree', rfl, sameTree'⟩
  | case6 | case7 => exact absurd clean missing_bind_ne_clean

end Treatise.Statement
