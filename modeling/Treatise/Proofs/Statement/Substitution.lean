import Mathlib.Data.List.Forall2
import Treatise.Proofs.Statement.Usage
import Treatise.Statement.Substitution

/-!
# What substitution replaces

An expression is a node with parts below it. Substitution puts an expression in the place of a name
that is replaced; every other node stays what it is, except that a function can get another name,
and the same is done to its parts. These two rules determine the result, and each node of the result
is a node of what was put in or of what there was before.
-/

namespace Treatise.Statement

/-- Changes what a bracket group holds. -/
def ArgGroup.mapItems (f : Expr → Expr) : ArgGroup → ArgGroup
  | mk slot items => mk slot (items.map f)

/-- Changes what stands in the brackets of an operator. -/
def Operator.mapItems (f : Expr → Expr) : Operator → Operator
  | symbol text location => symbol text location
  | command names groups location => command names (groups.map (ArgGroup.mapItems f)) location

namespace ArgGroup

theorem arguments_mapItems (f : Expr → Expr) (groups : List ArgGroup) :
    arguments (groups.map (mapItems f)) = (arguments groups).map f := by
  induction groups with
  | nil => rfl
  | cons group rest ih =>
      rcases group with ⟨slot, items⟩
      simp only [arguments, List.map_cons, List.flatMap_cons, List.map_append] at ih ⊢
      rw [ih]
      rfl

/-- Bracket groups are determined by how many items stand at each slot and by the items. -/
theorem eq_of_arguments_eq {item : Expr} {groups groups' : List ArgGroup}
    (shape : groups.map (mapItems fun _ => item) = groups'.map (mapItems fun _ => item))
    (same : arguments groups = arguments groups') : groups = groups' := by
  induction groups generalizing groups' with
  | nil => exact (List.map_eq_nil_iff.mp shape.symm).symm
  | cons group rest ih =>
      rcases groups' with _ | ⟨group', rest'⟩
      · cases shape
      rcases group with ⟨slot, items⟩
      rcases group' with ⟨slot', items'⟩
      rw [List.map_cons, List.map_cons, List.cons.injEq] at shape
      rcases shape with ⟨here, more⟩
      simp only [mapItems, mk.injEq] at here
      have long : items.length = items'.length := by
        simpa using congrArg List.length here.2
      rcases List.append_inj same long with ⟨sameItems, sameRest⟩
      rw [here.1, show items = items' from sameItems, ih more sameRest]

end ArgGroup

namespace Expr

/-- The name of the function that an expression applies. -/
def applied? : Expr → Option String
  | function word _ _ | call false word _ _ => some word
  | _ => none

/-- The name that an expression is. -/
def name? : Expr → Option String
  | name word _ => some word
  | _ => none

/-- Changes the parts of an expression and the name of the function that it applies. -/
def mapNode (rename : String → String) (f : Expr → Expr) : Expr → Expr
  | name word location => name word location
  | variadic word location => variadic word location
  | command names groups location => command names (groups.map (ArgGroup.mapItems f)) location
  | function word params location => function (rename word) (params.map f) location
  | call isCommand word groups location =>
    call isCommand (if isCommand then word else rename word) (groups.map (ArgGroup.mapItems f))
      location
  | tuple items location => tuple (items.map f) location
  | set items location => set (items.map f) location
  | grouped inner location => grouped (f inner) location
  | operation operator left right location =>
    operation (operator.mapItems f) (f left) (f right) location
  | prefixed operator operand location => prefixed (operator.mapItems f) (f operand) location
  | relation kind left right location => relation kind (left.map f) (right.map f) location
  | assignment left right location => assignment (f left) (f right) location
  | text content location => text content location
  | empty location => empty location

/-- A node by itself: with nothing in the places of its parts and of the name of a function. -/
def bare (expr : Expr) : Expr :=
  expr.mapNode (fun _ => "") fun _ => .empty .start

section Nodes

variable (rename : String → String) (f : Expr → Expr)

theorem arguments_mapItems (operator : Operator) :
    (operator.mapItems f).arguments = operator.arguments.map f := by
  cases operator with
  | symbol => rfl
  | command names groups location => exact ArgGroup.arguments_mapItems f groups

theorem parts_mapNode (expr : Expr) : (expr.mapNode rename f).parts = expr.parts.map f := by
  cases expr with
  | command | call => exact ArgGroup.arguments_mapItems f _
  | operation | prefixed => simp [mapNode, parts, children, arguments_mapItems]
  | _ => simp [mapNode, parts, children]

theorem applied?_mapNode (expr : Expr) :
    (expr.mapNode rename f).applied? = expr.applied?.map rename := by
  cases expr with
  | call isCommand => cases isCommand <;> rfl
  | _ => rfl

theorem bare_mapNode (expr : Expr) : (expr.mapNode rename f).bare = expr.bare := by
  have blank : ∀ items : List Expr,
      (items.map f).map (fun _ => Expr.empty .start) = items.map fun _ => .empty .start := by
    intro items
    rw [List.map_map]
    rfl
  have groups : ∀ groups : List ArgGroup,
      (groups.map (ArgGroup.mapItems f)).map (ArgGroup.mapItems fun _ => .empty .start)
        = groups.map (ArgGroup.mapItems fun _ => .empty .start) := by
    intro groups
    rw [List.map_map]
    apply List.map_congr_left
    rintro ⟨slot, items⟩ -
    exact congrArg (ArgGroup.mk slot) (blank items)
  have operator : ∀ operator : Operator,
      (operator.mapItems f).mapItems (fun _ => .empty .start)
        = operator.mapItems fun _ => .empty .start := by
    intro operator
    cases operator with
    | symbol => rfl
    | command names bracketed location =>
        exact congrArg (Operator.command names · location) (groups bracketed)
  cases expr with
  | call isCommand => cases isCommand <;> simp [bare, mapNode, groups]
  | _ => simp [bare, mapNode, blank, groups, operator]

end Nodes

theorem operator_eq_of_arguments_eq {item : Expr} {operator operator' : Operator}
    (shape : operator.mapItems (fun _ => item) = operator'.mapItems fun _ => item)
    (same : operator.arguments = operator'.arguments) : operator = operator' := by
  cases operator with
  | symbol => cases operator' <;> simp_all [Operator.mapItems]
  | command names groups location =>
      cases operator' with
      | symbol => cases shape
      | command names' groups' location' =>
          simp only [Operator.mapItems, Operator.command.injEq] at shape
          rw [shape.1, shape.2.2, ArgGroup.eq_of_arguments_eq shape.2.1 same]

theorem length_arguments_eq {item : Expr} {operator operator' : Operator}
    (shape : operator.mapItems (fun _ => item) = operator'.mapItems fun _ => item) :
    operator.arguments.length = operator'.arguments.length := by
  have same := congrArg (fun found => found.arguments.length) shape
  simpa [arguments_mapItems] using same

/-- An expression is determined by its node, by the name of its function and by its parts. -/
theorem eq_of_parts_eq {expr expr' : Expr} (shape : expr.bare = expr'.bare)
    (named : expr.applied? = expr'.applied?) (same : expr.parts = expr'.parts) : expr = expr' := by
  cases expr with
  | command names groups location =>
      cases expr' with
      | command =>
          simp only [bare, mapNode, command.injEq] at shape
          rw [shape.1, shape.2.2, ArgGroup.eq_of_arguments_eq shape.2.1 same]
      | _ => cases shape
  | call isCommand word groups location =>
      cases expr' with
      | call isCommand' word' groups' location' =>
          simp only [bare, mapNode, call.injEq] at shape
          rcases shape with ⟨rfl, sameWord, sameShape, rfl⟩
          rw [ArgGroup.eq_of_arguments_eq sameShape same]
          cases isCommand with
          | true => rw [show word = word' from sameWord]
          | false => rw [show word = word' from Option.some.inj named]
      | _ => cases shape
  | operation operator left right location =>
      cases expr' with
      | operation =>
          simp only [bare, mapNode, operation.injEq] at shape
          rcases List.append_inj same (length_arguments_eq shape.1) with ⟨inOperator, operands⟩
          simp only [List.cons.injEq, and_true] at operands
          rw [operator_eq_of_arguments_eq shape.1 inOperator, operands.1, operands.2, shape.2.2.2]
      | _ => cases shape
  | prefixed operator operand location =>
      cases expr' with
      | prefixed =>
          simp only [bare, mapNode, prefixed.injEq] at shape
          rcases List.append_inj same (length_arguments_eq shape.1) with ⟨inOperator, operands⟩
          simp only [List.cons.injEq, and_true] at operands
          rw [operator_eq_of_arguments_eq shape.1 inOperator, operands, shape.2.2]
      | _ => cases shape
  | relation kind left right location =>
      cases expr' with
      | relation kind' left' right' location' =>
          simp only [bare, mapNode, relation.injEq] at shape
          have long : left.length = left'.length := by
            simpa using congrArg List.length shape.2.1
          rcases List.append_inj same long with ⟨rfl, rfl⟩
          rw [shape.1, shape.2.2.2]
      | _ => cases shape
  | function word params location =>
      cases expr' with
      | function =>
          simp only [bare, mapNode, function.injEq] at shape
          obtain rfl : params = _ := same
          rw [Option.some.inj named, shape.2.2]
      | _ => cases shape
  | tuple items location =>
      cases expr' with
      | tuple =>
          obtain rfl : items = _ := same
          simpa [bare, mapNode] using shape
      | _ => cases shape
  | set items location =>
      cases expr' with
      | set =>
          obtain rfl : items = _ := same
          simpa [bare, mapNode] using shape
      | _ => cases shape
  | grouped inner location =>
      cases expr' with
      | grouped =>
          obtain rfl : inner = _ := (List.cons.inj same).1
          simpa [bare, mapNode] using shape
      | _ => cases shape
  | assignment left right location =>
      cases expr' with
      | assignment =>
          simp only [parts, children, List.cons.injEq, and_true] at same
          simp only [bare, mapNode, assignment.injEq] at shape
          rw [same.1, same.2, shape.2.2]
      | _ => cases shape
  | name | variadic | text | empty =>
      cases expr' with
      | name | variadic | text | empty => exact shape
      | _ => cases shape

/-! ## Substitution -/

theorem substituteAll_eq_map (replacement : Replacement) (items : List Expr) :
    substituteAll replacement items = items.map (substitute replacement) := by
  induction items with
  | nil => rfl
  | cons item rest ih => rw [substituteAll, ih, List.map_cons]

theorem substituteGroups_eq_map (replacement : Replacement) (groups : List ArgGroup) :
    substituteGroups replacement groups
      = groups.map (ArgGroup.mapItems (substitute replacement)) := by
  induction groups with
  | nil => rfl
  | cons group rest ih =>
      rcases group with ⟨slot, items⟩
      rw [substituteGroups, ih, substituteAll_eq_map, List.map_cons, ArgGroup.mapItems]

theorem substituteOperator_eq (replacement : Replacement) (operator : Operator) :
    substituteOperator replacement operator = operator.mapItems (substitute replacement) := by
  cases operator with
  | symbol => rfl
  | command => rw [substituteOperator, substituteGroups_eq_map, Operator.mapItems]

/-- Whether an expression is a name that is replaced. -/
def IsReplaced (replacement : Replacement) (expr other : Expr) : Prop :=
  ∃ word, expr.name? = some word ∧ replacement.find? word = some other

theorem substitute_of_replaced {replacement : Replacement} {expr other : Expr}
    (replaced : IsReplaced replacement expr other) : expr.substitute replacement = other := by
  rcases replaced with ⟨word, named, found⟩
  cases expr with
  | name =>
      cases named
      rw [substitute, found, Option.getD_some]
  | _ => cases named

/-- A node that is not replaced stays, and its parts are gone through. -/
theorem substitute_of_kept {replacement : Replacement} {expr : Expr}
    (kept : ∀ other, ¬ IsReplaced replacement expr other) :
    expr.substitute replacement
      = expr.mapNode replacement.rename (substitute replacement) := by
  cases expr with
  | name word location =>
      have absent : replacement.find? word = none := by
        apply Option.eq_none_iff_forall_ne_some.mpr
        intro other found
        exact kept other ⟨word, rfl, found⟩
      rw [substitute, absent]
      rfl
  | _ =>
      simp [substitute, mapNode, substituteAll_eq_map, substituteGroups_eq_map,
        substituteOperator_eq]

/-! ## What the result is -/

/-- What becomes of the name of a function: another name if it stands for one, and itself
otherwise. -/
def Renamed (stands : String → Expr → Prop) (word word' : String) : Prop :=
  (∃ location, stands word (.name word' location))
    ∨ word' = word ∧ ∀ other location, ¬ stands word (.name other location)

/-- One expression is another one with names replaced. A name that stands for an expression is
replaced by it. Every other node is kept, up to the name of a function, and the names in its parts
are replaced. -/
inductive Replaced (stands : String → Expr → Prop) : Expr → Expr → Prop
  | name {word : String} {location : Location} {expr : Expr} (stand : stands word expr) :
      Replaced stands (.name word location) expr
  | node {expr expr' : Expr} (kept : ∀ word, expr.name? = some word → ∀ other, ¬ stands word other)
      (shape : expr'.bare = expr.bare)
      (named : Option.Rel (Renamed stands) expr.applied? expr'.applied?)
      (below : List.Forall₂ (Replaced stands) expr.parts expr'.parts) : Replaced stands expr expr'

/-- A replacement replaces names by what they stand for. -/
def Gives (replacement : Replacement) (stands : String → Expr → Prop) : Prop :=
  ∀ word expr, replacement.find? word = some expr ↔ stands word expr

section Result

variable {replacement : Replacement} {stands : String → Expr → Prop}

theorem Gives.isReplaced_iff (gives : Gives replacement stands) {expr other : Expr} :
    IsReplaced replacement expr other ↔ ∃ word, expr.name? = some word ∧ stands word other := by
  apply exists_congr
  intro word
  exact and_congr_right fun _ => gives word other

theorem Gives.renamed_iff (gives : Gives replacement stands) {word word' : String} :
    Renamed stands word word' ↔ word' = replacement.rename word := by
  have named : ∀ other location, stands word (.name other location)
      ↔ replacement.find? word = some (.name other location) :=
    fun other location => (gives word _).symm
  simp only [Renamed, named, Replacement.rename]
  split
  · next renamed location found => simp [found, eq_comm]
  · next unnamed =>
    have absent : ∀ other location, replacement.find? word ≠ some (.name other location) :=
      fun other location => unnamed other location
    simp [absent]

theorem Gives.applied?_rel_iff (gives : Gives replacement stands) {found found' : Option String} :
    Option.Rel (Renamed stands) found found' ↔ found' = found.map replacement.rename := by
  constructor
  · intro related
    cases related with
    | some renamed => rw [gives.renamed_iff.mp renamed, Option.map_some]
    | none => rfl
  · rintro rfl
    cases found with
    | none => exact .none
    | some word => exact .some (gives.renamed_iff.mpr rfl)

theorem eq_map_of_forall₂ {f : Expr → Expr} {items items' : List Expr}
    (related : List.Forall₂ (Replaced stands) items items')
    (determined : ∀ item ∈ items, ∀ item', Replaced stands item item' → item' = f item) :
    items' = items.map f := by
  induction related with
  | nil => rfl
  | cons here _ ih =>
      rw [List.forall_mem_cons] at determined
      rw [List.map_cons, determined.1 _ here, ih determined.2]

/-- Substitution is what the two rules of replacing determine. -/
theorem Gives.replaced_iff (gives : Gives replacement stands) {expr expr' : Expr} :
    Replaced stands expr expr' ↔ expr' = expr.substitute replacement := by
  -- By recursion on the expression.
  have below : ∀ part ∈ expr.parts, ∀ part',
      Replaced stands part part' ↔ part' = part.substitute replacement := by
    intro part member part'
    have := sizeOf_lt_of_mem_parts member
    exact gives.replaced_iff
  constructor
  · intro replaced
    cases replaced with
    | name stand =>
        exact (substitute_of_replaced (gives.isReplaced_iff.mpr ⟨_, rfl, stand⟩)).symm
    | node kept shape named parts =>
        have stays : ∀ other, ¬ IsReplaced replacement expr other := by
          intro other replaced
          rcases gives.isReplaced_iff.mp replaced with ⟨word, isName, stand⟩
          exact kept word isName other stand
        rw [substitute_of_kept stays]
        apply eq_of_parts_eq
        · rw [shape, bare_mapNode]
        · rw [applied?_mapNode]
          exact gives.applied?_rel_iff.mp named
        · rw [parts_mapNode]
          exact eq_map_of_forall₂ parts fun part member part' => (below part member part').mp
  · rintro rfl
    by_cases replaced : ∃ other, IsReplaced replacement expr other
    · rcases replaced with ⟨other, replaced⟩
      rw [substitute_of_replaced replaced]
      rcases gives.isReplaced_iff.mp replaced with ⟨word, isName, stand⟩
      cases expr with
      | name =>
          cases isName
          exact .name stand
      | _ => cases isName
    · rw [not_exists] at replaced
      rw [substitute_of_kept replaced]
      apply Replaced.node
      · intro word isName other stand
        exact replaced other (gives.isReplaced_iff.mpr ⟨word, isName, stand⟩)
      · exact bare_mapNode _ _ expr
      · exact gives.applied?_rel_iff.mpr (applied?_mapNode _ _ expr)
      · rw [parts_mapNode, List.forall₂_map_right_iff, List.forall₂_same]
        intro part member
        exact (below part member _).mpr rfl
termination_by sizeOf expr

/-- Each node of the result lies in what was put in, or it is a node that was kept. -/
theorem within_substitute {node expr : Expr}
    (within : Within parts node (expr.substitute replacement)) :
    (∃ word other, replacement.find? word = some other ∧ Within parts node other)
      ∨ ∃ kept, Within parts kept expr ∧ (∀ other, ¬ IsReplaced replacement kept other)
        ∧ node = kept.substitute replacement := by
  -- A part that lies below `expr` is replaced or kept.
  have here : ∀ part, Within parts part expr →
      (∃ word other, replacement.find? word = some other
          ∧ Within parts (part.substitute replacement) other)
        ∨ ∃ kept, Within parts kept expr ∧ (∀ other, ¬ IsReplaced replacement kept other)
          ∧ part.substitute replacement = kept.substitute replacement := by
    intro part inside
    by_cases replaced : ∃ other, IsReplaced replacement part other
    · rcases replaced with ⟨other, word, isName, found⟩
      rw [substitute_of_replaced ⟨word, isName, found⟩]
      exact .inl ⟨word, other, found, .refl⟩
    · exact .inr ⟨part, inside, not_exists.mp replaced, rfl⟩
  induction within with
  | refl => exact here expr .refl
  | @tail above node _ member ih =>
      rcases ih with ⟨word, other, found, inside⟩ | ⟨kept, inside, stays, rfl⟩
      · exact .inl ⟨word, other, found, inside.tail member⟩
      · rw [substitute_of_kept stays, parts_mapNode] at member
        rcases List.mem_map.mp member with ⟨part, partMem, rfl⟩
        exact here part (inside.tail partMem)

end Result

end Expr

end Treatise.Statement
