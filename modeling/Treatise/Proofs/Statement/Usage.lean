import Mathlib.Logic.Relation
import Treatise.Statement.Usage

/-!
# Where signatures are used

A statement uses signatures in all of its parts but the left sides of `=` and of `:=`. The search
for uses goes down from each expression to its parts, one after the other. It leaves out one part
more: the brackets of an operator that stands before its operand.

Main statements: what the search finds are the references of all nodes that it comes to, and it
comes to all nodes that use signatures where no operator before its operand holds anything in
brackets.
-/

namespace Treatise.Statement

namespace Expr

/-- The parts of an expression, with what stands in the brackets of its operator. -/
def parts : Expr → List Expr
  | prefixed operator operand _ => operator.arguments ++ [operand]
  | expr => expr.children

/-- The parts of an expression that use signatures: what stands left of `=` and of `:=` does not. -/
def usedParts : Expr → List Expr
  | prefixed operator operand _ => operator.arguments ++ [operand]
  | relation .equal _ right _ => right
  | assignment _ right _ => [right]
  | expr => expr.children

/-- The parts that are searched. The brackets of an operator before its operand are not. -/
def searchedParts : Expr → List Expr
  | prefixed _ operand _ => [operand]
  | expr => expr.usedParts

/-- What an expression itself refers to, whatever its parts refer to. -/
inductive Refers : Expr → String → Prop
  | command {names groups location} :
    Refers (command names groups location) (commandSignature names groups)
  | call {word groups location} : Refers (call true word groups location) ("\\" ++ word)
  | operation {operator left right location} :
    Refers (operation operator left right location) operator.signature
  | prefixed {operator operand location} :
    Refers (prefixed operator operand location) operator.signature

theorem use?_eq_some_iff {expr : Expr} {use : Use} :
    expr.use? = some use ↔ expr.Refers use.value ∧ use.location = expr.location := by
  rcases use with ⟨place, signature⟩
  constructor
  · intro found
    cases expr with
    | command names groups location =>
        cases found
        exact ⟨.command, rfl⟩
    | call isCommand word groups location =>
        cases isCommand with
        | false => cases found
        | true =>
            cases found
            exact ⟨.call, rfl⟩
    | operation operator left right location =>
        cases found
        exact ⟨.operation, rfl⟩
    | prefixed operator operand location =>
        cases found
        exact ⟨.prefixed, rfl⟩
    | _ => cases found
  · rintro ⟨refers, rfl⟩
    cases refers <;> rfl

theorem refers_of_soleCommand {expr : Expr} {signature : String}
    (sole : expr.soleCommand? = some signature) : expr.Refers signature := by
  cases expr with
  | command names groups location =>
      cases sole
      exact .command
  | call isCommand word groups location =>
      cases isCommand with
      | false => cases sole
      | true =>
          cases sole
          exact .call
  | _ => cases sole

/-! ## Parts -/

/-- An expression is within another one if steps to parts lead down to it. -/
def Within (parts : Expr → List Expr) (node expr : Expr) : Prop :=
  Relation.ReflTransGen (fun whole part => part ∈ parts whole) expr node

theorem within_iff {parts : Expr → List Expr} {node expr : Expr} :
    Within parts node expr ↔ node = expr ∨ ∃ part ∈ parts expr, Within parts node part :=
  Relation.ReflTransGen.cases_head_iff.trans (by rw [eq_comm]; rfl)

theorem searchedParts_subset_usedParts (expr : Expr) : expr.searchedParts ⊆ expr.usedParts := by
  cases expr <;> simp [searchedParts, usedParts]

theorem Within.used {node expr : Expr} (within : Within searchedParts node expr) :
    Within usedParts node expr :=
  within.lift id fun whole _ member => searchedParts_subset_usedParts whole member

/-- No operator that stands before its operand holds anything in brackets. -/
def PrefixesBare (expr : Expr) : Prop :=
  ∀ operator operand location, Within usedParts (.prefixed operator operand location) expr →
    operator.arguments = []

/-- Nothing is left out of the search where such operators hold nothing in brackets. -/
theorem PrefixesBare.searched_iff {node expr : Expr} (bare : expr.PrefixesBare) :
    Within searchedParts node expr ↔ Within usedParts node expr := by
  refine ⟨Within.used, fun within => ?_⟩
  induction within with
  | refl => exact .refl
  | @tail whole part above member ih =>
      refine ih.tail ?_
      cases whole with
      | prefixed operator operand location =>
          simpa [usedParts, searchedParts, bare operator operand location above] using member
      | _ => exact member

theorem sizeOf_lt_of_mem_arguments {groups : List ArgGroup} {item : Expr}
    (member : item ∈ ArgGroup.arguments groups) : sizeOf item < sizeOf groups := by
  rcases List.mem_flatMap.mp member with ⟨⟨slot, items⟩, groupMem, itemMem⟩
  have inGroup : sizeOf item < sizeOf items := List.sizeOf_lt_of_mem itemMem
  have inGroups := List.sizeOf_lt_of_mem groupMem
  simp only [ArgGroup.mk.sizeOf_spec] at inGroups
  omega

theorem sizeOf_lt_of_mem_operatorArguments {operator : Operator} {item : Expr}
    (member : item ∈ operator.arguments) : sizeOf item < sizeOf operator := by
  cases operator with
  | symbol text location => cases member
  | command names groups location =>
      have inGroups := sizeOf_lt_of_mem_arguments member
      simp only [Operator.command.sizeOf_spec]
      omega

theorem sizeOf_lt_of_mem_children {expr part : Expr} (member : part ∈ expr.children) :
    sizeOf part < sizeOf expr := by
  cases expr with
  | name | variadic | text | empty => cases member
  | command names groups location | call isCommand word groups location =>
      have inGroups := sizeOf_lt_of_mem_arguments member
      simp
      omega
  | function _ items _ | tuple items _ | set items _ =>
      have inItems : sizeOf part < sizeOf items := List.sizeOf_lt_of_mem member
      simp
      omega
  | grouped inner location | prefixed operator inner location =>
      rcases List.mem_singleton.mp member with rfl
      simp
      omega
  | operation operator left right location =>
      rcases List.mem_append.mp member with argument | operand
      · have inOperator := sizeOf_lt_of_mem_operatorArguments argument
        simp
        omega
      · simp only [List.mem_cons, List.not_mem_nil, or_false] at operand
        rcases operand with rfl | rfl <;> simp <;> omega
  | relation kind left right location =>
      rcases List.mem_append.mp member with inLeft | inRight
      · have := List.sizeOf_lt_of_mem inLeft
        simp
        omega
      · have := List.sizeOf_lt_of_mem inRight
        simp
        omega
  | assignment left right location =>
      simp only [children, List.mem_cons, List.not_mem_nil, or_false] at member
      rcases member with rfl | rfl <;> simp <;> omega

theorem sizeOf_lt_of_mem_parts {expr part : Expr} (member : part ∈ expr.parts) :
    sizeOf part < sizeOf expr := by
  cases expr with
  | prefixed operator operand location =>
      rcases List.mem_append.mp member with argument | operand
      · have inOperator := sizeOf_lt_of_mem_operatorArguments argument
        simp only [prefixed.sizeOf_spec]
        omega
      · rcases List.mem_singleton.mp operand with rfl
        simp only [prefixed.sizeOf_spec]
        omega
  | _ => exact sizeOf_lt_of_mem_children member

theorem searchedParts_subset_children (expr : Expr) : expr.searchedParts ⊆ expr.children := by
  cases expr with
  | relation kind left right location => cases kind <;> simp [searchedParts, usedParts, children]
  | _ => simp [searchedParts, usedParts, children]

/-! ## Uses -/

theorem usesOf_eq (items : List Expr) : usesOf items = items.flatMap uses := by
  induction items with
  | nil => simp [usesOf]
  | cons item rest ih => simp [usesOf, ih]

theorem groupUses_eq (groups : List ArgGroup) :
    groupUses groups = (ArgGroup.arguments groups).flatMap uses := by
  induction groups with
  | nil => simp [groupUses, ArgGroup.arguments]
  | cons group rest ih =>
      rcases group with ⟨slot, items⟩
      rw [groupUses, usesOf_eq, ih]
      simp [ArgGroup.arguments, ArgGroup.items]

theorem operatorUses_eq (operator : Operator) :
    operatorUses operator = operator.arguments.flatMap uses := by
  cases operator with
  | symbol text location => simp [operatorUses, Operator.arguments]
  | command names groups location => simp [operatorUses, Operator.arguments, groupUses_eq]

/-- The uses in an expression are what it is itself and the uses in its searched parts. -/
theorem uses_eq (expr : Expr) :
    expr.uses = expr.use?.toList ++ expr.searchedParts.flatMap uses := by
  cases expr with
  | relation kind left right location =>
      cases kind <;> simp [uses, use?, signature?, searchedParts, usedParts, children, usesOf_eq]
  | call isCommand word groups location =>
      cases isCommand <;>
        simp [uses, use?, signature?, searchedParts, usedParts, children, groupUses_eq,
          Expr.location]
  | _ =>
      simp [uses, use?, signature?, searchedParts, usedParts, children, usesOf_eq, groupUses_eq,
        operatorUses_eq, Expr.location]

theorem mem_uses_iff {expr : Expr} {use : Use} :
    use ∈ expr.uses ↔ ∃ node, Within searchedParts node expr ∧ node.Refers use.value
      ∧ use.location = node.location := by
  -- By recursion on the expression.
  have below : ∀ part ∈ expr.searchedParts, (use ∈ part.uses ↔
      ∃ node, Within searchedParts node part ∧ node.Refers use.value
        ∧ use.location = node.location) :=
    fun part member =>
      have := sizeOf_lt_of_mem_children (searchedParts_subset_children expr member)
      mem_uses_iff
  rw [uses_eq, List.mem_append, Option.mem_toList, List.mem_flatMap, use?_eq_some_iff]
  constructor
  · rintro (own | ⟨part, member, found⟩)
    · exact ⟨expr, .refl, own⟩
    · rcases (below part member).mp found with ⟨node, within, refers⟩
      exact ⟨node, within_iff.mpr (.inr ⟨part, member, within⟩), refers⟩
  · rintro ⟨node, within, refers⟩
    rcases within_iff.mp within with rfl | ⟨part, member, inPart⟩
    · exact .inl refers
    · exact .inr ⟨part, member, (below part member).mpr ⟨node, inPart, refers⟩⟩
termination_by sizeOf expr

end Expr

end Treatise.Statement
