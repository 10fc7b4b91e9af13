import Treatise.Proofs.Statement.Usage
import Treatise.Proofs.Statement.Written

/-!
# How tightly expressions bind

Assignments bind most loosely, then relations in three levels, and then operations by the precedence
of their operators. What is bound more loosely than its surroundings has to stand in brackets, where
reading starts afresh. This holds whether or not a statement is read without a problem.

Operations are put together from the left, and a tree gives up its last operand to an operator that
binds more strongly. So the operators along the right edge of a tree bind more and more strongly,
and this is all that an operator has to know of the tree that it joins.

Main statement: in the tree of a statement every expression is bound at least as tightly as its
place asks.
-/

namespace Treatise.Statement

/-- How tightly a relation binds its operands, from one to three. -/
def RelationKind.tightness : RelationKind → Nat
  | isA | isIn | notIn => 1
  | equal | notEqual => 2
  | viewedAs => 3

namespace Expr

/-- How tightly the parts of an expression are bound to each other: those of an assignment (0), a
relation (1 to 3), an operation (4), and of what needs no brackets wherever it stands (5). -/
def tightness : Expr → Nat
  | assignment _ _ _ => 0
  | relation kind _ _ _ => kind.tightness
  | operation _ _ _ _ => 4
  | _ => 5

/-- The operator of an operation. -/
def operator? : Expr → Option Operator
  | operation operator _ _ _ => some operator
  | _ => none

/-- The operands of an expression are bound more tightly than it is. Operations of one precedence
may stand on the left of each other, relations of one level on the right, and assignments on the
right. -/
def Bound : Expr → Prop
  | operation operator left right _ =>
    (4 ≤ left.tightness ∧ ∀ inner ∈ left.operator?, operator.precedence ≤ inner.precedence)
      ∧ 4 ≤ right.tightness ∧ ∀ inner ∈ right.operator?, operator.precedence < inner.precedence
  | prefixed _ operand _ => operand.tightness = 5
  | relation kind left right _ =>
    (∀ item ∈ left, kind.tightness < item.tightness)
      ∧ ((∃ chain, right = [chain] ∧ chain.tightness = kind.tightness)
        ∨ ∀ item ∈ right, kind.tightness < item.tightness)
  | assignment left _ _ => 0 < left.tightness
  | _ => True

/-- Everything within an expression is bound, and the expression as tightly as `least`. -/
structure Stands (least : Nat) (expr : Expr) : Prop where
  bound : ∀ node, Within parts node expr → node.Bound
  tight : least ≤ expr.tightness

variable {expr operand : Expr} {operator : Operator} {least : Nat}

theorem tightness_le (expr : Expr) : expr.tightness ≤ 5 := by
  cases expr with
  | relation kind => cases kind <;> simp [tightness, RelationKind.tightness]
  | _ => simp [tightness]

theorem stands_iff :
    expr.Stands least
      ↔ (expr.Bound ∧ ∀ part ∈ expr.parts, part.Stands 0) ∧ least ≤ expr.tightness := by
  constructor
  · intro stands
    refine ⟨⟨stands.bound expr .refl, fun part member => ⟨fun node within => ?_, Nat.zero_le _⟩⟩,
      stands.tight⟩
    exact stands.bound node (within_iff.mpr (.inr ⟨part, member, within⟩))
  · rintro ⟨⟨here, below⟩, tight⟩
    refine ⟨fun node within => ?_, tight⟩
    rcases within_iff.mp within with rfl | ⟨part, member, inPart⟩
    · exact here
    · exact (below part member).bound node inPart

theorem Stands.mono {loose : Nat} (stands : expr.Stands least) (le : loose ≤ least) :
    expr.Stands loose :=
  ⟨stands.bound, Nat.le_trans le stands.tight⟩

theorem Stands.part {part : Expr} (stands : expr.Stands least) (member : part ∈ expr.parts) :
    part.Stands 0 :=
  (stands_iff.mp stands).1.2 part member

theorem Stands.self_bound (stands : expr.Stands least) : expr.Bound :=
  (stands_iff.mp stands).1.1

/-! ## Operations -/

theorem stands_prefixedBy {operators : List Operator}
    (arguments : ∀ operator ∈ operators, ∀ item ∈ operator.arguments, item.Stands 0)
    (stands : operand.Stands 5) : (prefixedBy operators operand).Stands 5 := by
  induction operators with
  | nil => exact stands
  | cons operator rest ih =>
      rcases List.forall_mem_cons.mp arguments with ⟨here, later⟩
      have inner : (prefixedBy rest operand).Stands 5 := ih later
      have unit : (prefixedBy rest operand).tightness = 5 :=
        Nat.le_antisymm (tightness_le _) inner.tight
      refine stands_iff.mpr ⟨⟨unit, ?_⟩, Nat.le_refl 5⟩
      intro part member
      rcases List.mem_append.mp member with argument | operand
      · exact here part argument
      · rw [List.mem_singleton.mp operand]
        exact inner.mono (Nat.zero_le 5)

/-- The operator of a tree that another operator has joined is this one, or it is still the same. -/
theorem operator?_attach (tree : Expr) (operator : Operator) (operand : Expr) :
    ∀ top ∈ (tree.attach operator operand).operator?, top = operator ∨ top ∈ tree.operator? := by
  intro top member
  unfold attach at member
  split at member
  · next outer left right location =>
    split at member
    · exact .inr member
    · exact .inl (Option.some_inj.mp member).symm
  · exact .inl (Option.some_inj.mp member).symm

theorem operator?_eq_none (tight : 5 ≤ expr.tightness) : expr.operator? = none := by
  cases expr with
  | operation => simp [tightness] at tight
  | _ => rfl

theorem Stands.attach {tree : Expr} (stands : tree.Stands 4)
    (arguments : ∀ item ∈ operator.arguments, item.Stands 0) (operandStands : operand.Stands 5) :
    (tree.attach operator operand).Stands 4 := by
  have joined {left : Expr} (leftStands : left.Stands 4)
      (stronger : ∀ inner ∈ left.operator?, operator.precedence ≤ inner.precedence) :
      (operation operator left operand left.location).Stands 4 := by
    refine stands_iff.mpr ⟨⟨⟨⟨leftStands.tight, stronger⟩, ?_, ?_⟩, ?_⟩, Nat.le_refl 4⟩
    · exact Nat.le_trans (by omega) operandStands.tight
    · simp [operator?_eq_none operandStands.tight]
    · intro part member
      simp only [parts, children, List.mem_append, List.mem_cons, List.not_mem_nil,
        or_false] at member
      rcases member with argument | rfl | rfl
      · exact arguments part argument
      · exact leftStands.mono (by omega)
      · exact operandStands.mono (by omega)
  fun_induction Expr.attach tree operator operand with
  | case1 outer left right location looser ih =>
      rcases stands.self_bound with ⟨leftBound, rightTight, rightBound⟩
      have rightStands : right.Stands 4 :=
        ⟨(stands.part (by simp [parts, children])).bound, rightTight⟩
      have inner := ih rightStands
      refine stands_iff.mpr ⟨⟨⟨leftBound, inner.tight, ?_⟩, ?_⟩, Nat.le_refl 4⟩
      · intro top member
        rcases operator?_attach right operator operand top member with rfl | before
        · exact looser
        · exact rightBound top before
      · intro part member
        simp only [parts, children, List.mem_append, List.mem_cons, List.not_mem_nil,
          or_false] at member
        rcases member with argument | rfl | rfl
        · exact stands.part (by simp [parts, children, argument])
        · exact stands.part (by simp [parts, children])
        · exact inner.mono (by omega)
  | case2 outer left right location stronger =>
      refine joined stands ?_
      rintro inner ⟨⟩
      omega
  | case3 tree other =>
      refine joined stands ?_
      intro inner member
      cases tree with
      | operation outer left right location => exact absurd rfl (other outer left right location)
      | _ => cases member

end Expr

/-! ## Terms -/

/-- Everything in the bracket groups of a command is bound. -/
def GroupsStand (groups : List ArgGroup) : Prop :=
  ∀ item ∈ ArgGroup.arguments groups, item.Stands 0

@[simp]
theorem groupsStand_nil : GroupsStand [] := List.forall_mem_nil _

@[simp]
theorem groupsStand_cons {slot : Slot} {items : List Expr} {rest : List ArgGroup} :
    GroupsStand (.mk slot items :: rest) ↔ (∀ item ∈ items, item.Stands 0) ∧ GroupsStand rest := by
  simp [GroupsStand, ArgGroup.arguments, ArgGroup.items, or_imp, forall_and]

@[simp]
theorem groupsStand_append {groups others : List ArgGroup} :
    GroupsStand (groups ++ others) ↔ GroupsStand groups ∧ GroupsStand others := by
  simp [GroupsStand, ArgGroup.arguments, or_imp, forall_and]

/-- What has been read in the brackets of a term is bound. -/
def Term.Stands : Term → Prop
  | leaf _ => True
  | group _ _ listed whole => (∀ item ∈ listed.value, item.Stands 0) ∧ whole.value.Stands 0

def TermsStand (terms : List Term) : Prop :=
  ∀ term ∈ terms, term.Stands

@[simp]
theorem termsStand_nil : TermsStand [] := List.forall_mem_nil _

@[simp]
theorem termsStand_cons {term : Term} {rest : List Term} :
    TermsStand (term :: rest) ↔ term.Stands ∧ TermsStand rest :=
  List.forall_mem_cons

section Terms

variable {terms : List Term}

theorem TermsStand.dottedNames (stand : TermsStand terms) :
    TermsStand (readDottedNames terms).2 := by
  fun_induction readDottedNames terms with
  | case1 _ _ _ _ rest _ ih =>
      simp only [termsStand_cons] at stand
      exact ih stand.2.2
  | case2 => exact (termsStand_cons.mp stand).2
  | case3 => exact stand

theorem TermsStand.slotGroup {slot : Slot} {listed : Review Fault (List Expr)} {rest : List Term}
    (stand : TermsStand terms) (found : slotGroup? slot terms = some (listed, rest)) :
    (∀ item ∈ listed.value, item.Stands 0) ∧ TermsStand rest := by
  unfold slotGroup? at found
  split at found
  case h_1 | h_4 | h_5 =>
      cases found
      simp only [termsStand_cons, Term.Stands] at stand
      exact ⟨stand.1.1, stand.2⟩
  case h_2 | h_3 =>
      cases found
      simp only [termsStand_cons, Term.Stands] at stand
      exact ⟨stand.2.1.1, stand.2.2⟩
  case h_6 => cases found

theorem TermsStand.slots (stand : TermsStand terms) (slots : List Slot) :
    GroupsStand (readSlots slots terms).1.value ∧ TermsStand (readSlots slots terms).2 := by
  fun_induction readSlots slots terms with
  | case1 => exact ⟨groupsStand_nil, stand⟩
  | case2 slot slots terms listed rest found more ih =>
      rcases stand.slotGroup found with ⟨items, restStand⟩
      rcases ih restStand with ⟨groups, last⟩
      exact ⟨groupsStand_cons.mpr ⟨items, groups⟩, last⟩
  | case3 slot slots terms absent ih => exact ih stand

theorem TermsStand.namedGroups (stand : TermsStand terms) :
    GroupsStand (readNamedGroups terms).1.value ∧ TermsStand (readNamedGroups terms).2 := by
  fun_induction readNamedGroups terms with
  | case1 _ _ word _ opener listed whole rest more ih =>
      simp only [termsStand_cons, Term.Stands] at stand
      rcases ih stand.2.2.2 with ⟨groups, last⟩
      exact ⟨groupsStand_cons.mpr ⟨stand.2.2.1.1, groups⟩, last⟩
  | case2 | case3 =>
      simp only [termsStand_cons] at stand
      exact ⟨groupsStand_nil, by simp [stand]⟩
  | case4 => exact ⟨groupsStand_nil, stand⟩

theorem TermsStand.command (stand : TermsStand terms) (location : Location) :
    GroupsStand (readCommand location terms).1.value.2
      ∧ TermsStand (readCommand location terms).2 := by
  fun_cases readCommand location terms with
  | case1 word _ _ rest names front named =>
      have namesStand := (termsStand_cons.mp stand).2.dottedNames
      rcases namesStand.slots [.square, .sub, .sup, .curly] with ⟨frontGroups, frontRest⟩
      rcases frontRest.namedGroups with ⟨namedGroups, namedRest⟩
      rcases namedRest.slots [.paren] with ⟨backGroups, backRest⟩
      refine ⟨?_, backRest⟩
      exact groupsStand_append.mpr ⟨groupsStand_append.mpr ⟨frontGroups, namedGroups⟩, backGroups⟩
  | case2 => exact ⟨groupsStand_nil, stand⟩

end Terms

/-! ## Operators and operands -/

/-- An expression that needs no brackets is bound if its parts are. -/
theorem stands_unit {expr : Expr} (bound : expr.Bound) (unit : expr.tightness = 5)
    (parts : ∀ part ∈ expr.parts, part.Stands 0) : expr.Stands 5 :=
  Expr.stands_iff.mpr ⟨⟨bound, parts⟩, Nat.le_of_eq unit.symm⟩

/-- An expression without parts that needs no brackets is bound. -/
theorem stands_leaf {expr : Expr} (bound : expr.Bound) (unit : expr.tightness = 5)
    (bare : expr.parts = []) : expr.Stands 5 :=
  stands_unit bound unit (by simp [bare])

theorem stands_empty (location : Location) : (Expr.empty location).Stands 5 :=
  stands_leaf trivial rfl rfl

theorem stands_commandExpr {groups : List ArgGroup} (stand : GroupsStand groups)
    (names : List String) (location : Location) : (commandExpr names groups location).Stands 5 := by
  unfold commandExpr
  split <;> exact stands_unit trivial rfl stand

theorem stands_applied {params : List Expr} (stand : ∀ item ∈ params, item.Stands 0) (word : String)
    (location : Location) : (applied word params location).Stands 5 := by
  unfold applied
  dsimp only
  split
  · exact stands_unit trivial rfl stand
  · refine stands_unit trivial rfl ?_
    simpa [Expr.parts, Expr.children, ArgGroup.arguments, ArgGroup.items] using stand

/-- What has been read in the brackets of an operator is bound, and an operand needs no brackets. -/
def Factor.Stands : Factor → Prop
  | operand expr => expr.Stands 5
  | operator symbol => ∀ item ∈ symbol.arguments, item.Stands 0

section Factors

variable {terms : List Term}

theorem TermsStand.name (stand : TermsStand terms) (word : String) (location : Location) :
    (readName word location terms).1.value.Stands 5
      ∧ TermsStand (readName word location terms).2 := by
  unfold readName
  split
  · simp only [termsStand_cons] at stand
    exact ⟨stands_leaf trivial rfl rfl, stand.2⟩
  · simp only [termsStand_cons, Term.Stands] at stand
    refine ⟨stands_unit trivial rfl ?_, stand.2.2.2⟩
    exact groupsStand_cons.mpr ⟨stand.2.1.1, groupsStand_cons.mpr ⟨stand.2.2.1.1, groupsStand_nil⟩⟩
  · simp only [termsStand_cons, Term.Stands] at stand
    refine ⟨stands_unit trivial rfl ?_, stand.2.2⟩
    exact groupsStand_cons.mpr ⟨stand.2.1.1, groupsStand_nil⟩
  · simp only [termsStand_cons, Term.Stands] at stand
    exact ⟨stands_applied stand.1.1 _ _, stand.2⟩
  · exact ⟨stands_leaf trivial rfl rfl, stand⟩

theorem Term.Stands.group {bracket : Bracket} {opener : Token} {listed : Review Fault (List Expr)}
    {whole : Review Fault Expr} (stands : (Term.group bracket opener listed whole).Stands) :
    ∀ factor ∈ (readGroup bracket opener listed whole).value, factor.Stands := by
  rcases stands with ⟨listedStand, wholeStands⟩
  have single {expr : Expr} (bound : expr.Stands 5) :
      ∀ factor ∈ [Factor.operand expr], factor.Stands := by
    simpa [Factor.Stands] using bound
  cases bracket with
  | paren =>
      simp only [readGroup, Review.value_bind]
      split
      · next item sole =>
        refine single (stands_unit trivial rfl ?_)
        simpa [Expr.parts, Expr.children, sole] using listedStand
      · exact single (stands_unit trivial rfl listedStand)
  | curly => exact single (stands_unit trivial rfl listedStand)
  | squareColon =>
      refine single (stands_unit trivial rfl ?_)
      simpa [Expr.parts, Expr.children] using wholeStands
  | square => exact List.forall_mem_nil _

theorem TermsStand.factors (stand : TermsStand terms) :
    ∀ factor ∈ (factors terms).value, factor.Stands := by
  fun_induction Statement.factors terms with
  | case1 => exact List.forall_mem_nil _
  | case2 text location rest ih =>
      exact List.forall_mem_cons.mpr ⟨List.forall_mem_nil _, ih (termsStand_cons.mp stand).2⟩
  | case3 text location rest found slash after following ih =>
      rcases (termsStand_cons.mp stand).2.command location with ⟨groups, left⟩
      rw [show (readCommand location rest).2 = _ from following, termsStand_cons] at left
      exact List.forall_mem_cons.mpr ⟨groups, ih left.2⟩
  | case4 text location rest found _ ih =>
      rcases (termsStand_cons.mp stand).2.command location with ⟨groups, left⟩
      exact List.forall_mem_cons.mpr ⟨stands_commandExpr groups _ _, ih left⟩
  | case5 word location rest found ih =>
      rcases (termsStand_cons.mp stand).2.name word location with ⟨expr, left⟩
      exact List.forall_mem_cons.mpr ⟨expr, ih left⟩
  | case6 text location rest ih =>
      have later := (termsStand_cons.mp stand).2
      exact List.forall_mem_cons.mpr ⟨stands_leaf trivial rfl rfl, ih later⟩
  | case7 kind text location rest _ _ _ _ ih => exact ih (termsStand_cons.mp stand).2
  | case8 bracket opener listed whole rest ih =>
      rcases termsStand_cons.mp stand with ⟨here, later⟩
      exact List.forall_mem_append.mpr ⟨here.group, ih later⟩

theorem stands_readFactors {location : Location} {tree : Option Expr} {pending : List Operator}
    {found : List Factor} (treeStands : ∀ expr ∈ tree, expr.Stands 4)
    (arguments : ∀ operator ∈ pending, ∀ item ∈ operator.arguments, item.Stands 0)
    (stand : ∀ factor ∈ found, factor.Stands) :
    (readFactors location tree pending found).value.Stands 4 := by
  fun_induction readFactors location tree pending found with
  | case1 tree pending operator rest ih =>
      rcases List.forall_mem_cons.mp stand with ⟨here, later⟩
      refine ih treeStands ?_ later
      simpa [or_imp, forall_and] using ⟨arguments, here⟩
  | case2 operand rest tree => exact treeStands tree rfl
  | case3 operand rest tree operator operators ih =>
      rcases List.forall_mem_cons.mp stand with ⟨here, later⟩
      rcases List.forall_mem_cons.mp arguments with ⟨first, others⟩
      refine ih ?_ (List.forall_mem_nil _) later
      rintro _ ⟨⟩
      exact (treeStands tree rfl).attach first (Expr.stands_prefixedBy others here)
  | case4 operand rest operators ih =>
      rcases List.forall_mem_cons.mp stand with ⟨here, later⟩
      refine ih ?_ (List.forall_mem_nil _) later
      rintro _ ⟨⟩
      exact (Expr.stands_prefixedBy arguments here).mono (by omega)
  | case5 tree => exact treeStands tree rfl
  | case6 tree operator operators last =>
      rcases List.forall_mem_cons.mp arguments with ⟨first, others⟩
      exact (treeStands tree rfl).attach first (Expr.stands_prefixedBy others (stands_empty _))
  | case7 operators last =>
      exact (Expr.stands_prefixedBy arguments (stands_empty _)).mono (by omega)

end Factors

/-! ## Relations and assignments -/

/-- A reader yields expressions that bind at least as tightly as `least`. -/
def Yields (least : Nat) (read : List Term → Location → Review Fault Expr) : Prop :=
  ∀ terms location, TermsStand terms → (read terms location).value.Stands least

theorem yields_readOperation : Yields 4 readOperation :=
  fun _ _ stand => stands_readFactors (by simp) (List.forall_mem_nil _) stand.factors

section Cuts

variable {Separator : Type} {separator? : Term → Option Separator} {terms : List Term}

theorem TermsStand.chunks (stand : TermsStand terms) :
    TermsStand (chunks separator? terms).1
      ∧ ∀ segment ∈ (chunks separator? terms).2, TermsStand segment.2 := by
  induction terms with
  | nil => exact ⟨stand, List.forall_mem_nil _⟩
  | cons term rest ih =>
      rcases termsStand_cons.mp stand with ⟨here, later⟩
      rcases ih later with ⟨first, more⟩
      cases separates : separator? term with
      | some separator =>
          simp only [Statement.chunks, separates]
          exact ⟨termsStand_nil, List.forall_mem_cons.mpr ⟨first, more⟩⟩
      | none =>
          simp only [Statement.chunks, separates]
          exact ⟨termsStand_cons.mpr ⟨here, first⟩, more⟩

theorem TermsStand.commaSegments (stand : TermsStand terms) (location : Location) :
    ∀ segment ∈ commaSegments terms location, TermsStand segment.1 := by
  rcases @TermsStand.chunks _ Term.comma? _ stand with ⟨first, more⟩
  refine List.forall_mem_cons.mpr ⟨first, ?_⟩
  intro segment member
  rcases List.mem_map.mp member with ⟨found, inMore, rfl⟩
  exact more found inMore

end Cuts

section Levels

variable {least : Nat} {read : List Term → Location → Review Fault Expr}

theorem Yields.segments (yields : Yields least read) (least_le : least ≤ 5)
    {segments : List (List Term × Location)} (stand : ∀ segment ∈ segments, TermsStand segment.1) :
    ∀ item ∈ (readSegments read segments).value, item.Stands least := by
  fun_induction readSegments read segments with
  | case1 => exact List.forall_mem_nil _
  | case2 location rest ih =>
      have later := (List.forall_mem_cons.mp stand).2
      exact List.forall_mem_cons.mpr ⟨(stands_empty location).mono least_le, ih later⟩
  | case3 segment location rest _ ih =>
      rcases List.forall_mem_cons.mp stand with ⟨here, later⟩
      exact List.forall_mem_cons.mpr ⟨yields segment location here, ih later⟩

theorem Yields.arguments (yields : Yields least read) (least_le : least ≤ 5) {terms : List Term}
    (stand : TermsStand terms) (location : Location) :
    ∀ item ∈ (readArguments read terms location).value, item.Stands least := by
  unfold readArguments
  split
  · exact List.forall_mem_nil _
  · exact yields.segments least_le (stand.commaSegments location)

theorem Yields.operands (yields : Yields least read) (least_le : least ≤ 5) {terms : List Term}
    (stand : TermsStand terms) (location : Location) :
    ∀ item ∈ (readOperands read terms location).value, item.Stands least := by
  unfold readOperands
  split
  · exact List.forall_mem_singleton.mpr ((stands_empty _).mono least_le)
  · exact yields.segments least_le (stand.commaSegments location)

theorem stands_relation {kind : RelationKind} {left right : List Expr}
    (same : kind.tightness = least) (leftStands : ∀ item ∈ left, item.Stands (least + 1))
    (rightStands : (∃ chain, right = [chain] ∧ chain.Stands least ∧ chain.tightness = least)
      ∨ ∀ item ∈ right, item.Stands (least + 1)) (location : Location) :
    (Expr.relation kind left right location).Stands least := by
  have tighter {item : Expr} (stands : item.Stands (least + 1)) :
      kind.tightness < item.tightness := by
    have := stands.tight
    omega
  refine Expr.stands_iff.mpr ⟨⟨⟨fun item member => tighter (leftStands item member), ?_⟩, ?_⟩,
    Nat.le_of_eq same.symm⟩
  · rcases rightStands with ⟨chain, rfl, _, level⟩ | operands
    · exact .inl ⟨chain, rfl, level.trans same.symm⟩
    · exact .inr fun item member => tighter (operands item member)
  · intro part member
    rcases List.mem_append.mp member with inLeft | inRight
    · exact (leftStands part inLeft).mono (Nat.zero_le _)
    · rcases rightStands with ⟨chain, rfl, stands, _⟩ | operands
      · rw [List.mem_singleton.mp inRight]
        exact stands.mono (Nat.zero_le _)
      · exact (operands part inRight).mono (Nat.zero_le _)

/-- A chain of relations of one level. The induction is on the relations after the first one. -/
theorem Yields.relationsFrom (yields : Yields (least + 1) read) (least_lt : least < 5)
    {relation : RelationKind × Location} {terms segment : List Term}
    {more : List ((RelationKind × Location) × List Term)} (same : relation.1.tightness = least)
    (alike : ∀ found ∈ more, found.1.1.tightness = least) (stand : TermsStand terms)
    (segmentStands : TermsStand segment) (moreStand : ∀ found ∈ more, TermsStand found.2)
    (location : Location) :
    (readRelationsFrom read terms location relation segment more).value.Stands least
      ∧ (readRelationsFrom read terms location relation segment more).value.tightness = least := by
  have operands {terms : List Term} (stand : TermsStand terms) (location : Location) :=
    yields.operands least_lt stand location
  induction more generalizing relation terms segment location with
  | nil => exact ⟨stands_relation same (operands stand _) (.inr (operands segmentStands _)) _, same⟩
  | cons found more ih =>
      rcases found with ⟨following, rest⟩
      rcases List.forall_mem_cons.mp alike with ⟨sameNext, alike⟩
      rcases List.forall_mem_cons.mp moreStand with ⟨restStands, moreStand⟩
      have chain := ih sameNext alike segmentStands restStands moreStand relation.2
      exact ⟨stands_relation same (operands stand _) (.inl ⟨_, rfl, chain⟩) _, same⟩

theorem separator_of_mem_chunks {Separator : Type} {separator? : Term → Option Separator}
    {terms : List Term} {found : Separator × List Term}
    (member : found ∈ (chunks separator? terms).2) :
    ∃ term ∈ terms, separator? term = some found.1 := by
  induction terms with
  | nil => cases member
  | cons term rest ih =>
      cases separates : separator? term with
      | some separator =>
          simp only [chunks, separates, List.mem_cons] at member
          rcases member with rfl | later
          · exact ⟨term, List.mem_cons_self, separates⟩
          · rcases ih later with ⟨other, inRest, here⟩
            exact ⟨other, List.mem_cons_of_mem _ inRest, here⟩
      | none =>
          simp only [chunks, separates] at member
          rcases ih member with ⟨other, inRest, here⟩
          exact ⟨other, List.mem_cons_of_mem _ inRest, here⟩

theorem Yields.relations (yields : Yields (least + 1) read) (least_lt : least < 5)
    {kinds : List RelationKind} (level : ∀ kind ∈ kinds, kind.tightness = least) :
    Yields least (readRelations kinds read) := by
  intro terms location stand
  rcases @TermsStand.chunks _ (Term.relationIn? kinds) _ stand with ⟨first, more⟩
  have among : ∀ found ∈ (chunks (Term.relationIn? kinds) terms).2,
      found.1.1.tightness = least := by
    intro found member
    rcases separator_of_mem_chunks member with ⟨term, _, separates⟩
    exact level _ (by simpa using (Option.filter_eq_some_iff.mp separates).2)
  unfold readRelations
  split
  · exact (yields terms location stand).mono (Nat.le_succ least)
  · next start relation segment rest cut =>
    rw [cut] at first more among
    rcases List.forall_mem_cons.mp more with ⟨segmentStands, more⟩
    rcases List.forall_mem_cons.mp among with ⟨same, alike⟩
    exact (yields.relationsFrom least_lt same alike first segmentStands more location).1

end Levels

theorem yields_readRelated : Yields 1 readRelated := by
  refine Yields.relations ?_ (by omega) (by simp [RelationKind.tightness])
  refine Yields.relations ?_ (by omega) (by simp [RelationKind.tightness])
  exact yields_readOperation.relations (by omega) (by simp [RelationKind.tightness])

theorem stands_assignment {left right : Expr} (leftStands : left.Stands 1)
    (rightStands : right.Stands 0) (location : Location) :
    (Expr.assignment left right location).Stands 0 := by
  refine Expr.stands_iff.mpr ⟨⟨leftStands.tight, ?_⟩, Nat.zero_le _⟩
  intro part member
  simp only [Expr.parts, Expr.children, List.mem_cons, List.not_mem_nil, or_false] at member
  rcases member with rfl | rfl
  · exact leftStands.mono (Nat.zero_le 1)
  · exact rightStands

theorem stands_readAssignmentsFrom {terms : List Term} {more : List (Location × List Term)}
    (stand : TermsStand terms) (moreStand : ∀ found ∈ more, TermsStand found.2)
    (location : Location) : (readAssignmentsFrom terms location more).value.Stands 0 := by
  induction more generalizing terms location with
  | nil => exact (yields_readRelated terms location stand).mono (Nat.zero_le 1)
  | cons found more ih =>
      rcases List.forall_mem_cons.mp moreStand with ⟨segmentStands, moreStand⟩
      have left := yields_readRelated terms location stand
      exact stands_assignment left (ih segmentStands moreStand found.1) _

theorem yields_readExpr : Yields 0 readExpr := by
  intro terms location stand
  rcases @TermsStand.chunks _ Term.assign? _ stand with ⟨first, more⟩
  exact stands_readAssignmentsFrom first more location

/-! ## Statements -/

mutual

theorem TokenTree.stands_term : ∀ tree : TokenTree, tree.term.Stands
  | .leaf _ => trivial
  | .group _ opener items _ =>
    have inside := termsStand_termsOf items
    ⟨yields_readExpr.arguments (by omega) inside opener.location,
      yields_readExpr (termsOf items) opener.location inside⟩

theorem termsStand_termsOf : ∀ trees : List TokenTree, TermsStand (termsOf trees)
  | [] => termsStand_nil
  | tree :: rest => termsStand_cons.mpr ⟨tree.stands_term, termsStand_termsOf rest⟩

end

/-- Within the tree of a statement, also in brackets and in those of operators, every operand is
bound more tightly than what it is an operand of, except for chains of operations on the left and
for chains of relations and assignments on the right. -/
theorem read_bound {text : String} {node : Expr}
    (within : Expr.Within Expr.parts node (read text).value) : node.Bound :=
  (yields_readExpr _ _ (termsStand_termsOf _)).bound node within

/-- An operation in the brackets of an operator that stands before its operand. -/
theorem bracketed_operation_bound :
    ∃ node, Expr.Within Expr.parts node (read "\\f{a - b * c - d}/ x").value
      ∧ node.operator?.map Operator.signature = some "-" ∧ node.Bound := by
  have found : ∃ node ∈ (read "\\f{a - b * c - d}/ x").value.parts,
      node.operator?.map Operator.signature = some "-" := by
    decide +kernel
  rcases found with ⟨node, part, minus⟩
  exact ⟨node, .single part, minus, read_bound (.single part)⟩

end Treatise.Statement
