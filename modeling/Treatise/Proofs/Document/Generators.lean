import Treatise.Proofs.Document.Occurrences

/-!
# Which constructors a definition introduces

A `generated:` group introduces a signature for each of its constructors, in whatever clauses of
`means:` or `satisfying:` it stands. The search for such groups passes some over: it does not look
into the conditions of a group that it finds, and below a negation it looks at nothing but the
clause that is negated.

Main statement: the search finds all groups that it does not pass over, each once and in the order
in which they are written. It finds all groups that there are where none stands at an address of the
other kind, and a definition introduces signatures for the constructors of those groups that are
found.
-/

namespace Treatise.Document

/-- The `generated:` group at an address inside a clause. -/
def Clause.generatorAt? (clause : Clause) (address : Address) : Option Clause :=
  (clause.at? address).bind Clause.generator?

/-- The `generated:` group at an address inside the clauses of a section. -/
def Clauses.generatorAt? (clauses : Clauses) (address : Address) : Option Clause :=
  (clauses.at? address).bind Clause.generator?

/-- Whether the search stops at a clause and so passes over what lies at an address below its
children. -/
def Clause.closes : Clause → Address → Bool
  | .generated _ _ _, _ => true
  | .negation _ _, rest => !rest.isEmpty
  | _, _ => false

/-- Whether the search passes over an address inside a clause. -/
def Clause.hides (clause : Clause) : Address → Bool
  | [] => false
  | index :: rest => clause.closes rest || clause.children[index]?.any (·.hides rest)

/-- Whether the search passes over an address inside the clauses of a section. -/
def Clauses.hides (clauses : Clauses) : Address → Bool
  | [] => false
  | index :: rest => clauses.items[index]?.any (·.hides rest)

/-- The `generated:` group at an address inside a clause, unless it is passed over. -/
def Clause.foundAt? (clause : Clause) (address : Address) : Option Clause :=
  if clause.hides address then none else clause.generatorAt? address

/-- The `generated:` group at an address inside the clauses of a section, unless it is passed
over. -/
def Clauses.foundAt? (clauses : Clauses) (address : Address) : Option Clause :=
  if clauses.hides address then none else clauses.generatorAt? address

theorem generatorsOf_eq (items : List Clause) :
    generatorsOf items = items.flatMap Clause.generators := by
  induction items with
  | nil => rfl
  | cons clause rest ih => rw [generatorsOf, ih, List.flatMap_cons]

theorem Clauses.generators_eq (clauses : Clauses) :
    clauses.generators = clauses.items.flatMap Clause.generators := by
  cases clauses
  exact generatorsOf_eq _

theorem generatorsIn_eq (clauses : Option Clauses) :
    generatorsIn clauses = (itemsIn clauses).flatMap Clause.generators := by
  cases clauses with
  | none => rfl
  | some found => exact found.generators_eq

/-- A clause at which the search does not stop. -/
def Clause.IsOpen (clause : Clause) : Prop :=
  ∀ rest, clause.closes rest = false

theorem Clause.isOpen_or (clause : Clause) : clause.IsOpen
    ∨ (∃ generators conditions location, clause = .generated generators conditions location)
    ∨ ∃ inner location, clause = .negation inner location := by
  cases clause with
  | generated generators conditions location => exact .inr (.inl ⟨_, _, _, rfl⟩)
  | negation inner location => exact .inr (.inr ⟨_, _, rfl⟩)
  | _ => exact .inl fun _ => rfl

theorem Clause.IsOpen.generators_eq {clause : Clause} (isOpen : clause.IsOpen) :
    clause.generators = clause.children.flatMap Clause.generators := by
  cases clause with
  | generated _ _ _ => cases isOpen []
  | negation _ _ => cases isOpen [0]
  | _ => simp [Clause.generators, children, Clauses.generators_eq, generatorsIn_eq]

theorem Clause.IsOpen.foundAt?_eq {clause : Clause} (isOpen : clause.IsOpen) :
    clause.foundAt? = branching none (clause.children.map Clause.foundAt?) := by
  have plain : clause.generator? = none := by
    cases clause with
    | generated _ _ _ => cases isOpen []
    | _ => rfl
  funext address
  cases address with
  | nil => exact plain
  | cons index rest =>
      simp only [foundAt?, hides, isOpen rest, generatorAt?, at?, branching, List.getElem?_map]
      cases clause.children[index]? <;> rfl

theorem Clauses.foundAt?_eq (clauses : Clauses) :
    clauses.foundAt? = branching none (clauses.items.map Clause.foundAt?) := by
  funext address
  cases address with
  | nil => rfl
  | cons index rest =>
      cases present : clauses.items[index]? <;>
        simp [foundAt?, hides, generatorAt?, at?, branching, present, Clause.foundAt?,
          Clause.generatorAt?]

/-- Nothing is looked for below a group that is found. -/
theorem Clause.foundAt?_generated (generators : Targets) (conditions : Option Clauses)
    (location : Location) : (Clause.generated generators conditions location).foundAt?
      = leaf (some (.generated generators conditions location)) := by
  funext address
  cases address <;> rfl

/-- Below a negation, the clause that is negated is looked at and nothing else. -/
theorem Clause.foundAt?_negation (clause : Clause) (location : Location) :
    (Clause.negation clause location).foundAt? = branching none [leaf clause.generator?] := by
  funext address
  match address with
  | [] => rfl
  | [0] => rfl
  | 0 :: _ :: _ => rfl
  | (_ + 1) :: rest =>
      simp [foundAt?, generatorAt?, at?, children, branching]

theorem Clause.enumerates_generators (clause : Clause) :
    Enumerates clause.foundAt? clause.generators := by
  induction clause using Clause.induction_on with
  | step clause ih =>
      rcases clause.isOpen_or with isOpen | ⟨_, _, _, rfl⟩ | ⟨inner, location, rfl⟩
      · rw [isOpen.foundAt?_eq, isOpen.generators_eq]
        exact .of_children none ih
      · rw [foundAt?_generated]
        exact .of_leaf _
      · rw [foundAt?_negation]
        simpa [Clause.generators] using
          Enumerates.of_branches none (.cons (.of_leaf inner.generator?) .nil)

theorem Clauses.enumerates_generators (clauses : Clauses) :
    Enumerates clauses.foundAt? clauses.generators := by
  rw [clauses.foundAt?_eq, clauses.generators_eq]
  exact .of_children none fun clause _ => clause.enumerates_generators

/-- All groups are found where none is passed over, and only there. -/
theorem Clauses.enumerates_all_generators_iff (clauses : Clauses) :
    Enumerates clauses.generatorAt? clauses.generators
      ↔ ∀ address, (clauses.generatorAt? address).isSome → clauses.hides address = false := by
  constructor
  · intro all address present
    have same := all.eq_of_le clauses.enumerates_generators fun address value stands => by
      unfold foundAt? at stands
      split at stands
      · cases stands
      · exact stands
    rw [← same, foundAt?] at present
    split at present
    · cases present
    · next shown => simpa using shown
  · intro shown
    have same : clauses.foundAt? = clauses.generatorAt? := by
      funext address
      unfold foundAt?
      split
      · next hidden =>
        by_contra present
        have exposed := shown address (Option.isSome_iff_ne_none.mpr fun missing =>
          present missing.symm)
        rw [hidden] at exposed
        cases exposed
      · rfl
    rw [← same]
    exact clauses.enumerates_generators

/-! ## Signatures -/

theorem Defines.mem_generators_iff {defines : Defines} {group : Clause} :
    group ∈ defines.generators ↔ ∃ clauses address,
      (defines.means = some clauses ∨ defines.satisfying = some clauses)
        ∧ clauses.foundAt? address = some group := by
  have inSection (list : Option Clauses) : group ∈ generatorsIn list
      ↔ ∃ clauses address, list = some clauses ∧ clauses.foundAt? address = some group := by
    cases list with
    | none => simp [generatorsIn]
    | some clauses => simp [generatorsIn, clauses.enumerates_generators.mem_iff]
  rw [generators, List.mem_append, inSection, inSection]
  simp only [or_and_right, exists_or]

theorem Defines.mem_signatures_iff {defines : Defines} {signature found : Signature}
    (signed : (Definition.defines defines).signature = some signature) :
    found ∈ (Definition.defines defines).signatures ↔ found = signature
      ∨ ∃ group ∈ defines.generators, ∃ name ∈ group.constructors,
        found = ⟨signature.form ++ "." ++ name, group.location⟩ := by
  simp [Definition.signatures, signed, Definition.generators, eq_comm]

end Treatise.Document
