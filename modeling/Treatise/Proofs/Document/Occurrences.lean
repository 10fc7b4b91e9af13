import Treatise.Document.Entry
import Treatise.Proofs.Enumeration

/-!
# Where formulas occur

Clauses are trees: an address leads from a clause down to the clauses inside it, whatever groups
they stand in. An entry is a tree as well, of its sections, of what its definition provides, and of
the definitions that it groups together. Ids are not part of it. A definition is written with
`providing:` before `using:`, but in this tree what it provides comes last.

Main statement: the formulas of an entry, which all checks look at, are those at its addresses, each
of them once and in the order of the addresses.
-/

namespace Treatise.Document

/-! ## Clauses -/

/-- The clauses of a section that may be left out. -/
def itemsIn : Option Clauses → List Clause
  | none => []
  | some clauses => clauses.items

/-- The clauses right inside a clause, in the order in which they are written. -/
def Clause.children : Clause → List Clause
  | .formula _ | .text _ => []
  | .implication conditions conclusions _ | .equivalence conditions conclusions _ =>
    conditions.items ++ conclusions.items
  | .forAll _ suchThat conclusions _ => itemsIn suchThat ++ conclusions.items
  | .thereIs _ _ suchThat _ => itemsIn suchThat
  | .negation clause _ => [clause]
  | .disjunction alternatives _ => alternatives.items
  | .piecewise conditions conclusions otherwise _ =>
    conditions.items ++ conclusions.items ++ itemsIn otherwise
  | .matching cases _ => cases.items
  | .generated _ conditions _ => itemsIn conditions

/-- The clause at an address inside a clause. -/
def Clause.at? (clause : Clause) : Address → Option Clause
  | [] => some clause
  | index :: rest => clause.children[index]?.bind (·.at? rest)

/-- The clause at an address inside the clauses of a section. -/
def Clauses.at? (clauses : Clauses) : Address → Option Clause
  | [] => none
  | index :: rest => clauses.items[index]?.bind (·.at? rest)

/-- The formula at an address inside a clause. -/
def Clause.formulaAt? (clause : Clause) (address : Address) : Option Formula :=
  (clause.at? address).bind Clause.formula?

/-- The formula at an address inside the clauses of a section. -/
def Clauses.formulaAt? (clauses : Clauses) (address : Address) : Option Formula :=
  (clauses.at? address).bind Clause.formula?

theorem sizeOf_lt_of_mem_items {clauses : Clauses} {clause : Clause}
    (member : clause ∈ clauses.items) :
    sizeOf clause < sizeOf clauses := by
  cases clauses with
  | mk items location =>
      have inItems : sizeOf clause < sizeOf items := List.sizeOf_lt_of_mem member
      simp only [Clauses.mk.sizeOf_spec]
      omega

theorem sizeOf_lt_of_mem_itemsIn {clauses : Option Clauses} {clause : Clause}
    (member : clause ∈ itemsIn clauses) : sizeOf clause < sizeOf clauses := by
  cases clauses with
  | none => cases member
  | some found =>
      have inItems := sizeOf_lt_of_mem_items member
      simp only [Option.some.sizeOf_spec]
      omega

theorem sizeOf_lt_of_mem_children {clause child : Clause} (member : child ∈ clause.children) :
    sizeOf child < sizeOf clause := by
  cases clause with
  | formula _ | text _ => cases member
  | negation inner _ =>
      cases List.mem_singleton.mp member
      simp
      omega
  | _ =>
      simp only [Clause.children, List.mem_append] at member
      simp only [Clause.implication.sizeOf_spec, Clause.equivalence.sizeOf_spec,
        Clause.forAll.sizeOf_spec, Clause.thereIs.sizeOf_spec, Clause.disjunction.sizeOf_spec,
        Clause.piecewise.sizeOf_spec, Clause.matching.sizeOf_spec, Clause.generated.sizeOf_spec]
      grind [→ sizeOf_lt_of_mem_items, → sizeOf_lt_of_mem_itemsIn]

/-- What holds of a clause if it holds of the clauses right inside it holds of all clauses. -/
theorem Clause.induction_on {motive : Clause → Prop} (clause : Clause)
    (step : ∀ clause, (∀ child ∈ clause.children, motive child) → motive clause) : motive clause :=
  step clause fun child member =>
    have := sizeOf_lt_of_mem_children member
    induction_on child step
termination_by sizeOf clause

theorem Clause.at?_eq_branching (clause : Clause) :
    clause.at? = branching (some clause) (clause.children.map Clause.at?) := by
  funext address
  cases address with
  | nil => rfl
  | cons index rest =>
      simp only [at?, branching, List.getElem?_map]
      cases clause.children[index]? <;> rfl

theorem Clauses.at?_eq_branching (clauses : Clauses) :
    clauses.at? = branching none (clauses.items.map Clause.at?) := by
  funext address
  cases address with
  | nil => rfl
  | cons index rest =>
      simp only [at?, branching, List.getElem?_map]
      cases clauses.items[index]? <;> rfl

theorem formulasOf_eq (items : List Clause) : formulasOf items = items.flatMap Clause.formulas := by
  induction items with
  | nil => rfl
  | cons clause rest ih => rw [formulasOf, ih, List.flatMap_cons]

theorem Clauses.formulas_eq (clauses : Clauses) :
    clauses.formulas = clauses.items.flatMap Clause.formulas := by
  cases clauses
  exact formulasOf_eq _

theorem formulasIn_eq (clauses : Option Clauses) :
    formulasIn clauses = (itemsIn clauses).flatMap Clause.formulas := by
  cases clauses with
  | none => rfl
  | some found => exact found.formulas_eq

theorem Clause.formulas_eq (clause : Clause) :
    clause.formulas = clause.formula?.toList ++ clause.children.flatMap Clause.formulas := by
  cases clause <;>
    simp [Clause.formulas, formula?, children, Clauses.formulas_eq, formulasIn_eq]

theorem Clause.enumerates_formulas (clause : Clause) :
    Enumerates clause.formulaAt? clause.formulas := by
  induction clause using Clause.induction_on with
  | step clause ih =>
      have tree : clause.formulaAt?
          = branching clause.formula? (clause.children.map Clause.formulaAt?) := by
        funext address
        rw [formulaAt?, at?_eq_branching, branching_bind, List.map_map]
        rfl
      rw [tree, clause.formulas_eq]
      exact .of_children clause.formula? ih

theorem Clauses.enumerates_formulas (clauses : Clauses) :
    Enumerates clauses.formulaAt? clauses.formulas := by
  have tree : clauses.formulaAt? = branching none (clauses.items.map Clause.formulaAt?) := by
    funext address
    rw [formulaAt?, at?_eq_branching, branching_bind, List.map_map]
    rfl
  rw [tree, clauses.formulas_eq]
  exact .of_children none fun clause _ => clause.enumerates_formulas

/-! ## Entries -/

/-- The formula at an address inside a section that may be left out. -/
def formulaIn? : Option Clauses → Address → Option Formula
  | none => leaf none
  | some clauses => clauses.formulaAt?

/-- The formula at an address inside what a definition provides: a view, how it is seen and by what,
or what is said of a member. -/
def Provision.formulaAt? : Provision → Address → Option Formula
  | view target via by_ _ => branching none [leaf (some target), leaf via, leaf by_]
  | member _ means _ => means.formulaAt?

def Provisions.formulaAt? (provisions : Provisions) : Address → Option Formula :=
  branching none (provisions.items.map Provision.formulaAt?)

/-- The formula at an address inside the sections of a definition. -/
def Defines.formulaAt? (defines : Defines) : Address → Option Formula :=
  branching none [formulaIn? defines.when, formulaIn? defines.suchThat, formulaIn? defines.means,
    formulaIn? defines.satisfying, formulaIn? defines.expressing, formulaIn? defines.aliases,
    (defines.providing.map Provisions.formulaAt?).getD (leaf none)]

/-- The formula at an address inside the sections of a definition. -/
def States.formulaAt? (states : States) : Address → Option Formula :=
  branching none [formulaIn? states.when, formulaIn? states.suchThat, states.that.formulaAt?,
    formulaIn? states.aliases]

def Definition.formulaAt? : Definition → Address → Option Formula
  | defines found => found.formulaAt?
  | states found => found.formulaAt?

/-- The formula at an address inside the sections of a result. -/
def Result.formulaAt? (result : Result) : Address → Option Formula :=
  branching none [formulaIn? result.setting, formulaIn? result.hypotheses,
    formulaIn? result.equivalents, result.conclusions.formulaAt?, formulaIn? result.aliases,
    formulaIn? result.proof]

/-- The formula at an address inside an entry. -/
def Entry.formulaAt? : Entry → Address → Option Formula
  | definition found | foundation found _ _ => found.formulaAt?
  | result found => found.formulaAt?
  | topic _ | resource _ => leaf none
  | mutually found _ _ => branching none (found.map Definition.formulaAt?)

theorem enumerates_formulasIn (clauses : Option Clauses) :
    Enumerates (formulaIn? clauses) (formulasIn clauses) := by
  cases clauses with
  | none => exact .of_leaf none
  | some found => exact found.enumerates_formulas

/-- The formulas of the sections that are present are those of all sections. -/
theorem flatMap_formulas_sections (sections : List (String × Option Clauses)) :
    (sections.filterMap fun (name, list) => list.map (name, ·)).flatMap
      (fun part => part.2.formulas)
      = (sections.map fun part => formulasIn part.2).flatten := by
  induction sections with
  | nil => rfl
  | cons first rest ih =>
      rcases first with ⟨name, _ | clauses⟩
      · simpa [formulasIn] using ih
      · simpa [formulasIn] using ih

theorem Provision.enumerates_formulas (provision : Provision) :
    Enumerates provision.formulaAt? provision.formulas := by
  cases provision with
  | view target via by_ location =>
      have parts := Enumerates.of_branches none
        (.cons (.of_leaf (some target)) (.cons (.of_leaf via) (.cons (.of_leaf by_) .nil)))
      simpa [formulaAt?, formulas, view?, innerFormulas] using parts
  | member targets means location => exact means.enumerates_formulas

theorem Provisions.enumerates_formulas (provisions : Provisions) :
    Enumerates provisions.formulaAt? provisions.formulas :=
  .of_children none fun provision _ => provision.enumerates_formulas

theorem Defines.enumerates_formulas (defines : Defines) :
    Enumerates defines.formulaAt? defines.formulas := by
  have provided : Enumerates ((defines.providing.map Provisions.formulaAt?).getD (leaf none))
      ((defines.providing.map Provisions.formulas).getD []) := by
    cases defines.providing with
    | none => exact .of_leaf none
    | some provisions => exact provisions.enumerates_formulas
  have parts := Enumerates.of_branches none
    (.cons (enumerates_formulasIn defines.when) (.cons (enumerates_formulasIn defines.suchThat)
      (.cons (enumerates_formulasIn defines.means) (.cons (enumerates_formulasIn defines.satisfying)
        (.cons (enumerates_formulasIn defines.expressing)
          (.cons (enumerates_formulasIn defines.aliases) (.cons provided .nil)))))))
  simpa [formulaAt?, formulas, sections, flatMap_formulas_sections] using parts

theorem States.enumerates_formulas (states : States) :
    Enumerates states.formulaAt? states.formulas := by
  have parts := Enumerates.of_branches none
    (.cons (enumerates_formulasIn states.when) (.cons (enumerates_formulasIn states.suchThat)
      (.cons states.that.enumerates_formulas (.cons (enumerates_formulasIn states.aliases) .nil))))
  simpa [formulaAt?, formulas, sections, flatMap_formulas_sections, formulasIn] using parts

theorem Definition.enumerates_formulas (definition : Definition) :
    Enumerates definition.formulaAt? definition.formulas := by
  cases definition with
  | defines found => exact found.enumerates_formulas
  | states found => exact found.enumerates_formulas

theorem Result.enumerates_formulas (result : Result) :
    Enumerates result.formulaAt? result.formulas := by
  have parts := Enumerates.of_branches none
    (.cons (enumerates_formulasIn result.setting) (.cons (enumerates_formulasIn result.hypotheses)
      (.cons (enumerates_formulasIn result.equivalents)
        (.cons result.conclusions.enumerates_formulas
          (.cons (enumerates_formulasIn result.aliases)
            (.cons (enumerates_formulasIn result.proof) .nil))))))
  simpa [formulaAt?, formulas, sections, flatMap_formulas_sections, formulasIn] using parts

/-- The formulas of an entry are those at its addresses: in every section, in whatever groups of
clauses, in what its definition provides, and in every definition that it groups together. Each of
them comes once, in the order of the addresses. -/
theorem formulas_at_addresses (entry : Entry) : Enumerates entry.formulaAt? entry.formulas := by
  cases entry with
  | definition found | foundation found _ _ =>
      change Enumerates found.formulaAt? ([found].flatMap Definition.formulas)
      rw [List.flatMap_singleton]
      exact found.enumerates_formulas
  | result found => exact found.enumerates_formulas
  | topic _ => exact .of_leaf none
  | resource _ => exact .of_leaf none
  | mutually found _ _ =>
      exact .of_children none fun definition _ => definition.enumerates_formulas

end Treatise.Document
