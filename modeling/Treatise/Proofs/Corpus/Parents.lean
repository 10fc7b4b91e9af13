import Treatise.Expansion.Inlining
import Treatise.Proofs.Corpus.Hierarchy

/-!
# What gives a signature its parent

A definition asserts that its thing is a thing of some signature if its meaning is a single clause,
and this is a formula with `is`. The hierarchy does not ask for a single clause but for a single
formula, at whatever depth it stands: also one that is negated, or one of several alternatives,
gives a parent.

Main statement: the parent comes from the sole formula of the meaning. This is what the definition
asserts if all clauses of the meaning are formulas, and in any case where the definition can be
inlined.
-/

namespace Treatise.Corpus

open Document (Clause Clauses Definition Defines Formula)
open Expansion (Body)
open Statement (Expr)

/-- An expression says that something is a thing of a signature: the first one right of its `is`. -/
def SaysIs (expr : Expr) (parent : String) : Prop :=
  ∃ left right location, expr = .relation .isA left right location
    ∧ (right.flatMap Expr.signaturesWithin).head? = some parent

/-- The meaning of a definition is one clause, a formula that says what the thing is. -/
def Asserts (defines : Defines) (parent : String) : Prop :=
  ∃ formula location expr, defines.means = some (.mk [.formula formula] location)
    ∧ formula.expr? = some expr ∧ SaysIs expr parent

/-- The only formula in the meaning of a definition, at any depth, says what the thing is. -/
def SolelySays (defines : Defines) (parent : String) : Prop :=
  ∃ clauses formula expr, defines.means = some clauses ∧ clauses.formulas = [formula]
    ∧ formula.expr? = some expr ∧ SaysIs expr parent

section Meaning

variable {defines : Defines} {parent : String}

theorem parentOf?_eq_some_iff : parentOf? defines = some parent ↔ SolelySays defines parent := by
  constructor
  · intro found
    unfold parentOf? at found
    simp only [Option.bind_eq_bind, Option.bind_eq_some_iff] at found
    rcases found with ⟨clauses, means, found⟩
    split at found
    · next formula sole =>
      rw [Option.bind_eq_some_iff] at found
      rcases found with ⟨expr, reads, found⟩
      split at found
      · next left right location =>
        exact ⟨clauses, formula, _, means, sole, reads, left, right, location, rfl, found⟩
      · cases found
    · cases found
  · rintro ⟨clauses, formula, expr, means, sole, reads, left, right, location, rfl, first⟩
    simp [parentOf?, means, sole, reads, first]

/-- Clauses that are formulas are the formulas that occur in them. -/
theorem eq_map_formulasOf {items : List Clause}
    (plain : ∀ clause ∈ items, clause.formula?.isSome) :
    items = (Document.formulasOf items).map .formula := by
  induction items with
  | nil => rfl
  | cons clause rest ih =>
      rcases List.forall_mem_cons.mp plain with ⟨here, later⟩
      cases clause with
      | formula formula =>
          simp only [Document.formulasOf, Clause.formulas, List.singleton_append, List.map_cons]
          exact congrArg _ (ih later)
      | _ => cases here

theorem solelySays_of_asserts (asserts : Asserts defines parent) : SolelySays defines parent := by
  rcases asserts with ⟨formula, location, expr, means, reads, isOf⟩
  exact ⟨_, formula, expr, means, rfl, reads, isOf⟩

/-- If all clauses of the meaning are formulas, the sole formula is the sole clause. -/
theorem asserts_of_solelySays
    (plain : ∀ clauses ∈ defines.means, ∀ clause ∈ clauses.items, clause.formula?.isSome)
    (solely : SolelySays defines parent) : Asserts defines parent := by
  rcases solely with ⟨⟨items, location⟩, formula, expr, means, sole, reads, isOf⟩
  have single : items = [.formula formula] :=
    (eq_map_formulasOf (plain _ means)).trans (congrArg (List.map Clause.formula) sole)
  exact ⟨formula, location, expr, single ▸ means, reads, isOf⟩

/-- What can be inlined for a definition is the single clause of its meaning. -/
theorem exists_clause_of_body {body : Body}
    (inlines : Body.ofDefinition? (.defines defines) = some body) :
    ∃ formula location, defines.means = some (.mk [.formula formula] location)
      ∧ formula.expr? = some body.expr := by
  unfold Body.ofDefinition? at inlines
  simp only [Option.bind_eq_bind, Option.bind_eq_some_iff] at inlines
  rcases inlines with ⟨⟨items, location⟩, means, found⟩
  split at found
  · next formula single =>
    simp only [Option.bind_eq_some_iff] at found
    rcases found with ⟨id, _, expr, reads, made⟩
    cases made
    cases single
    exact ⟨formula, location, means, reads⟩
  · cases found

end Meaning

/-- A definition gives its signature a parent if the sole formula of its meaning, at any depth, says
what its thing is, and it leaves the parent as it is otherwise. Where all clauses of the meaning are
formulas, the parent is what the definition asserts, and where the definition can be inlined, what
its body says. -/
theorem parent_of_sole_formula (hierarchy : Hierarchy) {defines : Defines} {signature : String}
    (signed : defines.id.signature? = some signature) :
    (∀ parent, SolelySays defines parent →
        (hierarchy.add defines).parent? signature = some parent)
      ∧ ((∀ parent, ¬ SolelySays defines parent) →
        (hierarchy.add defines).parent? signature = hierarchy.parent? signature)
      ∧ (∀ other, other ≠ signature →
        (hierarchy.add defines).parent? other = hierarchy.parent? other)
      ∧ (∀ parent, Asserts defines parent → SolelySays defines parent)
      ∧ ((∀ clauses ∈ defines.means, ∀ clause ∈ clauses.items, clause.formula?.isSome) →
        ∀ parent, SolelySays defines parent → Asserts defines parent)
      ∧ ∀ body, Body.ofDefinition? (.defines defines) = some body →
        ∀ parent, SolelySays defines parent ↔ SaysIs body.expr parent := by
  have after (other : String) : (hierarchy.add defines).parent? other
      = if signature = other then (parentOf? defines).or (hierarchy.parent? other)
        else hierarchy.parent? other := by
    have edges := congrArg Hierarchy.Edges.parent? (Hierarchy.edges_add hierarchy defines other)
    rw [signed] at edges
    simp only [Option.some.injEq] at edges
    split_ifs at edges ⊢ <;> exact edges
  refine ⟨?_, ?_, ?_, ?_, ?_, ?_⟩
  · intro parent solely
    rw [after, if_pos rfl, parentOf?_eq_some_iff.mpr solely, Option.some_or]
  · intro silent
    have none_ : parentOf? defines = none :=
      Option.eq_none_iff_forall_ne_some.mpr fun parent found =>
        silent parent (parentOf?_eq_some_iff.mp found)
    rw [after, if_pos rfl, none_, Option.none_or]
  · intro other differs
    rw [after, if_neg (Ne.symm differs)]
  · exact fun parent => solelySays_of_asserts
  · exact fun plain parent => asserts_of_solelySays plain
  · intro body inlines parent
    rcases exists_clause_of_body inlines with ⟨formula, location, means, reads⟩
    constructor
    · rintro ⟨clauses, found, expr, means', sole, reads', isOf⟩
      cases means.symm.trans means'
      cases sole
      cases reads.symm.trans reads'
      exact isOf
    · exact fun isOf => ⟨_, formula, body.expr, means, rfl, reads, isOf⟩

/-- A definition that means a single `is` asserts its parent. -/
theorem sole_is_gives_parent :
    ∃ defines, definesIn (.read "a.math" "[\\a]\nDefines: x\nmeans: 'x is \\b'\n") = [defines]
      ∧ defines.id.signature? = some "\\a"
      ∧ (Hierarchy.empty.add defines).parent? "\\a" = some "\\b" ∧ Asserts defines "\\b" := by
  let source := Source.read "a.math" "[\\a]\nDefines: x\nmeans: 'x is \\b'\n"
  have facts : ∀ defines ∈ definesIn source, defines.id.signature? = some "\\a"
      ∧ parentOf? defines = some "\\b"
      ∧ ∀ clauses ∈ defines.means, ∀ clause ∈ clauses.items, clause.formula?.isSome := by
    decide +kernel
  rcases List.length_eq_one_iff.mp (by decide +kernel : (definesIn source).length = 1) with
    ⟨defines, sole⟩
  rcases facts defines (by simp [sole]) with ⟨signed, parent, plain⟩
  rcases parent_of_sole_formula Hierarchy.empty signed with ⟨sets, _, _, _, asserts, _⟩
  have solely : SolelySays defines "\\b" := parentOf?_eq_some_iff.mp parent
  exact ⟨defines, sole, signed, sets "\\b" solely, asserts plain "\\b" solely⟩

/-- A definition that means the negation of an `is` gets the parent that it denies. -/
theorem negated_is_gives_parent :
    ∃ defines, definesIn (.read "a.math" "[\\a]\nDefines: x\nmeans:\n. not: 'x is \\b'\n")
      = [defines]
      ∧ defines.id.signature? = some "\\a"
      ∧ (Hierarchy.empty.add defines).parent? "\\a" = some "\\b" ∧ ¬ Asserts defines "\\b" := by
  let source := Source.read "a.math" "[\\a]\nDefines: x\nmeans:\n. not: 'x is \\b'\n"
  have facts : ∀ defines ∈ definesIn source, defines.id.signature? = some "\\a"
      ∧ (Hierarchy.empty.add defines).parent? "\\a" = some "\\b"
      ∧ ∀ clauses ∈ defines.means, ∀ clause ∈ clauses.items, clause.formula?.isNone := by
    decide +kernel
  rcases List.length_eq_one_iff.mp (by decide +kernel : (definesIn source).length = 1) with
    ⟨defines, sole⟩
  rcases facts defines (by simp [sole]) with ⟨signed, parent, grouped⟩
  refine ⟨defines, sole, signed, parent, ?_⟩
  rintro ⟨formula, location, _, means, _, _⟩
  have isNone := grouped _ means (.formula formula) (by simp [Clauses.items])
  simp [Clause.formula?] at isNone

end Treatise.Corpus
