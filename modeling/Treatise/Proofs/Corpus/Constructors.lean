import Treatise.Corpus.Basic
import Treatise.Proofs.Document.Generators

/-!
# Signatures of constructors

What is built by a constructor of a definition is referred to by the signature of the definition and
the name of the constructor. Whether a reference to it can be resolved depends on whether the
definition introduces that signature, and so on whether the `generated:` group of the constructor is
found.

Main statement: `means:` and `satisfying:` are searched for `generated:` groups at any depth, and
all of them are found that are not passed over; the constructors of these have signatures, and no
others.
-/

namespace Treatise.Corpus

open Document (Clause Clauses Defines Definition Signature)

/-- The `generated:` groups that are found in clauses are those at all addresses that are not passed
over, each once and in the order of the addresses. They are all groups that there are if and only if
no group is passed over. A definition introduces its own signature and one for each constructor of
each group that is found in what it means or satisfies. -/
theorem constructors_signed {defines : Defines} {signature : Signature}
    (signed : (Definition.defines defines).signature = some signature) :
    (∀ clauses : Clauses, Enumerates clauses.foundAt? clauses.generators
        ∧ (Enumerates clauses.generatorAt? clauses.generators
          ↔ ∀ address, (clauses.generatorAt? address).isSome → clauses.hides address = false))
      ∧ ∀ found, found ∈ (Definition.defines defines).signatures ↔ found = signature
        ∨ ∃ clauses address group name,
          (defines.means = some clauses ∨ defines.satisfying = some clauses)
            ∧ clauses.foundAt? address = some group ∧ name ∈ group.constructors
            ∧ found = ⟨signature.form ++ "." ++ name, group.location⟩ := by
  refine ⟨fun clauses => ⟨clauses.enumerates_generators, clauses.enumerates_all_generators_iff⟩, ?_⟩
  intro found
  rw [Defines.mem_signatures_iff signed]
  apply or_congr_right
  constructor
  · rintro ⟨group, member, name, constructs, rfl⟩
    rcases Defines.mem_generators_iff.mp member with ⟨clauses, address, section_, stands⟩
    exact ⟨clauses, address, group, name, section_, stands, constructs, rfl⟩
  · rintro ⟨clauses, address, group, name, section_, stands, constructs, rfl⟩
    exact ⟨group, Defines.mem_generators_iff.mpr ⟨clauses, address, section_, stands⟩, name,
      constructs,
      rfl⟩

/-- A constructor inside other groups has a signature. -/
theorem nested_constructor_signed : ∃ defines clauses group,
    definesIn (.read "a.math" "[\\a]\nDefines: x\nmeans:\n. or:\n  . generated:\n    from: c(y)\n")
        = [defines]
      ∧ (Definition.defines defines).signature = some ⟨"\\a", ⟨0, 0⟩⟩
      ∧ defines.means = some clauses ∧ clauses.foundAt? [0, 0] = some group
      ∧ ⟨"\\a.c", group.location⟩ ∈ (Definition.defines defines).signatures := by
  let source := Source.read "a.math"
    "[\\a]\nDefines: x\nmeans:\n. or:\n  . generated:\n    from: c(y)\n"
  have read : (definesIn source).length = 1 ∧ ∀ defines ∈ definesIn source,
      (Definition.defines defines).signature = some ⟨"\\a", ⟨0, 0⟩⟩
        ∧ (defines.means.bind (·.foundAt? [0, 0])).map Clause.constructors = some ["c"] := by
    decide +kernel
  rcases read with ⟨one, facts⟩
  rcases List.length_eq_one_iff.mp one with ⟨defines, sole⟩
  rcases facts defines (by simp [sole]) with ⟨signed, constructs⟩
  rcases Option.map_eq_some_iff.mp constructs with ⟨group, stands, names⟩
  rcases Option.bind_eq_some_iff.mp stands with ⟨clauses, means, found⟩
  refine ⟨defines, clauses, group, sole, signed, means, found, ?_⟩
  exact ((constructors_signed signed).2 _).mpr
    (.inr ⟨clauses, [0, 0], group, "c", .inl means, found, by simp [names], rfl⟩)

/-- In what a text defines there is a group that is not found and a constructor that has no
signature. -/
def Unsigned (text : String) (address : Address) (form name : String) : Prop :=
  ∃ defines clauses group, definesIn (.read "a.math" text) = [defines]
    ∧ defines.id.signature? = some form ∧ defines.means = some clauses
    ∧ clauses.generatorAt? address = some group ∧ group ∉ clauses.generators
    ∧ name ∈ group.constructors
    ∧ ∀ found ∈ (Definition.defines defines).signatures, found.form ≠ form ++ "." ++ name

theorem unsigned_of_read {text form name : String} {address : Address}
    (read : (definesIn (.read "a.math" text)).length = 1
      ∧ ∀ defines ∈ definesIn (.read "a.math" text), defines.id.signature? = some form
        ∧ (defines.means.bind (·.generatorAt? address)).map Clause.constructors = some [name]
        ∧ ∀ found ∈ (Definition.defines defines).signatures, found.form ≠ form ++ "." ++ name) :
    Unsigned text address form name := by
  rcases read with ⟨one, facts⟩
  rcases List.length_eq_one_iff.mp one with ⟨defines, sole⟩
  rcases facts defines (by simp [sole]) with ⟨signed, constructs, unsigned⟩
  rcases Option.map_eq_some_iff.mp constructs with ⟨group, stands, names⟩
  rcases Option.bind_eq_some_iff.mp stands with ⟨clauses, means, stands⟩
  have constructs : name ∈ group.constructors := by simp [names]
  refine ⟨defines, clauses, group, sole, signed, means, stands, fun member => ?_, constructs,
    unsigned⟩
  have own : (Definition.defines defines).signature = some ⟨form, defines.id.location⟩ := by
    simp [Definition.signature, Definition.id, Document.Formula.signature, signed]
  have found : group ∈ defines.generators := by
    rw [Defines.generators, means]
    exact List.mem_append_left _ member
  exact unsigned _
    ((Defines.mem_signatures_iff own).mpr (.inr ⟨group, found, name, constructs, rfl⟩)) rfl

/-- A group that is negated together with others is passed over, and so is one in the conditions of
another group: their constructors have no signatures. -/
theorem hidden_constructors_unsigned :
    Unsigned "[\\a]\nDefines: x\nmeans:\n. not:\n  . or:\n    . generated:\n      from: zero\n"
        [0, 0, 0] "\\a" "zero"
      ∧ Unsigned
        "[\\a]\nDefines: x\nmeans:\n. generated:\n  from: zero\n  when:\n  . generated:\n    from: one\n"
        [0, 0] "\\a" "one" := by
  constructor
  · exact unsigned_of_read (by decide +kernel)
  · exact unsigned_of_read (by decide +kernel)

end Treatise.Corpus
