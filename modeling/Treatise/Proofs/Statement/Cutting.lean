import Treatise.Proofs.Statement.Factors

/-!
# Cutting terms at separators

A list of terms is cut at all its separators and nowhere else, so it can be put together again from
the pieces. The separators are the commas, the assignments and the relations of one level, and each
of them is recognized by the kind of its token.
-/

namespace Treatise.Statement

section Cutting

variable {Separator : Type} {separator? : Term → Option Separator}

/-- No term is a separator. -/
def Uncut (separator? : Term → Option Separator) (terms : List Term) : Prop :=
  ∀ term ∈ terms, separator? term = none

@[simp]
theorem uncut_nil : Uncut separator? [] :=
  List.forall_mem_nil _

@[simp]
theorem uncut_cons {term : Term} {rest : List Term} :
    Uncut separator? (term :: rest) ↔ separator? term = none ∧ Uncut separator? rest :=
  List.forall_mem_cons

@[simp]
theorem uncut_append {terms others : List Term} :
    Uncut separator? (terms ++ others) ↔ Uncut separator? terms ∧ Uncut separator? others :=
  List.forall_mem_append

/-- Terms that are cut at all separators: what comes first, and what follows each of them. -/
inductive Cut (separator? : Term → Option Separator) :
    List Term → List Term → List (Separator × List Term) → Prop
  | last {terms : List Term} (uncut : Uncut separator? terms) : Cut separator? terms terms []
  | more {first rest segment : List Term} {term : Term} {separator : Separator}
      {others : List (Separator × List Term)} (uncut : Uncut separator? first)
      (here : separator? term = some separator) (more : Cut separator? rest segment others) :
      Cut separator? (first ++ term :: rest) first ((separator, segment) :: others)

theorem Cut.cons {term : Term} {rest first : List Term} {more : List (Separator × List Term)}
    (inside : separator? term = none) (cut : Cut separator? rest first more) :
    Cut separator? (term :: rest) (term :: first) more := by
  cases cut with
  | last uncut => exact .last (uncut_cons.mpr ⟨inside, uncut⟩)
  | more uncut here more => exact .more (uncut_cons.mpr ⟨inside, uncut⟩) here more

theorem cut_chunks (separator? : Term → Option Separator) (terms : List Term) :
    Cut separator? terms (chunks separator? terms).1 (chunks separator? terms).2 := by
  induction terms with
  | nil => exact .last uncut_nil
  | cons term rest ih =>
      rcases here : separator? term with _ | separator
      · simp only [chunks, here]
        exact ih.cons here
      · simp only [chunks, here]
        exact .more uncut_nil here ih

theorem chunks_append {first : List Term} (uncut : Uncut separator? first) (rest : List Term) :
    chunks separator? (first ++ rest)
      = (first ++ (chunks separator? rest).1, (chunks separator? rest).2) := by
  induction first with
  | nil => rfl
  | cons term first ih =>
      rcases uncut_cons.mp uncut with ⟨inside, uncut⟩
      simp only [List.cons_append, chunks, ih uncut, inside]

theorem Cut.chunks {terms first : List Term} {more : List (Separator × List Term)}
    (cut : Cut separator? terms first more) : chunks separator? terms = (first, more) := by
  induction cut with
  | last uncut => simpa [Statement.chunks] using chunks_append uncut []
  | more uncut here _ ih => simp [chunks_append uncut, Statement.chunks, here, ih]

end Cutting

/-! ## Separators -/

namespace Term

variable {term : Term}

theorem comma?_eq_some_iff {place : Location} :
    term.comma? = some place
      ↔ ∃ comma, term = .leaf comma ∧ comma.kind = .comma ∧ comma.location = place := by
  constructor
  · intro found
    unfold comma? at found
    split at found
    · cases found
      exact ⟨_, rfl, rfl, rfl⟩
    · cases found
  · rintro ⟨⟨_, _, _⟩, rfl, rfl, rfl⟩
    rfl

theorem assign?_eq_some_iff {place : Location} :
    term.assign? = some place
      ↔ ∃ assign, term = .leaf assign ∧ assign.kind = .assign ∧ assign.location = place := by
  constructor
  · intro found
    unfold assign? at found
    split at found
    · cases found
      exact ⟨_, rfl, rfl, rfl⟩
    · cases found
  · rintro ⟨⟨_, _, _⟩, rfl, rfl, rfl⟩
    rfl

theorem relationIn?_eq_some_iff {kinds : List RelationKind} {kind : RelationKind}
    {place : Location} :
    term.relationIn? kinds = some (kind, place)
      ↔ kind ∈ kinds
        ∧ ∃ token, term = .leaf token ∧ token.kind = .relation kind ∧ token.location = place := by
  rw [relationIn?, Option.filter_eq_some_iff, List.contains_iff_mem, and_comm]
  refine and_congr_right fun _ => ⟨?_, ?_⟩
  · intro found
    unfold relation? at found
    split at found
    · cases found
      exact ⟨_, rfl, rfl, rfl⟩
    · cases found
  · rintro ⟨⟨_, _, _⟩, rfl, rfl, rfl⟩
    rfl

theorem comma?_eq_none (other : term.kind ≠ .comma) : term.comma? = none := by
  refine Option.eq_none_iff_forall_ne_some.mpr fun place found => ?_
  rcases comma?_eq_some_iff.mp found with ⟨comma, rfl, same, _⟩
  exact other same

theorem assign?_eq_none (other : term.kind ≠ .assign) : term.assign? = none := by
  refine Option.eq_none_iff_forall_ne_some.mpr fun place found => ?_
  rcases assign?_eq_some_iff.mp found with ⟨assign, rfl, same, _⟩
  exact other same

theorem relationIn?_eq_none {kinds : List RelationKind}
    (other : ∀ kind ∈ kinds, term.kind ≠ .relation kind) : term.relationIn? kinds = none := by
  refine Option.eq_none_iff_forall_ne_some.mpr fun ⟨kind, place⟩ found => ?_
  rcases relationIn?_eq_some_iff.mp found with ⟨among, relation, rfl, same, _⟩
  exact other kind among same

end Term

end Treatise.Statement
