import Mathlib.Logic.Relation
import Treatise.Corpus.Hierarchy
import Treatise.Proofs.Table

/-!
# Searching the hierarchy of types

A search follows no edge twice, so it ends also where parents or views run in circles. It misses
nothing either: whatever is reached from a signature is reached by a path that leaves this signature
only once, since everything before the last time the signature is left can be cut off. So the edges
that leave a signature can be erased as soon as they are followed.

Main statement: the queries on the hierarchy say whether there are such paths.
-/

namespace Treatise.Corpus.Hierarchy

open Relation (ReflTransGen TransGen)

/-! ## Paths that leave a place once -/

section Paths

variable {Place : Type} {edge : Place → Place → Prop} {origin start goal : Place}

/-- The edges that leave other places than `origin`. -/
def Elsewhere (edge : Place → Place → Prop) (origin source target : Place) : Prop :=
  source ≠ origin ∧ edge source target

/-- A path never leaves `origin`, or it leaves it a last time. -/
theorem elsewhere_or_leaves (origin : Place) (path : ReflTransGen edge start goal) :
    ReflTransGen (Elsewhere edge origin) start goal
      ∨ ∃ next, edge origin next ∧ ReflTransGen (Elsewhere edge origin) next goal := by
  induction path using ReflTransGen.head_induction_on with
  | refl => exact .inl .refl
  | @head source next first _ ih =>
      rcases ih with elsewhere | leaves
      · by_cases same : source = origin
        · subst same
          exact .inr ⟨next, first, elsewhere⟩
        · exact .inl (elsewhere.head ⟨same, first⟩)
      · exact .inr leaves

theorem path_of_elsewhere (path : ReflTransGen (Elsewhere edge origin) start goal) :
    ReflTransGen edge start goal :=
  ReflTransGen.mono (fun _ _ step => step.2) start goal path

/-- A path that never leaves `origin` ends where it starts, if it starts there. -/
theorem elsewhere_from_origin_iff :
    ReflTransGen (Elsewhere edge origin) origin goal ↔ goal = origin :=
  Relation.reflTransGen_iff_eq fun _ step => step.1 rfl

theorem transGen_iff_leaves :
    TransGen edge origin goal
      ↔ ∃ next, edge origin next ∧ ReflTransGen (Elsewhere edge origin) next goal := by
  constructor
  · intro path
    rcases TransGen.head'_iff.mp path with ⟨next, first, rest⟩
    rcases elsewhere_or_leaves origin rest with elsewhere | leaves
    · exact ⟨next, first, elsewhere⟩
    · exact leaves
  · rintro ⟨next, first, rest⟩
    exact TransGen.head' first (path_of_elsewhere rest)

end Paths

/-! ## Parents -/

/-- The parents of signatures in a table. -/
def ParentIn (table : Table String) (child parent : String) : Prop :=
  table.find? child = some parent

theorem parentIn_erase (table : Table String) (signature : String) :
    ParentIn (table.erase signature) = Elsewhere (ParentIn table) signature := by
  ext child parent
  by_cases same : child = signature <;> simp [ParentIn, Elsewhere, Table.find?_erase, same]

theorem descends_iff (table : Table String) (signature ancestor : String) :
    descends table signature ancestor = true ↔ TransGen (ParentIn table) signature ancestor := by
  fun_induction descends table signature ancestor with
  | case1 table signature orphan =>
      rw [transGen_iff_leaves]
      simp [ParentIn, orphan]
  | case2 table signature parent found ih =>
      have sole : ∀ next, ParentIn table signature next ↔ next = parent := by
        intro next
        simp [ParentIn, found, eq_comm]
      rw [Bool.or_eq_true, beq_iff_eq, ih, parentIn_erase]
      calc (parent = ancestor ∨ TransGen (Elsewhere (ParentIn table) signature) parent ancestor)
          ↔ ReflTransGen (Elsewhere (ParentIn table) signature) parent ancestor := by
            rw [Relation.reflTransGen_iff_eq_or_transGen, eq_comm]
        _ ↔ TransGen (ParentIn table) signature ancestor := by
            rw [transGen_iff_leaves]
            simp only [sole, exists_eq_left]

/-! ## Views -/

/-- What signatures are viewable as in one step, by a table. -/
def ViewIn (table : Table (List String)) (signature target : String) : Prop :=
  ∃ targets, table.find? signature = some targets ∧ target ∈ targets

theorem viewIn_erase (table : Table (List String)) (signature : String) :
    ViewIn (table.erase signature) = Elsewhere (ViewIn table) signature := by
  ext source target
  by_cases same : source = signature <;> simp [ViewIn, Elsewhere, Table.find?_erase, same]

theorem reaches_iff (found : String → Bool) (table : Table (List String)) (pending : List String) :
    reaches found table pending = true
      ↔ ∃ start ∈ pending, ∃ goal, ReflTransGen (ViewIn table) start goal ∧ found goal = true := by
  fun_induction reaches found table pending with
  | case1 => simp
  | case2 table signature pending ihAbsent ihPresent =>
      rw [Bool.or_eq_true]
      split
      · next absent =>
        have stuck : ∀ goal, ReflTransGen (ViewIn table) signature goal ↔ goal = signature := by
          intro goal
          refine Relation.reflTransGen_iff_eq fun target step => ?_
          rcases step with ⟨targets, present, _⟩
          simp [absent] at present
        rw [ihAbsent, List.exists_mem_cons_iff,
          exists_congr fun goal => and_congr_left fun _ => stuck goal, exists_eq_left]
      · next targets present =>
        have leaves : ∀ next, ViewIn table signature next ↔ next ∈ targets := by
          intro next
          simp [ViewIn, present]
        rw [ihPresent targets present, viewIn_erase]
        constructor
        · rintro (here | ⟨start, among, goal, path, accepted⟩)
          · exact ⟨signature, List.mem_cons_self, signature, .refl, here⟩
          · rcases List.mem_append.mp among with later | next
            · exact ⟨start, List.mem_cons_of_mem _ later, goal, path_of_elsewhere path, accepted⟩
            · exact ⟨signature, List.mem_cons_self, goal,
                (path_of_elsewhere path).head ((leaves start).mpr next), accepted⟩
        · rintro ⟨start, among, goal, path, accepted⟩
          rcases elsewhere_or_leaves signature path with elsewhere | ⟨next, step, rest⟩
          · rcases List.mem_cons.mp among with rfl | later
            · rw [elsewhere_from_origin_iff.mp elsewhere] at accepted
              exact .inl accepted
            · exact .inr ⟨start, List.mem_append_left _ later, goal, elsewhere, accepted⟩
          · exact .inr ⟨next, List.mem_append_right _ ((leaves next).mp step), goal, rest, accepted⟩

/-! ## Queries -/

variable {hierarchy : Hierarchy}

/-- The parent of a signature is one step up in the hierarchy. -/
def IsParent (hierarchy : Hierarchy) (child parent : String) : Prop :=
  hierarchy.parent? child = some parent

/-- A signature is viewable as another one in one step. -/
def IsView (hierarchy : Hierarchy) (signature target : String) : Prop :=
  target ∈ hierarchy.viewsFrom signature

theorem viewIn_views (hierarchy : Hierarchy) : ViewIn hierarchy.views = hierarchy.IsView := by
  ext signature target
  cases present : hierarchy.views.find? signature <;> simp [ViewIn, IsView, viewsFrom, present]

/-- The queries are decided by paths along the edges of the hierarchy, whether or not these run in
circles or lead to signatures without a definition. -/
theorem queries_iff_paths (hierarchy : Hierarchy) (signature target : String) :
    (hierarchy.isDescendant signature target = true
        ↔ TransGen hierarchy.IsParent signature target)
      ∧ (hierarchy.isViewable signature target = true
        ↔ ∃ reached, ReflTransGen hierarchy.IsView signature reached
          ∧ (reached = target ∨ TransGen hierarchy.IsParent reached target))
      ∧ (hierarchy.isA signature target = true
        ↔ hierarchy.isDescendant signature target = true
          ∨ hierarchy.isViewable signature target = true) := by
  have descendant : ∀ reached, hierarchy.isDescendant reached target = true
      ↔ TransGen hierarchy.IsParent reached target :=
    fun reached => descends_iff hierarchy.parents reached target
  refine ⟨descendant signature, ?_, ?_⟩
  · rw [isViewable, reaches_iff, viewIn_views]
    simp only [List.mem_singleton, exists_eq_left, Bool.or_eq_true, beq_iff_eq, descendant]
  · rw [isA, Bool.or_eq_true]

end Treatise.Corpus.Hierarchy
