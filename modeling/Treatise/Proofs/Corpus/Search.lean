import Treatise.Corpus.Search
import Treatise.Proofs.Table

/-!
# Search indexes as relations

A search index relates words to the paths of the files they occur in. A neat index, in which no word
is without a path and the paths of a word rise strictly, is determined by that relation.
-/

namespace Treatise.Corpus.SearchIndex

open Table (Filled listAt_insert)

/-- No word is without a path, and the paths of each word rise strictly. -/
structure Neat (index : SearchIndex) : Prop where
  filled : Filled index
  rising : ∀ word, (paths index word).Pairwise (· < ·)

theorem paths_eq_listAt (index : SearchIndex) (word : String) :
    paths index word = Table.listAt index word := rfl

theorem neat_empty : Neat Table.empty :=
  ⟨Table.filled_empty, by simp [paths]⟩

/-! ## Adding and removing files -/

theorem add_cons (index : SearchIndex) (path word : String) (words : List String) :
    add index path (word :: words)
      = add (Table.insert index word (insertName path (paths index word))) path words := rfl

theorem Neat.insert {index : SearchIndex} (neat : Neat index) (path word : String) :
    Neat (Table.insert index word (insertName path (paths index word))) := by
  have nonempty : insertName path (paths index word) ≠ [] :=
    List.ne_nil_of_mem (mem_insertName.mpr (Or.inl rfl))
  refine ⟨neat.filled.insert word nonempty, fun other => ?_⟩
  rw [paths_eq_listAt, listAt_insert]
  split_ifs
  · exact pairwise_insertName (neat.rising word)
  · exact neat.rising other

theorem mem_paths_insert {index : SearchIndex} {path word other place : String} :
    place ∈ paths (Table.insert index word (insertName path (paths index word))) other
      ↔ place ∈ paths index other ∨ place = path ∧ other = word := by
  rw [paths_eq_listAt, listAt_insert]
  by_cases same : other = word
  · subst same
    simp [mem_insertName, or_comm]
  · simp [same, paths_eq_listAt]

theorem Neat.add {index : SearchIndex} (neat : Neat index) (path : String) (words : List String) :
    Neat (add index path words) := by
  induction words generalizing index with
  | nil => exact neat
  | cons word rest ih => exact ih (neat.insert path word)

theorem mem_paths_add {index : SearchIndex} {path word place : String} {words : List String} :
    place ∈ paths (add index path words) word
      ↔ place ∈ paths index word ∨ place = path ∧ word ∈ words := by
  induction words generalizing index with
  | nil => simp [add]
  | cons first rest ih =>
      rw [add_cons, ih, mem_paths_insert, List.mem_cons]
      tauto

theorem key_of_kept {path word key : String} {found left : List String}
    (kept : (match found.filter (· ≠ path) with
      | [] => none
      | rest => some (word, rest)) = some (key, left)) : word = key := by
  split at kept
  · cases kept
  · cases kept
    rfl

theorem sorted_remove {index : SearchIndex} (sorted : Table.Sorted index) (path : String) :
    Table.Sorted (remove index path) := by
  refine List.Pairwise.filterMap _ ?_ sorted
  rintro ⟨word, found⟩ ⟨word', found'⟩ before ⟨key, left⟩ kept ⟨key', left'⟩ kept'
  have same := key_of_kept kept
  have same' := key_of_kept kept'
  subst same same'
  exact before

theorem mem_entries_remove (index : SearchIndex) (path word : String) (left : List String) :
    (word, left) ∈ (remove index path).entries
      ↔ left ≠ [] ∧ ∃ found, (word, found) ∈ index.entries ∧ left = found.filter (· ≠ path) := by
  simp only [remove, List.mem_filterMap, Prod.exists]
  constructor
  · rintro ⟨key, found, present, kept⟩
    split at kept
    · simp at kept
    · next rest =>
      simp only [Option.some.injEq, Prod.mk.injEq] at kept
      rcases kept with ⟨rfl, rfl⟩
      exact ⟨rest, found, present, rfl⟩
  · rintro ⟨nonempty, found, present, rfl⟩
    refine ⟨word, found, present, ?_⟩
    split
    · next emptied => exact absurd emptied nonempty
    · rfl

theorem paths_remove {index : SearchIndex} (sorted : Table.Sorted index) (path word : String) :
    paths (remove index path) word = (paths index word).filter (· ≠ path) := by
  have kept := mem_entries_remove index path word
  simp only [← Table.find?_eq_some_iff sorted,
    ← Table.find?_eq_some_iff (sorted_remove sorted path)] at kept
  simp only [paths]
  cases present : Table.find? index word with
  | none =>
      have absent : Table.find? (remove index path) word = none := by
        rw [Option.eq_none_iff_forall_ne_some]
        intro left removed
        rcases (kept left).mp removed with ⟨-, found, present', -⟩
        simp [present] at present'
      simp [absent]
  | some found =>
      by_cases emptied : found.filter (· ≠ path) = []
      · have absent : Table.find? (remove index path) word = none := by
          rw [Option.eq_none_iff_forall_ne_some]
          intro left removed
          rcases (kept left).mp removed with ⟨nonempty, found', present', rfl⟩
          rw [present, Option.some.injEq] at present'
          exact nonempty (present' ▸ emptied)
        simpa [absent] using emptied.symm
      · have left := (kept _).mpr ⟨emptied, found, present, rfl⟩
        simp [left]

theorem Neat.remove {index : SearchIndex} (neat : Neat index) (path : String) :
    Neat (remove index path) := by
  have sorted := sorted_remove neat.filled.sorted path
  refine ⟨⟨sorted, fun {word left} present => ?_⟩, fun word => ?_⟩
  · exact ((mem_entries_remove _ _ _ _).mp ((Table.find?_eq_some_iff sorted).mp present)).1
  · rw [paths_remove neat.filled.sorted]
    exact (neat.rising word).filter _

theorem mem_paths_remove {index : SearchIndex} (neat : Neat index) {path word place : String} :
    place ∈ paths (remove index path) word ↔ place ∈ paths index word ∧ place ≠ path := by
  simp [paths_remove neat.filled.sorted]

/-- Neat indexes that relate the same words and paths are the same. -/
theorem Neat.ext {first second : SearchIndex} (neat : Neat first) (neat' : Neat second)
    (agree : ∀ word path, path ∈ paths first word ↔ path ∈ paths second word) :
    first = second := by
  refine neat.filled.ext neat'.filled fun word => ?_
  exact List.Pairwise.eq_of_mem_iff (neat.rising word) (neat'.rising word) fun path =>
    agree word path

end Treatise.Corpus.SearchIndex
