import Treatise.Proofs.Corpus.Trie

/-!
# Words below a prefix

What a trie offers as completions is read off from the node that a prefix leads to. In a tidy trie
that node is tidy too, and it counts every continuation as often as the trie counts the whole word.
The words of a node rise strictly and are those that count, so completions miss nothing and repeat
nothing.
-/

namespace Treatise.Corpus.Trie

/-! ## The words of a node -/

mutual

theorem mem_words_iff {trie : Trie} (tidy : trie.Tidy) {word : List Char} :
    word ∈ trie.words ↔ 0 < trie.count word := by
  match trie, word with
  | node number branches, [] =>
      have unbranched : [] ∉ branchWords branches := fun present => by
        rcases (mem_branchWords_iff tidy).mp present with ⟨_, _, same, -⟩
        cases same
      by_cases none_ : number = 0 <;> simp [words, count, none_, unbranched, Nat.pos_iff_ne_zero]
  | node number branches, character :: rest =>
      have unended : character :: rest ∉ if number = 0 then [] else [[]] := by
        split_ifs <;> simp
      rw [words, List.mem_append, or_iff_right unended, mem_branchWords_iff tidy]
      simp [count]

theorem mem_branchWords_iff {branches : Branches} (tidy : TidyBranches branches)
    {word : List Char} :
    word ∈ branchWords branches
      ↔ ∃ character rest, word = character :: rest ∧ 0 < countBranch branches character rest := by
  match branches with
  | .nil => simp [branchWords, countBranch]
  | .cons first child branches =>
      rcases tidy with ⟨tidyChild, -, above, tidyRest⟩
      simp only [branchWords, List.mem_append, List.mem_map, mem_words_iff tidyChild,
        mem_branchWords_iff tidyRest]
      constructor
      · rintro (⟨rest, positive, rfl⟩ | ⟨character, rest, rfl, positive⟩)
        · exact ⟨first, rest, rfl, by simpa [countBranch] using positive⟩
        · refine ⟨character, rest, rfl, ?_⟩
          have differs : character ≠ first := by
            rintro rfl
            have absent : character ∉ branches.characters := fun member =>
              lt_irrefl _ (above character member)
            rw [countBranch_eq_zero rest absent] at positive
            exact lt_irrefl _ positive
          simpa [countBranch, differs] using positive
      · rintro ⟨character, rest, rfl, positive⟩
        by_cases same : character = first
        · subst same
          exact Or.inl ⟨rest, by simpa [countBranch] using positive, rfl⟩
        · exact Or.inr ⟨character, rest, rfl, by simpa [countBranch, same] using positive⟩

end

/-- The words below branches begin with the characters of these. -/
theorem mem_characters_of_mem_branchWords {branches : Branches} (tidy : TidyBranches branches)
    {character : Char} {rest : List Char} (present : character :: rest ∈ branchWords branches) :
    character ∈ branches.characters := by
  rcases (mem_branchWords_iff tidy).mp present with ⟨_, _, same, positive⟩
  cases same
  by_contra absent
  rw [countBranch_eq_zero rest absent] at positive
  exact lt_irrefl _ positive

mutual

theorem pairwise_words {trie : Trie} (tidy : trie.Tidy) : trie.words.Pairwise (· < ·) := by
  match trie with
  | node number branches =>
      refine List.pairwise_append.mpr ⟨?_, pairwise_branchWords tidy, ?_⟩
      · split_ifs <;> simp
      · intro ended endedMem word wordMem
        rcases (mem_branchWords_iff tidy).mp wordMem with ⟨character, rest, rfl, -⟩
        have bare : ended = [] := by
          split_ifs at endedMem
          · cases endedMem
          · exact List.mem_singleton.mp endedMem
        rw [bare]
        exact List.nil_lt_cons character rest

theorem pairwise_branchWords {branches : Branches} (tidy : TidyBranches branches) :
    (branchWords branches).Pairwise (· < ·) := by
  match branches with
  | .nil => exact List.Pairwise.nil
  | .cons character child branches =>
      rcases tidy with ⟨tidyChild, -, above, tidyRest⟩
      refine List.pairwise_append.mpr ⟨?_, pairwise_branchWords tidyRest, ?_⟩
      · refine List.pairwise_map.mpr ((pairwise_words tidyChild).imp fun before => ?_)
        exact List.cons_lt_cons_iff.mpr (Or.inr ⟨rfl, before⟩)
      · intro word wordMem other otherMem
        rcases List.mem_map.mp wordMem with ⟨rest, -, rfl⟩
        rcases (mem_branchWords_iff tidyRest).mp otherMem with ⟨character', rest', rfl, -⟩
        have before := above character' (mem_characters_of_mem_branchWords tidyRest otherMem)
        exact List.cons_lt_cons_iff.mpr (Or.inl before)

end

/-! ## The node that a prefix leads to -/

mutual

/-- Below a prefix stands a tidy trie, which is empty if the prefix leads nowhere. -/
theorem below_spec {trie : Trie} (tidy : trie.Tidy) (start : List Char) :
    ((trie.below? start).getD empty).Tidy
      ∧ ∀ rest, ((trie.below? start).getD empty).count rest = trie.count (start ++ rest) := by
  match trie, start with
  | trie, [] => simpa [below?] using tidy
  | node number branches, character :: more => exact belowBranch_spec tidy character more

theorem belowBranch_spec {branches : Branches} (tidy : TidyBranches branches) (character : Char)
    (more : List Char) : ((belowBranch? branches character more).getD empty).Tidy
      ∧ ∀ rest, ((belowBranch? branches character more).getD empty).count rest
        = countBranch branches character (more ++ rest) := by
  match branches with
  | .nil => simp [belowBranch?, countBranch, tidy_empty]
  | .cons first child branches =>
      rcases tidy with ⟨tidyChild, -, -, tidyRest⟩
      simp only [belowBranch?, countBranch]
      split_ifs
      · exact below_spec tidyChild more
      · exact belowBranch_spec tidyRest character more

end

theorem suffixes_eq (trie : Trie) (start : String) :
    trie.suffixes start = ((trie.below? start.toList).getD empty).words.map String.ofList := by
  unfold suffixes
  split
  · next found present => rw [present, Option.getD_some]
  · next absent =>
    rw [absent, Option.getD_none]
    rfl

theorem mem_suffixes_iff {trie : Trie} (tidy : trie.Tidy) {start suffix : String} :
    suffix ∈ trie.suffixes start ↔ 0 < trie.count (start ++ suffix).toList := by
  rcases below_spec tidy start.toList with ⟨tidyBelow, counts⟩
  rw [suffixes_eq, String.toList_append, ← counts, ← mem_words_iff tidyBelow]
  constructor
  · rintro present
    rcases List.mem_map.mp present with ⟨word, member, rfl⟩
    rwa [String.toList_ofList]
  · intro present
    exact List.mem_map.mpr ⟨suffix.toList, present, String.ofList_toList⟩

theorem pairwise_suffixes {trie : Trie} (tidy : trie.Tidy) (start : String) :
    (trie.suffixes start).Pairwise (· < ·) := by
  rw [suffixes_eq]
  refine List.pairwise_map.mpr ((pairwise_words (below_spec tidy start.toList).1).imp ?_)
  intro word other before
  rwa [String.lt_iff_toList_lt, String.toList_ofList, String.toList_ofList]

end Treatise.Corpus.Trie
