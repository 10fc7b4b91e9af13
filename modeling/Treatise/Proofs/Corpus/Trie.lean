import Mathlib.Data.Char
import Mathlib.Data.String.Basic
import Treatise.Corpus.Trie

/-!
# Tries as multisets of words

What matters of a trie is how often each word was put in. A trie is tidy if the branches of every
node rise strictly and no branch is without a word; the operations keep tries tidy. A tidy trie is
determined by the counts of its words, so taking words out undoes putting them in, whatever was put
in or taken out in between.
-/

namespace Treatise.Corpus

/-- The characters that the branches of a node begin with. -/
def Branches.characters : Branches → List Char
  | nil => []
  | cons character _ rest => character :: rest.characters

namespace Trie

mutual

/-- How often a word was put in and not taken out. -/
def count : Trie → List Char → Nat
  | node count _, [] => count
  | node _ branches, character :: rest => countBranch branches character rest

/-- How often a word was put in below the branches of a node. -/
def countBranch : Branches → Char → List Char → Nat
  | .nil, _, _ => 0
  | .cons other child branches, character, rest =>
    if character = other then child.count rest else countBranch branches character rest

end

mutual

/-- The branches of every node rise strictly, and each holds a word. -/
def Tidy : Trie → Prop
  | node _ branches => TidyBranches branches

/-- Branches rise strictly, and each holds a word. -/
def TidyBranches : Branches → Prop
  | .nil => True
  | .cons character child rest =>
    child.Tidy ∧ child.isEmpty = false ∧ (∀ other ∈ rest.characters, character < other)
      ∧ TidyBranches rest

end

theorem tidy_empty : empty.Tidy := by
  simp [empty, Tidy, TidyBranches]

@[simp]
theorem count_empty (word : List Char) : empty.count word = 0 := by
  cases word <;> simp [empty, count, countBranch]

theorem isEmpty_node {number : Nat} {branches : Branches} :
    (node number branches).isEmpty = true ↔ number = 0 ∧ branches = .nil := by
  cases number <;> cases branches <;> simp [isEmpty]

theorem countBranch_eq_zero {branches : Branches} {character : Char} (rest : List Char)
    (absent : character ∉ branches.characters) : countBranch branches character rest = 0 := by
  match branches with
  | .nil => simp [countBranch]
  | .cons other child branches =>
      simp only [Branches.characters, List.mem_cons, not_or] at absent
      simp [countBranch, absent.1, countBranch_eq_zero rest absent.2]

/-! ## Putting words in -/

theorem tidy_single (word : List Char) : (single word).Tidy ∧ (single word).isEmpty = false := by
  induction word with
  | nil => simp [single, Tidy, TidyBranches, isEmpty]
  | cons character rest ih =>
      exact ⟨⟨ih.1, ih.2, by simp [Branches.characters], trivial⟩, rfl⟩

theorem count_single (word other : List Char) :
    (single word).count other = if other = word then 1 else 0 := by
  induction word generalizing other with
  | nil => cases other <;> simp [single, count, countBranch]
  | cons character rest ih =>
      cases other with
      | nil => simp [single, count]
      | cons first others =>
          by_cases same : first = character <;> simp [single, count, countBranch, ih, same]

theorem mem_characters_insertBranch {branches : Branches} {character other : Char}
    {rest : List Char} (present : other ∈ (insertBranch branches character rest).characters) :
    other = character ∨ other ∈ branches.characters := by
  match branches with
  | .nil => simpa [insertBranch, Branches.characters] using present
  | .cons first child branches =>
      simp only [insertBranch] at present
      split_ifs at present with before same
      · simpa [Branches.characters] using present
      · exact Or.inr present
      · simp only [Branches.characters, List.mem_cons] at present ⊢
        rcases present with same | later
        · exact Or.inr (Or.inl same)
        · exact (mem_characters_insertBranch later).imp_right Or.inr

theorem isEmpty_insert (trie : Trie) (word : List Char) : (trie.insert word).isEmpty = false := by
  match trie, word with
  | node number branches, [] => simp [insert, isEmpty]
  | node number .nil, _ :: _ => simp [insert, insertBranch, isEmpty]
  | node number (.cons other child branches), character :: rest =>
      simp only [insert, insertBranch]
      split_ifs <;> simp [isEmpty]

mutual

theorem Tidy.insert {trie : Trie} (tidy : trie.Tidy) (word : List Char) :
    (trie.insert word).Tidy := by
  match trie, word with
  | node number branches, [] => exact tidy
  | node number branches, character :: rest =>
      exact TidyBranches.insert tidy character rest

theorem TidyBranches.insert {branches : Branches} (tidy : TidyBranches branches)
    (character : Char) (rest : List Char) :
    TidyBranches (insertBranch branches character rest) := by
  match branches with
  | .nil => simp [insertBranch, TidyBranches, Branches.characters, tidy_single]
  | .cons other child branches =>
      rcases tidy with ⟨tidyChild, holds, above, tidyRest⟩
      simp only [insertBranch]
      split_ifs with before same
      · refine ⟨(tidy_single rest).1, (tidy_single rest).2, ?_, tidyChild, holds, above, tidyRest⟩
        intro later present
        rcases List.mem_cons.mp present with rfl | present
        · exact before
        · exact before.trans (above later present)
      · exact ⟨tidyChild.insert rest, isEmpty_insert child rest, above, tidyRest⟩
      · refine ⟨tidyChild, holds, ?_, TidyBranches.insert tidyRest character rest⟩
        intro later present
        rcases mem_characters_insertBranch present with rfl | present
        · exact lt_of_le_of_ne (not_lt.mp before) (Ne.symm same)
        · exact above later present

end

mutual

theorem count_insert {trie : Trie} (tidy : trie.Tidy) (word other : List Char) :
    (trie.insert word).count other = trie.count other + if other = word then 1 else 0 := by
  match trie, word, other with
  | node number branches, [], [] => simp [insert, count]
  | node number branches, [], _ :: _ => simp [insert, count]
  | node number branches, _ :: _, [] => simp [insert, count]
  | node number branches, character :: rest, first :: others =>
      simp only [insert, count]
      rw [countBranch_insertBranch tidy]
      simp [List.cons.injEq]

theorem countBranch_insertBranch {branches : Branches} (tidy : TidyBranches branches)
    (character first : Char) (rest others : List Char) :
    countBranch (insertBranch branches character rest) first others
      = countBranch branches first others
        + if first = character ∧ others = rest then 1 else 0 := by
  match branches with
  | .nil =>
      by_cases same : first = character <;> simp [insertBranch, countBranch, count_single, same]
  | .cons other child branches =>
      rcases tidy with ⟨tidyChild, holds, above, tidyRest⟩
      rcases lt_trichotomy character other with before | rfl | after
      · rw [insertBranch, if_pos before]
        by_cases here : first = character
        · subst here
          have absent : first ∉ branches.characters := fun present =>
            lt_asymm before (above first present)
          simp [countBranch, count_single, ne_of_lt before, countBranch_eq_zero others absent]
        · simp [countBranch, here]
      · rw [insertBranch, if_neg (lt_irrefl _), if_pos rfl]
        by_cases here : first = character
        · simp [countBranch, here, count_insert tidyChild]
        · simp [countBranch, here]
      · rw [insertBranch, if_neg (lt_asymm after), if_neg (ne_of_gt after)]
        by_cases here : first = other
        · subst here
          simp [countBranch, ne_of_lt after]
        · simp [countBranch, here, countBranch_insertBranch tidyRest]

end

/-! ## Taking words out -/

theorem count_eq_zero_of_isEmpty {trie : Trie} (bare : trie.isEmpty = true) (word : List Char) :
    trie.count word = 0 := by
  rcases trie with ⟨number, branches⟩
  rcases isEmpty_node.mp bare with ⟨rfl, rfl⟩
  exact count_empty word

mutual

/-- A word that is not there is not found, and the way back takes nothing away from a tidy trie. -/
theorem take_of_absent {trie : Trie} (tidy : trie.Tidy) {word : List Char}
    (absent : trie.count word = 0) : trie.take word = (false, trie) := by
  match trie, word with
  | node number branches, [] =>
      have bare : number = 0 := by simpa [count] using absent
      simp [take, bare]
  | node number branches, character :: rest =>
      rw [take, takeBranch_of_absent tidy (by simpa [count] using absent)]

theorem takeBranch_of_absent {branches : Branches} (tidy : TidyBranches branches)
    {character : Char} {rest : List Char} (absent : countBranch branches character rest = 0) :
    takeBranch branches character rest = (false, branches) := by
  match branches with
  | .nil => rfl
  | .cons other child branches =>
      rcases tidy with ⟨tidyChild, holds, -, tidyRest⟩
      by_cases same : character = other
      · have absentChild : child.count rest = 0 := by simpa [countBranch, same] using absent
        -- The branch holds some other word, so it stays.
        simp [takeBranch, same, take_of_absent tidyChild absentChild, holds]
      · have absentRest : countBranch branches character rest = 0 := by
          simpa [countBranch, same] using absent
        simp [takeBranch, same, takeBranch_of_absent tidyRest absentRest]

end

theorem mem_characters_takeBranch {branches : Branches} {character other : Char}
    {rest : List Char} (present : other ∈ (takeBranch branches character rest).2.characters) :
    other ∈ branches.characters := by
  match branches with
  | .nil => simpa [takeBranch] using present
  | .cons first child branches =>
      rw [takeBranch] at present
      split_ifs at present with same
      · dsimp only at present
        split_ifs at present
        · exact List.mem_cons_of_mem _ present
        · exact present
      · rcases List.mem_cons.mp present with rfl | later
        · exact List.mem_cons_self
        · exact List.mem_cons_of_mem _ (mem_characters_takeBranch later)

mutual

theorem take_of_present {trie : Trie} (tidy : trie.Tidy) {word : List Char}
    (present : 0 < trie.count word) :
    (trie.take word).1 = true ∧ (trie.take word).2.Tidy ∧ ∀ other,
      (trie.take word).2.count other = trie.count other - if other = word then 1 else 0 := by
  match trie, word with
  | node number branches, [] =>
      have positive : number ≠ 0 := Nat.pos_iff_ne_zero.mp (by simpa [count] using present)
      rw [take, if_neg positive]
      refine ⟨rfl, tidy, fun other => ?_⟩
      cases other <;> simp [count]
  | node number branches, character :: rest =>
      rcases takeBranch_of_present tidy (by simpa [count] using present) with
        ⟨found, tidyLeft, counts⟩
      rw [take]
      refine ⟨found, tidyLeft, fun other => ?_⟩
      cases other with
      | nil => simp [count]
      | cons first others => simp [count, counts]

theorem takeBranch_of_present {branches : Branches} (tidy : TidyBranches branches)
    {character : Char} {rest : List Char} (present : 0 < countBranch branches character rest) :
    (takeBranch branches character rest).1 = true
      ∧ TidyBranches (takeBranch branches character rest).2 ∧ ∀ first others,
        countBranch (takeBranch branches character rest).2 first others
          = countBranch branches first others
            - if first = character ∧ others = rest then 1 else 0 := by
  match branches with
  | .nil => simp [countBranch] at present
  | .cons other child branches =>
      rcases tidy with ⟨tidyChild, holds, above, tidyRest⟩
      by_cases same : character = other
      · subst same
        rcases take_of_present tidyChild (by simpa [countBranch] using present) with
          ⟨found, tidyLeft, counts⟩
        have absent : character ∉ branches.characters := fun member =>
          lt_irrefl _ (above character member)
        rw [takeBranch, if_pos rfl]
        cases bare : (child.take rest).2.isEmpty with
        | true =>
            simp only [bare, if_true]
            refine ⟨found, tidyRest, fun first others => ?_⟩
            by_cases here : first = character
            · subst here
              have emptied := count_eq_zero_of_isEmpty bare others
              simp [countBranch, countBranch_eq_zero others absent, ← counts, emptied]
            · simp [countBranch, here]
        | false =>
            simp only [bare, Bool.false_eq_true, if_false]
            refine ⟨found, ⟨tidyLeft, bare, above, tidyRest⟩, fun first others => ?_⟩
            by_cases here : first = character <;> simp [countBranch, here, counts]
      · rcases takeBranch_of_present tidyRest (by simpa [countBranch, same] using present) with
          ⟨found, tidyLeft, counts⟩
        rw [takeBranch, if_neg same]
        refine ⟨found, ⟨tidyChild, holds, fun later member => above later
          (mem_characters_takeBranch member), tidyLeft⟩, fun first others => ?_⟩
        by_cases here : first = other
        · subst here
          simp [countBranch, Ne.symm same]
        · simp [countBranch, here, counts]

end

/-! ## Tries that hold the same words -/

mutual

theorem exists_count_pos {trie : Trie} (tidy : trie.Tidy) (holds : trie.isEmpty = false) :
    ∃ word, 0 < trie.count word := by
  match trie with
  | node 0 branches =>
      have some_ : branches ≠ .nil := by
        rintro rfl
        simp [isEmpty] at holds
      rcases exists_countBranch_pos tidy some_ with ⟨character, rest, positive⟩
      exact ⟨character :: rest, by simpa [count] using positive⟩
  | node (number + 1) branches => exact ⟨[], by simp [count]⟩

theorem exists_countBranch_pos {branches : Branches} (tidy : TidyBranches branches)
    (some_ : branches ≠ .nil) : ∃ character rest, 0 < countBranch branches character rest := by
  match branches with
  | .nil => exact absurd rfl some_
  | .cons other child _ =>
      rcases exists_count_pos tidy.1 tidy.2.1 with ⟨word, positive⟩
      exact ⟨other, word, by simpa [countBranch] using positive⟩

end

/-- If two lists of branches hold the same, the first character of one is none below the other's. -/
theorem not_lt_first {first second : Char} {child child' : Trie} {rest rest' : Branches}
    (tidy : TidyBranches (.cons first child rest))
    (tidy' : TidyBranches (.cons second child' rest'))
    (agree : ∀ character word, countBranch (.cons first child rest) character word
      = countBranch (.cons second child' rest') character word) : ¬first < second := by
  intro before
  rcases exists_count_pos tidy.1 tidy.2.1 with ⟨word, positive⟩
  have absent : first ∉ rest'.characters := fun present =>
    lt_asymm before (tidy'.2.2.1 first present)
  have none_ := agree first word
  simp [countBranch, ne_of_lt before, countBranch_eq_zero word absent] at none_
  omega

mutual

/-- Tidy tries that hold every word equally often are the same. -/
theorem Tidy.ext {first second : Trie} (tidy : first.Tidy) (tidy' : second.Tidy)
    (agree : ∀ word, first.count word = second.count word) : first = second := by
  match first, second with
  | node number branches, node number' branches' =>
      have sameNumber : number = number' := by simpa [count] using agree []
      have sameBranches := TidyBranches.ext tidy tidy'
        fun character rest => by simpa [count] using agree (character :: rest)
      rw [sameNumber, sameBranches]

theorem TidyBranches.ext {first second : Branches} (tidy : TidyBranches first)
    (tidy' : TidyBranches second)
    (agree : ∀ character rest, countBranch first character rest
      = countBranch second character rest) : first = second := by
  match first, second with
  | .nil, .nil => rfl
  | .nil, .cons _ _ _ =>
      rcases exists_countBranch_pos tidy' (by simp) with ⟨character, rest, positive⟩
      have none_ := agree character rest
      simp only [countBranch] at none_ positive
      omega
  | .cons _ _ _, .nil =>
      rcases exists_countBranch_pos tidy (by simp) with ⟨character, rest, positive⟩
      have none_ := agree character rest
      simp only [countBranch] at none_ positive
      omega
  | .cons character child rest, .cons character' child' rest' =>
      -- Either first character would otherwise begin a word that the other trie does not hold.
      have same : character = character' := le_antisymm
        (not_lt.mp (not_lt_first tidy' tidy fun _ _ => (agree _ _).symm))
        (not_lt.mp (not_lt_first tidy tidy' agree))
      subst same
      rcases tidy with ⟨tidyChild, -, above, tidyRest⟩
      rcases tidy' with ⟨tidyChild', -, above', tidyRest'⟩
      have sameChild := Tidy.ext tidyChild tidyChild' fun word => by
        simpa [countBranch] using agree character word
      have sameRest := TidyBranches.ext tidyRest tidyRest' fun other word => by
        by_cases here : other = character
        · subst here
          rw [countBranch_eq_zero word fun present => lt_irrefl _ (above other present),
            countBranch_eq_zero word fun present => lt_irrefl _ (above' other present)]
        · simpa [countBranch, here] using agree other word
      rw [sameChild, sameRest]

end

/-! ## Many words -/

theorem Tidy.remove {trie : Trie} (tidy : trie.Tidy) (word : String) :
    (trie.remove word).Tidy := by
  rcases Nat.eq_zero_or_pos (trie.count word.toList) with absent | present
  · rw [Trie.remove, take_of_absent tidy absent]
    exact tidy
  · exact (take_of_present tidy present).2.1

theorem count_remove {trie : Trie} (tidy : trie.Tidy) (word other : String) :
    (trie.remove word).count other.toList
      = trie.count other.toList - if other = word then 1 else 0 := by
  rcases Nat.eq_zero_or_pos (trie.count word.toList) with absent | present
  · by_cases same : other = word <;>
      simp [Trie.remove, take_of_absent tidy absent, same, absent]
  · rw [Trie.remove, (take_of_present tidy present).2.2]
    simp only [String.toList_inj]

theorem count_cons_eq (first word : String) (rest : List String) :
    (first :: rest).count word = rest.count word + if word = first then 1 else 0 := by
  rw [List.count_cons]
  by_cases same : word = first
  · simp [same]
  · simp [same, Ne.symm same]

theorem addAll_spec {trie : Trie} (tidy : trie.Tidy) (words : List String) :
    (trie.addAll words).Tidy ∧ ∀ word : String,
      (trie.addAll words).count word.toList = trie.count word.toList + words.count word := by
  induction words generalizing trie with
  | nil => exact ⟨tidy, by simp [addAll]⟩
  | cons first rest ih =>
      rcases ih (tidy.insert first.toList) with ⟨tidyAll, counts⟩
      refine ⟨tidyAll, fun word => ?_⟩
      have counted : (trie.insert first.toList).count word.toList
          = trie.count word.toList + if word = first then 1 else 0 := by
        rw [count_insert tidy]
        simp only [String.toList_inj]
      calc (trie.addAll (first :: rest)).count word.toList
          = (trie.insert first.toList).count word.toList + rest.count word := counts word
        _ = trie.count word.toList + (first :: rest).count word := by
          rw [counted, count_cons_eq, Nat.add_assoc, Nat.add_comm (rest.count word)]

theorem removeAll_spec {trie : Trie} (tidy : trie.Tidy) (words : List String) :
    (trie.removeAll words).Tidy ∧ ∀ word : String,
      (trie.removeAll words).count word.toList = trie.count word.toList - words.count word := by
  induction words generalizing trie with
  | nil => exact ⟨tidy, by simp [removeAll]⟩
  | cons first rest ih =>
      rcases ih (tidy.remove first) with ⟨tidyAll, counts⟩
      refine ⟨tidyAll, fun word => ?_⟩
      calc (trie.removeAll (first :: rest)).count word.toList
          = (trie.remove first).count word.toList - rest.count word := counts word
        _ = trie.count word.toList - (first :: rest).count word := by
          rw [count_remove tidy, count_cons_eq, Nat.sub_sub, Nat.add_comm]

end Trie

end Treatise.Corpus
