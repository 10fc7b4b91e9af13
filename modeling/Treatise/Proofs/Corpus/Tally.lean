import Mathlib.Data.Multiset.AddSub
import Mathlib.Data.Multiset.Count
import Treatise.Proofs.Corpus.Completion

/-!
# Tries and multisets of words

Whatever words are put into a trie and taken out of it, in any order, the trie stands for the
multiset of the words that are left. All that it answers can be read off from this multiset, and it
holds nothing besides: no node stays that does not lead to a word, so the multiset determines the
trie.
-/

namespace Treatise.Corpus.Trie

/-- A change of the words that a trie holds. -/
inductive Change where
  | add (word : String)
  | remove (word : String)
  deriving DecidableEq, Repr

/-- What a change makes of a trie. -/
def Change.apply : Change → Trie → Trie
  | add word, trie => trie.add word
  | remove word, trie => trie.remove word

/-- What a change makes of a multiset of words: a word that is taken out and not there changes
nothing. -/
def Change.tally : Change → Multiset String → Multiset String
  | add word, held => word ::ₘ held
  | remove word, held => held.erase word

/-- The trie after changes of the trie that holds no word. -/
def afterChanges (changes : List Change) : Trie :=
  changes.foldl (fun trie change => change.apply trie) empty

/-- The words that are held after changes. -/
def heldAfter (changes : List Change) : Multiset String :=
  changes.foldl (fun held change => change.tally held) 0

/-- A tidy trie that counts each word as often as a multiset holds it. -/
structure StandsFor (trie : Trie) (held : Multiset String) : Prop where
  tidy : trie.Tidy
  count_eq : ∀ word : String, trie.count word.toList = held.count word

variable {trie other : Trie} {held : Multiset String} {word : String}

theorem standsFor_empty : empty.StandsFor 0 :=
  ⟨tidy_empty, fun word => by rw [count_empty, Multiset.count_zero]⟩

theorem StandsFor.apply (standsFor : trie.StandsFor held) (change : Change) :
    (change.apply trie).StandsFor (change.tally held) := by
  rcases standsFor with ⟨tidy, counts⟩
  cases change with
  | add word =>
      refine ⟨tidy.insert word.toList, fun other => ?_⟩
      rw [Change.apply, Trie.add, count_insert tidy, counts, Change.tally, Multiset.count_cons]
      simp only [String.toList_inj]
  | remove word =>
      refine ⟨tidy.remove word, fun other => ?_⟩
      rw [Change.apply, count_remove tidy, counts, Change.tally]
      by_cases same : other = word
      · rw [if_pos same, same, Multiset.count_erase_self]
      · rw [if_neg same, Nat.sub_zero, Multiset.count_erase_of_ne same]

theorem StandsFor.foldl (standsFor : trie.StandsFor held) (changes : List Change) :
    (changes.foldl (fun trie change => change.apply trie) trie).StandsFor
      (changes.foldl (fun held change => change.tally held) held) := by
  induction changes generalizing trie held with
  | nil => exact standsFor
  | cons change rest ih => exact ih (standsFor.apply change)

theorem StandsFor.mem_iff (standsFor : trie.StandsFor held) :
    0 < trie.count word.toList ↔ word ∈ held := by
  rw [standsFor.count_eq, Multiset.count_pos]

/-- Tries that stand for the same multiset are the same. -/
theorem StandsFor.eq (standsFor : trie.StandsFor held) (standsFor' : other.StandsFor held) :
    trie = other := by
  refine standsFor.tidy.ext standsFor'.tidy fun characters => ?_
  have counts := (standsFor.count_eq (String.ofList characters)).trans
    (standsFor'.count_eq (String.ofList characters)).symm
  rwa [String.toList_ofList] at counts

/-- A word that is not held is not found, and the trie stays as it is. -/
theorem StandsFor.take_of_notMem (standsFor : trie.StandsFor held) (absent : word ∉ held) :
    trie.take word.toList = (false, trie) := by
  rw [← standsFor.mem_iff, Nat.pos_iff_ne_zero, not_not] at absent
  exact take_of_absent standsFor.tidy absent

theorem StandsFor.take_fst_iff (standsFor : trie.StandsFor held) :
    (trie.take word.toList).1 = true ↔ word ∈ held := by
  constructor
  · intro found
    by_contra absent
    rw [standsFor.take_of_notMem absent] at found
    cases found
  · intro present
    exact (take_of_present standsFor.tidy (standsFor.mem_iff.mpr present)).1

theorem contains_eq (trie : Trie) (word : String) :
    trie.contains word = decide (0 < ((trie.below? word.toList).getD empty).count []) := by
  unfold contains
  split
  · next number branches found =>
    rw [found, Option.getD_some, count, Bool.eq_iff_iff, bne_iff_ne, decide_eq_true_eq,
      Nat.pos_iff_ne_zero]
  · next absent =>
    rw [absent, Option.getD_none, count_empty]
    rfl

theorem StandsFor.contains_iff (standsFor : trie.StandsFor held) :
    trie.contains word = true ↔ word ∈ held := by
  rw [contains_eq, decide_eq_true_eq, (below_spec standsFor.tidy word.toList).2, List.append_nil,
    standsFor.mem_iff]

/-- After any changes a trie answers as the multiset of the words held, which also determines it. -/
theorem afterChanges_answers (changes : List Change) :
    let trie := afterChanges changes
    let held := heldAfter changes
    (∀ word, ((trie.take word.toList).1 = true ↔ word ∈ held)
        ∧ (word ∉ held → trie.remove word = trie)
        ∧ (trie.remove word).StandsFor (held.erase word))
      ∧ (∀ word, trie.contains word = true ↔ word ∈ held)
      ∧ (∀ start, (trie.suffixes start).Pairwise (· < ·)
        ∧ ∀ suffix, suffix ∈ trie.suffixes start ↔ start ++ suffix ∈ held)
      ∧ trie.StandsFor held
      ∧ ∀ others, heldAfter others = held → afterChanges others = trie := by
  intro trie held
  have standsFor : ∀ changes, (afterChanges changes).StandsFor (heldAfter changes) :=
    standsFor_empty.foldl
  have here : trie.StandsFor held := standsFor changes
  refine ⟨fun word => ⟨here.take_fst_iff,
      fun absent => congrArg Prod.snd (here.take_of_notMem absent), here.apply (.remove word)⟩,
    fun word => here.contains_iff, fun start =>
      ⟨pairwise_suffixes here.tidy start, fun suffix => ?_⟩,
    here, fun others same => ?_⟩
  · rw [mem_suffixes_iff here.tidy, here.mem_iff]
  · have there := standsFor others
    rw [same] at there
    exact there.eq here

/-- A word that is put in twice is still there when it has been taken out once. -/
example : (afterChanges [.add "set", .add "set", .remove "set"]).contains "set" = true := by decide

/-- A word cannot be taken out if only a longer one was put in. -/
example : ((afterChanges [.add "sets"]).remove? "set".toList).isSome = false := by decide

end Treatise.Corpus.Trie
