import Mathlib.Data.List.Basic
import Treatise.Location

/-!
# Stable sorting

A comparison may find two different values tied. Sorting keeps tied values in the order in which
they stand, so what a sorted list holds of each class of tied values is what the list held before,
in the same order, and a sorted list is determined by that. Leaving values out and sorting can
therefore change places, and lists that agree on every class of tied values are sorted to the same
list.
-/

namespace Treatise

variable {α β γ : Type} {le : α → α → Bool}

/-- A comparison by which values can be sorted: any two can be compared, and it is transitive. -/
structure Sorts (le : α → α → Bool) : Prop where
  trans : ∀ first second third, le first second → le second third → le first third
  total : ∀ first second, le first second || le second first

/-- The comparison does not tell two values apart. -/
def tied (le : α → α → Bool) (first second : α) : Bool :=
  le first second && le second first

theorem tied_iff {first second : α} :
    tied le first second = true ↔ le first second = true ∧ le second first = true := by
  simp [tied]

theorem Sorts.refl (sorts : Sorts le) (value : α) : le value value = true := by
  simpa using sorts.total value value

theorem Sorts.tied_self (sorts : Sorts le) (value : α) : tied le value value = true :=
  tied_iff.mpr ⟨sorts.refl value, sorts.refl value⟩

/-- Values that are tied with one value can stand in either order. -/
theorem Sorts.le_of_tied (sorts : Sorts le) {value first second : α}
    (ties : tied le value first = true) (ties' : tied le value second = true) :
    le first second = true :=
  sorts.trans _ _ _ (tied_iff.mp ties).2 (tied_iff.mp ties').1

/-! ## Comparisons to sort by -/

theorem Sorts.of_key {compareKeys : β → β → Bool} (sorts : Sorts compareKeys) (key : α → β) :
    Sorts fun first second => compareKeys (key first) (key second) :=
  ⟨fun _ _ _ => sorts.trans _ _ _, fun _ _ => sorts.total _ _⟩

theorem sorts_locationLe : Sorts Location.le where
  trans first second third := by
    simp only [Location.le, Bool.or_eq_true, Bool.and_eq_true, decide_eq_true_eq, beq_iff_eq]
    omega
  total first second := by
    simp only [Location.le, Bool.or_eq_true, Bool.and_eq_true, decide_eq_true_eq, beq_iff_eq]
    omega

theorem transCmp_of_key {compareKeys : β → β → Ordering} [Std.TransCmp compareKeys] (key : α → β) :
    Std.TransCmp fun first second => compareKeys (key first) (key second) where
  eq_swap {first second} := @Std.OrientedCmp.eq_swap _ compareKeys _ (key first) (key second)
  isLE_trans {first second third} :=
    @Std.TransCmp.isLE_trans _ compareKeys _ (key first) (key second) (key third)

/-- An order of keys, and among values of tied keys another comparison. -/
theorem Sorts.by_key (sorts : Sorts le) {compareKeys : β → β → Ordering}
    [Std.TransCmp compareKeys] (key : α → β) : Sorts fun first second =>
      match compareKeys (key first) (key second) with
      | .lt => true
      | .gt => false
      | .eq => le first second where
  trans first second third before after := by
    cases early : compareKeys (key first) (key second) with
    | gt => simp [early] at before
    | lt =>
        cases late : compareKeys (key second) (key third) with
        | gt => simp [late] at after
        | lt => simp [Std.TransCmp.lt_trans early late]
        | eq => simp [Std.TransCmp.lt_of_lt_of_eq early late]
    | eq =>
        cases late : compareKeys (key second) (key third) with
        | gt => simp [late] at after
        | lt => simp [Std.TransCmp.lt_of_eq_of_lt early late]
        | eq =>
            simp only [early, late] at before after
            simpa [Std.TransCmp.eq_trans early late] using sorts.trans _ _ _ before after
  total first second := by
    have swapped : compareKeys (key second) (key first)
        = (compareKeys (key first) (key second)).swap := Std.OrientedCmp.eq_swap
    rw [swapped]
    cases compareKeys (key first) (key second) with
    | eq => exact sorts.total first second
    | _ => rfl

/-! ## Sorted lists -/

/-- Sorting keeps tied values in their order. -/
theorem Sorts.filter_tied_mergeSort (sorts : Sorts le) (values : List α) (value : α) :
    (values.mergeSort le).filter (tied le value) = values.filter (tied le value) := by
  have rising : (values.filter (tied le value)).Pairwise fun first second => le first second := by
    refine List.pairwise_of_forall_mem_list fun first firstMem second secondMem => ?_
    exact sorts.le_of_tied (List.mem_filter.mp firstMem).2 (List.mem_filter.mp secondMem).2
  have kept := (List.sublist_mergeSort sorts.trans sorts.total rising List.filter_sublist).filter
    (tied le value)
  simp only [List.filter_filter, Bool.and_self] at kept
  exact (kept.eq_of_length
    ((List.mergeSort_perm values le).filter (tied le value)).length_eq.symm).symm

/-- Sorted lists that agree on every class of tied values are the same. -/
theorem Sorts.eq_of_filter_tied (sorts : Sorts le) {first second : List α}
    (rising : first.Pairwise fun one other => le one other)
    (rising' : second.Pairwise fun one other => le one other)
    (agree : ∀ value, first.filter (tied le value) = second.filter (tied le value)) :
    first = second := by
  induction first generalizing second with
  | nil =>
      cases second with
      | nil => rfl
      | cons head rest => simpa [sorts.tied_self] using agree head
  | cons head rest ih =>
      cases second with
      | nil => simpa [sorts.tied_self] using agree head
      | cons head' rest' =>
          rcases List.pairwise_cons.mp rising with ⟨above, risingRest⟩
          rcases List.pairwise_cons.mp rising' with ⟨above', risingRest'⟩
          -- Each head has a tied value in the other list, which stands behind that list's head.
          have below : le head' head = true := by
            have found : head ∈ (head' :: rest').filter (tied le head) := by
              rw [← agree]
              simp [sorts.tied_self]
            rcases List.mem_cons.mp (List.mem_of_mem_filter found) with rfl | later
            · exact sorts.refl _
            · exact above' head later
          have below' : le head head' = true := by
            have found : head' ∈ (head :: rest).filter (tied le head') := by
              rw [agree]
              simp [sorts.tied_self]
            rcases List.mem_cons.mp (List.mem_of_mem_filter found) with rfl | later
            · exact sorts.refl _
            · exact above head' later
          have same : head = head' := by
            have heads := agree head
            rw [List.filter_cons_of_pos (sorts.tied_self head),
              List.filter_cons_of_pos (tied_iff.mpr ⟨below', below⟩)] at heads
            exact (List.cons.inj heads).1
          subst same
          have sameRest : rest = rest' := ih risingRest risingRest' fun value => by
            have classes := agree value
            simp only [List.filter_cons] at classes
            split_ifs at classes
            · exact (List.cons.inj classes).2
            · exact classes
          rw [sameRest]

theorem Sorts.mergeSort_eq_of_filter_tied (sorts : Sorts le) {first second : List α}
    (agree : ∀ value, first.filter (tied le value) = second.filter (tied le value)) :
    first.mergeSort le = second.mergeSort le := by
  refine sorts.eq_of_filter_tied (List.pairwise_mergeSort sorts.trans sorts.total first)
    (List.pairwise_mergeSort sorts.trans sorts.total second) fun value => ?_
  rw [sorts.filter_tied_mergeSort, sorts.filter_tied_mergeSort, agree]

/-- In whatever order values are given, sorting them gives the same keys, if the keys are what the
comparison tells apart. -/
theorem Sorts.map_mergeSort_of_perm (sorts : Sorts le) {key : α → β} {first second : List α}
    (ties : ∀ one other, tied le one other = true ↔ key one = key other)
    (permuted : first.Perm second) :
    (first.mergeSort le).map key = (second.mergeSort le).map key := by
  let below (one other : β) : Prop :=
    ∃ value value', key value = one ∧ key value' = other ∧ le value value' = true
  have rising (values : List α) : ((values.mergeSort le).map key).Pairwise below := by
    apply List.pairwise_map.mpr
    apply (List.pairwise_mergeSort sorts.trans sorts.total values).imp
    intro one other before
    exact ⟨one, other, rfl, rfl, before⟩
  apply List.Perm.eq_of_pairwise _ (rising first) (rising second)
  · apply List.Perm.map
    exact (List.mergeSort_perm first le).trans (permuted.trans (List.mergeSort_perm second le).symm)
  · rintro _ _ _ _ ⟨one, other, rfl, rfl, before⟩ ⟨other', one', same, same', after⟩
    -- Both values with one key are tied, and so are both with the other key.
    have close := tied_iff.mp ((ties other other').mpr same.symm)
    have close' := tied_iff.mp ((ties one' one).mpr same')
    apply (ties one other).mp
    apply tied_iff.mpr
    exact ⟨before, sorts.trans _ _ _ close.1 (sorts.trans _ _ _ after close'.1)⟩

/-- Leaving values out of a sorted list is sorting the others. -/
theorem Sorts.filter_mergeSort (sorts : Sorts le) (keep : α → Bool) (values : List α) :
    (values.mergeSort le).filter keep = (values.filter keep).mergeSort le := by
  refine sorts.eq_of_filter_tied
    ((List.pairwise_mergeSort sorts.trans sorts.total values).filter keep)
    (List.pairwise_mergeSort sorts.trans sorts.total _) fun value => ?_
  rw [sorts.filter_tied_mergeSort, List.filter_comm, sorts.filter_tied_mergeSort, List.filter_comm]

/-- Values that are in order in one way only stand in that order in a sorted list. -/
theorem Sorts.sublist_of_pairwise (sorts : Sorts le) {few values : List α}
    (sorted : values.Pairwise fun first second => le first second)
    (strict : few.Pairwise fun first second => le second first = false) (within : few ⊆ values) :
    few.Sublist values := by
  induction values generalizing few with
  | nil => rw [List.subset_nil.mp within]
  | cons head rest ih =>
      rcases List.pairwise_cons.mp sorted with ⟨least, sortedRest⟩
      have below {value : α} (member : value ∈ head :: rest) : le head value = true := by
        rcases List.mem_cons.mp member with rfl | later
        · exact sorts.refl value
        · exact least value later
      cases few with
      | nil => exact List.nil_sublist _
      | cons first others =>
          rcases List.pairwise_cons.mp strict with ⟨apart, strictOthers⟩
          -- The head is not one of the others, since it is not above the first of them.
          have later : others ⊆ rest := by
            intro value member
            rcases List.mem_cons.mp (within (List.mem_cons_of_mem _ member)) with rfl | found
            · have above := apart value member
              rw [below (within List.mem_cons_self)] at above
              cases above
            · exact found
          rcases List.mem_cons.mp (within List.mem_cons_self) with rfl | found
          · exact .cons_cons first (ih sortedRest strictOthers later)
          · exact .cons head (ih sortedRest strict (List.cons_subset.mpr ⟨found, later⟩))

/-- Values that are kept stand together if what stands between two of them is kept as well. -/
theorem exists_block {keep : α → Bool} {values : List α}
    (between : ∀ early middle late, [early, middle, late].Sublist values →
      keep early = true → keep late = true → keep middle = true) :
    ∃ front back, values = front ++ values.filter keep ++ back := by
  induction values with
  | nil => exact ⟨[], [], rfl⟩
  | cons head rest ih =>
      rcases ih fun early middle late inside => between early middle late (inside.cons head) with
        ⟨front, back, split⟩
      cases kept : keep head with
      | false =>
          refine ⟨head :: front, back, ?_⟩
          rw [List.filter_cons_of_neg (by simp [kept]), List.cons_append, List.cons_append, ← split]
      | true =>
          rw [List.filter_cons_of_pos kept]
          rcases List.eq_nil_or_concat (rest.filter keep) with none_ | ⟨others, late, last⟩
          · exact ⟨[], rest, by rw [none_]; rfl⟩
          have lateKept : late ∈ rest.filter keep := by simp [last]
          -- What stands in front of a kept value is kept, and so there is nothing there.
          have frontKept : ∀ middle ∈ front, keep middle = true := by
            intro middle member
            refine between head middle late (.cons_cons head ?_) kept
              (List.mem_filter.mp lateKept).2
            rw [split, List.append_assoc]
            apply (List.singleton_sublist.mpr member).append
            exact List.singleton_sublist.mpr (List.mem_append_left back lateKept)
          have again : (rest.filter keep).filter keep = rest.filter keep :=
            List.filter_eq_self.mpr fun _ member => (List.mem_filter.mp member).2
          have counted : (rest.filter keep).length
              = front.length + (rest.filter keep).length + (back.filter keep).length := by
            conv_lhs => rw [split]
            rw [List.filter_append, List.filter_append, List.filter_eq_self.mpr frontKept, again,
              List.length_append, List.length_append]
          have empty : front = [] := List.length_eq_zero_iff.mp (by omega)
          refine ⟨[], back, ?_⟩
          conv_lhs => rw [split, empty]
          rfl

/-! ## Lists that are put together -/

/-- Lists are left out of those that are put together by what all their members have in common. -/
theorem filter_flatMap_of_origin {parts : α → List β} {place : β → γ} {origin : α → γ}
    (placed : ∀ value, ∀ part ∈ parts value, place part = origin value) (keep : γ → Bool)
    (values : List α) : (values.flatMap parts).filter (fun part => keep (place part))
      = (values.filter fun value => keep (origin value)).flatMap parts := by
  induction values with
  | nil => rfl
  | cons first rest ih =>
      have own : (parts first).filter (fun part => keep (place part))
          = if keep (origin first) then parts first else [] := by
        split_ifs with kept
        · exact List.filter_eq_self.mpr fun part member => by rw [placed first part member, kept]
        · exact List.filter_eq_nil_iff.mpr fun part member => by rwa [placed first part member]
      rw [List.flatMap_cons, List.filter_append, own, ih, List.filter_cons]
      split_ifs <;> rfl

/-- Sorting what values contribute is sorting the values, where both are compared by the same
keys. -/
theorem Sorts.mergeSort_flatMap {compareKeys : γ → γ → Bool} (sorts : Sorts compareKeys)
    {key : α → γ} {place : β → γ} {parts : α → List β}
    (placed : ∀ value, ∀ part ∈ parts value, place part = key value) (values : List α) :
    (values.flatMap parts).mergeSort (fun first second => compareKeys (place first) (place second))
      = (values.mergeSort fun first second => compareKeys (key first) (key second)).flatMap
        parts := by
  have byKey := sorts.of_key key
  have byPlace := sorts.of_key place
  apply byPlace.eq_of_filter_tied (List.pairwise_mergeSort byPlace.trans byPlace.total _)
  · apply List.pairwise_flatMap.mpr
    constructor
    · intro value _
      apply List.pairwise_of_forall_mem_list
      intro first firstMem second secondMem
      rw [placed value first firstMem, placed value second secondMem]
      exact sorts.refl (key value)
    · apply (List.pairwise_mergeSort byKey.trans byKey.total values).imp
      intro value value' before part partMem part' partMem'
      rwa [placed value part partMem, placed value' part' partMem']
  · intro part
    -- What is tied with a part comes from the values whose keys are tied with its place.
    let close : γ → Bool := tied compareKeys (place part)
    have tiedValues : (values.filter fun value => close (key value)).Pairwise fun first second =>
        compareKeys (key first) (key second) := by
      apply List.pairwise_of_forall_mem_list
      intro first firstMem second secondMem
      exact sorts.le_of_tied (List.mem_filter.mp firstMem).2 (List.mem_filter.mp secondMem).2
    have kept := byKey.filter_mergeSort (fun value => close (key value)) values
    rw [List.mergeSort_of_pairwise tiedValues] at kept
    rw [byPlace.filter_tied_mergeSort]
    change (values.flatMap parts).filter (fun part => close (place part))
      = ((values.mergeSort _).flatMap parts).filter fun part => close (place part)
    rw [filter_flatMap_of_origin placed, filter_flatMap_of_origin placed, kept]

/-- The order of lists that are put together does not matter if at most one of them is not empty. -/
theorem flatMap_eq_of_perm {first second : List α} {parts : α → List β}
    (permuted : first.Perm second)
    (sole : ∀ one ∈ first, ∀ other ∈ first, parts one ≠ [] → parts other ≠ [] → one = other) :
    first.flatMap parts = second.flatMap parts := by
  rw [List.flatMap_eq_foldl, List.flatMap_eq_foldl]
  refine permuted.foldl_eq' (fun one oneMem other otherMem found => ?_) []
  by_cases empty : parts one = []
  · simp [empty]
  · by_cases empty' : parts other = []
    · simp [empty']
    · rw [sole one oneMem other otherMem empty empty']

end Treatise
