import Treatise.Proofs.Corpus.InputOrder

/-!
# Paths that are tied

The natural order compares the numbers that components begin with, and not how these are written: it
does not tell `1_sets` from `01_sets`. Zeros in front of such numbers are all that it passes over.

Main statement: the natural order is total on paths up to these zeros. In whatever order paths are
given, sorting them gives the same list up to these zeros, and the findings in one file are not
interleaved with those in a file that the natural order tells apart from it.
-/

namespace Treatise.Corpus

open Text (decimal digitValue)

/-! ## Components -/

/-- A component that begins with a number is its digits, an underscore and what is left. -/
theorem of_numbered? {component rest : List Char} {number : Nat}
    (found : numbered? component = some (number, rest)) : ∃ digits,
      component = digits ++ '_' :: rest ∧ digits ≠ [] ∧ (∀ digit ∈ digits, digit.isDigit = true)
        ∧ decimal digits = number ∧ number ≤ maxNumber := by
  unfold numbered? at found
  dsimp only at found
  split at found
  · next rest' behind =>
    split_ifs at found with outside
    cases found
    simp only [Bool.or_eq_true, decide_eq_true_eq, not_or, Nat.not_lt, List.isEmpty_iff] at outside
    refine ⟨component.takeWhile Char.isDigit, ?_, outside.1, ?_, rfl, outside.2⟩
    · rw [← behind, List.takeWhile_append_dropWhile]
    · exact List.all_eq_true.mp List.all_takeWhile
  · cases found

theorem isDigit_of_mem_toDigits {number : Nat} :
    ∀ digit ∈ Nat.toDigits 10 number, digit.isDigit = true :=
  fun _ => Nat.isDigit_of_mem_toDigits (by decide) (by decide)

/-- A number that is written without zeros in front is read again. -/
theorem numbered?_toDigits {number : Nat} (bounded : number ≤ maxNumber) (rest : List Char) :
    numbered? (Nat.toDigits 10 number ++ '_' :: rest) = some (number, rest) := by
  have front : (Nat.toDigits 10 number ++ '_' :: rest).takeWhile Char.isDigit
      = Nat.toDigits 10 number := by
    rw [List.takeWhile_append_of_pos isDigit_of_mem_toDigits,
      List.takeWhile_cons_of_neg (by decide), List.append_nil]
  have back : (Nat.toDigits 10 number ++ '_' :: rest).dropWhile Char.isDigit = '_' :: rest := by
    rw [List.dropWhile_append_of_pos isDigit_of_mem_toDigits,
      List.dropWhile_cons_of_neg (by decide)]
  have value : decimal (Nat.toDigits 10 number) = number := Nat.ofDigitChars_ten_toDigits
  simp [numbered?, front, back, value, Nat.not_lt.mpr bounded]

theorem toDigits_digitValue {digit : Char} (isDigit : digit.isDigit = true) :
    digitValue digit < 10 ∧ Nat.toDigits 10 (digitValue digit) = [digit] := by
  have bounds : 48 ≤ digit.toNat ∧ digit.toNat ≤ 57 := Char.isDigit_iff_toNat.mp isDigit
  have value : digitValue digit = digit.toNat - 48 := rfl
  have small : digitValue digit < 10 := by omega
  have same : (digitValue digit).digitChar = digit := by
    apply Char.toNat_inj.mp
    rw [Nat.toNat_digitChar_of_lt_ten small]
    omega
  exact ⟨small, by rw [Nat.toDigits_of_lt_base small, same]⟩

/-- Digits are zeros in front of the digits that the number is written with. -/
theorem exists_zeros {digits : List Char} (nonempty : digits ≠ [])
    (all : ∀ digit ∈ digits, digit.isDigit = true) :
    ∃ zeros, digits = List.replicate zeros '0' ++ Nat.toDigits 10 (decimal digits) := by
  induction digits using List.reverseRecOn with
  | nil => exact absurd rfl nonempty
  | append_singleton digits digit ih =>
      rcases toDigits_digitValue (all digit (by simp)) with ⟨small, written⟩
      have value : decimal (digits ++ [digit]) = 10 * decimal digits + digitValue digit := by
        simp [decimal]
      by_cases first : digits = []
      · subst first
        exact ⟨0, by simpa [decimal] using written.symm⟩
      rcases ih first fun other member => all other (by simp [member]) with ⟨zeros, split⟩
      -- If there are only zeros before the last digit, then the zero that stood for them goes as
      -- well.
      rcases Nat.eq_zero_or_pos (decimal digits) with none_ | positive
      · refine ⟨zeros + 1, ?_⟩
        rw [value, none_, Nat.mul_zero, Nat.zero_add, written, List.replicate_succ']
        rw [none_, Nat.toDigits_zero] at split
        rw [split]
      · refine ⟨zeros, ?_⟩
        rw [value, ← Nat.toDigits_append_toDigits (by decide) positive small, written,
          ← List.append_assoc, ← split]

/-- A component with its number written without zeros in front. -/
def withoutZeros (component : List Char) : List Char :=
  match numbered? component with
  | some (number, rest) => Nat.toDigits 10 number ++ '_' :: rest
  | none => component

theorem numbered?_withoutZeros (component : List Char) :
    numbered? (withoutZeros component) = numbered? component := by
  unfold withoutZeros
  split
  · next number rest found =>
    rcases of_numbered? found with ⟨_, _, _, _, _, bounded⟩
    rw [numbered?_toDigits bounded, found]
  · rfl

/-- What is left out of a component are zeros in front of it. -/
theorem exists_zeros_withoutZeros (component : List Char) :
    ∃ zeros, component = List.replicate zeros '0' ++ withoutZeros component := by
  unfold withoutZeros
  split
  · next number rest found =>
    rcases of_numbered? found with ⟨digits, rfl, nonempty, all, rfl, _⟩
    rcases exists_zeros nonempty all with ⟨zeros, split⟩
    refine ⟨zeros, ?_⟩
    rw [← List.append_assoc, ← split]
  · exact ⟨0, rfl⟩

theorem compareText_eq_iff {first second : List Char} :
    compareText first second = .eq ↔ first = second := by
  induction first generalizing second with
  | nil => cases second <;> simp [compareText]
  | cons character rest ih =>
      cases second with
      | nil => simp [compareText]
      | cons character' rest' => simp [compareText, ih, Char.toNat_inj]

/-- Components are tied if they are the same without the zeros in front of their numbers. -/
theorem compareComponents_eq_iff {first second : List Char} :
    compareComponents first second = .eq ↔ withoutZeros first = withoutZeros second := by
  constructor
  · intro ties
    unfold compareComponents at ties
    unfold withoutZeros
    cases found : numbered? first <;> cases found' : numbered? second <;>
      simp only [found, found'] at ties ⊢
    case none.none => exact compareText_eq_iff.mp ties
    case some.some =>
      simp only [Ordering.then_eq_eq, Nat.compare_eq_eq, compareText_eq_iff] at ties
      rw [ties.1, ties.2]
    all_goals cases ties
  · intro same
    have numbers : numbered? first = numbered? second := by
      rw [← numbered?_withoutZeros first, same, numbered?_withoutZeros]
    unfold compareComponents
    cases found : numbered? first with
    | none =>
        simp only [withoutZeros, ← numbers, found] at same
        simpa [← numbers, found] using compareText_eq_iff.mpr same
    | some _ => simp [← numbers, found, compareText_eq_iff]

/-! ## Paths -/

theorem components_append_slash {part : List Char} (whole : '/' ∉ part) (more : List Char) :
    components (part ++ '/' :: more) = part :: components more := by
  induction part with
  | nil => rfl
  | cons character rest ih =>
      rcases List.ne_and_not_mem_of_not_mem_cons whole with ⟨differs, restWhole⟩
      rw [List.cons_append, components, ih restWhole]
      exact fun slash => differs slash.symm

theorem components_of_whole {part : List Char} (whole : '/' ∉ part) : components part = [part] := by
  induction part with
  | nil => rfl
  | cons character rest ih =>
      rcases List.ne_and_not_mem_of_not_mem_cons whole with ⟨differs, restWhole⟩
      rw [components, ih restWhole]
      exact fun slash => differs slash.symm

theorem slash_notMem_of_mem_components {path part : List Char} (member : part ∈ components path) :
    '/' ∉ part := by
  fun_induction components path generalizing part with
  | case1 => simp_all
  | case2 rest ih =>
      rcases List.mem_cons.mp member with rfl | later
      · simp
      · exact ih later
  | case3 character rest differs none_ ih =>
      cases List.mem_singleton.mp member
      simp [Ne.symm differs]
  | case4 character rest differs first others split ih =>
      rw [split] at ih
      rcases List.mem_cons.mp member with rfl | later
      · simpa [Ne.symm differs] using ih (List.mem_cons_self ..)
      · exact ih (List.mem_cons_of_mem _ later)

/-- Components that hold no slash are found again in the path that they make up. -/
theorem components_intercalate {parts : List (List Char)} (nonempty : parts ≠ [])
    (whole : ∀ part ∈ parts, '/' ∉ part) : components (['/'].intercalate parts) = parts := by
  induction parts with
  | nil => exact absurd rfl nonempty
  | cons part rest ih =>
      rcases List.forall_mem_cons.mp whole with ⟨here, later⟩
      cases rest with
      | nil => rw [List.intercalate_singleton, components_of_whole here]
      | cons next others =>
          rw [List.intercalate_cons_cons, List.append_assoc, List.singleton_append,
            components_append_slash here, ih (List.cons_ne_nil _ _) later]

theorem slash_notMem_withoutZeros {component : List Char} (whole : '/' ∉ component) :
    '/' ∉ withoutZeros component := by
  rcases exists_zeros_withoutZeros component with ⟨zeros, split⟩
  intro member
  apply whole
  rw [split]
  exact List.mem_append_right _ member

/-- A path without zeros in front of the numbers that its components begin with. -/
def barePath (path : String) : String :=
  .ofList (['/'].intercalate ((components path.toList).map withoutZeros))

theorem components_ne_nil (path : List Char) : components path ≠ [] := by
  fun_induction components path <;> simp

theorem components_barePath (path : String) :
    components (barePath path).toList = (components path.toList).map withoutZeros := by
  rw [barePath, String.toList_ofList]
  apply components_intercalate
  · simpa using components_ne_nil path.toList
  · intro part member
    rcases List.mem_map.mp member with ⟨component, origin, rfl⟩
    exact slash_notMem_withoutZeros (slash_notMem_of_mem_components origin)

/-- What is left out of a path are zeros in front of its components. -/
theorem forall₂_components_barePath (path : String) :
    List.Forall₂ (fun component bare => ∃ zeros, component = List.replicate zeros '0' ++ bare)
      (components path.toList) (components (barePath path).toList) := by
  rw [components_barePath]
  apply List.forall₂_map_right_iff.mpr
  exact List.forall₂_same.mpr fun component _ => exists_zeros_withoutZeros component

theorem compareAll_eq_iff {first second : List (List Char)} :
    compareAll first second = .eq ↔ first.map withoutZeros = second.map withoutZeros := by
  induction first generalizing second with
  | nil => cases second <;> simp [compareAll]
  | cons component rest ih =>
      cases second with
      | nil => simp [compareAll]
      | cons component' rest' => simp [compareAll, compareComponents_eq_iff, ih]

/-- Paths are tied if they are the same without the zeros in front of their numbers. -/
theorem comparePaths_eq_iff {first second : String} :
    comparePaths first second = .eq ↔ barePath first = barePath second := by
  rw [comparePaths, compareAll_eq_iff]
  constructor
  · intro same
    rw [barePath, barePath, same]
  · intro same
    rw [← components_barePath, ← components_barePath, same]

/-! ## Sorting -/

theorem tied_pathLe_iff {first second : String} :
    tied pathLe first second = true ↔ barePath first = barePath second := by
  rw [tied_iff, pathLe_iff, pathLe_iff, comparePaths_swap first second, ← comparePaths_eq_iff]
  cases comparePaths first second <;> decide

/-- Sorting gives the same list up to zeros in whatever order the paths are given. -/
theorem map_barePath_sortByPath {paths paths' : List String} (permuted : paths.Perm paths') :
    (sortByPath id paths).map barePath = (sortByPath id paths').map barePath :=
  sorts_pathLe.map_mergeSort_of_perm (fun _ _ => tied_pathLe_iff) permuted

/-- Sorting gives the same list if the paths differ in more than zeros. -/
theorem sortByPath_eq_of_perm {paths paths' : List String} (permuted : paths.Perm paths')
    (apart : ∀ one ∈ paths, ∀ other ∈ paths, barePath one = barePath other → one = other) :
    sortByPath id paths = sortByPath id paths' := by
  have sorted := List.pairwise_mergeSort sorts_pathLe.trans sorts_pathLe.total
  have kept (found : List String) : (sortByPath id found).Perm found := List.mergeSort_perm _ _
  apply List.Perm.eq_of_pairwise _ (sorted paths) (sorted paths')
  · exact (kept paths).trans (permuted.trans (kept paths').symm)
  · intro one other oneMem otherMem before after
    have otherMem' : other ∈ paths := permuted.mem_iff.mpr ((kept paths').mem_iff.mp otherMem)
    exact apart one ((kept paths).mem_iff.mp oneMem) other otherMem'
      (tied_pathLe_iff.mp (tied_iff.mpr ⟨before, after⟩))

/-! ## Findings -/

theorem Finding.isLE_of_le {first second : Finding} (before : Finding.le first second = true) :
    (comparePaths first.path second.path).isLE = true := by
  unfold Finding.le at before
  cases order : comparePaths first.path second.path <;> simp [order] at before ⊢

/-- The findings in files whose paths are tied stand together. -/
theorem exists_block_check (corpus : Corpus) (path : String) : ∃ front back,
    corpus.check
      = front ++ corpus.check.filter (fun finding => barePath finding.path = barePath path)
        ++ back := by
  apply exists_block
  intro early middle late found close close'
  rw [check_eq] at found
  have sorted := (Finding.pairwise_sort _).sublist found
  simp only [List.pairwise_cons, List.mem_cons, List.not_mem_nil, or_false] at sorted
  have before := Finding.isLE_of_le (sorted.1 middle (.inl rfl))
  have after := Finding.isLE_of_le (sorted.2.1 late rfl)
  simp only [decide_eq_true_eq] at close close' ⊢
  -- The late path is tied with the early one, so the middle one is not above it.
  have ties : comparePaths late.path early.path = .eq :=
    comparePaths_eq_iff.mpr (close'.trans close.symm)
  have back : (comparePaths middle.path early.path).isLE :=
    Std.TransCmp.isLE_trans after (by rw [ties]; rfl)
  rw [← close]
  exact comparePaths_eq_iff.mp (Std.OrientedCmp.isLE_antisymm back before)

/-- What is wrong with one of several texts is among the findings of the checks. -/
theorem mem_check_ofTexts (options : Options) {texts : List (String × String)}
    {path content : String} {diagnostic : Diagnostic} (distinct : (texts.map Prod.fst).Nodup)
    (member : (path, content) ∈ texts)
    (wrong : diagnostic ∈ (Source.read path content).diagnostics) :
    ⟨path, diagnostic⟩ ∈ (ofTexts options texts).check := by
  rw [ofTexts_eq]
  have apart := distinct_sourcesOf distinct
  have present : Source.read path content ∈ sourcesOf texts := List.mem_map_of_mem member
  exact (holds_ofSources options apart).mem_check_of_mem_diagnostics apart present wrong

/-- The natural order of paths can be turned around, it is transitive, and it ties paths that are
the same without the zeros in front of their numbers, and no others. Nothing but zeros in front of
components is left out there. In whatever order paths are given, sorting them gives the same list
without those zeros, and the same list if no two of them are tied. Among the findings of all checks,
those in files whose paths are tied stand together. -/
theorem paths_ordered_up_to_zeros (first second third : String) :
    comparePaths second first = (comparePaths first second).swap
      ∧ ((comparePaths first second).isLE → (comparePaths second third).isLE →
        (comparePaths first third).isLE)
      ∧ (comparePaths first second = .eq ↔ barePath first = barePath second)
      ∧ List.Forall₂ (fun component bare => ∃ zeros, component = List.replicate zeros '0' ++ bare)
        (components first.toList) (components (barePath first).toList)
      ∧ (∀ paths paths' : List String, paths.Perm paths' →
        (sortByPath id paths).map barePath = (sortByPath id paths').map barePath
          ∧ ((∀ one ∈ paths, ∀ other ∈ paths, barePath one = barePath other → one = other) →
            sortByPath id paths = sortByPath id paths'))
      ∧ ∀ (corpus : Corpus) (path : String), ∃ front back, corpus.check = front
        ++ corpus.check.filter (fun finding => barePath finding.path = barePath path) ++ back := by
  refine ⟨comparePaths_swap first second, Std.TransCmp.isLE_trans, comparePaths_eq_iff,
    forall₂_components_barePath first, ?_, exists_block_check⟩
  intro paths paths' permuted
  exact ⟨map_barePath_sortByPath permuted, sortByPath_eq_of_perm permuted⟩

/-- Paths with numbers stand in the order of the numbers and before all others, and they are sorted
alike whichever is given first. -/
theorem numbered_paths_ordered :
    (comparePaths "2_b" "10_a").isLE ∧ (comparePaths "10_a" "intro").isLE
      ∧ (comparePaths "2_b" "intro").isLE ∧ ["10_a", "2_b"].Perm ["2_b", "10_a"]
      ∧ (∀ one ∈ ["10_a", "2_b"], ∀ other ∈ ["10_a", "2_b"],
        barePath one = barePath other → one = other)
      ∧ sortByPath id ["10_a", "2_b"] = sortByPath id ["2_b", "10_a"] := by
  rcases paths_ordered_up_to_zeros "2_b" "10_a" "intro" with ⟨_, trans, _, _, sorted, _⟩
  have before : (comparePaths "2_b" "10_a").isLE := by decide +kernel
  have after : (comparePaths "10_a" "intro").isLE := by decide +kernel
  have permuted : ["10_a", "2_b"].Perm ["2_b", "10_a"] := .swap ..
  have apart : ∀ one ∈ ["10_a", "2_b"], ∀ other ∈ ["10_a", "2_b"],
      barePath one = barePath other → one = other := by decide +kernel
  exact ⟨before, after, trans before after, permuted, apart, (sorted _ _ permuted).2 apart⟩

/-- Two paths that differ in a zero in front of their numbers are tied: what sorting them gives
depends on which is given first, and what is wrong with one file is found amid what is wrong with
the other. -/
theorem zeros_tie_paths : comparePaths "1_a" "01_a" = .eq ∧ "1_a" ≠ "01_a"
    ∧ ["1_a", "01_a"].Perm ["01_a", "1_a"]
    ∧ sortByPath id ["1_a", "01_a"] ≠ sortByPath id ["01_a", "1_a"]
    ∧ ["01_a", "1_a", "01_a"].Sublist
      ((ofTexts defaultOptions [("01_a", "A:\n\nB:\n"), ("1_a", "--\nC:\n")]).check.map
        Finding.path) := by
  have kept : sortByPath id ["1_a", "01_a"] = ["1_a", "01_a"] :=
    List.mergeSort_of_pairwise (by decide +kernel)
  have kept' : sortByPath id ["01_a", "1_a"] = ["01_a", "1_a"] :=
    List.mergeSort_of_pairwise (by decide +kernel)
  refine ⟨by decide +kernel, by decide, .swap .., by rw [kept, kept']; decide, ?_⟩
  let unexpected (name : String) (row : Int32) : Diagnostic :=
    ⟨.structural, "Expected a top level group but found " ++ name, ⟨row, 0⟩⟩
  let few : List Finding :=
    [⟨"01_a", unexpected "A" 0⟩, ⟨"1_a", unexpected "C" 1⟩, ⟨"01_a", unexpected "B" 2⟩]
  have distinct : ([("01_a", "A:\n\nB:\n"), ("1_a", "--\nC:\n")].map Prod.fst).Nodup := by decide
  have found : few ⊆
      (ofTexts defaultOptions [("01_a", "A:\n\nB:\n"), ("1_a", "--\nC:\n")]).check := by
    simp only [few, List.cons_subset, List.nil_subset, and_true]
    refine ⟨mem_check_ofTexts _ distinct (.head _) ?_,
      mem_check_ofTexts _ distinct (.tail _ (.head _)) ?_,
      mem_check_ofTexts _ distinct (.head _) ?_⟩
    all_goals
      rw [diagnostics_read, Diagnostic.sortByLocation, List.mem_mergeSort]
      decide +kernel
  have strict : few.Pairwise fun first second => Finding.le second first = false := by
    decide +kernel
  exact (sorts_findingLe.sublist_of_pairwise (Finding.pairwise_sort _) strict found).map
    Finding.path

end Treatise.Corpus
