import Treatise.Proofs.Corpus.InputOrder
import Treatise.Proofs.Document.Likeness

/-!
# What the checks for duplicates find

Both checks for duplicates go through the entries of the files that survive the edits of a corpus,
in the natural order of the paths and, within a file, in the order in which they stand there. One
looks for entries that say the same as an earlier entry, and it finds exactly these. The other goes
by references: it looks for signatures that were introduced before. An entry that introduces a
signature twice has two references to it, so it is found whether or not an earlier entry introduces
the signature as well.
-/

namespace Treatise.Corpus

open Document (Entry Signature)

variable {corpus : Corpus} {options : Options} {sources : List Source} {placed : Placed}
  {form : String}

/-! ## Pairs in lists -/

theorem pair_sublist_append_iff {α : Type} {first second : α} {front back : List α} :
    [first, second].Sublist (front ++ back) ↔ [first, second].Sublist front
      ∨ (first ∈ front ∧ second ∈ back) ∨ [first, second].Sublist back := by
  induction front with
  | nil => simp
  | cons head rest ih =>
      simp only [List.cons_append, List.cons_sublist_cons', List.singleton_sublist, ih,
        List.mem_append, List.mem_cons]
      constructor
      · rintro ((here | ⟨firstMem, secondMem⟩ | later) | ⟨rfl, secondMem | secondMem⟩)
        · exact .inl (.inl here)
        · exact .inr (.inl ⟨.inr firstMem, secondMem⟩)
        · exact .inr (.inr later)
        · exact .inl (.inr ⟨rfl, secondMem⟩)
        · exact .inr (.inl ⟨.inl rfl, secondMem⟩)
      · rintro ((here | ⟨rfl, secondMem⟩) | ⟨rfl | firstMem, secondMem⟩ | later)
        · exact .inl (.inl here)
        · exact .inr ⟨rfl, .inl secondMem⟩
        · exact .inr ⟨rfl, .inr secondMem⟩
        · exact .inl (.inr (.inl ⟨firstMem, secondMem⟩))
        · exact .inl (.inr (.inr later))

/-- Of lists that are put together, a pair lies in one, or in two of which one comes before the
other. -/
theorem pair_sublist_flatMap_iff {α β : Type} {first second : β} {parts : α → List β}
    {values : List α} : [first, second].Sublist (values.flatMap parts)
      ↔ (∃ value ∈ values, [first, second].Sublist (parts value))
        ∨ ∃ one other, [one, other].Sublist values ∧ first ∈ parts one ∧ second ∈ parts other := by
  induction values with
  | nil => simp
  | cons head rest ih =>
      simp only [List.flatMap_cons, pair_sublist_append_iff, ih, List.cons_sublist_cons',
        List.singleton_sublist, List.mem_cons, List.mem_flatMap]
      constructor
      · rintro (here | ⟨firstMem, other, member, secondMem⟩ | ⟨value, member, later⟩
          | ⟨one, other, later, firstMem, secondMem⟩)
        · exact .inl ⟨head, .inl rfl, here⟩
        · exact .inr ⟨head, other, .inr ⟨rfl, member⟩, firstMem, secondMem⟩
        · exact .inl ⟨value, .inr member, later⟩
        · exact .inr ⟨one, other, .inl later, firstMem, secondMem⟩
      · rintro (⟨value, rfl | member, pair⟩
          | ⟨one, other, later | ⟨rfl, member⟩, firstMem, secondMem⟩)
        · exact .inl pair
        · exact .inr (.inr (.inl ⟨value, member, pair⟩))
        · exact .inr (.inr (.inr ⟨one, other, later, firstMem, secondMem⟩))
        · exact .inr (.inl ⟨firstMem, other, member, secondMem⟩)

theorem pair_sublist_map_iff {α β : Type} {first second : β} {f : α → β} {values : List α} :
    [first, second].Sublist (values.map f)
      ↔ ∃ one other, [one, other].Sublist values ∧ f one = first ∧ f other = second := by
  have short : ∀ value, ¬ [first, second].Sublist [f value] := by
    intro value pair
    simpa using pair.length_le
  rw [List.map_eq_flatMap, pair_sublist_flatMap_iff]
  simp [short, eq_comm]

theorem mem_drop_one_iff {α : Type} {value : α} {values : List α} :
    value ∈ values.drop 1 ↔ ∃ first, [first, value].Sublist values := by
  cases values with
  | nil => simp
  | cons head rest =>
      constructor
      · intro later
        exact ⟨head, .cons_cons head (List.singleton_sublist.mpr later)⟩
      · rintro ⟨first, pair⟩
        exact List.singleton_sublist.mp pair.tail

/-! ## The order of the entries -/

/-- Where an entry stands. -/
def Placed.place (placed : Placed) : String × Nat := (placed.path, placed.index)

/-- Where the entry stands that a reference leads to. -/
def Reference.place (reference : Reference) : String × Nat := (reference.path, reference.index)

/-- The entries of files, in the natural order of the paths and then by their indexes. Where the
natural order does not tell paths apart, the entry of the file that was added first comes first. -/
def inOrder (sources : List Source) : List Placed :=
  (sources.flatMap placedEntries).mergeSort placedLe

/-- An entry comes before another one. -/
def Precedes (sources : List Source) (first second : Placed) : Prop :=
  [first, second].Sublist (inOrder sources)

/-- The comparison of places by which entries and references are sorted. -/
def placeLe (first second : String × Nat) : Bool :=
  referenceLe ⟨first.1, first.2, .start⟩ ⟨second.1, second.2, .start⟩

theorem sorts_placeLe : Sorts placeLe :=
  sorts_referenceLe.of_key fun place : String × Nat => Reference.mk place.1 place.2 .start

theorem mem_inOrder_iff : placed ∈ inOrder sources ↔ placed ∈ sources.flatMap placedEntries :=
  List.mem_mergeSort

theorem Precedes.mem_right {first second : Placed} (before : Precedes sources first second) :
    second ∈ inOrder sources :=
  before.subset (List.mem_cons_of_mem _ List.mem_cons_self)

theorem nodup_place_placedEntries (source : Source) :
    ((placedEntries source).map Placed.place).Nodup := by
  have indexes : (source.entries.zipIdx.map Prod.snd).Nodup := by
    rw [List.zipIdx_map_snd]
    exact List.nodup_range'
  apply List.Nodup.of_map Prod.snd
  rw [placedEntries, List.map_map, List.map_map]
  exact indexes

/-- No two entries stand at the same place. -/
theorem nodup_place_inOrder (distinct : Distinct sources) :
    ((inOrder sources).map Placed.place).Nodup := by
  have sorted := (List.mergeSort_perm (sources.flatMap placedEntries) placedLe).map Placed.place
  apply sorted.nodup_iff.mpr
  rw [List.map_flatMap, List.nodup_flatMap]
  constructor
  · intro source _
    exact nodup_place_placedEntries source
  · apply (List.pairwise_map.mp distinct).imp
    intro source source' differs place member member'
    rcases List.mem_map.mp member with ⟨placed, placedMem, rfl⟩
    rcases List.mem_map.mp member' with ⟨placed', placedMem', same⟩
    apply differs
    rw [← Source.path_of_mem_placedEntries placedMem, ← Source.path_of_mem_placedEntries placedMem']
    exact (Prod.mk.inj same).1.symm

theorem eq_of_place_eq (distinct : Distinct sources) {first second : Placed}
    (firstMem : first ∈ inOrder sources) (secondMem : second ∈ inOrder sources)
    (same : first.place = second.place) : first = second :=
  List.inj_on_of_nodup_map (nodup_place_inOrder distinct) firstMem secondMem same

/-! ## Entries that say the same -/

/-- The entry without any places in it. -/
def Placed.normalized (placed : Placed) : Placed :=
  { placed with entry := placed.entry.normalized }

theorem repeatedFrom_sublist (earlier : List Entry) (all : List Placed) :
    (repeatedFrom earlier all).Sublist all := by
  induction all generalizing earlier with
  | nil => exact .slnil
  | cons first rest ih =>
      rw [repeatedFrom]
      split_ifs
      · exact (ih _).cons_cons first
      · exact (ih _).cons first

/-- The entries that say the same as an earlier one are found. -/
theorem mem_repeatedFrom_iff {earlier : List Entry} {all : List Placed} :
    placed ∈ repeatedFrom earlier all ↔ (placed ∈ all ∧ placed.entry ∈ earlier)
      ∨ ∃ other, [other, placed].Sublist all ∧ other.entry = placed.entry := by
  induction all generalizing earlier with
  | nil => simp [repeatedFrom]
  | cons first rest ih =>
      have later : placed ∈ repeatedFrom (first.entry :: earlier) rest
          ↔ (placed ∈ rest ∧ placed.entry ∈ earlier)
            ∨ ∃ other, [other, placed].Sublist (first :: rest) ∧ other.entry = placed.entry := by
        rw [ih]
        simp only [List.cons_sublist_cons', List.singleton_sublist, List.mem_cons]
        constructor
        · rintro (⟨member, same | known⟩ | ⟨other, pair, same⟩)
          · exact .inr ⟨first, .inr ⟨rfl, member⟩, same.symm⟩
          · exact .inl ⟨member, known⟩
          · exact .inr ⟨other, .inl pair, same⟩
        · rintro (⟨member, known⟩ | ⟨other, pair | ⟨rfl, member⟩, same⟩)
          · exact .inl ⟨member, .inr known⟩
          · exact .inr ⟨other, pair, same⟩
          · exact .inl ⟨member, .inl same.symm⟩
      rw [repeatedFrom]
      by_cases known : first.entry ∈ earlier
      · simp only [List.contains_iff_mem, known, if_true, List.mem_cons, later]
        constructor
        · rintro (rfl | ⟨member, found⟩ | found)
          · exact .inl ⟨.inl rfl, known⟩
          · exact .inl ⟨.inr member, found⟩
          · exact .inr found
        · rintro (⟨rfl | member, found⟩ | found)
          · exact .inl rfl
          · exact .inr (.inl ⟨member, found⟩)
          · exact .inr (.inr found)
      · simp only [List.contains_iff_mem, known, if_false, List.mem_cons, later]
        constructor
        · rintro (⟨member, found⟩ | found)
          · exact .inl ⟨.inr member, found⟩
          · exact .inr found
        · rintro (⟨rfl | member, found⟩ | found)
          · exact absurd found known
          · exact .inl ⟨member, found⟩
          · exact .inr found

theorem Indexed.mergeSort_normalized (indexed : Indexed corpus sources) :
    corpus.normalized.mergeSort placedLe = (inOrder sources).map Placed.normalized := by
  have listed : corpus.normalized = (sources.flatMap placedEntries).map Placed.normalized := by
    rw [indexed.normalized, List.map_flatMap]
    rfl
  rw [listed, inOrder]
  apply Eq.symm
  apply List.map_mergeSort
  intro _ _ _ _
  rfl

theorem Holds.entry_of_mem (holds : Holds corpus options sources) (distinct : Distinct sources)
    (present : placed ∈ sources.flatMap placedEntries) :
    corpus.entry placed.path placed.index = .ok placed.entry := by
  rcases List.mem_flatMap.mp present with ⟨source, member, place⟩
  rcases List.mem_map.mp place with ⟨⟨entry, index⟩, entryMem, rfl⟩
  have stands : source.entries[index]? = some entry := List.mem_zipIdx_iff_getElem?.mp entryMem
  have found : corpus.files.find? source.path = some source := by
    rw [holds.files]
    exact (find?_path_eq_some_iff distinct).mpr ⟨member, rfl⟩
  cases reading : source.reading with
  | error diagnostics => simp [Source.entries, reading] at stands
  | ok document =>
      have standsThere : document.entries[index]? = some entry := by
        simpa [Source.entries, reading] using stands
      simp [Corpus.entry, Corpus.document, file?, found, reading, standsThere, bind, Except.bind,
        pure, Except.pure]

/-- The finding that an entry says the same as an earlier one. -/
def Placed.contentFinding (placed : Placed) : Finding :=
  .ofProblem placed.path .duplicateContent placed.entry.location

theorem normalized_injOn (distinct : Distinct sources) {first second : Placed}
    (firstMem : first ∈ inOrder sources) (secondMem : second ∈ inOrder sources)
    (same : first.normalized = second.normalized) : first = second := by
  have places : first.normalized.place = second.normalized.place := congrArg Placed.place same
  exact eq_of_place_eq distinct firstMem secondMem places

/-- An entry is found among the normalized entries if and only if it is alike to an earlier one. -/
theorem normalized_mem_repeatedFrom_iff (distinct : Distinct sources)
    (present : placed ∈ inOrder sources) :
    placed.normalized ∈ repeatedFrom [] ((inOrder sources).map Placed.normalized)
      ↔ ∃ other, Precedes sources other placed ∧ other.entry.Alike placed.entry := by
  rw [mem_repeatedFrom_iff]
  constructor
  · rintro (⟨-, known⟩ | ⟨other, pair, same⟩)
    · cases known
    · rcases pair_sublist_map_iff.mp pair with ⟨first, second, before, rfl, equal⟩
      cases normalized_injOn distinct (Precedes.mem_right before) present equal
      exact ⟨first, before, (Document.Entry.normalized_eq_iff _ _).mp same⟩
  · rintro ⟨other, before, alike⟩
    refine .inr ⟨other.normalized, before.map Placed.normalized, ?_⟩
    exact (Document.Entry.normalized_eq_iff other.entry placed.entry).mpr alike

/-- The entries that are alike to an earlier one are found, each once. -/
theorem Holds.exists_repeated (holds : Holds corpus options sources) (distinct : Distinct sources) :
    ∃ repeated : List Placed, corpus.duplicateContent = repeated.map Placed.contentFinding
      ∧ (repeated.map Placed.place).Nodup
      ∧ ∀ placed, placed ∈ repeated
        ↔ ∃ other, Precedes sources other placed ∧ other.entry.Alike placed.entry := by
  have kept := repeatedFrom_sublist [] ((inOrder sources).map Placed.normalized)
  rcases List.sublist_map_iff.mp kept with ⟨repeated, sub, same⟩
  refine ⟨repeated, ?_, (nodup_place_inOrder distinct).sublist (sub.map Placed.place), ?_⟩
  · change (repeatedFrom [] (corpus.normalized.mergeSort placedLe)).filterMap _ = _
    rw [holds.indexed.mergeSort_normalized, same, List.filterMap_map, ← List.filterMap_eq_map]
    apply List.filterMap_congr
    intro placed member
    have found := holds.entry_of_mem distinct (mem_inOrder_iff.mp (sub.subset member))
    simp [Placed.normalized, found, Placed.contentFinding]
  · intro placed
    constructor
    · intro member
      apply (normalized_mem_repeatedFrom_iff distinct (sub.subset member)).mp
      rw [same]
      exact List.mem_map_of_mem member
    · rintro ⟨other, before, alike⟩
      have present := before.mem_right
      have found := (normalized_mem_repeatedFrom_iff distinct present).mpr ⟨other, before, alike⟩
      rw [same] at found
      rcases List.mem_map.mp found with ⟨original, member, equal⟩
      rwa [← normalized_injOn distinct (sub.subset member) present equal]

/-! ## Signatures that were introduced before -/

/-- The entry introduces a signature. -/
def Introduces (placed : Placed) (form : String) : Prop :=
  ∃ signature ∈ placed.entry.signatures, signature.form = form

/-- The entry introduces a signature that an earlier one introduces, or it introduces it twice. -/
def Repeats (sources : List Source) (placed : Placed) (form : String) : Prop :=
  (Introduces placed form ∧ ∃ other, Precedes sources other placed ∧ Introduces other form)
    ∨ 2 ≤ (placed.entry.signatures.map Signature.form).count form

/-- The references to an entry under a signature. -/
def Placed.referencesFor (form : String) (placed : Placed) : List Reference :=
  (placed.entry.signatures.filter fun signature => signature.form = form).map fun signature =>
    ⟨placed.path, placed.index, signature.location⟩

theorem mem_referencesFor_iff {reference : Reference} : reference ∈ placed.referencesFor form
    ↔ reference.place = placed.place ∧ ⟨form, reference.location⟩ ∈ placed.entry.signatures := by
  rcases reference with ⟨path, index, location⟩
  simp only [Placed.referencesFor, Reference.place, Placed.place, List.mem_map, List.mem_filter,
    decide_eq_true_eq, Reference.mk.injEq, Prod.mk.injEq]
  constructor
  · rintro ⟨signature, ⟨member, rfl⟩, rfl, rfl, rfl⟩
    exact ⟨⟨rfl, rfl⟩, member⟩
  · rintro ⟨⟨rfl, rfl⟩, member⟩
    exact ⟨⟨form, location⟩, ⟨member, rfl⟩, rfl, rfl, rfl⟩

theorem introduces_iff :
    Introduces placed form ↔ ∃ reference, reference ∈ placed.referencesFor form := by
  constructor
  · rintro ⟨signature, member, rfl⟩
    exact ⟨⟨placed.path, placed.index, signature.location⟩, mem_referencesFor_iff.mpr ⟨rfl, member⟩⟩
  · rintro ⟨reference, member⟩
    exact ⟨_, (mem_referencesFor_iff.mp member).2, rfl⟩

theorem length_referencesFor : (placed.referencesFor form).length
    = (placed.entry.signatures.map Signature.form).count form := by
  rw [Placed.referencesFor, List.length_map, List.count_eq_countP, List.countP_map,
    List.countP_eq_length_filter]
  rfl

/-- The references to a signature in the order in which they are looked at. -/
theorem Indexed.mergeSort_references (indexed : Indexed corpus sources) (form : String) :
    (corpus.signatures.listAt form).mergeSort referenceLe
      = (inOrder sources).flatMap (Placed.referencesFor form) := by
  have listed : corpus.signatures.listAt form
      = (sources.flatMap placedEntries).flatMap (Placed.referencesFor form) := by
    rw [indexed.references, List.flatMap_assoc]
    apply List.flatMap_congr
    intro source _
    rw [Source.referencesFor, Source.introductions, List.filter_flatMap, List.map_flatMap]
    apply List.flatMap_congr
    intro placed _
    rw [referencesTo, List.filter_map, List.map_map]
    rfl
  have places : ∀ placed : Placed, ∀ reference ∈ placed.referencesFor form,
      reference.place = placed.place := by
    intro placed reference member
    exact (mem_referencesFor_iff.mp member).1
  rw [listed]
  exact sorts_placeLe.mergeSort_flatMap places _

/-- A reference is not the first one to a signature. -/
def Later (corpus : Corpus) (form : String) (reference : Reference) : Prop :=
  reference ∈ ((corpus.signatures.listAt form).mergeSort referenceLe).drop 1

theorem Indexed.later_iff (indexed : Indexed corpus sources) {reference : Reference} :
    Later corpus form reference ↔ ∃ placed ∈ inOrder sources, reference ∈ placed.referencesFor form
      ∧ ((∃ other, Precedes sources other placed ∧ Introduces other form)
        ∨ ∃ first, [first, reference].Sublist (placed.referencesFor form)) := by
  rw [Later, indexed.mergeSort_references, mem_drop_one_iff]
  simp only [pair_sublist_flatMap_iff, introduces_iff]
  constructor
  · rintro ⟨first, ⟨placed, member, pair⟩ | ⟨other, placed, before, firstMem, later⟩⟩
    · exact ⟨placed, member, pair.subset (by simp), .inr ⟨first, pair⟩⟩
    · exact ⟨placed, Precedes.mem_right before, later, .inl ⟨other, before, first, firstMem⟩⟩
  · rintro ⟨placed, member, later, ⟨other, before, first, firstMem⟩ | ⟨first, pair⟩⟩
    · exact ⟨first, .inr ⟨other, placed, before, firstMem, later⟩⟩
    · exact ⟨first, .inl ⟨placed, member, pair⟩⟩

theorem two_le_count_iff : 2 ≤ (placed.entry.signatures.map Signature.form).count form
    ↔ ∃ first second, [first, second].Sublist (placed.referencesFor form) := by
  rw [← length_referencesFor]
  constructor
  · intro many
    rcases listed : placed.referencesFor form with _ | ⟨first, _ | ⟨second, rest⟩⟩
    · simp [listed] at many
    · simp [listed] at many
    · exact ⟨first, second, ((List.nil_sublist rest).cons_cons second).cons_cons first⟩
  · rintro ⟨first, second, pair⟩
    exact pair.length_le

/-- A reference that is not the first one to a signature leads to an entry that repeats it. -/
theorem Indexed.repeats_of_later (indexed : Indexed corpus sources) {reference : Reference}
    (later : Later corpus form reference) : ∃ placed ∈ inOrder sources,
      reference ∈ placed.referencesFor form ∧ Repeats sources placed form := by
  rcases indexed.later_iff.mp later with ⟨placed, member, leads, before | ⟨first, pair⟩⟩
  · exact ⟨placed, member, leads, .inl ⟨introduces_iff.mpr ⟨reference, leads⟩, before⟩⟩
  · exact ⟨placed, member, leads, .inr (two_le_count_iff.mpr ⟨first, reference, pair⟩)⟩

/-- To an entry that repeats a signature a reference leads that is not the first one. -/
theorem Indexed.exists_later_of_repeats (indexed : Indexed corpus sources)
    (present : placed ∈ inOrder sources) (repeats : Repeats sources placed form) :
    ∃ reference, Later corpus form reference ∧ reference.place = placed.place := by
  rcases repeats with ⟨introduces, before⟩ | twice
  · rcases introduces_iff.mp introduces with ⟨reference, leads⟩
    exact ⟨reference, indexed.later_iff.mpr ⟨placed, present, leads, .inl before⟩,
      (mem_referencesFor_iff.mp leads).1⟩
  · rcases two_le_count_iff.mp twice with ⟨first, second, pair⟩
    have leads : second ∈ placed.referencesFor form := pair.subset (by simp)
    exact ⟨second, indexed.later_iff.mpr ⟨placed, present, leads, .inr ⟨first, pair⟩⟩,
      (mem_referencesFor_iff.mp leads).1⟩

/-- The finding that an entry introduces a signature again. -/
def signatureFinding (found : String × Reference) : Finding :=
  .ofProblem found.2.path (.duplicateSignature found.1) found.2.location

/-- Of the references that lead to one entry the first one is reported, unless one was before. -/
theorem exists_reported (reported : List (String × Nat)) (references : List (String × Reference)) :
    ∃ kept : List (String × Reference),
      duplicatesFrom reported references = kept.map signatureFinding
      ∧ kept.Sublist references ∧ (kept.map fun found => found.2.place).Nodup
      ∧ ∀ place, place ∈ kept.map (fun found => found.2.place)
        ↔ place ∈ references.map (fun found => found.2.place) ∧ place ∉ reported := by
  induction references generalizing reported with
  | nil => exact ⟨[], rfl, .slnil, List.nodup_nil, by simp⟩
  | cons first rest ih =>
      rcases first with ⟨form, reference⟩
      rw [duplicatesFrom]
      by_cases known : (reference.path, reference.index) ∈ reported
      · rcases ih reported with ⟨kept, same, sub, distinct, places⟩
        refine ⟨kept, by simp [known, same], sub.cons _, distinct, ?_⟩
        intro place
        rw [places, List.map_cons, List.mem_cons]
        constructor
        · rintro ⟨member, fresh⟩
          exact ⟨.inr member, fresh⟩
        · rintro ⟨rfl | member, fresh⟩
          · exact absurd known fresh
          · exact ⟨member, fresh⟩
      · rcases ih ((reference.path, reference.index) :: reported) with
          ⟨kept, same, sub, distinct, places⟩
        refine ⟨(form, reference) :: kept, by simp [known, same, signatureFinding],
          sub.cons_cons _, ?_, ?_⟩
        · rw [List.map_cons, List.nodup_cons]
          refine ⟨?_, distinct⟩
          intro again
          exact ((places _).mp again).2 List.mem_cons_self
        · intro place
          rw [List.map_cons, List.map_cons, List.mem_cons, List.mem_cons, places, List.mem_cons]
          by_cases here : place = reference.place
          · have fresh : reference.place ∉ reported := known
            simp [here, fresh]
          · have differs : place ≠ (reference.path, reference.index) := here
            simp [here, differs]

theorem Indexed.mem_later_iff (indexed : Indexed corpus sources) {found : String × Reference} :
    found ∈ corpus.signatures.entries.flatMap (fun (signature, references) =>
        ((references.mergeSort referenceLe).drop 1).map (signature, ·))
      ↔ Later corpus found.1 found.2 := by
  rcases found with ⟨form, reference⟩
  rw [indexed.filled.entries_eq, List.flatMap_map]
  simp only [List.mem_flatMap, List.mem_map, Prod.mk.injEq]
  constructor
  · rintro ⟨key, -, other, later, rfl, rfl⟩
    exact later
  · intro later
    refine ⟨form, ?_, reference, later, rfl, rfl⟩
    apply indexed.filled.mem_keys_iff.mpr
    intro bare
    simp [Later, bare] at later

/-- The entries that repeat a signature are found, each once. -/
theorem Holds.exists_repeating (holds : Holds corpus options sources)
    (distinct : Distinct sources) :
    ∃ reports : List (String × Reference),
      corpus.duplicateSignatures = Finding.sort (reports.map signatureFinding)
        ∧ (reports.map fun found => found.2.place).Nodup
        ∧ (∀ form reference, (form, reference) ∈ reports → ∃ placed ∈ sources.flatMap placedEntries,
          reference.place = placed.place ∧ ⟨form, reference.location⟩ ∈ placed.entry.signatures
            ∧ Repeats sources placed form)
        ∧ ∀ placed ∈ sources.flatMap placedEntries,
          placed.place ∈ reports.map (fun found => found.2.place)
            ↔ ∃ form, Repeats sources placed form := by
  rcases exists_reported [] (corpus.signatures.entries.flatMap fun (signature, references) =>
    ((references.mergeSort referenceLe).drop 1).map (signature, ·)) with
    ⟨reports, same, sub, nodup, places⟩
  refine ⟨reports, by rw [duplicateSignatures, same], nodup, ?_, ?_⟩
  · intro form reference member
    have later := holds.indexed.mem_later_iff.mp (sub.subset member)
    rcases holds.indexed.repeats_of_later later with ⟨placed, present, leads, repeats⟩
    rcases mem_referencesFor_iff.mp leads with ⟨place, introduced⟩
    exact ⟨placed, mem_inOrder_iff.mp present, place, introduced, repeats⟩
  · intro placed present
    rw [← mem_inOrder_iff] at present
    rw [places]
    constructor
    · rintro ⟨member, -⟩
      rcases List.mem_map.mp member with ⟨⟨form, reference⟩, found, place⟩
      have later := holds.indexed.mem_later_iff.mp found
      rcases holds.indexed.repeats_of_later later with ⟨other, otherMem, leads, repeats⟩
      have places : other.place = placed.place :=
        (mem_referencesFor_iff.mp leads).1.symm.trans place
      cases eq_of_place_eq distinct otherMem present places
      exact ⟨form, repeats⟩
    · rintro ⟨form, repeats⟩
      rcases holds.indexed.exists_later_of_repeats present repeats with ⟨reference, later, place⟩
      refine ⟨List.mem_map.mpr ⟨(form, reference), holds.indexed.mem_later_iff.mpr later, place⟩,
        ?_⟩
      exact List.not_mem_nil

/-! ## After any edits -/

/-- After any edits the check for duplicate signatures reports each entry at most once, and it
reports exactly the entries that introduce a signature which an earlier entry introduces too, or
introduce one signature twice. A report names such a signature and the place where the entry
introduces it. -/
theorem duplicateSignatures_afterEdits (options : Options) (edits : List Edit) :
    ∃ reports : List (String × Reference),
      (afterEdits options edits).duplicateSignatures = Finding.sort (reports.map signatureFinding)
        ∧ (reports.map fun found => found.2.place).Nodup
        ∧ (∀ form reference, (form, reference) ∈ reports →
          ∃ placed ∈ (survivors edits).flatMap placedEntries, reference.place = placed.place
            ∧ ⟨form, reference.location⟩ ∈ placed.entry.signatures
            ∧ Repeats (survivors edits) placed form)
        ∧ ∀ placed ∈ (survivors edits).flatMap placedEntries,
          placed.place ∈ reports.map (fun found => found.2.place)
            ↔ ∃ form, Repeats (survivors edits) placed form :=
  (holds_afterEdits options edits).exists_repeating (distinct_survivors edits)

/-- An entry that introduces a signature twice is reported, though there is no other entry. -/
theorem sole_entry_reported :
    (afterEdits defaultOptions [.add (.read "a.math"
        "Mutually:\n. [\\a]\n  Defines: x\n. [\\a]\n  Defines: y\n")]).entries.length = 1
      ∧ (afterEdits defaultOptions [.add (.read "a.math"
        "Mutually:\n. [\\a]\n  Defines: x\n. [\\a]\n  Defines: y\n")]).duplicateSignatures
        = [.ofProblem "a.math" (.duplicateSignature "\\a") ⟨3, 2⟩] := by
  have introduced : (afterEdits defaultOptions [.add (.read "a.math"
        "Mutually:\n. [\\a]\n  Defines: x\n. [\\a]\n  Defines: y\n")]).signatures.entries
      = [("\\a", [⟨"a.math", 0, ⟨1, 2⟩⟩, ⟨"a.math", 0, ⟨3, 2⟩⟩])] := by
    decide +kernel
  have ordered : [Reference.mk "a.math" 0 ⟨1, 2⟩, ⟨"a.math", 0, ⟨3, 2⟩⟩].mergeSort referenceLe
      = [⟨"a.math", 0, ⟨1, 2⟩⟩, ⟨"a.math", 0, ⟨3, 2⟩⟩] :=
    List.mergeSort_of_pairwise (by decide +kernel)
  refine ⟨by decide +kernel, ?_⟩
  rw [duplicateSignatures, introduced]
  simp [ordered, duplicatesFrom, Finding.sort]

/-- Documents are found equal once normalized if and only if they differ in nothing but places, and
after any edits the check for duplicate content reports exactly the entries that differ from an
earlier entry in nothing but places, each once and at its own place. -/
theorem duplicateContent_afterEdits :
    (∀ first second : Document,
      (first.normalized == second.normalized) = true ↔ first.Alike second)
    ∧ ∀ (options : Options) (edits : List Edit), ∃ repeated : List Placed,
      (afterEdits options edits).duplicateContent = repeated.map Placed.contentFinding
        ∧ (repeated.map Placed.place).Nodup
        ∧ ∀ placed, placed ∈ repeated ↔ placed ∈ (survivors edits).flatMap placedEntries
          ∧ ∃ other, Precedes (survivors edits) other placed ∧ other.entry.Alike placed.entry := by
  refine ⟨Document.normalized_beq_iff, ?_⟩
  intro options edits
  rcases (holds_afterEdits options edits).exists_repeated (distinct_survivors edits) with
    ⟨repeated, same, nodup, found⟩
  refine ⟨repeated, same, nodup, ?_⟩
  intro placed
  rw [found]
  constructor
  · rintro ⟨other, before, alike⟩
    exact ⟨mem_inOrder_iff.mp before.mem_right, other, before, alike⟩
  · exact And.right

end Treatise.Corpus
