import Treatise.Proofs.Document.Shape

/-!
# What is accepted and what is reported

The sections of a group are gone through once, with the expected names in their order. A section is
in place if its name is expected after the names of all sections before it, as far as these are
expected at all. So the sections are accepted exactly if their names are a part of the expected
names, in order, with no required one left out. Otherwise every section out of place is reported
once, and so is every required name under which no section is in place.

The pass itself knows of the sections before only those that it accepted, under their names, and the
names that it still expects. The accepted ones are the sections in place, and what the names still
expected say about the sections to come is the invariant (`Cursor`).
-/

namespace Treatise.Document

open Outline (Group Section)

variable {expected : List Expectation} {parts : List Section} {group : Group}

/-! ## The accepted groups -/

theorem Fits.sublist (fits : Fits expected parts) :
    (parts.map Section.name).Sublist (expected.map Expectation.name) := by
  induction fits with
  | nil => exact .slnil
  | skip _ _ ih => exact ih.cons _
  | take named _ ih =>
      rw [List.map_cons, List.map_cons, named]
      exact ih.cons_cons _

theorem fits_of_sublist (distinct : (expected.map Expectation.name).Nodup)
    (ordered : (parts.map Section.name).Sublist (expected.map Expectation.name))
    (complete : ∀ expectation ∈ expected, expectation.isOptional = false →
      expectation.name ∈ parts.map Section.name) : Fits expected parts := by
  induction expected generalizing parts with
  | nil =>
      rw [List.map_nil, List.sublist_nil, List.map_eq_nil_iff] at ordered
      exact ordered ▸ .nil
  | cons expectation rest ih =>
      rcases List.nodup_cons.mp distinct with ⟨fresh, distinct⟩
      rcases List.forall_mem_cons.mp complete with ⟨here, later⟩
      rcases List.sublist_cons_iff.mp ordered with ordered | ⟨names, same, ordered⟩
      · have absent : expectation.name ∉ parts.map Section.name := fun present =>
          fresh (ordered.subset present)
        refine .skip ?_ (ih distinct ordered later)
        cases optional : expectation.isOptional with
        | true => rfl
        | false => exact absurd (here optional) absent
      · rcases List.map_eq_cons_iff.mp same with ⟨part, parts, rfl, named, rfl⟩
        refine .take named (ih distinct ordered fun other member needed => ?_)
        refine (List.mem_cons.mp (later other member needed)).resolve_left fun again => ?_
        exact fresh (named ▸ again ▸ List.mem_map_of_mem member)

theorem Fits.of_cons {part : Section} (fits : Fits expected (part :: parts)) :
    ∃ passed found after, expected = passed ++ found :: after ∧ found.name = part.name
      ∧ (∀ expectation ∈ passed, expectation.isOptional = true) ∧ Fits after parts := by
  induction expected with
  | nil => cases fits
  | cons expectation rest ih =>
      cases fits with
      | skip optional more =>
          rcases ih more with ⟨passed, found, after, rfl, named, skipped, fits⟩
          exact ⟨expectation :: passed, found, after, rfl, named,
            List.forall_mem_cons.mpr ⟨optional, skipped⟩, fits⟩
      | take named more => exact ⟨[], expectation, rest, rfl, named.symm, by simp, more⟩

theorem splitAtName_append {name : String} {passed after : List Expectation} {found : Expectation}
    (named : found.name = name) (absent : name ∉ passed.map Expectation.name) :
    splitAtName name (passed ++ found :: after) = some (passed, after) := by
  induction passed with
  | nil => simp [splitAtName, named]
  | cons expectation rest ih =>
      rw [List.map_cons, List.mem_cons, not_or] at absent
      simp [splitAtName, Ne.symm absent.1, ih absent.2]

theorem splitAtName_eq_none_iff {name : String} :
    splitAtName name expected = none ↔ name ∉ expected.map Expectation.name := by
  induction expected with
  | nil => simp [splitAtName]
  | cons expectation rest ih =>
      by_cases same : expectation.name = name
      · simp [splitAtName, same]
      · simp [splitAtName, same, ih, Ne.symm same]

theorem clean_reportMissing_of_optional {location : Location}
    (optional : ∀ expectation ∈ expected, expectation.isOptional = true) :
    (reportMissing location expected).problems = [] := by
  induction expected with
  | nil => rfl
  | cons expectation rest ih =>
      rcases List.forall_mem_cons.mp optional with ⟨here, later⟩
      simp [reportMissing, here, ih later]

theorem contains_insert_iff {α : Type} {sections : Sections α} {name other : String} {value : α} :
    (sections.insert name value).contains other = true
      ↔ sections.contains other = true ∨ other = name := by
  simp [Sections.contains_iff, Sections.insert]

/-- Sections that fit are gone through without a problem. -/
theorem Fits.clean {location : Location} {sections : Sections Section} (fits : Fits expected parts)
    (distinct : (expected.map Expectation.name).Nodup)
    (fresh : ∀ name, sections.contains name = true → name ∉ expected.map Expectation.name) :
    (identifyFrom id location sections expected parts).problems = [] := by
  induction parts generalizing sections expected with
  | nil =>
      simp only [identifyFrom, Review.problems_bind, Review.problems_pure, List.append_nil]
      refine clean_reportMissing_of_optional fun expectation member => ?_
      cases needed : expectation.isOptional with
      | true => rfl
      | false => simpa using fits.present member needed
  | cons part rest ih =>
      rcases fits.of_cons with ⟨passed, found, after, rfl, named, optional, more⟩
      rw [List.map_append, List.map_cons, named] at distinct fresh
      have notBefore : part.name ∉ passed.map Expectation.name := fun before =>
        (List.nodup_append.mp distinct).2.2 _ before _ List.mem_cons_self rfl
      have notAfter := List.nodup_cons.mp (List.nodup_append.mp distinct).2.1
      have unseen : ¬ sections.contains part.name = true := fun seen =>
        fresh part.name seen (by simp)
      simp only [identifyFrom, id_eq, if_neg unseen, splitAtName_append named notBefore,
        Review.problems_bind, clean_reportMissing_of_optional optional, List.nil_append]
      refine ih more notAfter.2 fun name seen later => ?_
      rcases contains_insert_iff.mp seen with seen | rfl
      · exact fresh name seen (List.mem_append_right _ (List.mem_cons_of_mem _ later))
      · exact notAfter.1 later

/-- Sections that fit are identified without a problem. -/
theorem Fits.identified (fits : Fits expected group.sections)
    (distinct : (expected.map Expectation.name).Nodup) :
    (identify expected group).problems = [] :=
  fits.clean distinct (by simp [Sections.contains_iff, Sections.empty])

theorem identify_clean (clean : (identify expected group).problems = []) :
    Fits expected group.sections
      ∧ (identify expected group).value = some (sectionsOf group) := by
  rcases identifyBy_clean clean with ⟨fits, identified⟩
  rw [List.map_id] at fits
  exact ⟨fits, identified⟩

theorem identify_iff_fits (distinct : (expected.map Expectation.name).Nodup) :
    (identify expected group).value.isSome = true ↔ Fits expected group.sections := by
  have accepted : (identify expected group).value.isSome = true
      ↔ (identify expected group).problems = [] := by
    simp [identify, identifyBy]
  rw [accepted]
  exact ⟨fun clean => (identify_clean clean).1, fun fits => fits.identified distinct⟩

/-- The first section of a name is the only one if no name occurs twice. -/
theorem find?_name_iff {name : String} {part : Section}
    (distinct : (parts.map Section.name).Nodup) :
    parts.find? (fun part => part.name = name) = some part
      ↔ parts.filter (fun part => part.name = name) = [part] := by
  rw [← List.head?_filter]
  constructor
  · intro first
    have once : (parts.filter fun part => part.name = name).length ≤ 1 := by
      have count := List.nodup_iff_count.mp distinct name
      rw [List.count, List.countP_map, List.countP_eq_length_filter] at count
      simpa only [Function.comp_def, beq_eq_decide] using count
    rcases List.head?_eq_some_iff.mp first with ⟨others, all⟩
    rw [all, List.length_cons] at once
    rw [all, List.eq_nil_of_length_eq_zero (by omega : others.length = 0)]
  · intro all
    rw [all, List.head?_cons]

/-! ## Sections in place -/

/-- The name of the section is expected, and it is expected after the names of the `earlier`
sections, as far as these are expected. -/
def InPlace (names : List String) (earlier : List Section) (part : Section) : Prop :=
  part.name ∈ names ∧
    ∀ prior ∈ earlier, prior.name ∈ names → names.idxOf prior.name < names.idxOf part.name

instance (names : List String) (earlier : List Section) (part : Section) :
    Decidable (InPlace names earlier part) :=
  inferInstanceAs (Decidable (_ ∧ _))

/-- The sections in place among those that follow `earlier`. -/
def inPlace (names : List String) (earlier : List Section) : List Section → List Section
  | [] => []
  | part :: rest =>
    if InPlace names earlier part then part :: inPlace names (earlier ++ [part]) rest
    else inPlace names (earlier ++ [part]) rest

/-- What is said about the sections out of place among those that follow `earlier`: such a section
is a duplicate if a section of its name is in place before it, and otherwise unexpected. -/
def outOfPlace (names : List String) (earlier : List Section) : List Section → List (Located Fault)
  | [] => []
  | part :: rest =>
    (if InPlace names earlier part then []
      else if part.name ∈ (inPlace names [] earlier).map Section.name then
        [⟨part.location, .duplicateSection part.name⟩]
      else [⟨part.location, .unexpectedSection part.name⟩])
      ++ outOfPlace names (earlier ++ [part]) rest

/-- The required names under which there is none of the sections. -/
def unmatched (expected : List Expectation) (parts : List Section) : List String :=
  (expected.filter fun expectation =>
    !expectation.isOptional && !(parts.map Section.name).contains expectation.name).map
      Expectation.name

/-- The name of a section that is missing. -/
def Fault.missing? : Fault → Option String
  | .missingSection name => some name
  | _ => none

variable {names : List String} {earlier : List Section} {part : Section}

theorem inPlace_append (parts more : List Section) : inPlace names earlier (parts ++ more)
    = inPlace names earlier parts ++ inPlace names (earlier ++ parts) more := by
  induction parts generalizing earlier with
  | nil => simp [inPlace]
  | cons part rest ih =>
      simp only [List.cons_append, inPlace, ih, List.append_assoc, List.nil_append]
      split <;> simp

theorem InPlace.of_append {more : List Section} (inOrder : InPlace names (earlier ++ more) part) :
    InPlace names earlier part :=
  ⟨inOrder.1, fun prior member => inOrder.2 prior (List.mem_append_left _ member)⟩

theorem inPlace_of_mem (member : part ∈ inPlace names earlier parts) :
    InPlace names earlier part ∧ part ∈ parts := by
  induction parts generalizing earlier with
  | nil => simp [inPlace] at member
  | cons first rest ih =>
      have later : part ∈ inPlace names (earlier ++ [first]) rest →
          InPlace names earlier part ∧ part ∈ first :: rest := fun member =>
        ⟨(ih member).1.of_append, List.mem_cons_of_mem _ (ih member).2⟩
      unfold inPlace at member
      split at member
      · next here =>
        rcases List.mem_cons.mp member with rfl | member
        · exact ⟨here, List.mem_cons_self⟩
        · exact later member
      · exact later member

/-- No two sections in place have the same name. -/
theorem not_inPlace_again (before : part.name ∈ (inPlace names [] earlier).map Section.name) :
    ¬ InPlace names earlier part := by
  rintro ⟨wanted, inOrder⟩
  rcases List.mem_map.mp before with ⟨prior, member, same⟩
  have earlierOne := inOrder prior (inPlace_of_mem member).2 (same ▸ wanted)
  exact absurd (same ▸ earlierOne) (Nat.lt_irrefl _)

theorem mem_back_iff {front back : List String} (distinct : (front ++ back).Nodup) {name : String}
    (member : name ∈ front ++ back) :
    name ∈ back ↔ front.length ≤ (front ++ back).idxOf name := by
  by_cases before : name ∈ front
  · rw [List.idxOf_append_of_mem before]
    have short := List.idxOf_lt_length_of_mem before
    exact iff_of_false (fun after => (List.nodup_append.mp distinct).2.2 _ before _ after rfl)
      (Nat.not_le.mpr short)
  · rw [List.idxOf_append_of_notMem before]
    exact iff_of_true ((List.mem_append.mp member).resolve_left before) (Nat.le_add_right _ _)

/-! ## The pass -/

/-- What the pass knows after the `earlier` sections: a section that comes next is in place if its
name is one of those still expected. -/
structure Cursor (names : List String) (earlier : List Section) (expected : List Expectation) :
    Prop where
  inPlace_iff : ∀ part, InPlace names earlier part ↔ part.name ∈ expected.map Expectation.name
  isSuffix : expected.map Expectation.name <:+ names

theorem Cursor.start (expected : List Expectation) :
    Cursor (expected.map Expectation.name) [] expected where
  inPlace_iff := by simp [InPlace]
  isSuffix := List.suffix_rfl

/-- A section out of place changes nothing. -/
theorem Cursor.pass (cursor : Cursor names earlier expected) (distinct : names.Nodup)
    (outside : ¬ InPlace names earlier part) : Cursor names (earlier ++ [part]) expected where
  inPlace_iff other := by
    rw [← cursor.inPlace_iff]
    refine ⟨InPlace.of_append, fun inOrder => ⟨inOrder.1, fun prior member wanted => ?_⟩⟩
    rcases List.mem_append.mp member with member | member
    · exact inOrder.2 prior member wanted
    · obtain rfl := List.mem_singleton.mp member
      rcases cursor.isSuffix with ⟨front, rfl⟩
      rw [cursor.inPlace_iff] at outside inOrder
      rw [mem_back_iff distinct wanted, Nat.not_le] at outside
      exact Nat.lt_of_lt_of_le outside
        ((mem_back_iff distinct (List.mem_append_right _ inOrder)).mp inOrder)
  isSuffix := cursor.isSuffix

/-- After a section in place only what stands after its name is still expected. -/
theorem Cursor.accept {passed after : List Expectation} {found : Expectation}
    (cursor : Cursor names earlier (passed ++ found :: after)) (distinct : names.Nodup)
    (named : found.name = part.name) : Cursor names (earlier ++ [part]) after := by
  have here : InPlace names earlier part := by
    rw [cursor.inPlace_iff]
    simp [named]
  rcases cursor.isSuffix with ⟨front, whole⟩
  set start := front ++ passed.map Expectation.name with start_eq
  have split : names = start ++ part.name :: after.map Expectation.name := by
    simpa [start_eq, named] using whole.symm
  have split' : names = (start ++ [part.name]) ++ after.map Expectation.name := by simpa using split
  have fresh : part.name ∉ start := fun before =>
    (List.nodup_append.mp (split ▸ distinct)).2.2 _ before _ List.mem_cons_self rfl
  have position : names.idxOf part.name = start.length := by
    rw [split, List.idxOf_append_of_notMem fresh, List.idxOf_cons_self, Nat.add_zero]
  have after_iff : ∀ name ∈ names, name ∈ after.map Expectation.name
      ↔ names.idxOf part.name < names.idxOf name := by
    intro name member
    rw [position, ← Nat.succ_le_iff]
    have back := mem_back_iff (split' ▸ distinct) (split' ▸ member)
    rwa [← split', List.length_append, List.length_singleton] at back
  refine ⟨fun other => ⟨fun inOrder => ?_, fun later => ?_⟩, ⟨_, split'.symm⟩⟩
  · exact (after_iff _ inOrder.1).mpr (inOrder.2 part (by simp) here.1)
  · have inOrder : InPlace names earlier other := by
      rw [cursor.inPlace_iff, List.map_append, List.map_cons]
      exact List.mem_append_right _ (List.mem_cons_of_mem _ later)
    refine ⟨inOrder.1, fun prior member wanted => ?_⟩
    rcases List.mem_append.mp member with member | member
    · exact inOrder.2 prior member wanted
    · obtain rfl := List.mem_singleton.mp member
      exact (after_iff _ inOrder.1).mp later

/-- The problems that are not about a missing section. -/
def misplacements (problems : List (Located Fault)) : List (Located Fault) :=
  problems.filter fun problem => problem.value.missing?.isNone

/-- The names of the sections that problems say are missing. -/
def missingNames (problems : List (Located Fault)) : List String :=
  problems.filterMap fun problem => problem.value.missing?

theorem misplacements_reportMissing (location : Location) (expected : List Expectation) :
    misplacements (reportMissing location expected).problems = [] := by
  induction expected with
  | nil => rfl
  | cons expectation rest ih =>
      cases optional : expectation.isOptional <;>
        simpa [misplacements, reportMissing, Review.require, optional, Fault.missing?] using ih

theorem missingNames_reportMissing (location : Location) (expected : List Expectation) :
    missingNames (reportMissing location expected).problems = unmatched expected [] := by
  induction expected with
  | nil => rfl
  | cons expectation rest ih =>
      cases optional : expectation.isOptional <;>
        simpa [missingNames, unmatched, reportMissing, Review.require, optional,
          Fault.missing?] using ih

theorem unmatched_congr {parts others : List Section}
    (same : ∀ name ∈ expected.map Expectation.name,
      name ∈ parts.map Section.name ↔ name ∈ others.map Section.name) :
    unmatched expected parts = unmatched expected others := by
  refine congrArg (List.map Expectation.name) (List.filter_congr fun expectation member => ?_)
  have iff := same expectation.name (List.mem_map_of_mem member)
  simp only [List.contains_eq_mem, iff]

theorem unmatched_append (first second : List Expectation) (parts : List Section) :
    unmatched (first ++ second) parts = unmatched first parts ++ unmatched second parts := by
  simp [unmatched]

theorem unmatched_cons_of_mem {expectation : Expectation}
    (present : expectation.name ∈ parts.map Section.name) :
    unmatched (expectation :: expected) parts = unmatched expected parts := by
  simp only [unmatched, List.filter_cons, List.contains_eq_mem, present]
  simp

/-- The names under which sections follow are expected after the section that is in place here. -/
theorem Cursor.mem_expected (cursor : Cursor names earlier expected) {name : String}
    (member : name ∈ (inPlace names earlier parts).map Section.name) :
    name ∈ expected.map Expectation.name := by
  rcases List.mem_map.mp member with ⟨part, inOrder, rfl⟩
  exact (cursor.inPlace_iff part).mp (inPlace_of_mem inOrder).1

/-- A section in place leaves required names unmatched before its own and after it, each apart. -/
theorem Cursor.unmatched_accept {passed after : List Expectation} {found : Expectation}
    (cursor : Cursor names earlier (passed ++ found :: after)) (distinct : names.Nodup)
    (named : found.name = part.name) (parts : List Section) :
    unmatched (passed ++ found :: after) (part :: inPlace names (earlier ++ [part]) parts)
      = unmatched passed [] ++ unmatched after (inPlace names (earlier ++ [part]) parts) := by
  have next := cursor.accept distinct named
  have expectedOnce := distinct.sublist cursor.isSuffix.sublist
  rw [List.map_append, List.map_cons, named, List.nodup_append] at expectedOnce
  rcases expectedOnce with ⟨-, afterOnce, apart⟩
  rw [unmatched_append, unmatched_cons_of_mem (by simp [named])]
  congr 1
  · refine unmatched_congr fun name member => iff_of_false (fun again => ?_) (by simp)
    rcases List.mem_cons.mp again with rfl | again
    · exact apart _ member _ List.mem_cons_self rfl
    · exact apart _ member _ (List.mem_cons_of_mem _ (next.mem_expected again)) rfl
  · refine unmatched_congr fun name member => ?_
    rw [List.map_cons, List.mem_cons, or_iff_right]
    rintro rfl
    exact (List.nodup_cons.mp afterOnce).1 member

/-- The names of what is accepted are those of the sections in place. -/
theorem contains_inPlace_iff {name : String} :
    (Sections.of id (inPlace names [] earlier)).contains name = true
      ↔ name ∈ (inPlace names [] earlier).map Section.name := by
  rw [Sections.contains_iff, Sections.of, List.map_map]
  rfl

/-- The pass reports the sections out of place and the required names that stay without a
section. -/
theorem Cursor.accounts (location : Location) (cursor : Cursor names earlier expected)
    (distinct : names.Nodup) :
    let found := identifyFrom id location (.of id (inPlace names [] earlier)) expected parts
    misplacements found.problems = outOfPlace names earlier parts
      ∧ missingNames found.problems = unmatched expected (inPlace names earlier parts) := by
  induction parts generalizing earlier expected with
  | nil =>
      simp only [identifyFrom, Review.problems_bind, Review.problems_pure, List.append_nil]
      exact ⟨misplacements_reportMissing location expected,
        missingNames_reportMissing location expected⟩
  | cons part rest ih =>
      rw [identifyFrom, outOfPlace, inPlace]
      by_cases before : part.name ∈ (inPlace names [] earlier).map Section.name
      · have outside := not_inPlace_again before
        have kept : inPlace names [] (earlier ++ [part]) = inPlace names [] earlier := by
          simp [inPlace_append, inPlace, outside]
        rcases ih (cursor.pass distinct outside) with ⟨reported, missing⟩
        rw [kept] at reported missing
        simp only [id_eq, if_pos (contains_inPlace_iff.mpr before), if_neg outside, if_pos before]
        exact ⟨congrArg (_ :: ·) reported, missing⟩
      · simp only [id_eq, if_neg (before ∘ contains_inPlace_iff.mp)]
        split
        · next passed after split =>
          rcases splitAtName_spec split with ⟨found, named, rfl⟩
          have next := cursor.accept distinct named
          have here : InPlace names earlier part := by
            rw [cursor.inPlace_iff]
            simp [named]
          have grown : inPlace names [] (earlier ++ [part])
              = inPlace names [] earlier ++ [part] := by
            simp [inPlace_append, inPlace, here]
          rcases ih next with ⟨reported, missing⟩
          rw [grown, Sections.of_append] at reported missing
          rw [if_pos here, if_pos here]
          refine ⟨?_, ?_⟩
          · have passedOver := misplacements_reportMissing part.location passed
            rw [misplacements] at passedOver reported ⊢
            rw [Review.problems_bind, List.filter_append, passedOver, List.nil_append]
            exact reported
          · have passedOver := missingNames_reportMissing part.location passed
            rw [missingNames] at passedOver missing ⊢
            rw [Review.problems_bind, List.filterMap_append, passedOver,
              cursor.unmatched_accept distinct named rest]
            exact congrArg (_ ++ ·) missing
        · next absent =>
          have outside : ¬ InPlace names earlier part := by
            rw [cursor.inPlace_iff]
            exact splitAtName_eq_none_iff.mp absent
          have kept : inPlace names [] (earlier ++ [part]) = inPlace names [] earlier := by
            simp [inPlace_append, inPlace, outside]
          rcases ih (cursor.pass distinct outside) with ⟨reported, missing⟩
          rw [kept] at reported missing
          rw [if_neg outside, if_neg before, if_neg outside]
          exact ⟨congrArg (_ :: ·) reported, missing⟩

/-- Sections are accepted exactly if their names are a part of the expected names, in order, that
holds every required one. What is yielded then leads from each expected name to the one section of
that name, and there is no problem. Otherwise one problem is reported for each section out of place,
and one for each required name under which none is in place. -/
theorem identify_accounts (written : List String) (group : Group)
    (distinct : ((written.map Expectation.ofString).map Expectation.name).Nodup) :
    let expected := written.map Expectation.ofString
    let names := expected.map Expectation.name
    let found := identify expected group
    (found.value.isSome = true ↔ (group.sections.map Section.name).Sublist names
        ∧ ∀ expectation ∈ expected, expectation.isOptional = false →
          expectation.name ∈ group.sections.map Section.name)
      ∧ (∀ sections, found.value = some sections →
        found.problems = [] ∧ ∀ name part, sections.get? name = some part
          ↔ name ∈ names ∧ group.sections.filter (fun part => part.name = name) = [part])
      ∧ misplacements found.problems = outOfPlace names [] group.sections
      ∧ missingNames found.problems = unmatched expected (inPlace names [] group.sections) := by
  intro expected names found
  have fits_iff : found.value.isSome = true ↔ Fits expected group.sections :=
    identify_iff_fits distinct
  have accounts : misplacements found.problems = _ ∧ missingNames found.problems = _ :=
    (Cursor.start expected).accounts group.location distinct
  refine ⟨fits_iff.trans ⟨fun fits => ⟨fits.sublist, fun expectation member needed => ?_⟩,
    fun ordered => fits_of_sublist distinct ordered.1 ordered.2⟩, fun sections accepted => ?_,
    accounts⟩
  · rcases fits.present member needed with ⟨part, inside, named⟩
    exact named ▸ List.mem_map_of_mem inside
  · have fits := fits_iff.mp (Option.isSome_iff_exists.mpr ⟨sections, accepted⟩)
    have clean : found.problems = [] := fits.identified distinct
    obtain rfl : sectionsOf group = sections :=
      Option.some.inj ((identify_clean clean).2.symm.trans accepted)
    refine ⟨clean, fun name part => ?_⟩
    rw [get?_sectionsOf, section?, find?_name_iff (distinct.sublist fits.sublist), iff_and_self]
    intro all
    have present : part ∈ group.sections.filter fun part => part.name = name :=
      all ▸ List.mem_singleton_self part
    rcases List.mem_filter.mp present with ⟨inside, named⟩
    exact (of_decide_eq_true named) ▸ fits.name_mem inside

/-- A group with a section that is not expected, one that comes twice, and one that is missing. -/
def muddled : Group :=
  .mk none [.mk ⟨.name, "Theorem", ⟨0, 0⟩⟩ [], .mk ⟨.name, "proof", ⟨1, 0⟩⟩ [],
    .mk ⟨.name, "given", ⟨2, 0⟩⟩ [], .mk ⟨.name, "Theorem", ⟨3, 0⟩⟩ []]

theorem muddled_reported :
    let expected := ["Theorem", "given?", "then"].map Expectation.ofString
    let found := identify expected muddled
    (expected.map Expectation.name).Nodup ∧ found.value.isNone = true
      ∧ misplacements found.problems
        = [⟨⟨1, 0⟩, .unexpectedSection "proof"⟩, ⟨⟨3, 0⟩, .duplicateSection "Theorem"⟩]
      ∧ missingNames found.problems = ["then"] := by
  intro expected found
  have distinct : (expected.map Expectation.name).Nodup := by decide
  rcases identify_accounts ["Theorem", "given?", "then"] muddled distinct with
    ⟨accepted, -, misplaced, missing⟩
  refine ⟨distinct, ?_, misplaced.trans (by decide), missing.trans (by decide)⟩
  rw [← Option.not_isSome, Bool.not_eq_true', Bool.eq_false_iff, Ne, accepted]
  decide

/-- A section that may be left out is left out, and the others are found under their names. -/
example :
    let group : Group :=
      .mk none [.mk ⟨.name, "Theorem", ⟨0, 0⟩⟩ [], .mk ⟨.name, "then", ⟨1, 0⟩⟩ []]
    let found := identify (["Theorem", "given?", "then"].map Expectation.ofString) group
    found.value.map (fun sections =>
      ["Theorem", "given", "then"].map fun name => (sections.get? name).map Section.location)
        = some [some ⟨0, 0⟩, none, some ⟨1, 0⟩] := by decide

end Treatise.Document
