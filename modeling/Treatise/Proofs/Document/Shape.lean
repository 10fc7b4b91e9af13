import Mathlib.Data.List.Forall2
import Treatise.Document.Reading
import Treatise.Proofs.Review

/-!
# Groups of the expected shape

A group whose sections are identified without a problem has the expected sections and no others, in
the expected order, and each of them once. Its list of sections can then be put together again from
the sections that are found under the expected names.
-/

namespace Treatise.Document

open Outline (Argument Group Section)

variable {expected : List Expectation} {parts : List Section} {group : Group} {α β γ : Type}

/-! ## Sections by their names -/

namespace Sections

/-- Everything under its name, in the same order. -/
def of (origin : α → Section) (values : List α) : Sections α :=
  ⟨values.map fun value => ((origin value).name, value)⟩

/-- What a function makes of the sections. -/
def map (f : α → β) (sections : Sections α) : Sections β :=
  ⟨sections.found.map (Prod.map id f)⟩

theorem of_append (origin : α → Section) (front : List α) (value : α) :
    of origin (front ++ [value]) = (of origin front).insert (origin value).name value := by
  simp [of, insert]

theorem of_map {origin : α → Section} {origin' : β → Section} {f : α → β}
    (same : ∀ value, (origin' (f value)).name = (origin value).name) (values : List α) :
    of origin' (values.map f) = (of origin values).map f := by
  simp [of, map, same, Function.comp_def]

/-- The first of what is there under a name. -/
theorem get?_of (origin : α → Section) (values : List α) (name : String) :
    (of origin values).get? name = values.find? fun value => (origin value).name = name := by
  induction values with
  | nil => rfl
  | cons value rest ih =>
      simp only [get?, of, List.map_cons, List.lookup_cons, List.find?_cons] at ih ⊢
      rw [ih, beq_eq_decide, decide_eq_decide.mpr (eq_comm (a := name))]

theorem contains_iff {sections : Sections α} {name : String} :
    sections.contains name = true ↔ name ∈ sections.found.map Prod.fst := by
  rw [contains, get?, List.lookup_isSome_iff]
  simp

theorem get?_map (f : α → β) (sections : Sections α) (name : String) :
    (sections.map f).get? name = (sections.get? name).map f := by
  rcases sections with ⟨found⟩
  induction found with
  | nil => rfl
  | cons entry rest ih =>
      rcases entry with ⟨key, value⟩
      simp only [get?, map, List.map_cons, Prod.map_apply, id_eq, List.lookup_cons] at ih ⊢
      cases name == key with
      | true => rfl
      | false => exact ih

end Sections

/-- The sections of a group by their names. -/
def sectionsOf (group : Group) : Sections Section :=
  .of id group.sections

@[simp]
theorem get?_sectionsOf (group : Group) (name : String) :
    (sectionsOf group).get? name = section? group name :=
  Sections.get?_of id group.sections name

theorem required_map [Inhabited γ] (f : α → β) (sections : Sections α) (name : String)
    (read : β → Review Fault γ) :
    required (sections.map f) name read = required sections name fun value => read (f value) := by
  rw [required, Sections.get?_map, required]
  cases sections.get? name <;> rfl

theorem whenPresent_map (f : α → β) (sections : Sections α) (name : String)
    (read : β → Review Fault γ) : whenPresent (sections.map f) name read
      = whenPresent sections name fun value => read (f value) := by
  rw [whenPresent, Sections.get?_map, whenPresent]
  cases sections.get? name <;> rfl

/-! ## Sections that fit -/

/-- Sections with the expected names in the expected order, where only optional ones are left
out. -/
inductive Fits : List Expectation → List Section → Prop
  | nil : Fits [] []
  | skip {expectation : Expectation} {expected : List Expectation} {parts : List Section}
      (optional : expectation.isOptional = true) (more : Fits expected parts) :
      Fits (expectation :: expected) parts
  | take {expectation : Expectation} {expected : List Expectation} {part : Section}
      {parts : List Section} (named : part.name = expectation.name) (more : Fits expected parts) :
      Fits (expectation :: expected) (part :: parts)

theorem optional_of_reportMissing {location : Location}
    (clean : (reportMissing location expected).problems = []) :
    ∀ expectation ∈ expected, expectation.isOptional = true := by
  induction expected with
  | nil => simp
  | cons expectation rest ih =>
      simp only [reportMissing, Review.problems_bind, List.append_eq_nil_iff,
        Review.problems_require] at clean
      exact List.forall_mem_cons.mpr ⟨clean.1, ih clean.2⟩

theorem Fits.skips {passed : List Expectation} (more : Fits expected parts)
    (optional : ∀ expectation ∈ passed, expectation.isOptional = true) :
    Fits (passed ++ expected) parts := by
  induction passed with
  | nil => exact more
  | cons expectation rest ih =>
      rcases List.forall_mem_cons.mp optional with ⟨first, others⟩
      exact .skip first (ih others)

theorem splitAtName_spec {name : String} {passed after : List Expectation}
    (split : splitAtName name expected = some (passed, after)) :
    ∃ found : Expectation, found.name = name ∧ expected = passed ++ found :: after := by
  induction expected generalizing passed with
  | nil => simp [splitAtName] at split
  | cons expectation rest ih =>
      unfold splitAtName at split
      split at split
      · next named =>
        simp only [Option.some.injEq, Prod.mk.injEq] at split
        rcases split with ⟨rfl, rfl⟩
        exact ⟨expectation, named, rfl⟩
      · simp only [Option.map_eq_some_iff, Prod.mk.injEq, Prod.exists] at split
        rcases split with ⟨before, _, later, rfl, rfl⟩
        rcases ih later with ⟨found, named, rfl⟩
        exact ⟨found, named, rfl⟩

/-- Sections that are gone through without a problem fit, and all of them are under their names. -/
theorem fits_of_identifyFrom {origin : α → Section} {location : Location} {earlier values : List α}
    (clean : (identifyFrom origin location (.of origin earlier) expected values).problems = []) :
    Fits expected (values.map origin)
      ∧ (identifyFrom origin location (.of origin earlier) expected values).value
        = .of origin (earlier ++ values) := by
  induction values generalizing earlier expected with
  | nil =>
      simp only [identifyFrom, Review.problems_bind, Review.problems_pure, List.append_nil] at clean
      have whole := Fits.nil.skips (optional_of_reportMissing clean)
      rw [List.append_nil] at whole ⊢
      exact ⟨whole, rfl⟩
  | cons value rest ih =>
      unfold identifyFrom at clean ⊢
      dsimp only at clean ⊢
      split at clean
      · simp at clean
      next fresh =>
      rw [if_neg fresh]
      split at clean
      · next passed after split =>
        simp only [Review.problems_bind, List.append_eq_nil_iff, ← Sections.of_append] at clean
        rcases splitAtName_spec split with ⟨found, named, rfl⟩
        rcases ih clean.2 with ⟨fits, all⟩
        rw [← Sections.of_append]
        refine ⟨(Fits.take named.symm fits).skips (optional_of_reportMissing clean.1), ?_⟩
        rw [Review.value_bind, all, List.append_assoc, List.singleton_append]
      · simp at clean

/-- Sections that are identified without a problem fit, and they are found under their names. -/
theorem identifyBy_clean {origin : α → Section} {location : Location} {values : List α}
    (clean : (identifyBy origin location expected values).problems = []) :
    Fits expected (values.map origin)
      ∧ (identifyBy origin location expected values).value = some (.of origin values) := by
  have gone : (identifyFrom origin location (.of origin []) expected values).problems = [] := clean
  rcases fits_of_identifyFrom gone with ⟨fits, all⟩
  exact ⟨fits, (if_pos (List.isEmpty_iff.mpr clean)).trans (congrArg some all)⟩

theorem Fits.name_mem (fits : Fits expected parts) {part : Section} (member : part ∈ parts) :
    part.name ∈ expected.map Expectation.name := by
  induction fits with
  | nil => simp at member
  | skip _ _ ih => exact List.mem_cons_of_mem _ (ih member)
  | take named _ ih =>
      rcases List.mem_cons.mp member with rfl | later
      · exact named ▸ List.mem_cons_self
      · exact List.mem_cons_of_mem _ (ih later)

/-- Sections that fit are those found under the expected names. -/
theorem Fits.sections_eq (fits : Fits expected parts)
    (distinct : (expected.map Expectation.name).Nodup) :
    parts = expected.flatMap fun expectation =>
      (parts.find? fun part => part.name = expectation.name).toList := by
  induction fits with
  | nil => rfl
  | @skip expectation expected parts _ more ih =>
      rcases List.nodup_cons.mp distinct with ⟨fresh, distinct⟩
      have absent : parts.find? (fun part => part.name = expectation.name) = none := by
        refine List.find?_eq_none.mpr fun part member => ?_
        have among := more.name_mem member
        simp only [decide_eq_true_eq]
        rintro same
        exact fresh (same ▸ among)
      rw [List.flatMap_cons, absent]
      exact ih distinct
  | @take expectation expected part parts named more ih =>
      rcases List.nodup_cons.mp distinct with ⟨fresh, distinct⟩
      have others : ∀ other ∈ expected,
          (part :: parts).find? (fun part => part.name = other.name)
            = parts.find? fun part => part.name = other.name := by
        intro other member
        refine List.find?_cons_of_neg ?_
        simp only [decide_eq_true_eq, named]
        rintro same
        exact fresh (same ▸ List.mem_map_of_mem member)
      rw [List.flatMap_cons, List.find?_cons_of_pos (by simpa using named),
        List.flatMap_congr fun other member => congrArg Option.toList (others other member),
        ← ih distinct]
      rfl

theorem Fits.present (fits : Fits expected parts) {expectation : Expectation}
    (member : expectation ∈ expected) (needed : expectation.isOptional = false) :
    ∃ part ∈ parts, part.name = expectation.name := by
  induction fits with
  | nil => simp at member
  | skip optional _ ih =>
      rcases List.mem_cons.mp member with rfl | later
      · simp [optional] at needed
      · exact ih later
  | take named _ ih =>
      rcases List.mem_cons.mp member with rfl | later
      · exact ⟨_, List.mem_cons_self, named⟩
      · rcases ih later with ⟨part, inside, same⟩
        exact ⟨part, List.mem_cons_of_mem _ inside, same⟩

/-- Sections are read without a problem only if they fit and what reads them has none. -/
theorem shapedBy_clean {origin : α → Section} {location : Location} {values : List α}
    {names : List String} {otherwise : β} {read : Sections α → Review Fault β}
    (clean : (shapedBy origin location values names otherwise read).problems = []) :
    Fits (names.map Expectation.ofString) (values.map origin)
      ∧ (read (.of origin values)).problems = []
      ∧ (shapedBy origin location values names otherwise read).value
        = (read (.of origin values)).value := by
  simp only [shapedBy, Review.problems_bind, List.append_eq_nil_iff, Review.value_bind] at clean ⊢
  rcases identifyBy_clean clean.1 with ⟨fits, identified⟩
  rw [identified] at clean ⊢
  exact ⟨fits, clean.2, rfl⟩

theorem shaped_clean {names : List String} {otherwise : α}
    {read : Sections Section → Review Fault α}
    (clean : (shaped group names otherwise read).problems = []) :
    Fits (names.map Expectation.ofString) group.sections
      ∧ (read (sectionsOf group)).problems = []
      ∧ (shaped group names otherwise read).value = (read (sectionsOf group)).value := by
  rcases shapedBy_clean clean with ⟨fits, inner⟩
  rw [List.map_id] at fits
  exact ⟨fits, inner⟩

/-- The sections of a group under names. -/
def sectionsUnder (group : Group) (names : List String) : List Section :=
  names.foldl (fun found name => found ++ (section? group name).toList) []

/-- The sections of a group that fits are those under the expected names. -/
theorem Fits.sections_under (fits : Fits expected group.sections)
    (distinct : (expected.map Expectation.name).Nodup) :
    group.sections = sectionsUnder group (expected.map Expectation.name) := by
  rw [sectionsUnder, ← List.flatMap_eq_foldl, List.flatMap_map]
  exact fits.sections_eq distinct

theorem name_of_section? {name : String} {part : Section}
    (found : section? group name = some part) : part.name = name := by
  simpa using List.find?_some found

theorem mem_of_section? {name : String} {part : Section}
    (found : section? group name = some part) : part ∈ group.sections :=
  List.mem_of_find?_eq_some found

/-- A section that may not be left out is there. -/
theorem Fits.exists_section (fits : Fits expected group.sections) {name : String}
    (member : ⟨name, false⟩ ∈ expected) : ∃ part, section? group name = some part := by
  rcases fits.present member rfl with ⟨part, inside, named⟩
  exact Option.isSome_iff_exists.mp (List.find?_isSome.mpr ⟨part, inside, by simpa using named⟩)

/-- A section that is not expected is not there. -/
theorem Fits.section?_eq_none (fits : Fits expected group.sections) {name : String}
    (unexpected : name ∉ expected.map Expectation.name) : section? group name = none := by
  refine List.find?_eq_none.mpr fun part member => ?_
  have among := fits.name_mem member
  simp only [decide_eq_true_eq]
  rintro rfl
  exact unexpected among

/-! ## Arguments -/

theorem singleArgument_clean {part : Section} (clean : (singleArgument part).problems = []) :
    ∃ argument, part.arguments = [argument] ∧ (singleArgument part).value = some argument := by
  unfold singleArgument at clean ⊢
  split at clean
  · next argument single => exact ⟨argument, single, rfl⟩
  · simp at clean

/-! ## Clauses -/

/-- A section and the readings of its arguments as clauses. -/
def Part.ofSection (part : Section) : Part :=
  ⟨part, part.arguments.map clause⟩

theorem clausesOf_eq (arguments : List Argument) : clausesOf arguments = arguments.map clause := by
  induction arguments with
  | nil => rfl
  | cons argument rest ih => rw [clausesOf, ih, List.map_cons]

theorem clauseParts_eq (parts : List Section) : clauseParts parts = parts.map Part.ofSection := by
  induction parts with
  | nil => rfl
  | cons part rest ih =>
      rcases part with ⟨name, arguments⟩
      rw [clauseParts, clausesOf_eq, ih, List.map_cons]
      rfl

theorem clause_group (group : Group) : clause (.group group) = (do
    noId group
    headedClause group (clauseParts group.sections) group.heading?) := by
  rcases group with ⟨id, sections⟩
  rfl

theorem clauses_eq (part : Section) : clauses part = (Part.ofSection part).all := by
  rw [clauses, clausesOf_eq, Part.ofSection]

theorem origin_clauseParts (parts : List Section) :
    (clauseParts parts).map Part.origin = parts := by
  rw [clauseParts_eq, List.map_map]
  exact List.map_id parts

/-- The readings of clauses are found under the names of their sections. -/
theorem of_clauseParts (group : Group) : Sections.of Part.origin (clauseParts group.sections)
    = (sectionsOf group).map Part.ofSection := by
  rw [clauseParts_eq]
  exact Sections.of_map (fun _ => rfl) group.sections

theorem headed_clean {location : Location} {names : List String} {otherwise : α}
    {read : Sections Part → Review Fault α}
    (clean : (shapedBy Part.origin location (clauseParts group.sections) names otherwise
      read).problems = []) :
    Fits (names.map Expectation.ofString) group.sections
      ∧ (read ((sectionsOf group).map Part.ofSection)).problems = []
      ∧ (shapedBy Part.origin location (clauseParts group.sections) names otherwise read).value
        = (read ((sectionsOf group).map Part.ofSection)).value := by
  rcases shapedBy_clean clean with ⟨fits, inner⟩
  rw [origin_clauseParts] at fits
  rw [of_clauseParts] at inner
  exact ⟨fits, inner⟩

mutual

/-- What holds of a group once it holds of all arguments of its sections, and of every leaf,
holds. -/
theorem argument_induction {P : Argument → Prop} (target : ∀ leaf, P (.target leaf))
    (group : ∀ inner : Group, (∀ part ∈ inner.sections, ∀ argument ∈ part.arguments, P argument) →
      P (.group inner)) : ∀ argument, P argument
  | .target leaf => target leaf
  | .group (.mk _ sections) => group _ (sections_induction target group sections)

theorem sections_induction {P : Argument → Prop} (target : ∀ leaf, P (.target leaf))
    (group : ∀ inner : Group, (∀ part ∈ inner.sections, ∀ argument ∈ part.arguments, P argument) →
      P (.group inner)) :
    ∀ parts : List Section, ∀ part ∈ parts, ∀ argument ∈ part.arguments, P argument
  | [] => by simp
  | .mk _ arguments :: rest => List.forall_mem_cons.mpr
      ⟨arguments_induction target group arguments, sections_induction target group rest⟩

theorem arguments_induction {P : Argument → Prop} (target : ∀ leaf, P (.target leaf))
    (group : ∀ inner : Group, (∀ part ∈ inner.sections, ∀ argument ∈ part.arguments, P argument) →
      P (.group inner)) : ∀ arguments : List Argument, ∀ argument ∈ arguments, P argument
  | [] => by simp
  | argument :: rest => List.forall_mem_cons.mpr
      ⟨argument_induction target group argument, arguments_induction target group rest⟩

end

end Treatise.Document
