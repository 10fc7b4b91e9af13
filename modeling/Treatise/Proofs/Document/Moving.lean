import Treatise.Proofs.Document.Relocation
import Treatise.Proofs.Document.Shape
import Treatise.Proofs.Outline.Relocation

/-!
# Reading what has been moved

When a group moves, reading it meets a problem exactly if it did before, and what is read has moved
along. Every reading function is taken on its own, and each proof takes the steps that the function
takes.
-/

namespace Treatise.Document

open Layout (Token TokenKind)
open Outline (Argument Group Section Target mapSections mapArguments)

/-! ## Reviews that follow each other -/

/-- A review without problems exactly if the other has none, and its value is then the moved one. -/
structure Follows {α β : Type} (move : α → β) (after : Review Fault β) (before : Review Fault α) :
    Prop where
  clean : after.problems = [] ↔ before.problems = []
  value : before.problems = [] → after.value = move before.value

namespace Follows

variable {α β γ δ : Type} {move : α → β} {next : γ → δ} {after : Review Fault β}
  {before : Review Fault α}

protected theorem pure {value : α} {moved : β} (same : moved = move value) :
    Follows move (pure moved) (pure value) :=
  ⟨Iff.rfl, fun _ => same⟩

theorem fail (left : after.problems ≠ []) (right : before.problems ≠ []) :
    Follows move after before :=
  ⟨by simp [left, right], fun clean => absurd clean right⟩

protected theorem bind {steps : β → Review Fault δ} {steps' : α → Review Fault γ}
    (first : Follows move after before)
    (second : before.problems = [] →
      Follows next (steps (move before.value)) (steps' before.value)) :
    Follows next (after >>= steps) (before >>= steps') := by
  refine ⟨?_, fun clean => ?_⟩
  · simp only [Review.problems_bind, List.append_eq_nil_iff, first.clean]
    refine and_congr_right fun clean => ?_
    rw [first.value clean]
    exact (second clean).clean
  · simp only [Review.problems_bind, List.append_eq_nil_iff] at clean
    simp only [Review.value_bind]
    rw [first.value clean.1]
    exact (second clean.1).value clean.2

/-- What is made of a moved value is the moved one that is made of the value. -/
theorem made {make : α → γ} {make' : β → δ} {after : Review Fault (Option β)}
    {before : Review Fault (Option α)} (first : Follows (Option.map move) after before)
    (commutes : ∀ value, make' (move value) = next (make value)) :
    Follows (Option.map next) (after >>= fun found => pure (found.map make'))
      (before >>= fun found => pure (found.map make)) := by
  refine first.bind fun _ => .pure ?_
  cases before.value with
  | none => rfl
  | some value => exact congrArg some (commutes value)

theorem require {condition condition' : Bool} {location location' : Location} {fault : Fault}
    (same : condition' = condition) :
    Follows id (Review.require condition' location' fault)
      (Review.require condition location fault) :=
  ⟨by simp [same], fun _ => rfl⟩

end Follows

/-! ## The shape of moved groups -/

variable (f : Location → Location) {group : Group} {part : Section} {name : String}

@[simp]
theorem name_mapLocations (part : Section) : (part.mapLocations f).name = part.name := by
  rcases part with ⟨title, arguments⟩
  rfl

@[simp]
theorem location_mapLocations (part : Section) :
    (part.mapLocations f).location = f part.location := by
  rcases part with ⟨title, arguments⟩
  rfl

@[simp]
theorem arguments_mapLocations (part : Section) :
    (part.mapLocations f).arguments = part.arguments.map (Argument.mapLocations f) := by
  rcases part with ⟨title, arguments⟩
  exact Outline.mapArguments_eq f arguments

@[simp]
theorem sections_mapLocations (group : Group) :
    (group.mapLocations f).sections = group.sections.map (Section.mapLocations f) := by
  rcases group with ⟨id, sections⟩
  exact Outline.mapSections_eq f sections

@[simp]
theorem id?_mapLocations (group : Group) :
    (group.mapLocations f).id? = group.id?.map (·.mapLocation f) := by
  rcases group with ⟨id, sections⟩
  rfl

@[simp]
theorem heading?_mapLocations (group : Group) :
    (group.mapLocations f).heading? = group.heading? := by
  rw [Group.heading?, sections_mapLocations, List.head?_map, Option.map_map, Group.heading?]
  exact congrArg (Option.map · _) (funext fun part => name_mapLocations f part)

/-- A group that is not empty moves its place. -/
theorem location_group (some : group.sections ≠ []) :
    (group.mapLocations f).location = f group.location := by
  rcases group with ⟨_ | id, _ | ⟨part, rest⟩⟩
  · exact absurd rfl some
  · rcases part with ⟨title, arguments⟩
    rfl
  · rfl
  · rfl

theorem sections_ne_nil {heading : String} (headed : group.heading? = some heading) :
    group.sections ≠ [] := by
  intro empty
  simp [Group.heading?, empty] at headed

theorem sectionsOf_mapLocations (group : Group) :
    sectionsOf (group.mapLocations f) = (sectionsOf group).map (Section.mapLocations f) := by
  have named : ∀ part : Section, (id (part.mapLocations f)).name = (id part).name :=
    name_mapLocations f
  rw [sectionsOf, sections_mapLocations]
  exact Sections.of_map named group.sections

theorem clean_reportMissing (location location' : Location) (expected : List Expectation) :
    (reportMissing location' expected).problems = []
      ↔ (reportMissing location expected).problems = [] := by
  induction expected with
  | nil => rfl
  | cons expectation rest ih => simp [reportMissing, ih]

section Shapes

variable {α β γ δ : Type} {move : γ → δ} {origin : α → Section} {origin' : β → Section}
  {location location' : Location} {values : List α} {values' : List β}

/-- Whether sections are accepted depends on their names only. -/
theorem clean_identifyFrom {sections : Sections α} {sections' : Sections β}
    {expected : List Expectation}
    (before : sections'.found.map Prod.fst = sections.found.map Prod.fst)
    (named : values'.map (fun value => (origin' value).name)
      = values.map fun value => (origin value).name) :
    (identifyFrom origin' location' sections' expected values').problems = []
      ↔ (identifyFrom origin location sections expected values).problems = [] := by
  induction values generalizing sections sections' expected values' with
  | nil =>
      obtain rfl := List.map_eq_nil_iff.mp named
      simp only [identifyFrom, Review.problems_bind, Review.problems_pure, List.append_nil]
      exact clean_reportMissing _ _ _
  | cons value rest ih =>
      rcases List.map_eq_cons_iff.mp named with ⟨value', rest', rfl, same, named⟩
      have seen : sections'.contains (origin value).name
          = sections.contains (origin value).name := by
        rw [Bool.eq_iff_iff, Sections.contains_iff, Sections.contains_iff, before]
      simp only [identifyFrom, same, seen]
      split
      · simp
      split
      · have inserted : (sections'.insert (origin value).name value').found.map Prod.fst
            = (sections.insert (origin value).name value).found.map Prod.fst := by
          simp [Sections.insert, before]
        simp only [Review.problems_bind, List.append_eq_nil_iff, ih inserted named]
        exact and_congr_left' (clean_reportMissing _ _ _)
      · simp

/-- What fits is read after its shape is found again. -/
theorem follows_shapedBy {names : List String} {otherwise : γ} {otherwise' : δ}
    {after : Sections β → Review Fault δ} {before : Sections α → Review Fault γ}
    (named : values'.map (fun value => (origin' value).name)
      = values.map fun value => (origin value).name)
    (inner : Fits (names.map Expectation.ofString) (values.map origin) →
      Follows move (after (.of origin' values')) (before (.of origin values))) :
    Follows move (shapedBy origin' location' values' names otherwise' after)
      (shapedBy origin location values names otherwise before) := by
  have same : (identifyBy origin' location' (names.map Expectation.ofString) values').problems = []
      ↔ (identifyBy origin location (names.map Expectation.ofString) values).problems = [] :=
    clean_identifyFrom rfl named
  -- What does not fit is read no further, before and after.
  by_cases clean :
      (identifyBy origin location (names.map Expectation.ofString) values).problems = []
  · rcases identifyBy_clean clean with ⟨fits, value⟩
    rcases identifyBy_clean (same.mpr clean) with ⟨-, value'⟩
    have follows := inner fits
    refine ⟨?_, fun all => ?_⟩
    · simp [shapedBy, value, value', clean, same.mpr clean, follows.clean]
    · simp only [shapedBy, Review.problems_bind, Review.value_bind, value, value', clean,
        List.nil_append] at all ⊢
      exact follows.value all
  · refine .fail ?_ ?_
    · simp [shapedBy, same, clean]
    · simp [shapedBy, clean]

end Shapes

variable {α β : Type} {move : α → β}

/-- A group that fits is read after its shape is found again. -/
theorem follows_shaped {names : List String} {otherwise : α} {otherwise' : β}
    {after : Sections Section → Review Fault β} {before : Sections Section → Review Fault α}
    (inner : Fits (names.map Expectation.ofString) group.sections →
      Follows move (after (sectionsOf (group.mapLocations f))) (before (sectionsOf group))) :
    Follows move (shaped (group.mapLocations f) names otherwise' after)
      (shaped group names otherwise before) := by
  refine follows_shapedBy ?_ fun fits => inner (List.map_id group.sections ▸ fits)
  simp

theorem Fits.location_group {expected : List Expectation} {group : Group}
    (fits : Fits expected group.sections) (name : String) (member : ⟨name, false⟩ ∈ expected) :
    (group.mapLocations f).location = f group.location := by
  rcases fits.exists_section member with ⟨part, found⟩
  exact Document.location_group f (List.ne_nil_of_mem (mem_of_section? found))

theorem follows_required [Inhabited α] [Inhabited β] {after : Section → Review Fault β}
    {before : Section → Review Fault α}
    (each : ∀ part ∈ group.sections, Follows move (after (part.mapLocations f)) (before part))
    (present : ∃ part, section? group name = some part) :
    Follows move (required (sectionsOf (group.mapLocations f)) name after)
      (required (sectionsOf group) name before) := by
  rcases present with ⟨part, found⟩
  simp only [required, sectionsOf_mapLocations, Sections.get?_map, get?_sectionsOf, found,
    Option.map_some]
  exact each part (mem_of_section? found)

theorem follows_whenPresent {after : Section → Review Fault β} {before : Section → Review Fault α}
    (each : ∀ part ∈ group.sections, Follows move (after (part.mapLocations f)) (before part)) :
    Follows (Option.map move) (whenPresent (sectionsOf (group.mapLocations f)) name after)
      (whenPresent (sectionsOf group) name before) := by
  simp only [whenPresent, sectionsOf_mapLocations, Sections.get?_map, get?_sectionsOf]
  cases found : section? group name with
  | none => exact .pure rfl
  | some part => exact (each part (mem_of_section? found)).bind fun _ => .pure rfl

/-! ## The content of moved sections -/

theorem follows_singleArgument (part : Section) :
    Follows (Option.map (Argument.mapLocations f)) (singleArgument (part.mapLocations f))
      (singleArgument part) := by
  unfold singleArgument
  rw [arguments_mapLocations]
  rcases part.arguments with _ | ⟨first, _ | ⟨second, rest⟩⟩
  · exact .fail (by simp) (by simp)
  · exact .pure rfl
  · exact .fail (by simp) (by simp)

theorem follows_noArguments (part : Section) :
    Follows id (noArguments (part.mapLocations f)) (noArguments part) := by
  unfold noArguments
  rw [arguments_mapLocations]
  rcases part.arguments with _ | ⟨argument, rest⟩
  · exact .pure rfl
  · exact .fail (by simp) (by simp)

theorem tokenOf?_leaf (kind : TokenKind) (leaf : Target) :
    (leaf.mapLocations f).tokenOf? kind = (leaf.tokenOf? kind).map (·.mapLocation f) := by
  cases leaf with
  | single token =>
      by_cases same : token.kind = kind <;> simp [Target.mapLocations, Target.tokenOf?, same]
  | _ => rfl

theorem tokenOf?_mapLocations (kind : TokenKind) (argument : Argument) :
    tokenOf? kind (argument.mapLocations f) = (tokenOf? kind argument).map (·.mapLocation f) := by
  cases argument with
  | target leaf => exact tokenOf?_leaf f kind leaf
  | group inner => rfl

theorem follows_formula (argument : Argument) :
    Follows (Formula.relocate f) (formula (argument.mapLocations f)) (formula argument) := by
  unfold formula
  rw [tokenOf?_mapLocations]
  cases tokenOf? (.literal .statement) argument with
  | some token => exact .pure rfl
  | none => exact .fail (by simp) (by simp)

theorem follows_text (argument : Argument) :
    Follows (Text.mapLocations f) (text (argument.mapLocations f)) (text argument) := by
  unfold text
  rw [tokenOf?_mapLocations]
  cases tokenOf? (.literal .string) argument with
  | some token => exact .pure rfl
  | none => exact .fail (by simp) (by simp)

theorem follows_targetsOf (arguments : List Argument) :
    Follows (List.map (Target.mapLocations f))
      (targetsOf (arguments.map (Argument.mapLocations f))) (targetsOf arguments) := by
  induction arguments with
  | nil => exact .pure rfl
  | cons argument rest ih =>
      cases argument with
      | target leaf => exact ih.bind fun _ => .pure rfl
      | group inner =>
          exact .fail (by simp [targetsOf, Argument.mapLocations]) (by simp [targetsOf])

theorem follows_groupsOf (arguments : List Argument) :
    Follows (List.map (Group.mapLocations f))
      (groupsOf (arguments.map (Argument.mapLocations f))) (groupsOf arguments) := by
  induction arguments with
  | nil => exact .pure rfl
  | cons argument rest ih =>
      cases argument with
      | group inner => exact ih.bind fun _ => .pure rfl
      | target leaf => exact .fail (by simp [groupsOf, Argument.mapLocations]) (by simp [groupsOf])

theorem follows_textsOf (arguments : List Argument) :
    Follows (List.map (Text.mapLocations f))
      (textsOf (arguments.map (Argument.mapLocations f))) (textsOf arguments) := by
  induction arguments with
  | nil => exact .pure rfl
  | cons argument rest ih =>
      exact (follows_text f argument).bind fun _ => ih.bind fun _ => .pure rfl

theorem follows_singleFormula (part : Section) :
    Follows (Formula.relocate f) (singleFormula (part.mapLocations f)) (singleFormula part) := by
  refine (follows_singleArgument f part).bind fun clean => ?_
  rcases singleArgument_clean clean with ⟨argument, -, value⟩
  rw [value]
  exact follows_formula f argument

theorem follows_singleText (part : Section) :
    Follows (Text.mapLocations f) (singleText (part.mapLocations f)) (singleText part) := by
  refine (follows_singleArgument f part).bind fun clean => ?_
  rcases singleArgument_clean clean with ⟨argument, -, value⟩
  rw [value]
  exact follows_text f argument

theorem follows_singleTarget (part : Section) :
    Follows (Option.map (Target.mapLocations f)) (singleTarget (part.mapLocations f))
      (singleTarget part) := by
  refine (follows_singleArgument f part).bind fun clean => ?_
  rcases singleArgument_clean clean with ⟨argument, -, value⟩
  rw [value]
  cases argument with
  | target leaf => exact .pure rfl
  | group inner => exact .fail (by simp [Argument.mapLocations]) (by simp)

theorem follows_texts (part : Section) :
    Follows (Texts.mapLocations f) (texts (part.mapLocations f)) (texts part) := by
  unfold texts
  rw [arguments_mapLocations, location_mapLocations]
  exact (follows_textsOf f part.arguments).bind fun _ => .pure rfl

theorem follows_targets (part : Section) :
    Follows (Targets.mapLocations f) (targets (part.mapLocations f)) (targets part) := by
  unfold targets
  rw [arguments_mapLocations, location_mapLocations]
  exact (Follows.require (by cases part.arguments <;> rfl)).bind fun _ =>
    (follows_targetsOf f part.arguments).bind fun _ => .pure rfl

theorem follows_groups (part : Section) :
    Follows (List.map (Group.mapLocations f)) (groups (part.mapLocations f)) (groups part) := by
  rw [groups, arguments_mapLocations, groups]
  exact follows_groupsOf f part.arguments

theorem follows_requiredId (group : Group) :
    Follows (Formula.relocate f) (requiredId (group.mapLocations f)) (requiredId group) := by
  unfold requiredId
  rw [id?_mapLocations]
  cases group.id? with
  | some token => exact .pure rfl
  | none => exact .fail (by simp) (by simp)

theorem optionalId_mapLocations (group : Group) :
    optionalId (group.mapLocations f) = (optionalId group).map (Formula.relocate f) := by
  rw [optionalId, id?_mapLocations, Option.map_map, optionalId, Option.map_map]
  rfl

theorem follows_noId (group : Group) : Follows id (noId (group.mapLocations f)) (noId group) := by
  unfold noId
  rw [id?_mapLocations]
  cases group.id? with
  | some token => exact .fail (by simp) (by simp)
  | none => exact .pure rfl

/-! ## Moved clauses -/

theorem follows_leafClause (leaf : Target) :
    Follows (Clause.relocate f) (leafClause (leaf.mapLocations f)) (leafClause leaf) := by
  unfold leafClause
  rw [tokenOf?_leaf, tokenOf?_leaf]
  cases leaf.tokenOf? (.literal .statement) with
  | some token => exact .pure rfl
  | none =>
      cases leaf.tokenOf? (.literal .string) with
      | some token => exact .pure rfl
      | none => exact .fail (by simp) (by simp)

/-- Reading the argument as a clause moves with it. -/
def Argument.Moves (argument : Argument) : Prop :=
  Follows (Clause.relocate f) (clause (argument.mapLocations f)) (clause argument)

variable {f}

theorem follows_gather {arguments : List Argument}
    (each : ∀ argument ∈ arguments, Argument.Moves f argument) :
    Follows (relocateOf f) (Part.gather ((arguments.map (Argument.mapLocations f)).map clause))
      (Part.gather (arguments.map clause)) := by
  induction arguments with
  | nil => exact .pure rfl
  | cons argument rest ih =>
      rcases List.forall_mem_cons.mp each with ⟨here, others⟩
      exact here.bind fun _ => (ih others).bind fun _ => .pure rfl

theorem follows_all (each : ∀ argument ∈ part.arguments, Argument.Moves f argument) :
    Follows (Clauses.relocate f) (Part.ofSection (part.mapLocations f)).all
      (Part.ofSection part).all := by
  unfold Part.all Part.ofSection
  rw [arguments_mapLocations, location_mapLocations]
  exact (follows_gather each).bind fun _ => .pure rfl

theorem follows_single (each : ∀ argument ∈ part.arguments, Argument.Moves f argument) :
    Follows (Clause.relocate f) (Part.ofSection (part.mapLocations f)).single
      (Part.ofSection part).single := by
  unfold Part.single Part.ofSection
  rw [arguments_mapLocations]
  rcases arguments : part.arguments with _ | ⟨first, _ | ⟨second, rest⟩⟩
  · exact .fail (by simp) (by simp)
  · exact each first (by simp [arguments])
  · exact .fail (by simp) (by simp)

/-- A group that fits a kind of clause is read after its shape is found again. -/
theorem follows_headed {location location' : Location} {names : List String} {otherwise : α}
    {otherwise' : β} {after : Sections Part → Review Fault β}
    {before : Sections Part → Review Fault α}
    (inner : Fits (names.map Expectation.ofString) group.sections →
      Follows move (after ((sectionsOf (group.mapLocations f)).map Part.ofSection))
        (before ((sectionsOf group).map Part.ofSection))) :
    Follows move
      (shapedBy Part.origin location' (clauseParts (group.mapLocations f).sections) names otherwise'
        after)
      (shapedBy Part.origin location (clauseParts group.sections) names otherwise before) := by
  refine follows_shapedBy ?_ fun fits => ?_
  · simp [clauseParts_eq, Part.ofSection]
  · rw [origin_clauseParts] at fits
    rw [of_clauseParts, of_clauseParts]
    exact inner fits

section Headed

variable (each : ∀ part ∈ group.sections, ∀ argument ∈ part.arguments, Argument.Moves f argument)

include each

theorem follows_required_all (present : ∃ part, section? group name = some part) :
    Follows (Clauses.relocate f)
      (required (sectionsOf (group.mapLocations f)) name fun part => (Part.ofSection part).all)
      (required (sectionsOf group) name fun part => (Part.ofSection part).all) :=
  follows_required f (fun part member => follows_all (each part member)) present

theorem follows_whenPresent_all (name : String) :
    Follows (relocateIn f)
      (whenPresent (sectionsOf (group.mapLocations f)) name fun part => (Part.ofSection part).all)
      (whenPresent (sectionsOf group) name fun part => (Part.ofSection part).all) := by
  rw [funext (relocateIn_eq f)]
  exact follows_whenPresent f fun part member => follows_all (each part member)

theorem follows_headedClause :
    Follows (Clause.relocate f)
      (headedClause (group.mapLocations f) (clauseParts (group.mapLocations f).sections)
        group.heading?)
      (headedClause group (clauseParts group.sections) group.heading?) := by
  have bare {name : String} (present : ∃ part, section? group name = some part) :=
    follows_required f (fun part _ => follows_noArguments f part) present
  have introduced {name : String} (present : ∃ part, section? group name = some part) :=
    follows_required f (fun part _ => follows_targets f part) present
  unfold headedClause
  split
  case h_11 => exact .fail (by simp) (by simp)
  all_goals
    rename_i headed
    rw [location_group f (sections_ne_nil headed)]
    refine follows_headed fun fits => ?_
    simp only [required_map, whenPresent_map]
    have present := @fits.exists_section
  -- The sections of each kind of clause, in the order in which they are read.
  case h_1 | h_2 =>
    exact (follows_required_all each (present (by decide))).bind fun _ =>
      (follows_required_all each (present (by decide))).bind fun _ => .pure rfl
  case h_3 =>
    exact (introduced (present (by decide))).bind fun _ =>
      (follows_whenPresent_all each _).bind fun _ =>
      (follows_required_all each (present (by decide))).bind fun _ => .pure rfl
  case h_4 | h_5 =>
    exact (introduced (present (by decide))).bind fun _ =>
      (follows_whenPresent_all each _).bind fun _ => .pure rfl
  case h_6 =>
    exact (follows_required f (fun part member => follows_single (each part member))
      (present (by decide))).bind fun _ => .pure rfl
  case h_7 | h_9 =>
    exact (follows_required_all each (present (by decide))).bind fun _ => .pure rfl
  case h_8 =>
    exact (bare (present (by decide))).bind fun _ =>
      (follows_required_all each (present (by decide))).bind fun _ =>
      (follows_required_all each (present (by decide))).bind fun _ =>
      (follows_whenPresent_all each _).bind fun _ => .pure rfl
  case h_10 =>
    exact (bare (present (by decide))).bind fun _ =>
      (introduced (present (by decide))).bind fun _ =>
      (follows_whenPresent_all each _).bind fun _ => .pure rfl

end Headed

variable (f)

theorem clause_moves (argument : Argument) : Argument.Moves f argument := by
  induction argument using argument_induction with
  | target leaf => exact follows_leafClause f leaf
  | group inner each =>
      unfold Argument.Moves
      rw [Argument.mapLocations, clause_group, clause_group, heading?_mapLocations]
      exact (follows_noId f inner).bind fun _ => follows_headedClause each

theorem follows_clauses (part : Section) :
    Follows (Clauses.relocate f) (clauses (part.mapLocations f)) (clauses part) := by
  rw [clauses_eq, clauses_eq]
  exact follows_all fun argument _ => clause_moves f argument

theorem follows_whenPresent_clauses (group : Group) (name : String) :
    Follows (relocateIn f) (whenPresent (sectionsOf (group.mapLocations f)) name clauses)
      (whenPresent (sectionsOf group) name clauses) := by
  rw [funext (relocateIn_eq f)]
  exact follows_whenPresent f fun part _ => follows_clauses f part

/-! ## Moved groups -/

theorem follows_collect {after : Group → Review Fault (Option β)}
    {before : Group → Review Fault (Option α)}
    (each : ∀ group, Follows (Option.map move) (after (group.mapLocations f)) (before group))
    (groups : List Group) :
    Follows (List.map move) (collect after (groups.map (Group.mapLocations f)))
      (collect before groups) := by
  induction groups with
  | nil => exact .pure rfl
  | cons group rest ih =>
      refine (each group).bind fun _ => ih.bind fun _ => .pure ?_
      cases (before group).value <;> simp

theorem follows_field (group : Group) :
    Follows (Option.map (Field.mapLocations f)) (field (group.mapLocations f)) (field group) := by
  refine (follows_noId f group).bind fun _ => ?_
  rw [sections_mapLocations]
  rcases only : group.sections with _ | ⟨part, _ | ⟨second, rest⟩⟩
  · exact .fail (by simp) (by simp)
  · rw [location_group f (by simp [only])]
    refine (follows_singleText f part).bind fun _ => .pure ?_
    simp [Field.mapLocations]
  · exact .fail (by simp) (by simp)

theorem follows_citation (group : Group) :
    Follows (Option.map (Citation.mapLocations f)) (citation (group.mapLocations f))
      (citation group) := by
  refine (follows_noId f group).bind fun _ => follows_shaped f fun fits => ?_
  rw [fits.location_group f "source" (by decide)]
  exact (follows_required f (fun part _ => follows_singleText f part)
      (fits.exists_section (by decide))).bind fun _ =>
    (follows_whenPresent f fun part _ => follows_singleText f part).bind fun _ =>
    (follows_whenPresent f fun part _ => follows_singleText f part).bind fun _ => .pure rfl

theorem follows_metadataItem (group : Group) :
    Follows (Option.map (MetadataItem.mapLocations f)) (metadataItem (group.mapLocations f))
      (metadataItem group) := by
  refine (follows_noId f group).bind fun _ => ?_
  rw [heading?_mapLocations]
  split
  · refine follows_shaped f fun fits => ?_
    rw [fits.location_group f "reference" (by decide)]
    exact (follows_required f (fun part _ => follows_groups f part)
        (fits.exists_section (by decide))).bind fun _ =>
      (follows_collect f (follows_citation f) _).bind fun _ => .pure rfl
  · exact follows_shaped f fun fits =>
      (follows_required f (fun part _ => follows_texts f part)
        (fits.exists_section (by decide))).bind fun _ => .pure rfl
  · exact (follows_field f group).made fun _ => rfl

theorem follows_metadata (part : Section) :
    Follows (Metadata.mapLocations f) (metadata (part.mapLocations f)) (metadata part) := by
  unfold metadata
  rw [location_mapLocations]
  exact (follows_groups f part).bind fun _ =>
    (follows_collect f (follows_metadataItem f) _).bind fun _ => .pure rfl

theorem follows_provision (group : Group) :
    Follows (Option.map (Provision.relocate f)) (provision (group.mapLocations f))
      (provision group) := by
  refine (follows_noId f group).bind fun _ => ?_
  rw [heading?_mapLocations]
  split
  · refine follows_shaped f fun fits => ?_
    rw [fits.location_group f "view" (by decide)]
    exact (follows_required f (fun part _ => follows_noArguments f part)
        (fits.exists_section (by decide))).bind fun _ =>
      (follows_required f (fun part _ => follows_singleFormula f part)
        (fits.exists_section (by decide))).bind fun _ =>
      (follows_whenPresent f fun part _ => follows_singleFormula f part).bind fun _ =>
      (follows_whenPresent f fun part _ => follows_singleFormula f part).bind fun _ => .pure rfl
  · refine follows_shaped f fun fits => ?_
    rw [fits.location_group f "member" (by decide)]
    exact (follows_required f (fun part _ => follows_targets f part)
        (fits.exists_section (by decide))).bind fun _ =>
      (follows_required f (fun part _ => follows_clauses f part)
        (fits.exists_section (by decide))).bind fun _ => .pure rfl
  · exact .fail (by simp) (by simp)

theorem follows_provisions (part : Section) :
    Follows (Provisions.relocate f) (provisions (part.mapLocations f)) (provisions part) := by
  unfold provisions
  rw [location_mapLocations]
  exact (follows_groups f part).bind fun _ =>
    (follows_collect f (follows_provision f) _).bind fun _ => .pure rfl

/-! ## Moved entries -/

theorem follows_defines (group : Group) :
    Follows (Option.map (Defines.relocate f)) (defines (group.mapLocations f)) (defines group) := by
  refine (follows_requiredId f group).bind fun _ => follows_shaped f fun fits => ?_
  rw [fits.location_group f "Defines" (by decide)]
  refine (follows_required f (fun part _ => follows_singleTarget f part)
      (fits.exists_section (by decide))).bind fun _ =>
    (follows_whenPresent f fun part _ => follows_targets f part).bind fun _ =>
    (follows_whenPresent_clauses f group _).bind fun _ =>
    (follows_whenPresent_clauses f group _).bind fun _ =>
    (follows_whenPresent_clauses f group _).bind fun _ =>
    (follows_whenPresent_clauses f group _).bind fun _ =>
    (follows_whenPresent_clauses f group _).bind fun _ =>
    (follows_whenPresent f fun part _ => follows_provisions f part).bind fun _ =>
    (follows_whenPresent_clauses f group _).bind fun _ =>
    (follows_whenPresent f fun part _ => follows_texts f part).bind fun _ =>
    (follows_whenPresent f fun part _ => follows_texts f part).bind fun _ =>
    (follows_whenPresent f fun part _ => follows_metadata f part).bind fun _ => .pure ?_
  cases (required (sectionsOf group) "Defines" singleTarget).value <;> rfl

theorem follows_states (group : Group) :
    Follows (Option.map (States.relocate f)) (states (group.mapLocations f)) (states group) := by
  refine (follows_requiredId f group).bind fun _ => follows_shaped f fun fits => ?_
  rw [fits.location_group f "States" (by decide)]
  exact (follows_required f (fun part _ => follows_noArguments f part)
      (fits.exists_section (by decide))).bind fun _ =>
    (follows_whenPresent f fun part _ => follows_targets f part).bind fun _ =>
    (follows_whenPresent_clauses f group _).bind fun _ =>
    (follows_whenPresent_clauses f group _).bind fun _ =>
    (follows_required f (fun part _ => follows_clauses f part)
      (fits.exists_section (by decide))).bind fun _ =>
    (follows_whenPresent_clauses f group _).bind fun _ =>
    (follows_whenPresent f fun part _ => follows_texts f part).bind fun _ =>
    (follows_whenPresent f fun part _ => follows_texts f part).bind fun _ =>
    (follows_whenPresent f fun part _ => follows_metadata f part).bind fun _ => .pure rfl

theorem follows_definition (group : Group) :
    Follows (Option.map (Definition.relocate f)) (definition (group.mapLocations f))
      (definition group) := by
  unfold definition
  rw [heading?_mapLocations]
  split
  · exact (follows_defines f group).made fun _ => rfl
  · exact (follows_states f group).made fun _ => rfl
  · exact .fail (by simp) (by simp)

theorem follows_result (kind : ResultKind) (group : Group) :
    Follows (Option.map (Result.relocate f)) (result kind (group.mapLocations f))
      (result kind group) := by
  refine follows_shaped f fun fits => ?_
  rw [fits.location_group f "then" (by cases kind <;> decide), optionalId_mapLocations]
  exact (follows_required f (fun part _ => follows_texts f part)
      (fits.exists_section (by cases kind <;> decide))).bind fun _ =>
    (follows_whenPresent f fun part _ => follows_targets f part).bind fun _ =>
    (follows_whenPresent_clauses f group _).bind fun _ =>
    (follows_whenPresent_clauses f group _).bind fun _ =>
    (follows_whenPresent_clauses f group _).bind fun _ =>
    (follows_required f (fun part _ => follows_clauses f part)
      (fits.exists_section (by cases kind <;> decide))).bind fun _ =>
    (follows_whenPresent_clauses f group _).bind fun _ =>
    (follows_whenPresent_clauses f group _).bind fun _ =>
    (follows_whenPresent f fun part _ => follows_metadata f part).bind fun _ => .pure rfl

theorem follows_topic (group : Group) :
    Follows (Option.map (Topic.relocate f)) (topic (group.mapLocations f)) (topic group) := by
  refine (follows_requiredId f group).bind fun _ => follows_shaped f fun fits => ?_
  rw [fits.location_group f "Topic" (by decide)]
  exact (follows_required f (fun part _ => follows_texts f part)
      (fits.exists_section (by decide))).bind fun _ =>
    (follows_required f (fun part _ => follows_singleText f part)
      (fits.exists_section (by decide))).bind fun _ =>
    (follows_whenPresent f fun part _ => follows_metadata f part).bind fun _ => .pure rfl

theorem follows_resource (group : Group) :
    Follows (Option.map (Resource.relocate f)) (resource (group.mapLocations f))
      (resource group) := by
  refine (follows_requiredId f group).bind fun _ => follows_shaped f fun fits => ?_
  rw [fits.location_group f "Resource" (by decide)]
  exact (follows_required f (fun part _ => follows_groups f part)
      (fits.exists_section (by decide))).bind fun _ =>
    (follows_collect f (follows_field f) _).bind fun _ =>
    (follows_whenPresent f fun part _ => follows_metadata f part).bind fun _ => .pure rfl

theorem follows_foundation (group : Group) :
    Follows (Option.map (Entry.relocate f)) (foundation (group.mapLocations f))
      (foundation group) := by
  refine (follows_noId f group).bind fun _ => follows_shaped f fun fits => ?_
  rw [fits.location_group f "Foundation" (by decide)]
  refine (follows_required f (fun part _ => follows_singleArgument f part)
    (fits.exists_section (by decide))).bind fun _ => ?_
  cases (required (sectionsOf group) "Foundation" singleArgument).value with
  | none => exact .pure rfl
  | some argument =>
      refine (follows_groupsOf f [argument]).bind fun _ =>
        (follows_collect f (follows_definition f) _).bind fun _ =>
        (follows_whenPresent f fun part _ => follows_metadata f part).bind fun _ => .pure ?_
      simp [Function.comp_def, Entry.relocate]

theorem follows_mutually (group : Group) :
    Follows (Option.map (Entry.relocate f)) (mutually (group.mapLocations f)) (mutually group) := by
  refine (follows_noId f group).bind fun _ => follows_shaped f fun fits => ?_
  rw [fits.location_group f "Mutually" (by decide)]
  refine (follows_required f (fun part _ => ?_) (fits.exists_section (by decide))).bind fun _ =>
    (follows_collect f (follows_definition f) _).bind fun _ =>
    (follows_whenPresent f fun part _ => follows_metadata f part).bind fun _ => .pure rfl
  rw [arguments_mapLocations]
  exact (Follows.require (by cases part.arguments <;> rfl)).bind fun _ => follows_groups f part

/-- A moved group is read as the moved entry. -/
theorem follows_entry (group : Group) :
    Follows (Option.map (Entry.relocate f)) (entry (group.mapLocations f)) (entry group) := by
  unfold entry
  rw [heading?_mapLocations]
  split
  · exact (follows_defines f group).made fun _ => rfl
  · exact (follows_states f group).made fun _ => rfl
  · exact (follows_result f .axiomatic group).made fun _ => rfl
  · exact (follows_result f .theorem_ group).made fun _ => rfl
  · exact (follows_result f .conjecture group).made fun _ => rfl
  · exact (follows_topic f group).made fun _ => rfl
  · exact (follows_resource f group).made fun _ => rfl
  · exact follows_foundation f group
  · exact follows_mutually f group
  · exact .fail (by simp) (by simp)

end Treatise.Document
