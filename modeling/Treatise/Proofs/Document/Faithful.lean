import Treatise.Proofs.Document.Depiction

/-!
# What is read is depicted

A group that is read as an entry without a problem is depicted by the entry on the page: reading
passes over no section and no argument, and printing puts them back in the order in which they were
expected. The same holds of clauses, of provisions and of metadata.
-/

namespace Treatise.Document

open Outline (Argument Group Section Target)

variable {group : Group} {part : Section} {name : String}

/-- The rows of the sections under the expected names are the rows of a group that fits. -/
theorem Fits.depicted {expected : List Expectation} {rows : List Row}
    (fits : Fits expected group.sections) (distinct : (expected.map Expectation.name).Nodup)
    (depicted : RowsDepict rows (sectionsUnder group (expected.map Expectation.name))) :
    RowsDepict rows group.sections := by
  rwa [fits.sections_under distinct]

/-! ## Clauses -/

/-- The item of a clause that is read without a problem depicts the argument it is read from. -/
def Argument.Faithful (argument : Argument) : Prop :=
  (clause argument).problems = [] → Item.Depicts (clause argument).value.item argument

theorem gather_depicts {arguments : List Argument}
    (each : ∀ argument ∈ arguments, Argument.Faithful argument)
    (clean : (Part.gather (arguments.map clause)).problems = []) :
    ItemsDepict (itemsOf (Part.gather (arguments.map clause)).value) arguments := by
  induction arguments with
  | nil => exact .none
  | cons argument rest ih =>
      rcases List.forall_mem_cons.mp each with ⟨here, others⟩
      simp only [List.map_cons, Part.gather, Review.problems_bind, Review.problems_pure,
        List.append_nil, List.append_eq_nil_iff] at clean
      exact .some (here clean.1) (ih others clean.2)

theorem depicts_all (each : ∀ argument ∈ part.arguments, Argument.Faithful argument)
    (clean : (Part.ofSection part).all.problems = []) (named : part.name = name) :
    Row.Depicts ((Part.ofSection part).all.value.row name) part := by
  simp only [Part.all, Review.problems_bind, Review.problems_pure, List.append_nil] at clean
  exact .beneath named (gather_depicts each clean)

theorem depicts_single (each : ∀ argument ∈ part.arguments, Argument.Faithful argument)
    (clean : (Part.ofSection part).single.problems = []) (named : part.name = name) :
    Row.Depicts (.mk name [] [(Part.ofSection part).single.value.item]) part := by
  unfold Part.single at clean ⊢
  split at clean
  · next only same =>
    rcases List.map_eq_singleton_iff.mp same with ⟨argument, arguments, rfl⟩
    refine .beneath named ?_
    rw [arguments]
    exact .some (each argument (arguments ▸ List.mem_singleton_self _) clean) .none
  · simp at clean

theorem rowsIn_eq (name : String) (found : Option Clauses) :
    rowsIn name found = Row.optional (Clauses.row name) found := by
  cases found <;> rfl

section Headed

variable (each : ∀ part ∈ group.sections, ∀ argument ∈ part.arguments, Argument.Faithful argument)

include each

theorem required_all_depicts (present : ∃ part, section? group name = some part)
    (clean : (required (sectionsOf group) name fun part => (Part.ofSection part).all).problems
      = []) :
    RowsDepict
      [(required (sectionsOf group) name fun part => (Part.ofSection part).all).value.row name]
      (section? group name).toList :=
  required_depicts (fun part member => depicts_all (each part member)) present clean

theorem required_single_depicts (present : ∃ part, section? group name = some part)
    (clean : (required (sectionsOf group) name fun part => (Part.ofSection part).single).problems
      = []) :
    RowsDepict [.mk name []
        [(required (sectionsOf group) name fun part => (Part.ofSection part).single).value.item]]
      (section? group name).toList := by
  rcases present with ⟨part, found⟩
  simp only [required, get?_sectionsOf, found] at clean ⊢
  exact .one (depicts_single (each part (mem_of_section? found)) clean (name_of_section? found))

theorem whenPresent_all_depicts
    (clean : (whenPresent (sectionsOf group) name fun part => (Part.ofSection part).all).problems
      = []) :
    RowsDepict
      (rowsIn name (whenPresent (sectionsOf group) name fun part =>
        (Part.ofSection part).all).value)
      (section? group name).toList := by
  rw [rowsIn_eq]
  exact whenPresent_depicts (fun part member => depicts_all (each part member)) clean

/-- A group that is read as a clause is depicted by the clause on the page. -/
theorem headedClause_depicts {heading : Option String}
    (clean : (headedClause group (clauseParts group.sections) heading).problems = []) :
    ∃ rows, (headedClause group (clauseParts group.sections) heading).value.item
        = .block (.mk none rows) ∧ RowsDepict rows group.sections := by
  unfold headedClause at clean ⊢
  split at clean
  case h_11 => simp at clean
  all_goals
    rcases headed_clean clean with ⟨fits, clean, same⟩
    have present := @fits.exists_section
    simp only [required_map, whenPresent_map] at clean same
    simp only [Review.problems_bind, Review.problems_pure, List.append_nil,
      List.append_eq_nil_iff] at clean
    rw [same]
    refine ⟨_, rfl, fits.depicted (by decide) ?_⟩
  -- The sections of each kind of clause, in the order in which they are printed.
  case h_1 | h_2 =>
    exact required_all_depicts each (present (by decide)) clean.1
      |>.append (required_all_depicts each (present (by decide)) clean.2)
  case h_3 =>
    exact required_depicts (fun _ _ => depicts_targets) (present (by decide)) clean.1
      |>.append (whenPresent_all_depicts each clean.2.1)
      |>.append (required_all_depicts each (present (by decide)) clean.2.2)
  case h_4 | h_5 =>
    exact required_depicts (fun _ _ => depicts_targets) (present (by decide)) clean.1
      |>.append (whenPresent_all_depicts each clean.2)
  case h_6 =>
    exact required_single_depicts each (present (by decide)) clean
  case h_7 | h_9 => exact required_all_depicts each (present (by decide)) clean
  case h_8 =>
    exact required_bare_depicts (present (by decide)) clean.1
      |>.append (required_all_depicts each (present (by decide)) clean.2.1)
      |>.append (required_all_depicts each (present (by decide)) clean.2.2.1)
      |>.append (whenPresent_all_depicts each clean.2.2.2)
  case h_10 =>
    exact required_bare_depicts (present (by decide)) clean.1
      |>.append (required_depicts (fun _ _ => depicts_targets) (present (by decide)) clean.2.1)
      |>.append (whenPresent_all_depicts each clean.2.2)

end Headed

theorem id?_of_noId (clean : (noId group).problems = []) : group.id? = none := by
  unfold noId at clean
  split at clean
  · simp at clean
  · assumption

/-- A block for a group, with the id of the group. -/
theorem Block.Depicts.of_rows {rows : List Row} (depicted : RowsDepict rows group.sections) :
    Block.Depicts (.mk (optionalId group) rows) group := by
  rcases group with ⟨_ | id, sections⟩
  · exact .untagged depicted
  · exact .tagged depicted

theorem Item.Depicts.of_rows {rows : List Row} (depicted : RowsDepict rows group.sections)
    (untagged : (noId group).problems = []) :
    Item.Depicts (.block (.mk none rows)) (.group group) := by
  have whole := Block.Depicts.of_rows depicted
  rw [optionalId, id?_of_noId untagged] at whole
  exact .block whole

theorem leafClause_depicts {leaf : Target} (clean : (leafClause leaf).problems = []) :
    Item.Depicts (leafClause leaf).value.item (.target leaf) := by
  unfold leafClause at clean ⊢
  cases statement : leaf.tokenOf? (.literal .statement) with
  | some token =>
      have found : tokenOf? (.literal .statement) (.target leaf) = some token := statement
      rcases tokenOf?_eq_some found with ⟨same, isFormula⟩
      rw [same]
      exact .formula isFormula
  | none =>
      cases string : leaf.tokenOf? (.literal .string) with
      | some token =>
          have found : tokenOf? (.literal .string) (.target leaf) = some token := string
          rcases tokenOf?_eq_some found with ⟨same, isText⟩
          rw [same]
          exact .text isText
      | none => simp [statement, string] at clean

/-- What is read as a clause without a problem is depicted by the clause on the page. -/
theorem clause_faithful (argument : Argument) : Argument.Faithful argument := by
  induction argument using argument_induction with
  | target leaf => exact leafClause_depicts
  | group inner each =>
      intro clean
      simp only [clause_group, Review.problems_bind, Review.value_bind,
        List.append_eq_nil_iff] at clean ⊢
      rcases headedClause_depicts each clean.2 with ⟨rows, item, depicted⟩
      rw [item]
      exact .of_rows depicted clean.1

theorem depicts_clauses (part : Section) (clean : (clauses part).problems = [])
    (named : part.name = name) : Row.Depicts ((clauses part).value.row name) part := by
  rw [clauses_eq] at clean ⊢
  exact depicts_all (fun argument _ => clause_faithful argument) clean named

theorem whenPresent_clauses_depicts
    (clean : (whenPresent (sectionsOf group) name clauses).problems = []) :
    RowsDepict (rowsIn name (whenPresent (sectionsOf group) name clauses).value)
      (section? group name).toList := by
  rw [rowsIn_eq]
  exact whenPresent_depicts (fun part _ => depicts_clauses part) clean

/-! ## Groups that are read one by one -/

/-- A group that is read without a problem is read as something that depicts it. -/
def ReadsAs {α : Type} (item : α → Item) (read : Group → Review Fault (Option α)) : Prop :=
  ∀ group, (read group).problems = [] →
    ∃ found, (read group).value = some found ∧ Item.Depicts (item found) (.group group)

section Collect

variable {α : Type} {item : α → Item} {read : Group → Review Fault (Option α)}

theorem collect_depicts (each : ReadsAs item read) {groups : List Group}
    (clean : (collect read groups).problems = []) :
    ItemsDepict ((collect read groups).value.map item) (groups.map .group) := by
  induction groups with
  | nil => exact .none
  | cons group rest ih =>
      simp only [collect, Review.problems_bind, Review.problems_pure, List.append_nil,
        List.append_eq_nil_iff] at clean
      rcases each group clean.1 with ⟨found, value, depicted⟩
      simp only [collect, Review.value_bind, Review.value_pure, value, Option.toList_some,
        List.singleton_append, List.map_cons]
      exact .some depicted (ih clean.2)

/-- The row of a section of groups. -/
theorem depicts_collected (each : ReadsAs item read) (clean : (groups part).problems = [])
    (collected : (collect read (groups part).value).problems = []) (named : part.name = name) :
    Row.Depicts (.mk name [] ((collect read (groups part).value).value.map item)) part := by
  have arguments := groupsOf_clean clean
  refine .beneath named ?_
  rw [arguments]
  exact collect_depicts each collected

theorem required_collected_depicts (each : ReadsAs item read)
    (present : ∃ part, section? group name = some part)
    (clean : (required (sectionsOf group) name groups).problems = [])
    (collected : (collect read (required (sectionsOf group) name groups).value).problems = []) :
    RowsDepict
      [.mk name [] ((collect read (required (sectionsOf group) name groups).value).value.map item)]
      (section? group name).toList := by
  rcases present with ⟨part, found⟩
  simp only [required, get?_sectionsOf, found] at clean collected ⊢
  exact .one (depicts_collected each clean collected (name_of_section? found))

end Collect

theorem reads_field : ReadsAs Field.item field := by
  intro group clean
  unfold field at clean ⊢
  simp only [Review.problems_bind, Review.value_bind, List.append_eq_nil_iff] at clean ⊢
  rcases clean with ⟨untagged, clean⟩
  split at clean
  · next part only =>
    simp only [Review.problems_bind, Review.problems_pure, List.append_nil] at clean
    refine ⟨_, rfl, .of_rows ?_ untagged⟩
    rw [only]
    exact .one (depicts_text clean rfl)
  · simp at clean

theorem reads_citation : ReadsAs Citation.item citation := by
  intro group clean
  simp only [citation, Review.problems_bind, List.append_eq_nil_iff] at clean
  rcases clean with ⟨untagged, clean⟩
  rcases shaped_clean clean with ⟨fits, clean, same⟩
  simp only [Review.problems_bind, Review.problems_pure, List.append_nil,
    List.append_eq_nil_iff] at clean
  refine ⟨_, same, .of_rows (fits.depicted (by decide) ?_) untagged⟩
  exact required_depicts (fun _ _ => depicts_text) (fits.exists_section (by decide)) clean.1
    |>.append (whenPresent_depicts (fun _ _ => depicts_text) clean.2.1)
    |>.append (whenPresent_depicts (fun _ _ => depicts_text) clean.2.2)

theorem reads_metadataItem : ReadsAs MetadataItem.item metadataItem := by
  intro group clean
  simp only [metadataItem, Review.problems_bind, Review.value_bind,
    List.append_eq_nil_iff] at clean ⊢
  rcases clean with ⟨untagged, clean⟩
  split at clean
  · rcases shaped_clean clean with ⟨fits, clean, same⟩
    simp only [Review.problems_bind, Review.problems_pure, List.append_nil,
      List.append_eq_nil_iff] at clean
    refine ⟨_, same, .of_rows (fits.depicted (by decide) ?_) untagged⟩
    exact required_collected_depicts reads_citation (fits.exists_section (by decide))
      clean.1 clean.2
  · rcases shaped_clean clean with ⟨fits, clean, same⟩
    simp only [Review.problems_bind, Review.problems_pure, List.append_nil] at clean
    refine ⟨_, same, .of_rows (fits.depicted (by decide) ?_) untagged⟩
    exact required_depicts (fun _ _ => depicts_texts) (fits.exists_section (by decide)) clean
  · simp only [Review.problems_bind, Review.problems_pure, List.append_nil] at clean
    rcases reads_field group clean with ⟨found, value, depicted⟩
    exact ⟨.field found, by simp [value], depicted⟩

theorem depicts_metadata (part : Section) (clean : (metadata part).problems = [])
    (named : part.name = "Metadata") : Row.Depicts (metadata part).value.row part := by
  simp only [metadata, Review.problems_bind, Review.problems_pure, List.append_nil,
    List.append_eq_nil_iff] at clean
  exact depicts_collected reads_metadataItem clean.1 clean.2 named

theorem reads_provision : ReadsAs Provision.item provision := by
  intro group clean
  simp only [provision, Review.problems_bind, Review.value_bind, List.append_eq_nil_iff] at clean ⊢
  rcases clean with ⟨untagged, clean⟩
  split at clean
  · rcases shaped_clean clean with ⟨fits, clean, same⟩
    simp only [Review.problems_bind, Review.problems_pure, List.append_nil,
      List.append_eq_nil_iff] at clean
    refine ⟨_, same, .of_rows (fits.depicted (by decide) ?_) untagged⟩
    have present := @fits.exists_section
    exact required_bare_depicts (present (by decide)) clean.1
      |>.append (required_depicts (fun _ _ => depicts_formula) (present (by decide)) clean.2.1)
      |>.append (whenPresent_depicts (fun _ _ => depicts_formula) clean.2.2.1)
      |>.append (whenPresent_depicts (fun _ _ => depicts_formula) clean.2.2.2)
  · rcases shaped_clean clean with ⟨fits, clean, same⟩
    simp only [Review.problems_bind, Review.problems_pure, List.append_nil,
      List.append_eq_nil_iff] at clean
    refine ⟨_, same, .of_rows (fits.depicted (by decide) ?_) untagged⟩
    have present := @fits.exists_section
    exact required_depicts (fun _ _ => depicts_targets) (present (by decide)) clean.1
      |>.append
        (required_depicts (fun part _ => depicts_clauses part) (present (by decide)) clean.2)
  · simp at clean

theorem depicts_provisions (part : Section) (clean : (provisions part).problems = [])
    (named : part.name = "providing") : Row.Depicts (provisions part).value.row part := by
  simp only [provisions, Review.problems_bind, Review.problems_pure, List.append_nil,
    List.append_eq_nil_iff] at clean
  exact depicts_collected reads_provision clean.1 clean.2 named

/-! ## Entries -/

/-- The shape of what is read from groups: a block on the page that depicts the group. -/
def ReadsAsBlock {α : Type} (block : α → Block) (read : Group → Review Fault (Option α)) : Prop :=
  ∀ group, (read group).problems = [] →
    ∃ found, (read group).value = some found ∧ Block.Depicts (block found) group

theorem requiredId_clean (clean : (requiredId group).problems = []) :
    optionalId group = some (requiredId group).value := by
  unfold requiredId at clean ⊢
  unfold optionalId
  split at clean
  · next token id =>
    rw [id]
    rfl
  · simp at clean

theorem Block.Depicts.of_requiredId {rows : List Row} (depicted : RowsDepict rows group.sections)
    (clean : (requiredId group).problems = []) :
    Block.Depicts (.mk (some (requiredId group).value) rows) group := by
  have whole := Block.Depicts.of_rows depicted
  rwa [requiredId_clean clean] at whole

theorem Block.Depicts.of_noId {rows : List Row} (depicted : RowsDepict rows group.sections)
    (untagged : (noId group).problems = []) : Block.Depicts (.mk none rows) group := by
  have whole := Block.Depicts.of_rows depicted
  rwa [optionalId, id?_of_noId untagged] at whole

theorem singleTarget_depicts (present : ∃ part, section? group name = some part)
    (clean : (required (sectionsOf group) name singleTarget).problems = []) :
    ∃ target, (required (sectionsOf group) name singleTarget).value = some target
      ∧ RowsDepict [.mk name [.target target] []] (section? group name).toList := by
  rcases present with ⟨part, found⟩
  simp only [required, get?_sectionsOf, found] at clean ⊢
  rcases singleTarget_clean clean with ⟨target, arguments, value⟩
  exact ⟨target, value, .one (.single (name_of_section? found) arguments (.target target))⟩

theorem reads_defines : ReadsAsBlock Defines.block defines := by
  intro group clean
  simp only [defines, Review.problems_bind, Review.value_bind, List.append_eq_nil_iff] at clean ⊢
  rcases clean with ⟨tagged, clean⟩
  rcases shaped_clean clean with ⟨fits, clean, same⟩
  simp only [Review.problems_bind, Review.problems_pure, List.append_nil,
    List.append_eq_nil_iff] at clean
  rcases clean with
    ⟨target, given, when, suchThat, means, satisfying, expressing, providing, aliases, written,
     called, metadata⟩
  rcases singleTarget_depicts (fits.exists_section (by decide)) target with
    ⟨found, value, introduced⟩
  simp only [Review.value_bind, Review.value_pure, value, Option.map_some] at same
  refine ⟨_, same, .of_requiredId (fits.depicted (by decide) ?_) tagged⟩
  exact introduced
    |>.append (whenPresent_depicts (fun _ _ => depicts_targets) given)
    |>.append (whenPresent_clauses_depicts when)
    |>.append (whenPresent_clauses_depicts suchThat)
    |>.append (whenPresent_clauses_depicts means)
    |>.append (whenPresent_clauses_depicts satisfying)
    |>.append (whenPresent_clauses_depicts expressing)
    |>.append (whenPresent_depicts (fun part _ => depicts_provisions part) providing)
    |>.append (whenPresent_clauses_depicts aliases)
    |>.append (whenPresent_depicts (fun _ _ => depicts_texts) written)
    |>.append (whenPresent_depicts (fun _ _ => depicts_texts) called)
    |>.append (whenPresent_depicts (fun part _ => depicts_metadata part) metadata)

theorem reads_states : ReadsAsBlock States.block states := by
  intro group clean
  simp only [states, Review.problems_bind, Review.value_bind, List.append_eq_nil_iff] at clean ⊢
  rcases clean with ⟨tagged, clean⟩
  rcases shaped_clean clean with ⟨fits, clean, same⟩
  simp only [Review.problems_bind, Review.problems_pure, List.append_nil,
    List.append_eq_nil_iff] at clean
  rcases clean with ⟨heading, given, when, suchThat, that, aliases, written, called, metadata⟩
  refine ⟨_, same, .of_requiredId (fits.depicted (by decide) ?_) tagged⟩
  exact required_bare_depicts (fits.exists_section (by decide)) heading
    |>.append (whenPresent_depicts (fun _ _ => depicts_targets) given)
    |>.append (whenPresent_clauses_depicts when)
    |>.append (whenPresent_clauses_depicts suchThat)
    |>.append (required_depicts (fun part _ => depicts_clauses part)
      (fits.exists_section (by decide)) that)
    |>.append (whenPresent_clauses_depicts aliases)
    |>.append (whenPresent_depicts (fun _ _ => depicts_texts) written)
    |>.append (whenPresent_depicts (fun _ _ => depicts_texts) called)
    |>.append (whenPresent_depicts (fun part _ => depicts_metadata part) metadata)

theorem reads_definition : ReadsAsBlock Definition.block definition := by
  intro group clean
  unfold definition at clean ⊢
  split at clean
  · simp only [Review.problems_bind, Review.problems_pure, List.append_nil] at clean
    rcases reads_defines group clean with ⟨found, value, depicted⟩
    exact ⟨.defines found, by simp [value], depicted⟩
  · simp only [Review.problems_bind, Review.problems_pure, List.append_nil] at clean
    rcases reads_states group clean with ⟨found, value, depicted⟩
    exact ⟨.states found, by simp [value], depicted⟩
  · simp at clean

theorem reads_result (kind : ResultKind) : ReadsAsBlock Result.block (result kind) := by
  intro group clean
  unfold result at clean ⊢
  rcases shaped_clean clean with ⟨fits, clean, same⟩
  simp only [Review.problems_bind, Review.problems_pure, List.append_nil,
    List.append_eq_nil_iff] at clean
  rcases clean with
    ⟨names, given, setting, hypotheses, equivalents, conclusions, aliases, proof, metadata⟩
  refine ⟨_, same, .of_rows ?_⟩
  have start := required_depicts (fun _ _ => depicts_texts)
      (fits.exists_section (by cases kind <;> decide)) names
    |>.append (whenPresent_depicts (fun _ _ => depicts_targets) given)
    |>.append (whenPresent_clauses_depicts setting)
    |>.append (whenPresent_clauses_depicts hypotheses)
    |>.append (whenPresent_clauses_depicts equivalents)
    |>.append (required_depicts (fun part _ => depicts_clauses part)
      (fits.exists_section (by cases kind <;> decide)) conclusions)
    |>.append (whenPresent_clauses_depicts aliases)
  have last := whenPresent_depicts (fun part _ => depicts_metadata part) metadata
  by_cases proven : kind = .theorem_
  · subst proven
    exact fits.depicted (by decide) (start
      |>.append (whenPresent_clauses_depicts proof)
      |>.append last)
  · -- Nothing reports a proof here, but a group that fits has no section for it.
    have absent : section? group "Proof" = none := by
      apply fits.section?_eq_none
      cases kind with
      | theorem_ => exact absurd rfl proven
      | axiomatic | conjecture => decide
    have noProof :
        RowsDepict (rowsIn "Proof" (whenPresent (sectionsOf group) "Proof" clauses).value) [] := by
      rw [whenPresent, get?_sectionsOf, absent]
      exact .none
    have whole := start.append noProof
    rw [List.append_nil] at whole
    cases kind with
    | theorem_ => exact absurd rfl proven
    | axiomatic => exact fits.depicted (by decide) (whole.append last)
    | conjecture => exact fits.depicted (by decide) (whole.append last)

theorem foundation_depicts (clean : (foundation group).problems = []) :
    ∃ found, (foundation group).value = some found ∧ Block.Depicts found.block group := by
  simp only [foundation, Review.problems_bind, Review.value_bind, List.append_eq_nil_iff] at clean ⊢
  rcases clean with ⟨untagged, clean⟩
  rcases shaped_clean clean with ⟨fits, clean, same⟩
  rw [same]
  obtain ⟨part, found⟩ : ∃ part, section? group "Foundation" = some part :=
    fits.exists_section (by decide)
  simp only [required, get?_sectionsOf, found, Review.problems_bind, Review.value_bind,
    List.append_eq_nil_iff] at clean ⊢
  rcases singleArgument_clean clean.1 with ⟨argument, arguments, value⟩
  simp only [value, Review.problems_bind, Review.problems_pure, Review.value_bind,
    Review.value_pure, List.append_nil, List.append_eq_nil_iff] at clean ⊢
  rcases clean with ⟨-, isGroup, inner, metadata⟩
  cases argument with
  | target leaf => simp [groupsOf] at isGroup
  | group defined =>
      simp only [groupsOf, collect, Review.problems_bind, Review.problems_pure, Review.value_bind,
        Review.value_pure, List.append_nil] at inner ⊢
      rcases reads_definition defined inner with ⟨definition, value, depicted⟩
      refine ⟨.foundation definition _ _, by rw [value]; rfl,
        .of_noId (fits.depicted (by decide) ?_) untagged⟩
      have row : Row.Depicts (.mk "Foundation" [] [.block definition.block]) part := by
        refine .beneath (name_of_section? found) ?_
        rw [arguments]
        exact .some (.block depicted) .none
      exact row.under found
        |>.append (whenPresent_depicts (fun part _ => depicts_metadata part) metadata)

theorem mutually_depicts (clean : (mutually group).problems = []) :
    ∃ found, (mutually group).value = some found ∧ Block.Depicts found.block group := by
  simp only [mutually, Review.problems_bind, Review.value_bind, List.append_eq_nil_iff] at clean ⊢
  rcases clean with ⟨untagged, clean⟩
  rcases shaped_clean clean with ⟨fits, clean, same⟩
  rw [same]
  obtain ⟨part, found⟩ : ∃ part, section? group "Mutually" = some part :=
    fits.exists_section (by decide)
  simp only [required, get?_sectionsOf, found, Review.problems_bind, Review.problems_pure,
    Review.value_bind, Review.value_pure, List.append_nil, List.append_eq_nil_iff] at clean ⊢
  rcases clean with ⟨⟨-, inner⟩, collected, metadata⟩
  refine ⟨_, rfl, .of_noId (fits.depicted (by decide) ?_) untagged⟩
  have each : ReadsAs (fun found : Definition => Item.block found.block) definition := by
    intro inner clean
    rcases reads_definition inner clean with ⟨found, value, depicted⟩
    exact ⟨found, value, .block depicted⟩
  have row := depicts_collected each inner collected (name_of_section? found)
  exact row.under found
    |>.append (whenPresent_depicts (fun part _ => depicts_metadata part) metadata)

theorem topic_depicts (clean : (topic group).problems = []) :
    ∃ found, (topic group).value = some found ∧ Block.Depicts (Entry.topic found).block group := by
  simp only [topic, Review.problems_bind, Review.value_bind, List.append_eq_nil_iff] at clean ⊢
  rcases clean with ⟨tagged, clean⟩
  rcases shaped_clean clean with ⟨fits, clean, same⟩
  simp only [Review.problems_bind, Review.problems_pure, List.append_nil,
    List.append_eq_nil_iff] at clean
  rcases clean with ⟨names, content, metadata⟩
  refine ⟨_, same, .of_requiredId (fits.depicted (by decide) ?_) tagged⟩
  exact required_depicts (fun _ _ => depicts_texts) (fits.exists_section (by decide)) names
    |>.append (required_depicts (fun _ _ => depicts_text) (fits.exists_section (by decide)) content)
    |>.append (whenPresent_depicts (fun part _ => depicts_metadata part) metadata)

theorem resource_depicts (clean : (resource group).problems = []) :
    ∃ found, (resource group).value = some found
      ∧ Block.Depicts (Entry.resource found).block group := by
  simp only [resource, Review.problems_bind, Review.value_bind, List.append_eq_nil_iff] at clean ⊢
  rcases clean with ⟨tagged, clean⟩
  rcases shaped_clean clean with ⟨fits, clean, same⟩
  simp only [Review.problems_bind, Review.problems_pure, List.append_nil,
    List.append_eq_nil_iff] at clean
  rcases clean with ⟨inner, fields, metadata⟩
  refine ⟨_, same, .of_requiredId (fits.depicted (by decide) ?_) tagged⟩
  exact required_collected_depicts reads_field (fits.exists_section (by decide)) inner fields
    |>.append (whenPresent_depicts (fun part _ => depicts_metadata part) metadata)

/-- A group that is read without a problem is read as an entry that depicts it. -/
theorem reads_entry : ReadsAsBlock Entry.block entry := by
  intro group clean
  unfold entry at clean ⊢
  split at clean
  case h_8 => exact foundation_depicts clean
  case h_9 => exact mutually_depicts clean
  case h_10 => simp at clean
  all_goals simp only [Review.problems_bind, Review.problems_pure, List.append_nil] at clean
  case h_1 =>
    rcases reads_defines group clean with ⟨found, value, depicted⟩
    exact ⟨.definition (.defines found), by simp [value], depicted⟩
  case h_2 =>
    rcases reads_states group clean with ⟨found, value, depicted⟩
    exact ⟨.definition (.states found), by simp [value], depicted⟩
  case h_3 | h_4 | h_5 =>
    rcases reads_result _ group clean with ⟨found, value, depicted⟩
    exact ⟨.result found, by simp [value], depicted⟩
  case h_6 =>
    rcases topic_depicts clean with ⟨found, value, depicted⟩
    exact ⟨.topic found, by simp [value], depicted⟩
  case h_7 =>
    rcases resource_depicts clean with ⟨found, value, depicted⟩
    exact ⟨.resource found, by simp [value], depicted⟩

end Treatise.Document
