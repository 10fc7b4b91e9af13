import Treatise.Proofs.Corpus.History

/-!
# The hierarchy of types after edits

The edges of the hierarchy are kept under the signature that they leave. A file that is removed or
replaced takes all edges with it that leave a signature it defines, also those that other files put
there. A definition *stands* as long as this has not happened to its signature since its file was
added.

Main statement: after any edits the hierarchy is that of the definitions that stand, in the order in
which the surviving files were last added. If no edge was taken from a file that survives, then it
is the hierarchy of a new corpus of these files.
-/

namespace Treatise.Corpus

open Document (Defines)

/-! ## Edges of one signature -/

namespace Hierarchy

variable {hierarchy : Hierarchy}

/-- The edges that leave a signature: the one to its parent, and those to what it is viewable as. -/
structure Edges where
  parent? : Option String
  views : List String

/-- No edges at all. -/
def Edges.none : Edges := ⟨.none, []⟩

/-- Adds the edges of a definition. Its parent counts before the one that is there. -/
def Edges.extend (edges : Edges) (defines : Defines) : Edges where
  parent? := (parentOf? defines).or edges.parent?
  views := (viewsOf defines).foldl (fun found target => insertName target found) edges.views

def edges (hierarchy : Hierarchy) (signature : String) : Edges :=
  ⟨hierarchy.parent? signature, hierarchy.viewsFrom signature⟩

/-- A hierarchy in the form in which its edges determine it. -/
structure Tidy (hierarchy : Hierarchy) : Prop where
  parents : hierarchy.parents.Sorted
  views : hierarchy.views.Filled

theorem tidy_empty : empty.Tidy :=
  ⟨Table.sorted_empty, Table.filled_empty⟩

theorem Tidy.ext {first second : Hierarchy} (tidy : first.Tidy) (tidy' : second.Tidy)
    (agree : ∀ signature, first.edges signature = second.edges signature) : first = second := by
  have parents : first.parents = second.parents :=
    tidy.parents.ext tidy'.parents fun signature => congrArg Edges.parent? (agree signature)
  have views : first.views = second.views :=
    tidy.views.ext tidy'.views fun signature => congrArg Edges.views (agree signature)
  cases first
  cases second
  simp only [Hierarchy.mk.injEq]
  exact ⟨parents, views⟩

theorem foldl_insertName_ne_nil {targets names : List String} (nonempty : targets ≠ []) :
    targets.foldl (fun found target => insertName target found) names ≠ [] := by
  rcases List.eq_nil_or_concat targets with rfl | ⟨front, last, rfl⟩
  · exact absurd rfl nonempty
  · rw [List.concat_eq_append, List.foldl_append]
    exact List.ne_nil_of_mem (mem_insertName.mpr (.inl rfl))

theorem Tidy.add (tidy : hierarchy.Tidy) (defines : Defines) : (hierarchy.add defines).Tidy := by
  unfold Hierarchy.add
  split
  · exact tidy
  · next signature _ =>
    refine ⟨?_, ?_⟩
    · dsimp only
      split
      · exact tidy.parents.insert _ _
      · exact tidy.parents
    · dsimp only
      split
      · exact tidy.views
      · next nonempty => exact tidy.views.insert _ (foldl_insertName_ne_nil nonempty)

theorem Tidy.remove (tidy : hierarchy.Tidy) (defines : Defines) :
    (hierarchy.remove defines).Tidy := by
  unfold Hierarchy.remove
  split
  · exact tidy
  · exact ⟨tidy.parents.erase _, tidy.views.erase _⟩

theorem edges_add (hierarchy : Hierarchy) (defines : Defines) (signature : String) :
    (hierarchy.add defines).edges signature = if defines.id.signature? = some signature
      then (hierarchy.edges signature).extend defines else hierarchy.edges signature := by
  unfold Hierarchy.add
  split
  · next unsigned => simp [unsigned]
  · next form signed =>
    by_cases same : signature = form
    · subst same
      cases parent : parentOf? defines <;> cases views : viewsOf defines <;>
        simp [signed, edges, Edges.extend, parent?, viewsFrom, parent, views]
    · cases parent : parentOf? defines <;> cases views : viewsOf defines <;>
        simp [signed, edges, parent?, viewsFrom, Table.find?_insert, same, Ne.symm same]

theorem edges_remove (hierarchy : Hierarchy) (defines : Defines) (signature : String) :
    (hierarchy.remove defines).edges signature = if defines.id.signature? = some signature
      then .none else hierarchy.edges signature := by
  unfold Hierarchy.remove
  split
  · next unsigned => simp [unsigned]
  · next form signed =>
    by_cases same : signature = form
    · simp [signed, edges, Edges.none, parent?, viewsFrom, Table.find?_erase, same]
    · simp [signed, edges, parent?, viewsFrom, Table.find?_erase, same, Ne.symm same]

theorem addAll_spec (tidy : hierarchy.Tidy) (definitions : List Defines) :
    (definitions.foldl add hierarchy).Tidy ∧ ∀ signature,
      (definitions.foldl add hierarchy).edges signature
        = (definitions.filter fun defines => defines.id.signature? = some signature).foldl
          Edges.extend (hierarchy.edges signature) := by
  induction definitions generalizing hierarchy with
  | nil => exact ⟨tidy, fun _ => rfl⟩
  | cons first rest ih =>
      rcases ih (tidy.add first) with ⟨tidyAll, edges⟩
      refine ⟨tidyAll, fun signature => ?_⟩
      rw [List.foldl_cons, edges, edges_add]
      by_cases signed : first.id.signature? = some signature <;> simp [signed]

theorem removeAll_spec (tidy : hierarchy.Tidy) (definitions : List Defines) :
    (definitions.foldl remove hierarchy).Tidy ∧ ∀ signature,
      (definitions.foldl remove hierarchy).edges signature
        = if ∃ defines ∈ definitions, defines.id.signature? = some signature then .none
          else hierarchy.edges signature := by
  induction definitions generalizing hierarchy with
  | nil => exact ⟨tidy, fun _ => by simp⟩
  | cons first rest ih =>
      rcases ih (tidy.remove first) with ⟨tidyAll, edges⟩
      refine ⟨tidyAll, fun signature => ?_⟩
      rw [List.foldl_cons, edges, edges_remove]
      by_cases signed : first.id.signature? = some signature <;> simp [signed]

/-- A definition without edges changes nothing. -/
theorem add_of_bare {defines : Defines} (noParent : parentOf? defines = none)
    (noViews : viewsOf defines = []) : hierarchy.add defines = hierarchy := by
  unfold Hierarchy.add
  split
  · rfl
  · simp [noParent, noViews]

/-- The hierarchy of definitions that are added in order. -/
def ofDefinitions (definitions : List Defines) : Hierarchy :=
  definitions.foldl add empty

end Hierarchy

open Hierarchy
open scoped Classical

/-! ## Definitions that stand -/

/-- A file holds a definition of a signature. -/
def Source.HasDefinition (source : Source) (signature : String) : Prop :=
  ∃ defines ∈ definesIn source, defines.id.signature? = some signature

/-- An edit takes away a file that defines a signature, or puts another text in its place. -/
def Drops (edits : List Edit) (edit : Edit) (signature : String) : Prop :=
  ∃ dropped ∈ survivors edits, dropped.path = edit.path ∧ dropped.HasDefinition signature

/-- A file that survives edits has lost its edges from a signature: while the file was there, an
edit of another file dropped a definition of the signature. -/
inductive Disturbed (source : Source) (signature : String) : List Edit → Prop
  | now {edits : List Edit} {edit : Edit} (present : source ∈ survivors edits)
    (other : source.path ≠ edit.path) (drops : Drops edits edit signature) :
    Disturbed source signature (edits ++ [edit])
  | before {edits : List Edit} {edit : Edit} (disturbed : Disturbed source signature edits)
    (other : source.path ≠ edit.path) : Disturbed source signature (edits ++ [edit])

section Steps

variable {source : Source} {signature : String} {edits : List Edit} {edit : Edit}

theorem disturbed_concat_iff : Disturbed source signature (edits ++ [edit])
    ↔ source.path ≠ edit.path ∧ (Disturbed source signature edits
      ∨ source ∈ survivors edits ∧ Drops edits edit signature) := by
  constructor
  · generalize whole : edits ++ [edit] = all
    rintro (⟨present, other, drops⟩ | ⟨disturbed, other⟩)
    · rcases List.append_inj' whole rfl with ⟨rfl, same⟩
      cases same
      exact ⟨other, .inr ⟨present, drops⟩⟩
    · rcases List.append_inj' whole rfl with ⟨rfl, same⟩
      cases same
      exact ⟨other, .inl disturbed⟩
  · rintro ⟨other, disturbed | ⟨present, drops⟩⟩
    · exact .before disturbed other
    · exact .now present other drops

/-- The definitions of a signature in a file, unless its edges were taken away. -/
noncomputable def standingIn (edits : List Edit) (signature : String) (source : Source) :
    List Defines :=
  if Disturbed source signature edits then []
  else (definesIn source).filter fun defines => defines.id.signature? = some signature

/-- A file that was just added is not disturbed. -/
theorem standingIn_added (edits : List Edit) (source : Source) (signature : String) :
    standingIn (edits ++ [.add source]) signature source
      = (definesIn source).filter fun defines => defines.id.signature? = some signature := by
  rw [standingIn, if_neg]
  intro disturbed
  exact (disturbed_concat_iff.mp disturbed).1 rfl

/-- An edit that drops a definition of a signature takes away all of its edges. -/
theorem flatMap_standingIn_without : (without edit.path (survivors edits)).flatMap
      (standingIn (edits ++ [edit]) signature)
    = if Drops edits edit signature then []
      else (survivors edits).flatMap (standingIn edits signature) := by
  have others : ∀ source ∈ without edit.path (survivors edits),
      source ∈ survivors edits ∧ source.path ≠ edit.path := by
    intro source member
    simpa [without] using member
  split_ifs with drops
  · refine List.flatMap_eq_nil_iff.mpr fun source member => ?_
    rcases others source member with ⟨present, other⟩
    rw [standingIn, if_pos (.now present other drops)]
  · have bare : ∀ source ∈ survivors edits, source.path = edit.path →
        standingIn edits signature source = [] := by
      intro source member same
      rw [standingIn]
      split_ifs
      · rfl
      · refine List.filter_eq_nil_iff.mpr fun defines definesMem => ?_
        simpa using fun signed => drops ⟨source, member, same, defines, definesMem, signed⟩
    rw [← flatMap_without_of_nil bare]
    refine List.flatMap_congr fun source member => ?_
    rcases others source member with ⟨-, other⟩
    simp only [standingIn, disturbed_concat_iff, drops, and_false, or_false, other, ne_eq,
      not_false_eq_true, true_and]

end Steps

/-! ## The hierarchy of a corpus -/

theorem definesIn_of_unread {source : Source} (unread : source.document? = none) :
    definesIn source = [] := by
  simp [definesIn, Source.entries_eq_nil unread]

theorem types_index (corpus : Corpus) (source : Source) :
    (corpus.index source).types = (definesIn source).foldl Hierarchy.add corpus.types := by
  unfold index
  split
  · next unread => rw [definesIn_of_unread unread, List.foldl_nil]
  · rfl

theorem types_unindex (corpus : Corpus) (source : Source) :
    (corpus.unindex source).types = (definesIn source).foldl Hierarchy.remove corpus.types := by
  unfold unindex
  split
  · next unread => rw [definesIn_of_unread unread, List.foldl_nil]
  · rfl

theorem types_add (corpus : Corpus) (source : Source) : (corpus.add source).types
    = (definesIn source).foldl Hierarchy.add (corpus.unindexPath source.path).types :=
  types_index _ source

theorem types_remove (corpus : Corpus) (path : String) :
    (corpus.remove path).types = (corpus.unindexPath path).types := by
  unfold Corpus.remove
  split
  · rfl
  · next absent =>
    have missing : corpus.files.find? path = none := by simpa [Table.contains] using absent
    rw [unindexPath, missing]

section Edits

variable {corpus : Corpus} {options : Options} {edits : List Edit}

theorem Holds.types_unindexPath (holds : Holds corpus options (survivors edits))
    (tidy : corpus.types.Tidy) (edit : Edit) :
    (corpus.unindexPath edit.path).types.Tidy ∧ ∀ signature,
      (corpus.unindexPath edit.path).types.edges signature
        = if Drops edits edit signature then .none else corpus.types.edges signature := by
  unfold Corpus.unindexPath
  split
  · next source found =>
    rw [holds.files, find?_path_eq_some_iff (distinct_survivors edits)] at found
    rcases found with ⟨member, same⟩
    rcases removeAll_spec tidy (definesIn source) with ⟨tidyAll, edges⟩
    rw [types_unindex]
    refine ⟨tidyAll, fun signature => ?_⟩
    have drops : Drops edits edit signature ↔ source.HasDefinition signature := by
      refine ⟨?_, fun defined => ⟨source, member, same, defined⟩⟩
      rintro ⟨dropped, droppedMem, samePath, defined⟩
      rwa [← eq_of_path_eq (distinct_survivors edits) droppedMem member (samePath.trans same.symm)]
    rw [edges]
    simp only [drops, Source.HasDefinition]
  · next absent =>
    refine ⟨tidy, fun signature => ?_⟩
    rw [holds.files] at absent
    rw [if_neg]
    rintro ⟨dropped, droppedMem, samePath, -⟩
    simpa [samePath] using List.find?_eq_none.mp absent dropped droppedMem

/-- After any edits the edges of a signature are those of its definitions that stand. -/
theorem edges_afterEdits (options : Options) (edits : List Edit) :
    (afterEdits options edits).types.Tidy ∧ ∀ signature,
      (afterEdits options edits).types.edges signature
        = ((survivors edits).flatMap (standingIn edits signature)).foldl Edges.extend .none := by
  induction edits using List.reverseRecOn with
  | nil => exact ⟨tidy_empty, fun _ => rfl⟩
  | append_singleton edits edit ih =>
      rcases ih with ⟨tidy, edges⟩
      have holds := holds_afterEdits options edits
      have unindexed := holds.types_unindexPath tidy edit
      have left : ∀ signature,
          ((afterEdits options edits).unindexPath edit.path).types.edges signature
            = ((without edit.path (survivors edits)).flatMap
              (standingIn (edits ++ [edit]) signature)).foldl Edges.extend .none := by
        intro signature
        rw [unindexed.2, flatMap_standingIn_without, edges]
        split_ifs <;> rfl
      have step : afterEdits options (edits ++ [edit])
          = (afterEdits options edits).edited edit := by
        rw [afterEdits, List.foldl_append]
        rfl
      rw [step]
      cases edit with
      | remove path =>
          rw [survivors_append_remove, Corpus.edited, types_remove]
          exact ⟨unindexed.1, left⟩
      | add source =>
          rw [survivors_append_add, Corpus.edited, types_add]
          rcases addAll_spec unindexed.1 (definesIn source) with ⟨tidyAll, added⟩
          refine ⟨tidyAll, fun signature => ?_⟩
          refine (added signature).trans ?_
          rw [left, List.flatMap_append, List.foldl_append, List.flatMap_singleton,
            standingIn_added]
          rfl

end Edits

/-- The hierarchy of a new corpus holds the edges of all definitions. -/
theorem types_ofSources (options : Options) {sources : List Source} (distinct : Distinct sources) :
    (ofSources options sources).types = ofDefinitions (sources.flatMap definesIn) := by
  induction sources using List.reverseRecOn with
  | nil => rfl
  | append_singleton sources source ih =>
      have distinctFront : Distinct sources :=
        distinct.sublist ((List.sublist_append_left _ _).map _)
      have step : ofSources options (sources ++ [source])
          = (ofSources options sources).add source := by
        rw [ofSources, List.foldl_append]
        rfl
      have absent : (ofSources options sources).files.find? source.path = none := by
        rw [(holds_ofSources options distinctFront).files, List.find?_eq_none]
        intro other member
        simp only [Distinct, List.map_append, List.nodup_append] at distinct
        simpa using distinct.2.2 _ (List.mem_map_of_mem member) source.path (by simp)
      rw [step, types_add, unindexPath, absent, ih distinctFront]
      simp [ofDefinitions, List.foldl_append]

/-- The definitions of the surviving files, except those whose edges were taken away. -/
noncomputable def standing (edits : List Edit) : List Defines :=
  (survivors edits).flatMap fun source => (definesIn source).filter fun defines =>
    ∀ signature ∈ defines.id.signature?, ¬ Disturbed source signature edits

theorem filter_standing (edits : List Edit) (signature : String) :
    (standing edits).filter (fun defines => defines.id.signature? = some signature)
      = (survivors edits).flatMap (standingIn edits signature) := by
  rw [standing, List.filter_flatMap]
  refine List.flatMap_congr fun source _ => ?_
  rw [List.filter_filter, standingIn]
  split_ifs with disturbed
  · refine List.filter_eq_nil_iff.mpr fun defines _ => ?_
    simp only [Bool.and_eq_true, decide_eq_true_eq, not_and]
    intro signed kept
    exact kept signature signed disturbed
  · refine List.filter_congr fun defines _ => ?_
    rw [Bool.and_eq_left_iff_imp]
    simp only [decide_eq_true_eq]
    intro signed other same
    cases signed.symm.trans same
    exact disturbed

theorem types_eq_standing (options : Options) (edits : List Edit) :
    (afterEdits options edits).types = ofDefinitions (standing edits) := by
  rcases edges_afterEdits options edits with ⟨tidy, edges⟩
  rcases addAll_spec tidy_empty (standing edits) with ⟨tidyAll, added⟩
  refine tidy.ext tidyAll fun signature => ?_
  rw [edges, ← filter_standing]
  exact (added signature).symm

/-- Definitions without edges may be left out. -/
theorem addAll_filter {keep : Defines → Bool} {definitions : List Defines} (hierarchy : Hierarchy)
    (bare : ∀ defines ∈ definitions, keep defines = false →
      parentOf? defines = none ∧ viewsOf defines = []) :
    (definitions.filter keep).foldl Hierarchy.add hierarchy
      = definitions.foldl Hierarchy.add hierarchy := by
  induction definitions generalizing hierarchy with
  | nil => rfl
  | cons first rest ih =>
      have later := fun defines member => bare defines (List.mem_cons_of_mem first member)
      cases kept : keep first with
      | true => simp [kept, ih _ later]
      | false =>
          rcases bare first List.mem_cons_self kept with ⟨noParent, noViews⟩
          simp [kept, ih _ later, add_of_bare noParent noViews]

/-- After any edits the hierarchy of types is that of the definitions in the surviving files whose
edges no other file has taken away. If only definitions without edges were hit, the hierarchy is
that of a new corpus to which the surviving files are added in the order in which they were last
added. -/
theorem types_afterEdits (options : Options) (edits : List Edit) :
    (afterEdits options edits).types = ofDefinitions (standing edits)
      ∧ ((∀ source ∈ survivors edits, ∀ defines ∈ definesIn source,
          ∀ signature ∈ defines.id.signature?, Disturbed source signature edits →
            parentOf? defines = none ∧ viewsOf defines = []) →
        (afterEdits options edits).types = (ofSources options (survivors edits)).types) := by
  refine ⟨types_eq_standing options edits, fun bare => ?_⟩
  rw [types_eq_standing, types_ofSources options (distinct_survivors edits), ofDefinitions,
    ofDefinitions, standing, List.foldl_flatMap, List.foldl_flatMap]
  refine List.foldl_ext _ _ _ fun hierarchy source member => addAll_filter hierarchy ?_
  intro defines definesMem dropped
  simp only [decide_eq_false_iff_not, not_forall, not_not] at dropped
  rcases dropped with ⟨signature, signed, disturbed⟩
  exact bare source member defines definesMem signature signed disturbed

theorem add_mem_of_mem_survivors {source : Source} {edits : List Edit}
    (present : source ∈ survivors edits) : .add source ∈ edits := by
  fun_induction survivors edits with
  | case1 => cases present
  | case2 first later replaced ih => exact List.mem_cons_of_mem _ (ih present)
  | case3 first later kept ih =>
      rcases List.mem_cons.mp present with rfl | inLater
      · exact List.mem_cons_self
      · exact List.mem_cons_of_mem _ (ih inLater)
  | case4 path later ih => exact List.mem_cons_of_mem _ (ih present)

/-- A file is disturbed only by a file under another path that defines the same signature. -/
theorem Disturbed.exists_other {source : Source} {signature : String} {edits : List Edit}
    (disturbed : Disturbed source signature edits) : ∃ other, .add other ∈ edits
      ∧ other.path ≠ source.path ∧ other.HasDefinition signature := by
  induction disturbed with
  | now _ other drops =>
      rcases drops with ⟨dropped, member, samePath, defined⟩
      exact ⟨dropped, List.mem_append_left _ (add_mem_of_mem_survivors member),
        fun same => other (same.symm.trans samePath), defined⟩
  | before _ _ ih =>
      rcases ih with ⟨other, member, differs, defined⟩
      exact ⟨other, List.mem_append_left _ member, differs, defined⟩

/-- A file that is removed takes its own edges with it and no others. -/
theorem parent_kept_after_removal :
    (afterEdits defaultOptions [.add (.read "a.math" "[\\a]\nDefines: x\nmeans: 'x is \\b'\n"),
        .add (.read "c.math" "[\\c]\nDefines: x\nmeans: 'x is \\a'\n"),
        .remove "c.math"]).types.parent? "\\a" = some "\\b"
      ∧ (afterEdits defaultOptions [.add (.read "a.math" "[\\a]\nDefines: x\nmeans: 'x is \\b'\n"),
          .add (.read "c.math" "[\\c]\nDefines: x\nmeans: 'x is \\a'\n"), .remove "c.math"]).types
        = (ofSources defaultOptions
          [.read "a.math" "[\\a]\nDefines: x\nmeans: 'x is \\b'\n"]).types := by
  let first := Source.read "a.math" "[\\a]\nDefines: x\nmeans: 'x is \\b'\n"
  let second := Source.read "c.math" "[\\c]\nDefines: x\nmeans: 'x is \\a'\n"
  have survives : survivors [.add first, .add second, .remove "c.math"] = [first] := by
    simp [survivors, first, second, Source.read]
  have own : ∀ defines ∈ definesIn first, defines.id.signature? = some "\\a" := by
    decide +kernel
  have others : ∀ defines ∈ definesIn second, defines.id.signature? = some "\\c" := by
    decide +kernel
  refine ⟨by decide +kernel, ?_⟩
  rw [← survives]
  refine (types_afterEdits defaultOptions [.add first, .add second, .remove "c.math"]).2 ?_
  intro source member defines definesMem signature signed disturbed
  rw [survives, List.mem_singleton] at member
  subst member
  rcases disturbed.exists_other with ⟨other, otherMem, differs, found, foundMem, named⟩
  have sole : other = second := by
    simp only [List.mem_cons, Edit.add.injEq, reduceCtorEq, List.not_mem_nil, or_false] at otherMem
    exact otherMem.resolve_left fun same => differs (congrArg Source.path same)
  subst sole
  have signature_eq := (own defines definesMem).symm.trans signed
  rw [← signature_eq, others found foundMem] at named
  simp at named

/-- A file that is removed takes the parent of a signature with it which another file gave to it. -/
theorem shared_parent_lost :
    (afterEdits defaultOptions [
        .add (.read "a.math" "[\\a]\nDefines: x\nmeans: 'x is \\b'\n"),
        .add (.read "b.math" "[\\a]\nDefines: x\nmeans: 'x is \\c'\n"),
        .remove "b.math"]).types.parent? "\\a" = none
      ∧ (ofSources defaultOptions (survivors [
        .add (.read "a.math" "[\\a]\nDefines: x\nmeans: 'x is \\b'\n"),
        .add (.read "b.math" "[\\a]\nDefines: x\nmeans: 'x is \\c'\n"),
        .remove "b.math"])).types.parent? "\\a" = some "\\b" := by
  decide +kernel

end Treatise.Corpus
