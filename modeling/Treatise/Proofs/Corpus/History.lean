import Mathlib.Data.List.Induction
import Treatise.Corpus.Check
import Treatise.Corpus.Render
import Treatise.Proofs.Corpus.Indexing

/-!
# Histories of a corpus

A corpus is changed by adding and removing files. Of a sequence of edits only the files that survive
count, in the order in which they were last added: `Holds` describes a corpus by such a list of
files, each edit preserves it, and what it describes is one corpus only. The hierarchy of types
stands apart, since it is not part of this description, and so do the renderings that are kept.
-/

namespace Treatise.Corpus

/-! ## Edits -/

/-- A change of the files of a corpus. -/
inductive Edit where
  /-- Adds a file, in place of the one under its path. -/
  | add (source : Source)
  /-- Removes the file under a path, if there is one. -/
  | remove (path : String)

/-- The path that an edit is about. -/
def Edit.path : Edit → String
  | add source => source.path
  | remove path => path

@[simp]
theorem Edit.path_add (source : Source) : (add source).path = source.path := rfl

@[simp]
theorem Edit.path_remove (path : String) : (remove path).path = path := rfl

def edited (corpus : Corpus) : Edit → Corpus
  | .add source => corpus.add source
  | .remove path => corpus.remove path

/-- The corpus that edits lead to from the corpus without files. -/
def afterEdits (options : Options) (edits : List Edit) : Corpus :=
  edits.foldl edited (empty options)

/-- The corpus of files that are added in order. -/
def ofSources (options : Options) (sources : List Source) : Corpus :=
  sources.foldl add (empty options)

/-- The files that are added by an edit after which no edit is about their path, in order. -/
def survivors : List Edit → List Source
  | [] => []
  | .add source :: later =>
    if later.any fun edit => edit.path = source.path then survivors later
    else source :: survivors later
  | .remove _ :: later => survivors later

theorem survivors_append_add (edits : List Edit) (source : Source) :
    survivors (edits ++ [.add source]) = without source.path (survivors edits) ++ [source] := by
  induction edits with
  | nil => simp [survivors, without]
  | cons edit later ih =>
      cases edit with
      | remove path => simpa [survivors] using ih
      | add first =>
          by_cases replaced : later.any fun edit => edit.path = first.path
          · simp [survivors, replaced, ih]
          · by_cases same : source.path = first.path
            · simp [survivors, replaced, ih, same, without]
            · simp [survivors, replaced, ih, same, Ne.symm same, without]

theorem survivors_append_remove (edits : List Edit) (path : String) :
    survivors (edits ++ [.remove path]) = without path (survivors edits) := by
  induction edits with
  | nil => rfl
  | cons edit later ih =>
      cases edit with
      | remove other => simpa [survivors] using ih
      | add first =>
          by_cases replaced : later.any fun edit => edit.path = first.path
          · simp [survivors, replaced, ih]
          · by_cases same : path = first.path
            · subst same
              simp [survivors, replaced, ih, without]
            · simp [survivors, replaced, ih, same, Ne.symm same, without]

theorem Distinct.without {sources : List Source} (distinct : Distinct sources) (path : String) :
    Distinct (without path sources) :=
  distinct.sublist (List.filter_sublist.map _)

theorem distinct_without_append {sources : List Source} (distinct : Distinct sources)
    (source : Source) : Distinct (Corpus.without source.path sources ++ [source]) := by
  have fresh : source.path ∉ (Corpus.without source.path sources).map Source.path := by
    simp [Corpus.without]
  simpa [Distinct] using List.nodup_append.mpr
    ⟨distinct.without source.path, List.nodup_singleton source.path, by
      rintro path member other sole rfl
      exact fresh (List.mem_singleton.mp sole ▸ member)⟩

theorem distinct_survivors (edits : List Edit) : Distinct (survivors edits) := by
  induction edits using List.reverseRecOn with
  | nil => exact List.nodup_nil
  | append_singleton edits edit ih =>
      cases edit with
      | add source =>
          rw [survivors_append_add]
          exact distinct_without_append ih source
      | remove path =>
          rw [survivors_append_remove]
          exact ih.without path

theorem survivors_map_add {sources : List Source} (distinct : Distinct sources) :
    survivors (sources.map .add) = sources := by
  induction sources with
  | nil => rfl
  | cons first rest ih =>
      rcases List.nodup_cons.mp distinct with ⟨unused, distinctRest⟩
      have kept : (rest.map Edit.add).any (fun edit => edit.path = first.path) = false := by
        refine List.any_eq_false.mpr fun edit member replaces => ?_
        rcases List.mem_map.mp member with ⟨source, sourceMem, rfl⟩
        have same : source.path = first.path := of_decide_eq_true replaces
        exact unused (same ▸ List.mem_map_of_mem sourceMem)
      simp only [List.map_cons, survivors, kept, Bool.false_eq_true, if_false, ih distinctRest]

/-! ## What a corpus holds -/

/-- A corpus is made of the files of a list, as far as its indexes and its engine are concerned. -/
structure Holds (corpus : Corpus) (options : Options) (sources : List Source) : Prop where
  options : corpus.options = options
  sorted : corpus.files.Sorted
  files : ∀ path, corpus.files.find? path = sources.find? fun source => source.path = path
  indexed : Indexed corpus sources
  engine : corpus.engine = corpus.freshEngine

theorem holds_empty (options : Options) : Holds (empty options) options [] where
  options := rfl
  sorted := Table.sorted_empty
  files := by simp [empty]
  indexed := indexed_empty options
  engine := by simp [freshEngine, entries, sortedFiles, sortByPath, Table.values, empty,
    Table.empty]

@[simp]
theorem files_index (corpus : Corpus) (source : Source) :
    (corpus.index source).files = corpus.files := by
  unfold index
  split <;> rfl

@[simp]
theorem options_index (corpus : Corpus) (source : Source) :
    (corpus.index source).options = corpus.options := by
  unfold index
  split <;> rfl

@[simp]
theorem files_unindexPath (corpus : Corpus) (path : String) :
    (corpus.unindexPath path).files = corpus.files := by
  unfold unindexPath unindex
  split
  · split <;> rfl
  · rfl

@[simp]
theorem options_unindexPath (corpus : Corpus) (path : String) :
    (corpus.unindexPath path).options = corpus.options := by
  unfold unindexPath unindex
  split
  · split <;> rfl
  · rfl

/-- The indexes do not depend on the files, the engine and the renderings. -/
theorem Indexed.refresh {corpus : Corpus} {sources : List Source} (indexed : Indexed corpus sources)
    (files : Table Source) : Indexed { corpus with files := files }.refresh sources :=
  ⟨indexed.filled, indexed.references, indexed.normalized, indexed.tidyWords, indexed.words,
    indexed.tidyForms, indexed.forms, indexed.neat, indexed.search⟩

theorem Holds.unindexPath {corpus : Corpus} {options : Options} {sources : List Source}
    (holds : Holds corpus options sources) (distinct : Distinct sources) (path : String) :
    Indexed (corpus.unindexPath path) (without path sources) := by
  unfold Corpus.unindexPath
  rw [holds.files]
  split
  · next source found =>
    have same : source.path = path := by simpa using List.find?_some found
    subst same
    exact holds.indexed.unindex distinct (List.mem_of_find?_eq_some found)
  · next absent =>
    have kept : without path sources = sources := List.filter_eq_self.mpr fun source member => by
      simpa using List.find?_eq_none.mp absent source member
    rw [kept]
    exact holds.indexed

theorem find?_without (path other : String) (sources : List Source) :
    (without path sources).find? (fun source => source.path = other)
      = if other = path then none else sources.find? fun source => source.path = other := by
  rw [without, List.find?_filter]
  split_ifs with same
  · rw [List.find?_eq_none]
    intro source _
    simp [same]
  · congr 1
    funext source
    by_cases here : source.path = other <;> simp [here, same]

theorem Holds.add {corpus : Corpus} {options : Options} {sources : List Source}
    (holds : Holds corpus options sources) (distinct : Distinct sources) (source : Source) :
    Holds (corpus.add source) options (without source.path sources ++ [source]) where
  options := by simpa [Corpus.add, refresh] using holds.options
  sorted := by simpa [Corpus.add, refresh] using holds.sorted.insert source.path source
  files := by
    intro path
    have inserted : (corpus.add source).files = corpus.files.insert source.path source := by
      simp [Corpus.add, refresh]
    rw [inserted, Table.find?_insert, List.find?_append, find?_without, holds.files]
    by_cases same : path = source.path
    · simp [same]
    · simp [same, Ne.symm same]
  indexed := ((holds.unindexPath distinct source.path).index source).refresh _
  engine := rfl

theorem Holds.remove {corpus : Corpus} {options : Options} {sources : List Source}
    (holds : Holds corpus options sources) (distinct : Distinct sources) (path : String) :
    Holds (corpus.remove path) options (without path sources) := by
  unfold Corpus.remove
  split
  · refine ⟨by simpa [refresh] using holds.options, ?_, ?_,
      (holds.unindexPath distinct path).refresh _, rfl⟩
    · simpa [refresh] using holds.sorted.erase path
    · intro other
      simp [refresh, Table.find?_erase, find?_without, holds.files]
  · next absent =>
    have kept : without path sources = sources := by
      refine List.filter_eq_self.mpr fun source member => ?_
      have none_ : sources.find? (fun source => source.path = path) = none := by
        simpa [Table.contains, holds.files] using absent
      simpa using List.find?_eq_none.mp none_ source member
    rw [kept]
    exact holds

/-- One more edit leaves a corpus that holds the files that survive it. -/
theorem Holds.edited {corpus : Corpus} {options : Options} {edits : List Edit}
    (holds : Holds corpus options (survivors edits)) (edit : Edit) :
    Holds (corpus.edited edit) options (survivors (edits ++ [edit])) := by
  have distinct := distinct_survivors edits
  cases edit with
  | add source =>
      rw [survivors_append_add]
      exact holds.add distinct source
  | remove path =>
      rw [survivors_append_remove]
      exact holds.remove distinct path

/-- After any edits a corpus holds the files that survive. -/
theorem holds_afterEdits (options : Options) (edits : List Edit) :
    Holds (afterEdits options edits) options (survivors edits) := by
  induction edits using List.reverseRecOn with
  | nil => exact holds_empty options
  | append_singleton edits edit ih =>
      rw [afterEdits, List.foldl_append]
      exact ih.edited edit

theorem afterEdits_map_add (options : Options) (sources : List Source) :
    afterEdits options (sources.map .add) = ofSources options sources :=
  List.foldl_map

theorem holds_ofSources (options : Options) {sources : List Source} (distinct : Distinct sources) :
    Holds (ofSources options sources) options sources := by
  simpa [afterEdits_map_add, survivors_map_add distinct] using
    holds_afterEdits options (sources.map .add)

/-- Two corpora that hold the same files differ in the hierarchy and in kept renderings only. -/
theorem Holds.agree {first second : Corpus} {options : Options} {sources : List Source}
    (holds : Holds first options sources) (holds' : Holds second options sources) :
    ∃ types renderings, second = { first with types := types, renderings := renderings } := by
  -- Tables, tries and search indexes in their normal forms are determined by what they answer.
  have files : first.files = second.files := holds.sorted.ext holds'.sorted fun path => by
    rw [holds.files, holds'.files]
  have signatures : first.signatures = second.signatures :=
    holds.indexed.filled.ext holds'.indexed.filled fun form => by
      rw [holds.indexed.references, holds'.indexed.references]
  have words : first.words = second.words :=
    holds.indexed.tidyWords.ext holds'.indexed.tidyWords fun word => by
      simpa using (holds.indexed.words (String.ofList word)).trans
        (holds'.indexed.words (String.ofList word)).symm
  have forms : first.signatureTrie = second.signatureTrie :=
    holds.indexed.tidyForms.ext holds'.indexed.tidyForms fun form => by
      simpa using (holds.indexed.forms (String.ofList form)).trans
        (holds'.indexed.forms (String.ofList form)).symm
  have search : first.search = second.search :=
    holds.indexed.neat.ext holds'.indexed.neat fun word path => by
      rw [holds.indexed.search, holds'.indexed.search]
  have engine : first.engine = second.engine := by
    rw [holds.engine, holds'.engine]
    simp only [freshEngine, entries, sortedFiles, files, holds.options, holds'.options]
  refine ⟨second.types, second.renderings, ?_⟩
  cases first
  cases second
  simp only [Corpus.mk.injEq]
  exact ⟨holds'.options.trans holds.options.symm, files.symm, signatures.symm,
    holds'.indexed.normalized.trans holds.indexed.normalized.symm, words.symm, forms.symm,
    search.symm, trivial, engine.symm, trivial⟩

/-! ## References -/

theorem mem_referencesFor {source : Source} {form : String} {reference : Reference}
    (present : reference ∈ source.referencesFor form) :
    ∃ entry, source.entries[reference.index]? = some entry
      ∧ ⟨form, reference.location⟩ ∈ entry.signatures := by
  rcases List.mem_map.mp present with ⟨⟨name, found⟩, member, rfl⟩
  rcases List.mem_filter.mp member with ⟨introduced, named⟩
  rcases List.mem_flatMap.mp introduced with ⟨placed, placedMem, introducedHere⟩
  rcases List.mem_map.mp placedMem with ⟨⟨entry, index⟩, entryMem, rfl⟩
  rcases List.mem_map.mp introducedHere with ⟨signature, signatureMem, same⟩
  cases same
  have formEq : signature.form = form := by simpa using named
  exact ⟨entry, (List.mem_zipIdx_iff_getElem? (x := (entry, index))).mp entryMem,
    formEq ▸ signatureMem⟩

/-- A reference that a corpus holds leads to an entry that introduces the form. -/
theorem Holds.resolve_reference {corpus : Corpus} {options : Options} {sources : List Source}
    (holds : Holds corpus options sources) (distinct : Distinct sources) {form : String}
    {reference : Reference} (present : reference ∈ corpus.references form) :
    ∃ entry, corpus.resolve reference = .ok ⟨reference.path, reference.index, entry⟩
      ∧ ⟨form, reference.location⟩ ∈ entry.signatures := by
  have introduced : reference ∈ sources.flatMap (·.referencesFor form) := by
    rw [← holds.indexed.references]
    exact present
  rcases List.mem_flatMap.mp introduced with ⟨source, member, referenced⟩
  rcases mem_referencesFor referenced with ⟨entry, stands, introduces⟩
  have path := Source.path_of_mem_referencesFor referenced
  have found : corpus.files.find? reference.path = some source := by
    rw [holds.files]
    exact (find?_path_eq_some_iff distinct).mpr ⟨member, path.symm⟩
  refine ⟨entry, ?_, introduces⟩
  cases reading : source.reading with
  | error diagnostics => simp [Source.entries, reading] at stands
  | ok document =>
      have stands' : document.entries[reference.index]? = some entry := by
        simpa [Source.entries, reading] using stands
      simp [resolve, Corpus.entry, Corpus.document, file?, found, reading, stands', bind,
        Except.bind, pure, Except.pure]

end Treatise.Corpus
