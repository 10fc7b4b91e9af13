import Treatise.Corpus.Basic
import Treatise.Proofs.Corpus.Search
import Treatise.Proofs.Corpus.Trie
import Treatise.Proofs.Sorting

/-!
# What files contribute to the indexes

Each index of a corpus is described by what it answers: the references under a form, how often a
word was put into a trie, the paths under a word. `Indexed` says that these answers are those of a
list of files, put in one after the other. Indexing a file adds it at the end of the list, and
taking the file under a path out of the indexes leaves the other files as they were.
-/

namespace Treatise.Corpus

open Document (Entry)

/-! ## Contributions -/

namespace Source

/-- The forms that a file introduces, and where. -/
def introductions (source : Source) : List (String × Reference) :=
  (placedEntries source).flatMap referencesTo

/-- The references to one form that a file introduces. -/
def referencesFor (form : String) (source : Source) : List Reference :=
  (source.introductions.filter fun found => found.1 = form).map Prod.snd

/-- The normalized entries of a file. -/
def normalizedEntries (source : Source) : List Placed :=
  (placedEntries source).map fun found => { found with entry := found.entry.normalized }

/-- The words of a file that count: those of a file that does not read as a document do not. -/
def indexedWords (source : Source) : List String :=
  if source.document?.isSome then source.words else []

/-- The forms that a file introduces. -/
def forms (source : Source) : List String :=
  source.signatures.map (·.form)

theorem entries_eq_nil {source : Source} (unread : source.document? = none) :
    source.entries = [] := by
  cases reading : source.reading with
  | ok document => simp [document?, reading, Except.toOption] at unread
  | error diagnostics => simp [entries, reading]

theorem path_of_mem_placedEntries {source : Source} {placed : Placed}
    (present : placed ∈ placedEntries source) : placed.path = source.path := by
  rcases List.mem_map.mp present with ⟨found, -, rfl⟩
  rfl

theorem path_of_mem_referencesFor {source : Source} {form : String} {reference : Reference}
    (present : reference ∈ source.referencesFor form) : reference.path = source.path := by
  rcases List.mem_map.mp present with ⟨⟨name, found⟩, member, rfl⟩
  rcases List.mem_flatMap.mp (List.mem_of_mem_filter member) with ⟨placed, placedMem, introduced⟩
  rcases List.mem_map.mp introduced with ⟨signature, -, same⟩
  cases same
  exact path_of_mem_placedEntries placedMem

theorem path_of_mem_normalizedEntries {source : Source} {placed : Placed}
    (present : placed ∈ source.normalizedEntries) : placed.path = source.path := by
  rcases List.mem_map.mp present with ⟨found, member, rfl⟩
  have path : found.path = source.path := path_of_mem_placedEntries member
  exact path

theorem map_fst_introductions (source : Source) :
    source.introductions.map Prod.fst = source.forms := by
  have placed : ∀ (entries : List Entry) (start : Nat),
      (((entries.zipIdx start).map fun found => Placed.mk source.path found.2 found.1).flatMap
        referencesTo).map Prod.fst = (entries.flatMap Entry.signatures).map (·.form) := by
    intro entries
    induction entries with
    | nil => simp
    | cons entry rest ih =>
        intro start
        simp only [List.zipIdx_cons, List.map_cons, List.flatMap_cons, List.map_append, ih]
        simp [referencesTo, Function.comp_def]
  exact placed source.entries 0

theorem referencesFor_eq_nil {source : Source} {form : String} (absent : form ∉ source.forms) :
    source.referencesFor form = [] := by
  rw [← map_fst_introductions] at absent
  simp only [referencesFor, List.map_eq_nil_iff, List.filter_eq_nil_iff, decide_eq_true_eq]
  rintro found member rfl
  exact absent (List.mem_map_of_mem member)

/-- A file that does not read as a document contributes nothing. -/
theorem contributions_of_unread {source : Source} (unread : source.document? = none) :
    (∀ form, source.referencesFor form = []) ∧ source.normalizedEntries = []
      ∧ source.indexedWords = [] ∧ source.forms = [] := by
  have bare := entries_eq_nil unread
  have unplaced : placedEntries source = [] := by simp [placedEntries, bare]
  refine ⟨fun form => ?_, ?_, ?_, ?_⟩
  · simp [referencesFor, introductions, unplaced]
  · simp [normalizedEntries, unplaced]
  · simp [indexedWords, unread]
  · simp [forms, signatures, bare]

end Source

/-! ## The table of references -/

theorem listAt_addReference (table : Table (List Reference)) (found : String × Reference)
    (form : String) :
    (addReference table found).listAt form
      = table.listAt form ++ if found.1 = form then [found.2] else [] := by
  rw [addReference, Table.listAt_insert]
  by_cases same : form = found.1
  · simp [same, Table.listAt]
  · simp [same, Ne.symm same]

theorem filled_addReference {table : Table (List Reference)} (filled : table.Filled)
    (found : String × Reference) : (addReference table found).Filled :=
  filled.insert found.1 (by simp)

theorem addReferences_spec {table : Table (List Reference)} (filled : table.Filled)
    (found : List (String × Reference)) :
    (found.foldl addReference table).Filled ∧ ∀ form,
      (found.foldl addReference table).listAt form
        = table.listAt form ++ (found.filter fun one => one.1 = form).map Prod.snd := by
  induction found generalizing table with
  | nil => exact ⟨filled, by simp⟩
  | cons first rest ih =>
      rcases ih (filled_addReference filled first) with ⟨filledAll, lists⟩
      refine ⟨filledAll, fun form => ?_⟩
      rw [List.foldl_cons, lists, listAt_addReference]
      by_cases same : first.1 = form <;> simp [same]

theorem listAt_removeReferences (path : String) (table : Table (List Reference))
    (form other : String) :
    (removeReferences path table form).listAt other
      = if other = form then (table.listAt other).filter fun reference => reference.path ≠ path
        else table.listAt other := by
  unfold removeReferences
  split
  · next absent =>
    by_cases same : other = form
    · simp [same, Table.listAt, absent]
    · simp [same]
  · next references present =>
    split
    · next emptied =>
      rw [Table.listAt_erase]
      by_cases same : other = form
      · subst same
        simpa [Table.listAt, present] using emptied.symm
      · simp [same]
    · next left =>
      rw [Table.listAt_insert]
      by_cases same : other = form
      · subst same
        simp [Table.listAt, present]
      · simp [same]

theorem filled_removeReferences (path : String) {table : Table (List Reference)}
    (filled : table.Filled) (form : String) : (removeReferences path table form).Filled := by
  unfold removeReferences
  split
  · exact filled
  · split
    · exact filled.erase form
    · next nonempty => exact filled.insert form nonempty

theorem removeAllReferences_spec (path : String) {table : Table (List Reference)}
    (filled : table.Filled) (forms : List String) :
    (forms.foldl (removeReferences path) table).Filled ∧ ∀ form,
      (forms.foldl (removeReferences path) table).listAt form
        = if form ∈ forms then (table.listAt form).filter fun reference => reference.path ≠ path
          else table.listAt form := by
  induction forms generalizing table with
  | nil => exact ⟨filled, by simp⟩
  | cons first rest ih =>
      rcases ih (filled_removeReferences path filled first) with ⟨filledAll, lists⟩
      refine ⟨filledAll, fun form => ?_⟩
      rw [List.foldl_cons, lists, listAt_removeReferences]
      by_cases here : form = first <;> by_cases later : form ∈ rest <;> simp [here, later]

/-! ## Indexing and taking out -/

/-- The indexes answer as a list of files says, except for the hierarchy of types. -/
structure Indexed (corpus : Corpus) (sources : List Source) : Prop where
  filled : corpus.signatures.Filled
  references : ∀ form, corpus.signatures.listAt form = sources.flatMap (·.referencesFor form)
  normalized : corpus.normalized = sources.flatMap Source.normalizedEntries
  tidyWords : corpus.words.Tidy
  words : ∀ word : String,
    corpus.words.count word.toList = (sources.flatMap Source.indexedWords).count word
  tidyForms : corpus.signatureTrie.Tidy
  forms : ∀ form : String,
    corpus.signatureTrie.count form.toList = (sources.flatMap Source.forms).count form
  neat : corpus.search.Neat
  search : ∀ word path, path ∈ corpus.search.paths word
    ↔ ∃ source ∈ sources, source.path = path ∧ word ∈ source.indexedWords

theorem indexed_empty (options : Options) : Indexed (empty options) [] where
  filled := Table.filled_empty
  references := by simp [empty]
  normalized := rfl
  tidyWords := Trie.tidy_empty
  words := by simp [empty]
  tidyForms := Trie.tidy_empty
  forms := by simp [empty]
  neat := SearchIndex.neat_empty
  search := by simp [empty, SearchIndex.paths]

/-- Indexing a file puts it after the others. -/
theorem Indexed.index {corpus : Corpus} {sources : List Source} (indexed : Indexed corpus sources)
    (source : Source) : Indexed (corpus.index source) (sources ++ [source]) := by
  unfold Corpus.index
  split
  · next unread =>
    rcases Source.contributions_of_unread unread with ⟨noReferences, noEntries, noWords, noForms⟩
    refine ⟨indexed.filled, ?_, ?_, indexed.tidyWords, ?_, indexed.tidyForms, ?_, indexed.neat, ?_⟩
    · simp [indexed.references, noReferences]
    · simp [indexed.normalized, noEntries]
    · simp [indexed.words, noWords]
    · simp [indexed.forms, noForms]
    · simp [indexed.search, noWords, or_and_right, exists_or]
  · next document read =>
    have counted : source.indexedWords = source.words := by simp [Source.indexedWords, read]
    rcases addReferences_spec indexed.filled source.introductions with ⟨filled, references⟩
    rcases Trie.addAll_spec indexed.tidyWords source.words with ⟨tidyWords, words⟩
    rcases Trie.addAll_spec indexed.tidyForms source.forms with ⟨tidyForms, forms⟩
    refine ⟨filled, ?_, ?_, tidyWords, ?_, tidyForms, ?_, indexed.neat.add _ _, ?_⟩
    · intro form
      rw [List.flatMap_append, ← indexed.references, List.flatMap_singleton]
      exact references form
    · simp [indexed.normalized, Source.normalizedEntries]
    · intro word
      rw [List.flatMap_append, List.count_append, ← indexed.words, List.flatMap_singleton, counted]
      exact words word
    · intro form
      rw [List.flatMap_append, List.count_append, ← indexed.forms, List.flatMap_singleton]
      exact forms form
    · intro word path
      rw [SearchIndex.mem_paths_add, indexed.search]
      simp [counted, or_and_right, exists_or, eq_comm]

/-- No two files have the same path. -/
def Distinct (sources : List Source) : Prop :=
  (sources.map Source.path).Nodup

/-- The files that do not lie under a path. -/
def without (path : String) (sources : List Source) : List Source :=
  sources.filter fun source => source.path ≠ path

theorem eq_of_path_eq {sources : List Source} (distinct : Distinct sources) {first second : Source}
    (firstMem : first ∈ sources) (secondMem : second ∈ sources) (same : first.path = second.path) :
    first = second :=
  List.inj_on_of_nodup_map distinct firstMem secondMem same

theorem find?_path_eq_some_iff {sources : List Source} (distinct : Distinct sources) {path : String}
    {source : Source} :
    sources.find? (fun other => other.path = path) = some source
      ↔ source ∈ sources ∧ source.path = path := by
  constructor
  · intro found
    exact ⟨List.mem_of_find?_eq_some found, by simpa using List.find?_some found⟩
  · rintro ⟨member, rfl⟩
    cases found : sources.find? fun other => other.path = source.path with
    | none => simpa using List.find?_eq_none.mp found source member
    | some other =>
        have same : other.path = source.path := by simpa using List.find?_some found
        rw [eq_of_path_eq distinct (List.mem_of_find?_eq_some found) member same]

theorem perm_cons_without {sources : List Source} (distinct : Distinct sources) {source : Source}
    (present : source ∈ sources) : sources.Perm (source :: without source.path sources) := by
  induction sources with
  | nil => simp at present
  | cons first rest ih =>
      rcases List.nodup_cons.mp distinct with ⟨unused, distinctRest⟩
      have others : ∀ other ∈ rest, first.path ≠ other.path := fun other member same =>
        unused (same ▸ List.mem_map_of_mem member)
      rcases List.mem_cons.mp present with rfl | later
      · have kept : without source.path rest = rest := by
          refine List.filter_eq_self.mpr fun other member => ?_
          simpa using Ne.symm (others other member)
        have dropped : without source.path (source :: rest) = rest := by simpa [without] using kept
        rw [dropped]
      · have differs : first.path ≠ source.path := others source later
        have swapped := ((ih distinctRest later).cons first).trans
          (List.Perm.swap source first (without source.path rest))
        simpa [without, differs] using swapped

theorem filter_flatMap_without {sources : List Source} {α : Type} (place : α → String)
    (parts : Source → List α)
    (placed : ∀ source, ∀ part ∈ parts source, place part = source.path) (path : String) :
    (sources.flatMap parts).filter (fun part => place part ≠ path)
      = (without path sources).flatMap parts :=
  filter_flatMap_of_origin placed (fun other => other ≠ path) sources

/-- Leaving out files that contribute nothing changes nothing. -/
theorem flatMap_without_of_nil {sources : List Source} {α : Type} {parts : Source → List α}
    {path : String} (bare : ∀ source ∈ sources, source.path = path → parts source = []) :
    (without path sources).flatMap parts = sources.flatMap parts := by
  induction sources with
  | nil => rfl
  | cons first rest ih =>
      have later := ih fun source member => bare source (List.mem_cons_of_mem first member)
      by_cases same : first.path = path
      · have dropped : without path (first :: rest) = without path rest := by simp [without, same]
        rw [dropped, later, List.flatMap_cons, bare first List.mem_cons_self same, List.nil_append]
      · have kept : without path (first :: rest) = first :: without path rest := by
          simp [without, same]
        rw [kept, List.flatMap_cons, later, List.flatMap_cons]

theorem exists_mem_without_iff {sources : List Source} {path word other : String} :
    (∃ source ∈ without path sources, source.path = other ∧ word ∈ source.indexedWords)
      ↔ (∃ source ∈ sources, source.path = other ∧ word ∈ source.indexedWords) ∧ other ≠ path := by
  constructor
  · rintro ⟨source, member, rfl, found⟩
    rcases List.mem_filter.mp member with ⟨present, differs⟩
    exact ⟨⟨source, present, rfl, found⟩, by simpa using differs⟩
  · rintro ⟨⟨source, member, rfl, found⟩, differs⟩
    exact ⟨source, List.mem_filter.mpr ⟨member, by simpa using differs⟩, rfl, found⟩

section Unindexing

variable {corpus : Corpus} {sources : List Source} {source : Source}

theorem count_flatMap_without (distinct : Distinct sources) (present : source ∈ sources)
    (parts : Source → List String) (part : String) :
    ((without source.path sources).flatMap parts).count part
      = (sources.flatMap parts).count part - (parts source).count part := by
  rw [((perm_cons_without distinct present).flatMap_right parts).count_eq, List.flatMap_cons,
    List.count_append, Nat.add_sub_cancel_left]

/-- A file without a document leaves the indexes as they are. -/
theorem Indexed.without_unread (indexed : Indexed corpus sources) (distinct : Distinct sources)
    (present : source ∈ sources) (unread : source.document? = none) :
    Indexed corpus (without source.path sources) := by
  rcases Source.contributions_of_unread unread with ⟨noReferences, noEntries, noWords, noForms⟩
  have alone : ∀ other ∈ sources, other.path = source.path → other = source :=
    fun other member same => eq_of_path_eq distinct member present same
  refine ⟨indexed.filled, ?_, ?_, indexed.tidyWords, ?_, indexed.tidyForms, ?_, indexed.neat, ?_⟩
  · intro form
    rw [indexed.references, flatMap_without_of_nil fun other member same => ?_]
    rw [alone other member same, noReferences]
  · rw [indexed.normalized, flatMap_without_of_nil fun other member same => ?_]
    rw [alone other member same, noEntries]
  · intro word
    rw [indexed.words, count_flatMap_without distinct present, noWords, List.count_nil,
      Nat.sub_zero]
  · intro form
    rw [indexed.forms, count_flatMap_without distinct present, noForms, List.count_nil,
      Nat.sub_zero]
  · intro word path
    rw [indexed.search, exists_mem_without_iff]
    refine (and_iff_left_of_imp ?_).symm
    rintro ⟨other, member, rfl, found⟩ same
    rw [alone other member same, noWords] at found
    exact List.not_mem_nil found

/-- Taking a file out of the indexes leaves what the other files contributed. -/
theorem Indexed.unindex (indexed : Indexed corpus sources) (distinct : Distinct sources)
    (present : source ∈ sources) :
    Indexed (corpus.unindex source) (without source.path sources) := by
  unfold Corpus.unindex
  split
  · next unread => exact indexed.without_unread distinct present unread
  · next document read =>
    have counted : source.indexedWords = source.words := by simp [Source.indexedWords, read]
    rcases removeAllReferences_spec source.path indexed.filled source.forms with ⟨filled, lists⟩
    rcases Trie.removeAll_spec indexed.tidyWords source.words with ⟨tidyWords, words⟩
    rcases Trie.removeAll_spec indexed.tidyForms source.forms with ⟨tidyForms, forms⟩
    refine ⟨filled, ?_, ?_, tidyWords, ?_, tidyForms, ?_, indexed.neat.remove _, ?_⟩
    · intro form
      refine (lists form).trans ?_
      rw [indexed.references]
      split_ifs with introduced
      · exact filter_flatMap_without Reference.path _
          (fun _ _ => Source.path_of_mem_referencesFor) _
      · refine (flatMap_without_of_nil fun other member same => ?_).symm
        rw [eq_of_path_eq distinct member present same, Source.referencesFor_eq_nil introduced]
    · rw [← filter_flatMap_without Placed.path _ (fun _ _ => Source.path_of_mem_normalizedEntries),
        ← indexed.normalized]
    · intro word
      refine (words word).trans ?_
      rw [indexed.words, count_flatMap_without distinct present, counted]
    · intro form
      refine (forms form).trans ?_
      rw [indexed.forms, count_flatMap_without distinct present]
    · intro word path
      rw [SearchIndex.mem_paths_remove indexed.neat, indexed.search, exists_mem_without_iff]

end Unindexing

end Treatise.Corpus
