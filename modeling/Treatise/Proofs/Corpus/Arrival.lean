import Treatise.Proofs.Corpus.Checks
import Treatise.Proofs.Corpus.Queries
import Treatise.Proofs.Corpus.Rendering

/-!
# Files that are added under a new path

A file that is added under a path at which there is none takes its place among the others, and these
stay as they are. So a query about the files that are there can change only through what the new
file contributes to the indexes. One that does not read as a document contributes nothing but its
own problems. One that does takes away the findings about signatures which it introduces, and no
others, until it is removed.
-/

namespace Treatise.Corpus

open Document (Entry)

variable {corpus : Corpus} {options : Options} {sources : List Source} {source : Source}

/-! ## The files -/

theorem files_add (corpus : Corpus) (source : Source) :
    (corpus.add source).files = corpus.files.insert source.path source := by
  simp [add, refresh]

/-- The files that were there answer for their entries as before. -/
theorem entry_add {path : String} (other : path ≠ source.path) (index : Nat) :
    (corpus.add source).entry path index = corpus.entry path index := by
  simp only [Corpus.entry, Corpus.document, file?, files_add, Table.find?_insert, if_neg other]

section NewPath

variable (holds : Holds corpus options sources) (distinct : Distinct sources)
  (absent : corpus.file? source.path = none)

include holds absent

theorem Holds.path_ne_of_absent {other : Source} (member : other ∈ sources) :
    other.path ≠ source.path := by
  have missing : sources.find? (fun other => other.path = source.path) = none := by
    rw [← holds.files]
    exact absent
  simpa using List.find?_eq_none.mp missing other member

theorem Holds.without_eq_of_absent : without source.path sources = sources :=
  List.filter_eq_self.mpr fun other member => by
    simpa using holds.path_ne_of_absent absent member

/-- The normalized entries that were there are those of the same entries as before. -/
theorem Holds.entry_add_of_mem_normalized {placed : Placed} (present : placed ∈ corpus.normalized) :
    (corpus.add source).entry placed.path placed.index = corpus.entry placed.path placed.index := by
  rcases holds.indexed.path_of_mem_normalized present with ⟨other, member, same⟩
  exact entry_add (same ▸ holds.path_ne_of_absent absent member) _

/-- The references that were there lead to the same entries as before. -/
theorem Holds.entry_add_of_mem_references {signature : String} {reference : Reference}
    (present : reference ∈ corpus.references signature) :
    (corpus.add source).entry reference.path reference.index
      = corpus.entry reference.path reference.index := by
  rcases holds.indexed.path_of_mem_references present with ⟨other, member, same⟩
  exact entry_add (same ▸ holds.path_ne_of_absent absent member) _

include distinct

theorem Holds.add_new : Holds (corpus.add source) options (sources ++ [source]) := by
  have added := holds.add distinct source
  rwa [holds.without_eq_of_absent absent] at added

theorem Holds.distinct_new : Distinct (sources ++ [source]) := by
  have added := distinct_without_append distinct source
  rwa [holds.without_eq_of_absent absent] at added

/-- The new file stands between the files that were there. -/
theorem Holds.exists_values_add : ∃ front back, corpus.files.values = front ++ back
    ∧ (corpus.add source).files.values = front ++ source :: back
    ∧ ∀ other ∈ front ++ back, other.path ≠ source.path := by
  rcases Table.exists_entries_insert absent source with ⟨front, back, split, put⟩
  have values : corpus.files.values = front.map Prod.snd ++ back.map Prod.snd := by
    rw [Table.values, split, List.map_append]
  refine ⟨front.map Prod.snd, back.map Prod.snd, values, ?_, fun other member => ?_⟩
  · rw [files_add, Table.values, put, List.map_append, List.map_cons]
  · rw [← values] at member
    exact holds.path_ne_of_absent absent ((holds.mem_values_iff distinct).mp member)

theorem Holds.without_values_add :
    without source.path (corpus.add source).files.values = corpus.files.values := by
  rcases holds.exists_values_add distinct absent with ⟨front, back, before, after, others⟩
  have kept : without source.path (front ++ back) = front ++ back :=
    List.filter_eq_self.mpr fun other member => by simpa using others other member
  rw [before, after, ← kept]
  simp [without]

theorem Holds.own_values_add :
    (corpus.add source).files.values.filter (fun other => other.path = source.path) = [source] := by
  rcases holds.exists_values_add distinct absent with ⟨front, back, -, after, others⟩
  have bare : (front ++ back).filter (fun other => other.path = source.path) = [] :=
    List.filter_eq_nil_iff.mpr fun other member => by simpa using others other member
  rw [List.filter_append, List.append_eq_nil_iff] at bare
  rw [after, List.filter_append, List.filter_cons_of_pos (by simp), bare.1, bare.2, List.nil_append]

/-- Without those of the new file, the entries are those that were there, in the same order. -/
theorem Holds.filter_entries_add :
    (corpus.add source).entries.filter (fun placed => placed.path ≠ source.path)
      = corpus.entries := by
  have files : without source.path (corpus.add source).sortedFiles = corpus.sortedFiles := by
    have sorted := (sorts_pathLe.of_key Source.path).filter_mergeSort
      (fun other => other.path ≠ source.path) (corpus.add source).files.values
    refine sorted.trans ?_
    exact congrArg (sortByPath Source.path) (holds.without_values_add distinct absent)
  rw [entries, filter_flatMap_without Placed.path placedEntries
    (fun _ _ => Source.path_of_mem_placedEntries), files, entries]

end NewPath

/-! ## Files that do not read as documents -/

/-- What is wrong with a file as it is reported. -/
def Source.findings (source : Source) : List Finding :=
  source.diagnostics.map fun diagnostic => ⟨source.path, diagnostic⟩

/-- Findings in order are made of those in one file and of those in the others. -/
structure Merges (path : String) (own others all : List Finding) : Prop where
  sorted : all.Pairwise fun first second => Finding.le first second
  own : all.filter (fun finding => finding.path = path) = own
  others : all.filter (fun finding => finding.path ≠ path) = others

/-- Queries that are not about the file under a path are answered as before. -/
structure Unmoved (path : String) (before after : Corpus) : Prop where
  references : ∀ form, after.references form = before.references form
  withSignature : ∀ form, after.withSignature form = before.withSignature form
  find : ∀ query, after.find query = before.find query
  completeWord : ∀ start, after.completeWord start = before.completeWord start
  completeSignature : ∀ start, after.completeSignature start = before.completeSignature start
  types : after.types = before.types
  undefinedSignatures : after.undefinedSignatures = before.undefinedSignatures
  render : ∀ other ≠ path, ∀ index options,
    (after.render other index options).1 = (before.render other index options).1
  renderFile : ∀ other ≠ path, ∀ options,
    (after.renderFile other options).1 = (before.renderFile other options).1

section Unread

variable (absent : corpus.file? source.path = none) (unread : source.document? = none)

include absent unread

theorem add_unread : corpus.add source
    = { corpus with files := corpus.files.insert source.path source }.refresh := by
  have unindexed : corpus.unindexPath source.path = corpus := by
    rw [unindexPath, show corpus.files.find? source.path = none from absent]
  have indexed : corpus.index source = corpus := by
    rw [index, unread]
  rw [add, unindexed, indexed]

theorem references_add_unread (form : String) :
    (corpus.add source).references form = corpus.references form := by
  rw [add_unread absent unread]
  rfl

variable (holds : Holds corpus options sources) (distinct : Distinct sources)

include holds distinct

theorem Holds.entries_add_unread : (corpus.add source).entries = corpus.entries := by
  have bare : ∀ other ∈ (corpus.add source).sortedFiles, other.path = source.path →
      placedEntries other = [] := by
    intro other member same
    have present : other ∈ sources ++ [source] :=
      ((holds.add_new distinct absent).mem_values_iff (holds.distinct_new distinct absent)).mp
        (List.mem_mergeSort.mp member)
    rw [eq_of_path_eq (holds.distinct_new distinct absent) present (by simp) same, placedEntries,
      Source.entries_eq_nil unread]
    rfl
  rw [← holds.filter_entries_add distinct absent, entries, filter_flatMap_without Placed.path
    placedEntries (fun _ _ => Source.path_of_mem_placedEntries), flatMap_without_of_nil bare]

theorem Holds.alike_add_unread : Alike (corpus.add source) corpus := by
  have added := add_unread absent unread
  have sameOptions : (corpus.add source).options = corpus.options := by
    rw [added]
    rfl
  have sameEntries := holds.entries_add_unread absent unread distinct
  have sameEngine : (corpus.add source).engine = corpus.engine := by
    rw [(holds.add_new distinct absent).engine, holds.engine, freshEngine, freshEngine, sameEntries,
      sameOptions]
  have sameReferences := references_add_unread absent unread
  have answers := fun form => answers_of_introducing form <| introducing?_eq form
    (congrArg List.head? (sameReferences form))
    fun reference present =>
      holds.entry_add_of_mem_references absent (sameReferences form ▸ present)
  refine ⟨sameOptions, sameEntries, sameEngine, fun form => ?_, fun form => (answers form).2.2,
    fun form => (answers form).2.1⟩
  rw [added]
  rfl

theorem Holds.documentFindings_add_unread :
    (corpus.add source).documentFindings = corpus.documentFindings := by
  have added := add_unread absent unread
  have sameNormalized : (corpus.add source).normalized = corpus.normalized := by
    rw [added]
    rfl
  refine (holds.alike_add_unread absent unread distinct).documentFindings_eq ?_ ?_
  · rw [added]
    rfl
  · exact duplicateContent_eq (by rw [sameNormalized]) fun placed present =>
      holds.entry_add_of_mem_normalized absent (sameNormalized ▸ present)

/-- What is found in some of the files are the problems of these and what was found in them
before. -/
theorem Holds.filter_check_add_unread (keep : String → Bool) :
    (corpus.add source).check.filter (fun finding => keep finding.path) = Finding.sort
      (Finding.sort (((corpus.add source).files.values.filter fun other => keep other.path).flatMap
        Source.findings) ++ corpus.documentFindings.filter fun finding => keep finding.path) := by
  have placed : ∀ other : Source, ∀ finding ∈ other.findings, finding.path = other.path := by
    intro other finding member
    rcases List.mem_map.mp member with ⟨_, -, rfl⟩
    rfl
  have whole : (corpus.add source).check = Finding.sort
      (Finding.sort ((corpus.add source).files.values.flatMap Source.findings)
        ++ corpus.documentFindings) := by
    rw [check_eq, holds.documentFindings_add_unread absent unread distinct]
    rfl
  rw [whole, Finding.sort, sorts_findingLe.filter_mergeSort, List.filter_append, Finding.sort,
    sorts_findingLe.filter_mergeSort, filter_flatMap_of_origin placed]
  rfl

/-- The problems of the new file join those that were found before. -/
theorem Holds.merges_add_unread :
    Merges source.path (Finding.sort source.findings) corpus.check (corpus.add source).check := by
  have filtered := holds.filter_check_add_unread absent unread distinct
  have away : ∀ finding ∈ corpus.documentFindings, finding.path ≠ source.path := by
    intro finding found
    rcases holds.path_of_mem_documentFindings distinct found with ⟨other, member, same⟩
    exact same ▸ holds.path_ne_of_absent absent member
  refine ⟨?_, ?_, ?_⟩
  · rw [check_eq]
    exact Finding.pairwise_sort _
  · have bare : corpus.documentFindings.filter (fun finding => finding.path = source.path) = [] :=
      List.filter_eq_nil_iff.mpr fun finding found => by simpa using away finding found
    refine (filtered fun path => path = source.path).trans ?_
    rw [holds.own_values_add distinct absent, bare, List.append_nil, Finding.sort_sort,
      List.flatMap_singleton]
  · have kept : corpus.documentFindings.filter (fun finding => finding.path ≠ source.path)
        = corpus.documentFindings :=
      List.filter_eq_self.mpr fun finding found => by simpa using away finding found
    have others := holds.without_values_add distinct absent
    rw [without] at others
    refine (filtered fun path => path ≠ source.path).trans ?_
    rw [others, kept, check_eq]
    rfl

/-- The other files are rendered as before. -/
theorem Holds.rendered_add_unread {path : String} (other : path ≠ source.path) (index : Nat)
    (choice : RenderOptions) :
    (corpus.add source).rendered path index choice = corpus.rendered path index choice := by
  have alike := holds.alike_add_unread absent unread distinct
  simp only [rendered, entry_add other, renderEntry, alike.engine, alike.options]

theorem Holds.unmoved_add_unread (coherent : Coherent corpus) :
    Unmoved source.path corpus (corpus.add source) := by
  have added := add_unread absent unread
  have coherent' : Coherent (corpus.add source) := coherent.edited (.add source)
  have sameReferences := references_add_unread absent unread
  refine ⟨sameReferences, fun form => withSignature_eq form ?_ fun reference present => ?_,
    fun query => ?_, ?_, ?_, ?_,
    (holds.alike_add_unread absent unread distinct).undefinedSignatures_eq,
    fun path other index choice => ?_, fun path other choice => ?_⟩
  · rw [added]
    rfl
  · rw [resolve, resolve, holds.entry_add_of_mem_references absent (sameReferences form ▸ present)]
  · have sameSearch : (corpus.add source).search = corpus.search := by
      rw [added]
      rfl
    rw [find, find, sameSearch]
    refine List.filterMap_congr fun path found => ?_
    rcases SearchIndex.mem_search_iff.mp found with ⟨nonempty, inAll⟩
    rcases List.exists_mem_of_ne_nil _ nonempty with ⟨word, wordMem⟩
    rcases (holds.indexed.search word path).mp (inAll word wordMem) with ⟨present, member, same, -⟩
    have differs : path ≠ source.path := same ▸ holds.path_ne_of_absent absent member
    rw [file?, file?, files_add, Table.find?_insert, if_neg differs]
  · rw [added]
    exact fun _ => rfl
  · rw [added]
    exact fun _ => rfl
  · rw [added]
    rfl
  · rw [coherent'.render_fst, coherent.render_fst,
      holds.rendered_add_unread absent unread distinct other]
  · have sameDocument : (corpus.add source).document path = corpus.document path := by
      simp only [Corpus.document, file?, files_add, Table.find?_insert, if_neg other]
    simp only [coherent'.renderFile_fst, coherent.renderFile_fst, sameDocument,
      holds.rendered_add_unread absent unread distinct other]

end Unread

/-- What is wrong with a text is listed in the order of the places. -/
theorem sort_findings_read {path content : String} {diagnostics : List Diagnostic}
    (unread : Document.read content = .error diagnostics) :
    Finding.sort (Source.read path content).findings
      = diagnostics.map fun diagnostic => ⟨path, diagnostic⟩ := by
  have listed : (Source.read path content).findings
      = diagnostics.map fun diagnostic => ⟨path, diagnostic⟩ := by
    simp only [Source.findings, Source.diagnostics, Source.read, unread]
  have rising : diagnostics.Pairwise fun first second => first.location.le second.location := by
    simp only [Document.read] at unread
    split_ifs at unread
    cases unread
    have sorts := sorts_locationLe.of_key Diagnostic.location
    exact List.pairwise_mergeSort sorts.trans sorts.total _
  have self : comparePaths path path = .eq := Std.ReflCmp.compare_self
  rw [listed, Finding.sort, List.mergeSort_of_pairwise]
  refine List.pairwise_map.mpr (rising.imp fun below => ?_)
  simpa [Finding.le, self] using below

/-- Adding a text that does not read as a document under a new path changes nothing else: all
queries about the other files are answered as before, and the check lists the problems of the text
among what it listed before, in the order of its findings. -/
theorem unread_file_is_inert (options : Options) (actions : List Action) (path content : String)
    {diagnostics : List Diagnostic} (absent : (afterActions options actions).file? path = none)
    (unread : Document.read content = .error diagnostics) :
    Merges path (diagnostics.map fun diagnostic => ⟨path, diagnostic⟩)
        (afterActions options actions).check
          ((afterActions options actions).addText path content).check
      ∧ Unmoved path (afterActions options actions)
        ((afterActions options actions).addText path content) := by
  have holds := holds_afterActions options actions
  have distinct := distinct_survivors (actions.filterMap Action.edit?)
  have bare : (Source.read path content).document? = none := by
    simp [Source.document?, Source.read, unread, Except.toOption]
  refine ⟨?_, holds.unmoved_add_unread absent bare distinct (coherent_afterActions options actions)⟩
  rw [← sort_findings_read unread]
  exact holds.merges_add_unread absent bare distinct

theorem read_of_diagnostics {path content : String} {diagnostics : List Diagnostic}
    (wrong : (Source.read path content).diagnostics = diagnostics) (nonempty : diagnostics ≠ []) :
    Document.read content = .error diagnostics := by
  cases reading : Document.read content with
  | ok document => simp [Source.diagnostics, Source.read, reading, nonempty.symm] at wrong
  | error found => simpa [Source.diagnostics, Source.read, reading] using wrong

/-- The problem of a text that cannot be read joins a finding about another file. -/
theorem unread_text_joins : ∃ corpus,
    corpus = afterActions defaultOptions
        [.edit (.add (.read "a.math" "Theorem:\nthen: '\\g'\n"))]
      ∧ corpus.file? "b.math" = none
      ∧ Document.read "Defines: \\a \\g\n" = .error [⟨.structural, "Unexpected token a", ⟨0, 10⟩⟩]
      ∧ corpus.check = [.ofProblem "a.math" (.undefinedSignature "\\g") ⟨1, 7⟩]
      ∧ Merges "b.math" [⟨"b.math", ⟨.structural, "Unexpected token a", ⟨0, 10⟩⟩⟩] corpus.check
        (corpus.addText "b.math" "Defines: \\a \\g\n").check
      ∧ Unmoved "b.math" corpus (corpus.addText "b.math" "Defines: \\a \\g\n") := by
  let actions : List Action := [.edit (.add (.read "a.math" "Theorem:\nthen: '\\g'\n"))]
  have absent : (afterActions defaultOptions actions).file? "b.math" = none := by
    rw [← Option.isNone_iff_eq_none]
    decide +kernel
  have wrong : (Source.read "b.math" "Defines: \\a \\g\n").diagnostics
      = [⟨.structural, "Unexpected token a", ⟨0, 10⟩⟩] := by
    decide +kernel
  have unread := read_of_diagnostics wrong (by simp)
  have listed : (afterActions defaultOptions actions).check
      = [.ofProblem "a.math" (.undefinedSignature "\\g") ⟨1, 7⟩] := by
    decide +kernel
  exact ⟨_, rfl, absent, unread, listed,
    unread_file_is_inert defaultOptions actions "b.math" "Defines: \\a \\g\n" absent unread⟩

/-! ## Files that introduce signatures -/

/-- The finding is about a signature that an entry of a document introduces. -/
def Finding.ResolvedBy (document : Document) (finding : Finding) : Prop :=
  ∃ entry ∈ document.entries, ∃ signature ∈ entry.signatures,
    finding.diagnostic.message = (Problem.undefinedSignature signature.form).message

instance (document : Document) (finding : Finding) : Decidable (finding.ResolvedBy document) :=
  inferInstanceAs (Decidable (∃ entry ∈ document.entries, ∃ signature ∈ entry.signatures, _ = _))

theorem undefinedSignature_message_inj {first second : String} :
    (Problem.undefinedSignature first).message = (Problem.undefinedSignature second).message
      ↔ first = second := by
  refine ⟨fun same => ?_, fun same => by rw [same]⟩
  have opened : "Undefined signature '" ++ first = "Undefined signature '" ++ second :=
    (String.append_left_inj "'").mp same
  exact (String.append_right_inj _).mp opened

/-- What is said about the use of a signature names it. -/
theorem resolvedBy_iff {document : Document} (reading : source.reading = .ok document)
    (path signature : String) (location : Location) :
    Finding.ResolvedBy document ⟨path, diagnosticOf ⟨location, .undefinedSignature signature⟩⟩
      ↔ signature ∈ source.forms := by
  simp only [Finding.ResolvedBy, diagnosticOf, Diagnostic.ofLocated, undefinedSignature_message_inj,
    Source.forms, Source.signatures, Source.entries, reading, List.mem_map, List.mem_flatMap]
  constructor
  · rintro ⟨entry, entryMem, found, foundMem, same⟩
    exact ⟨found, ⟨entry, entryMem, foundMem⟩, same.symm⟩
  · rintro ⟨found, ⟨entry, entryMem, foundMem⟩, same⟩
    exact ⟨entry, entryMem, found, foundMem, same.symm⟩

section Read

variable (holds : Holds corpus options sources) (distinct : Distinct sources)
  (absent : corpus.file? source.path = none)

include holds distinct absent

theorem Holds.isDefined_add_new (signature : String) : (corpus.add source).isDefined signature
    = (corpus.isDefined signature || decide (signature ∈ source.forms)) := by
  have added := (holds.add_new distinct absent).indexed
  rw [Bool.eq_iff_iff]
  simp only [Bool.or_eq_true, decide_eq_true_eq, added.isDefined_iff, holds.indexed.isDefined_iff,
    List.mem_append, List.mem_singleton, or_and_right, exists_or, exists_eq_left]

/-- A statement keeps the findings about signatures that the new file does not introduce. -/
theorem Holds.undefinedIn_add_new {document : Document} (reading : source.reading = .ok document)
    (path : String) (entry : Entry) :
    (((corpus.add source).undefinedIn entry).map diagnosticOf).map (Finding.mk path)
      = (((corpus.undefinedIn entry).map diagnosticOf).map (Finding.mk path)).filter
        fun finding => ¬ finding.ResolvedBy document := by
  have sameOptions : (corpus.add source).options = corpus.options :=
    (holds.add_new distinct absent).options.trans holds.options.symm
  simp only [undefinedIn, sameOptions, holds.isDefined_add_new distinct absent, List.map_flatMap,
    List.filter_flatMap]
  -- A use that the new file would define is one whose finding the document resolves.
  refine congrArg (List.flatMap · (readable entry.formulas)) (funext fun statement => ?_)
  simp only [List.map_map, List.filter_map, List.filter_filter]
  refine congrArg _ (List.filter_congr fun use _ => ?_)
  rw [Bool.eq_iff_iff]
  simp only [Function.comp_apply, Bool.not_or, Bool.and_eq_true, Bool.not_eq_true',
    decide_eq_false_iff_not, decide_not, resolvedBy_iff reading]
  tauto

/-- The other files keep the findings about signatures that the new file does not introduce. -/
theorem Holds.undefinedSignatures_add_new {document : Document}
    (reading : source.reading = .ok document) :
    (corpus.add source).undefinedSignatures.filter (fun finding => finding.path ≠ source.path)
      = corpus.undefinedSignatures.filter fun finding => ¬ finding.ResolvedBy document := by
  have placed : ∀ place : Placed, ∀ finding ∈ (((corpus.add source).undefinedIn place.entry).map
      diagnosticOf).map (Finding.mk place.path), finding.path = place.path := by
    intro place finding member
    rcases List.mem_map.mp member with ⟨_, -, rfl⟩
    rfl
  refine (filter_flatMap_of_origin placed (fun path => path ≠ source.path) _).trans ?_
  rw [holds.filter_entries_add distinct absent, undefinedSignatures, inEntries, List.filter_flatMap]
  refine congrArg (List.flatMap · corpus.entries) (funext fun place => ?_)
  exact holds.undefinedIn_add_new distinct absent reading place.path place.entry

/-- A new file that is removed again leaves no trace in what is undefined. -/
theorem Holds.undefinedSignatures_add_remove :
    ((corpus.add source).remove source.path).undefinedSignatures = corpus.undefinedSignatures := by
  have removed := (holds.add_new distinct absent).remove (holds.distinct_new distinct absent)
    source.path
  have back : without source.path (sources ++ [source]) = sources := by
    refine (List.filter_append ..).trans ?_
    rw [List.filter_cons_of_neg (by simp), List.filter_nil, List.append_nil]
    exact holds.without_eq_of_absent absent
  rw [back] at removed
  rcases holds.agree removed with ⟨types, renderings, same⟩
  rw [same]
  rfl

end Read

/-- Adding a text that reads as a document under a new path takes away exactly the findings about
undefined signatures of other files which an entry of the text introduces, and removing the file
again brings them back. -/
theorem definition_resolves (options : Options) (actions : List Action) (path content : String)
    {document : Document} (absent : (afterActions options actions).file? path = none)
    (reading : Document.read content = .ok document) :
    ((afterActions options actions).addText path content).undefinedSignatures.filter
        (fun finding => finding.path ≠ path)
      = (afterActions options actions).undefinedSignatures.filter
        (fun finding => ¬ finding.ResolvedBy document)
    ∧ (((afterActions options actions).addText path content).remove path).undefinedSignatures
      = (afterActions options actions).undefinedSignatures := by
  have holds := holds_afterActions options actions
  have distinct := distinct_survivors (actions.filterMap Action.edit?)
  have absent : (afterActions options actions).file? (Source.read path content).path
      = none := absent
  have reading : (Source.read path content).reading = .ok document := reading
  exact ⟨holds.undefinedSignatures_add_new distinct absent reading,
    holds.undefinedSignatures_add_remove distinct absent⟩

/-- Of two undefined signatures the new file introduces one, and removing the file brings it
back. -/
theorem one_of_two_resolved : ∃ corpus,
    corpus = afterActions defaultOptions
        [.edit (.add (.read "a.math" "Theorem:\nthen: '\\g + \\h'\n"))]
      ∧ corpus.file? "b.math" = none ∧ (Document.read "[\\g]\nDefines: x\n").toOption.isSome
      ∧ (corpus.addText "b.math" "[\\g]\nDefines: x\n").undefinedSignatures.filter
          (fun finding => finding.path ≠ "b.math")
        = [.ofProblem "a.math" (.undefinedSignature "\\h") ⟨1, 12⟩]
      ∧ ((corpus.addText "b.math" "[\\g]\nDefines: x\n").remove "b.math").undefinedSignatures
        = [.ofProblem "a.math" (.undefinedSignature "\\g") ⟨1, 7⟩,
          .ofProblem "a.math" (.undefinedSignature "\\h") ⟨1, 12⟩] := by
  let source := Source.read "b.math" "[\\g]\nDefines: x\n"
  let actions : List Action := [.edit (.add (.read "a.math" "Theorem:\nthen: '\\g + \\h'\n"))]
  have absent : (afterActions defaultOptions actions).file? "b.math" = none := by
    rw [← Option.isNone_iff_eq_none]
    decide +kernel
  have reads : source.document?.isSome = true := by decide +kernel
  have listed : (afterActions defaultOptions actions).undefinedSignatures
      = [.ofProblem "a.math" (.undefinedSignature "\\g") ⟨1, 7⟩,
        .ofProblem "a.math" (.undefinedSignature "\\h") ⟨1, 12⟩] := by
    decide +kernel
  cases reading : source.reading with
  | error diagnostics => simp [Source.document?, reading, Except.toOption] at reads
  | ok document =>
      have introduced : (Finding.ofProblem "a.math" (.undefinedSignature "\\g") ⟨1, 7⟩).ResolvedBy
          document := (resolvedBy_iff reading ..).mpr (by decide +kernel)
      have missing : ¬ (Finding.ofProblem "a.math" (.undefinedSignature "\\h") ⟨1, 12⟩).ResolvedBy
          document := mt (resolvedBy_iff reading ..).mp (by decide +kernel)
      rcases definition_resolves defaultOptions actions "b.math" "[\\g]\nDefines: x\n"
        absent reading
        with ⟨resolved, restored⟩
      refine ⟨_, rfl, absent, reads, ?_, restored.trans listed⟩
      rw [resolved, listed, List.filter_cons_of_neg (by simpa using introduced),
        List.filter_cons_of_pos (by simpa using missing), List.filter_nil]

end Treatise.Corpus
