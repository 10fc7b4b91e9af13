import Treatise.Proofs.Corpus.Completion
import Treatise.Proofs.Corpus.History
import Treatise.Proofs.Corpus.PathOrder

/-!
# What search and completion answer

A search intersects the paths of the words of a query, and completions are read off from two tries.
All three indexes are described by `Indexed`, so after any edits their answers are those of the
files that survive: nothing of these is missing, and nothing of other files is left.
-/

namespace Treatise.Corpus

/-! ## Searching an index -/

namespace SearchIndex

variable {index : SearchIndex}

theorem mem_search_iff {query path : String} : path ∈ search index query
    ↔ Text.words query ≠ [] ∧ ∀ word ∈ Text.words query, path ∈ paths index word := by
  unfold search
  cases Text.words query with
  | nil => simp
  | cons first rest => simp [sortByPath]

theorem nodup_search (neat : Neat index) (query : String) : (search index query).Nodup := by
  unfold search
  split
  · exact List.nodup_nil
  · next first rest _ =>
    have distinct : (paths index first).Nodup := (neat.rising first).imp ne_of_lt
    exact (List.mergeSort_perm _ _).nodup_iff.mpr (distinct.filter _)

theorem pairwise_search (index : SearchIndex) (query : String) :
    (search index query).Pairwise fun first second => pathLe first second := by
  unfold search
  split
  · exact List.Pairwise.nil
  · exact List.pairwise_mergeSort sorts_pathLe.trans sorts_pathLe.total _

end SearchIndex

/-! ## Asking a corpus -/

section Holding

variable {corpus : Corpus} {options : Options} {sources : List Source}

theorem Source.mem_indexedWords_iff {source : Source} {word : String} :
    word ∈ source.indexedWords ↔ source.document?.isSome = true ∧ word ∈ source.words := by
  unfold indexedWords
  split_ifs with read <;> simp [read]

theorem Holds.file?_eq_some_iff (holds : Holds corpus options sources)
    (distinct : Distinct sources) {path : String} {source : Source} :
    corpus.file? path = some source ↔ source ∈ sources ∧ source.path = path := by
  rw [file?, holds.files, find?_path_eq_some_iff distinct]

/-- The paths that a search finds are those of the files that it finds. -/
theorem Holds.map_path_find (holds : Holds corpus options sources) (distinct : Distinct sources)
    (query : String) : (corpus.find query).map Source.path = corpus.search.search query := by
  rw [find, List.map_filterMap]
  refine (List.filterMap_congr fun path found => ?_).trans List.filterMap_some
  rcases SearchIndex.mem_search_iff.mp found with ⟨nonempty, inAll⟩
  rcases List.exists_mem_of_ne_nil _ nonempty with ⟨word, wordMem⟩
  rcases (holds.indexed.search word path).mp (inAll word wordMem) with ⟨source, member, same, -⟩
  rw [(holds.file?_eq_some_iff distinct).mpr ⟨member, same⟩, Option.map_some, same]

theorem Holds.mem_find_iff (holds : Holds corpus options sources) (distinct : Distinct sources)
    {query : String} {source : Source} : source ∈ corpus.find query
      ↔ source ∈ sources ∧ source.document?.isSome = true ∧ Text.words query ≠ []
        ∧ ∀ word ∈ Text.words query, word ∈ source.words := by
  have indexed : source ∈ sources → ∀ word,
      source.path ∈ corpus.search.paths word ↔ word ∈ source.indexedWords := by
    intro member word
    rw [holds.indexed.search]
    constructor
    · rintro ⟨other, otherMem, same, found⟩
      rwa [← eq_of_path_eq distinct otherMem member same]
    · exact fun found => ⟨source, member, rfl, found⟩
  simp only [find, List.mem_filterMap, holds.file?_eq_some_iff distinct,
    SearchIndex.mem_search_iff]
  constructor
  · rintro ⟨path, ⟨nonempty, inAll⟩, member, rfl⟩
    rcases List.exists_mem_of_ne_nil _ nonempty with ⟨word, wordMem⟩
    have read := Source.mem_indexedWords_iff.mp ((indexed member word).mp (inAll word wordMem))
    refine ⟨member, read.1, nonempty, fun other otherMem => ?_⟩
    exact (Source.mem_indexedWords_iff.mp ((indexed member other).mp (inAll other otherMem))).2
  · rintro ⟨member, read, nonempty, inAll⟩
    refine ⟨source.path, ⟨nonempty, fun word wordMem => ?_⟩, member, rfl⟩
    exact (indexed member word).mpr (Source.mem_indexedWords_iff.mpr ⟨read, inAll word wordMem⟩)

theorem Holds.mem_completeWord_iff (holds : Holds corpus options sources) {start suffix : String} :
    suffix ∈ corpus.completeWord start ↔ ∃ source ∈ sources, source.document?.isSome = true
      ∧ Text.lowercase start ++ suffix ∈ source.words := by
  rw [completeWord, Trie.mem_suffixes_iff holds.indexed.tidyWords, holds.indexed.words,
    List.count_pos_iff, List.mem_flatMap]
  simp only [Source.mem_indexedWords_iff]

theorem Holds.mem_completeSignature_iff (holds : Holds corpus options sources)
    {start suffix : String} : suffix ∈ corpus.completeSignature start
      ↔ ∃ source ∈ sources, ∃ entry ∈ source.entries, ∃ signature ∈ entry.signatures,
        signature.form = start ++ suffix := by
  rw [completeSignature, Trie.mem_suffixes_iff holds.indexed.tidyForms, holds.indexed.forms,
    List.count_pos_iff, List.mem_flatMap]
  simp only [Source.forms, Source.signatures, List.mem_map, List.mem_flatMap]
  constructor
  · rintro ⟨source, member, signature, ⟨entry, entryMem, signatureMem⟩, same⟩
    exact ⟨source, member, entry, entryMem, signature, signatureMem, same⟩
  · rintro ⟨source, member, entry, entryMem, signature, signatureMem, same⟩
    exact ⟨source, member, signature, ⟨entry, entryMem, signatureMem⟩, same⟩

end Holding

/-- After any edits a search finds exactly the files that read as documents and hold every word of
the query, each once and in the natural order of their paths. Words are completed to the words of
these files, and signatures to what their entries introduce, in strictly rising order. -/
theorem queries_exact (options : Options) (edits : List Edit) (text : String) :
    ((∀ source, source ∈ (afterEdits options edits).find text
        ↔ source ∈ survivors edits ∧ source.document?.isSome = true ∧ Text.words text ≠ []
          ∧ ∀ word ∈ Text.words text, word ∈ source.words)
      ∧ (((afterEdits options edits).find text).map Source.path).Nodup
      ∧ ((afterEdits options edits).find text).Pairwise fun first second =>
        comparePaths first.path second.path ≠ .gt)
    ∧ ((∀ suffix, suffix ∈ (afterEdits options edits).completeWord text
        ↔ ∃ source ∈ survivors edits, source.document?.isSome = true
          ∧ Text.lowercase text ++ suffix ∈ source.words)
      ∧ ((afterEdits options edits).completeWord text).Pairwise (· < ·))
    ∧ (∀ suffix, suffix ∈ (afterEdits options edits).completeSignature text
        ↔ ∃ source ∈ survivors edits, ∃ entry ∈ source.entries, ∃ signature ∈ entry.signatures,
          signature.form = text ++ suffix)
      ∧ ((afterEdits options edits).completeSignature text).Pairwise (· < ·) := by
  have holds := holds_afterEdits options edits
  have distinct := distinct_survivors edits
  have paths := holds.map_path_find distinct text
  refine ⟨⟨fun _ => holds.mem_find_iff distinct, ?_, ?_⟩,
    ⟨fun _ => holds.mem_completeWord_iff, Trie.pairwise_suffixes holds.indexed.tidyWords _⟩,
    fun _ => holds.mem_completeSignature_iff, Trie.pairwise_suffixes holds.indexed.tidyForms _⟩
  · rw [paths]
    exact SearchIndex.nodup_search holds.indexed.neat text
  · have rising := SearchIndex.pairwise_search (afterEdits options edits).search text
    rw [← paths, List.pairwise_map] at rising
    refine rising.imp fun below after => ?_
    simp [pathLe, after] at below

end Treatise.Corpus
