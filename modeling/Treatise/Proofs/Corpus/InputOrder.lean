import Treatise.Proofs.Corpus.Checks

/-!
# The order in which files are given

The files of a corpus can be given in any order, and most of what it answers does not show in which.
What a signature refers to is decided by the first file that introduces it, and the checks for
duplicates look at files whose paths the natural order does not tell apart in the order in which
they were given. Both show only where files introduce the same signature or have such paths.

Main statement: in whatever order texts are given, signatures that the same file introduces first
refer to the same. If all signatures do and the natural order tells the paths apart, then the checks
find the same.
-/

namespace Treatise.Corpus

open Document (Entry)

/-- The file that introduces a signature first. -/
def firstIntroducing? (sources : List Source) (signature : String) : Option Source :=
  sources.find? fun source => signature ∈ source.forms

/-- The natural order tells the paths of the files apart that read as documents. -/
def ToldApart (sources : List Source) : Prop :=
  ∀ first ∈ sources, ∀ second ∈ sources, first.document?.isSome → second.document?.isSome →
    comparePaths first.path second.path = .eq → first.path = second.path

theorem Source.read_of_mem_referencesFor {source : Source} {form : String} {reference : Reference}
    (present : reference ∈ source.referencesFor form) : source.document?.isSome := by
  by_contra unread
  rw [(contributions_of_unread (by simpa using unread)).1] at present
  cases present

theorem Source.read_of_mem_normalizedEntries {source : Source} {placed : Placed}
    (present : placed ∈ source.normalizedEntries) : source.document?.isSome := by
  by_contra unread
  rw [(contributions_of_unread (by simpa using unread)).2.1] at present
  cases present

/-- The first reference to a signature lies in the file that introduces it first. -/
theorem head?_references (sources : List Source) (signature : String) :
    (sources.flatMap (·.referencesFor signature)).head?
      = (firstIntroducing? sources signature).bind fun source =>
        (source.referencesFor signature).head? := by
  induction sources with
  | nil => rfl
  | cons first rest ih =>
      by_cases introduced : signature ∈ first.forms
      · have nonempty := mt Source.referencesFor_eq_nil_iff.mp (not_not.mpr introduced)
        rw [List.flatMap_cons, List.head?_append_of_ne_nil _ nonempty, firstIntroducing?,
          List.find?_cons_of_pos (by simpa using introduced), Option.bind_some]
      · rw [List.flatMap_cons, Source.referencesFor_eq_nil introduced, List.nil_append, ih,
          firstIntroducing?, firstIntroducing?, List.find?_cons_of_neg (by simpa using introduced)]

section Permuted

variable {first second : Corpus} {options : Options} {sources sources' : List Source}
  (holds : Holds first options sources) (holds' : Holds second options sources')
  (distinct : Distinct sources) (permuted : sources.Perm sources')

theorem distinct_of_perm (distinct : Distinct sources) (permuted : sources.Perm sources') :
    Distinct sources' :=
  (permuted.map Source.path).nodup_iff.mp distinct

/-- References are sorted alike if the natural order tells the files apart in which they lie. -/
theorem mergeSort_flatMap_eq_of_perm {α : Type} {parts : Source → List α} (key : α → Reference)
    (distinct : Distinct sources) (permuted : sources.Perm sources') (apart : ToldApart sources)
    (placed : ∀ source, ∀ part ∈ parts source,
      (key part).path = source.path ∧ source.document?.isSome) :
    (sources.flatMap parts).mergeSort (fun one other => referenceLe (key one) (key other))
      = (sources'.flatMap parts).mergeSort fun one other => referenceLe (key one) (key other) := by
  have sorts := sorts_referenceLe.of_key key
  refine sorts.mergeSort_eq_of_filter_tied fun value => ?_
  rw [List.filter_flatMap, List.filter_flatMap]
  -- Values that are tied with one value lie in one file.
  refine flatMap_eq_of_perm permuted fun one oneMem other otherMem nonempty nonempty' => ?_
  rcases List.exists_mem_of_ne_nil _ nonempty with ⟨part, partMem⟩
  rcases List.exists_mem_of_ne_nil _ nonempty' with ⟨part', partMem'⟩
  rcases List.mem_filter.mp partMem with ⟨present, ties⟩
  rcases List.mem_filter.mp partMem' with ⟨present', ties'⟩
  have close : tied referenceLe (key part) (key part') = true :=
    tied_iff.mpr ⟨sorts.le_of_tied ties ties', sorts.le_of_tied ties' ties⟩
  rcases placed one part present with ⟨path, read⟩
  rcases placed other part' present' with ⟨path', read'⟩
  refine eq_of_path_eq distinct oneMem otherMem (apart one oneMem other otherMem read read' ?_)
  rw [← path, ← path']
  exact comparePaths_of_tied close

include holds holds' distinct permuted

theorem Holds.files_eq_of_perm : first.files = second.files := by
  refine holds.sorted.ext holds'.sorted fun path => ?_
  rw [holds.files, holds'.files]
  refine Option.ext fun source => ?_
  rw [find?_path_eq_some_iff distinct, find?_path_eq_some_iff (distinct_of_perm distinct permuted),
    permuted.mem_iff]

theorem Holds.entry_eq_of_perm (path : String) (index : Nat) :
    first.entry path index = second.entry path index := by
  simp only [Corpus.entry, Corpus.document, file?,
    holds.files_eq_of_perm holds' distinct permuted]

/-- A signature that the same file introduces first refers to the same. -/
theorem Holds.introducing?_eq_of_perm {signature : String}
    (same : firstIntroducing? sources signature = firstIntroducing? sources' signature) :
    first.introducing? signature = second.introducing? signature := by
  refine introducing?_eq signature ?_ fun reference _ =>
    holds.entry_eq_of_perm holds' distinct permuted _ _
  rw [holds.indexed.references_eq, holds'.indexed.references_eq, head?_references,
    head?_references, same]

/-- All that the checks of entries look at is the same, if what signatures refer to is. -/
theorem Holds.alike_of_perm
    (kinds : ∀ signature, first.signatureKind? signature = second.signatureKind? signature)
    (ids : ∀ signature, first.definitionId? signature = second.definitionId? signature) :
    Alike first second := by
  have sameOptions : first.options = second.options := holds.options.trans holds'.options.symm
  have sameEntries : first.entries = second.entries := by
    simp only [entries, sortedFiles, holds.files_eq_of_perm holds' distinct permuted]
  refine ⟨sameOptions, sameEntries, ?_, fun signature => ?_, kinds, ids⟩
  · rw [holds.engine, holds'.engine, freshEngine, freshEngine, sameEntries, sameOptions]
  · rw [Bool.eq_iff_iff, holds.indexed.isDefined_iff, holds'.indexed.isDefined_iff]
    simp only [permuted.mem_iff]

theorem Holds.duplicateSignatures_eq_of_perm (apart : ToldApart sources) :
    first.duplicateSignatures = second.duplicateSignatures := by
  have lists := holds.indexed.references
  have lists' := holds'.indexed.references
  have keys : first.signatures.keys = second.signatures.keys := by
    refine holds.indexed.filled.keys_eq holds'.indexed.filled fun signature => ?_
    simp only [lists, lists', List.flatMap_eq_nil_iff, permuted.mem_iff]
  have ordered : ∀ signature, (first.signatures.listAt signature).mergeSort referenceLe
      = (second.signatures.listAt signature).mergeSort referenceLe := by
    intro signature
    rw [lists, lists']
    exact mergeSort_flatMap_eq_of_perm id distinct permuted apart fun source reference present =>
      ⟨Source.path_of_mem_referencesFor present, Source.read_of_mem_referencesFor present⟩
  simp only [duplicateSignatures, holds.indexed.filled.entries_eq,
    holds'.indexed.filled.entries_eq, List.flatMap_map, keys, ordered]

theorem Holds.duplicateContent_eq_of_perm (apart : ToldApart sources) :
    first.duplicateContent = second.duplicateContent := by
  refine duplicateContent_eq ?_ fun placed _ => holds.entry_eq_of_perm holds' distinct permuted _ _
  rw [holds.indexed.normalized, holds'.indexed.normalized]
  exact mergeSort_flatMap_eq_of_perm (fun placed : Placed => ⟨placed.path, placed.index, .start⟩)
    distinct permuted apart fun source placed present =>
      ⟨Source.path_of_mem_normalizedEntries present, Source.read_of_mem_normalizedEntries present⟩

theorem Holds.check_eq_of_perm (apart : ToldApart sources)
    (kinds : ∀ signature, first.signatureKind? signature = second.signatureKind? signature)
    (ids : ∀ signature, first.definitionId? signature = second.definitionId? signature) :
    first.check = second.check := by
  have alike := holds.alike_of_perm holds' distinct permuted kinds ids
  have parse : first.parseErrors = second.parseErrors := by
    rw [parseErrors, parseErrors, holds.files_eq_of_perm holds' distinct permuted]
  rw [check_eq, check_eq, parse, alike.documentFindings_eq
    (holds.duplicateSignatures_eq_of_perm holds' distinct permuted apart)
    (holds.duplicateContent_eq_of_perm holds' distinct permuted apart)]

end Permuted

/-! ## Texts -/

/-- The files that texts under paths are read as. -/
def sourcesOf (texts : List (String × String)) : List Source :=
  texts.map fun (path, content) => .read path content

theorem ofTexts_eq (options : Options) (texts : List (String × String)) :
    ofTexts options texts = ofSources options (sourcesOf texts) := by
  rw [ofSources, sourcesOf, List.foldl_map]
  rfl

theorem distinct_sourcesOf {texts : List (String × String)}
    (distinct : (texts.map Prod.fst).Nodup) : Distinct (sourcesOf texts) := by
  rwa [Distinct, sourcesOf, List.map_map]

/-- If texts under different paths are given in two orders, then a signature refers to the same in
both unless different files are the first to introduce it. If all signatures do and the natural
order tells the paths of the documents apart, then the checks find the same. -/
theorem answers_of_permuted_texts (options : Options) {texts texts' : List (String × String)}
    (distinct : (texts.map Prod.fst).Nodup) (permuted : texts.Perm texts') :
    (∀ signature,
      firstIntroducing? (sourcesOf texts) signature
        = firstIntroducing? (sourcesOf texts') signature →
        (ofTexts options texts).definition? signature
          = (ofTexts options texts').definition? signature
          ∧ (ofTexts options texts).definitionId? signature
            = (ofTexts options texts').definitionId? signature
          ∧ (ofTexts options texts).signatureKind? signature
            = (ofTexts options texts').signatureKind? signature)
      ∧ (ToldApart (sourcesOf texts)
        → (∀ signature, (ofTexts options texts).signatureKind? signature
          = (ofTexts options texts').signatureKind? signature)
        → (∀ signature, (ofTexts options texts).definitionId? signature
          = (ofTexts options texts').definitionId? signature)
        → (ofTexts options texts).check = (ofTexts options texts').check) := by
  have sources := distinct_sourcesOf distinct
  have reordered : (sourcesOf texts).Perm (sourcesOf texts') := permuted.map _
  have holds := holds_ofSources options sources
  have holds' := holds_ofSources options (distinct_of_perm sources reordered)
  rw [← ofTexts_eq] at holds holds'
  exact ⟨fun signature same => answers_of_introducing signature
      (holds.introducing?_eq_of_perm holds' sources reordered same),
    fun apart => holds.check_eq_of_perm holds' sources reordered apart⟩

/-- A file that introduces nothing can be given before or after the file whose signature it uses. -/
theorem order_hidden_if_introduced_once : ∃ defining citing,
    defining = ("a.math", "[\\a]\nDefines: x\n")
      ∧ citing = ("b.math", "Theorem:\nthen: 'x is \\a'\n")
      ∧ (ofTexts defaultOptions [defining, citing]).signatureKind? "\\a"
        = (ofTexts defaultOptions [citing, defining]).signatureKind? "\\a"
      ∧ (ofTexts defaultOptions [defining, citing]).check
        = (ofTexts defaultOptions [citing, defining]).check := by
  let defining := ("a.math", "[\\a]\nDefines: x\n")
  let citing := ("b.math", "Theorem:\nthen: 'x is \\a'\n")
  have bare : (Source.read "b.math" "Theorem:\nthen: 'x is \\a'\n").forms = [] := by
    decide +kernel
  have same : ∀ signature, firstIntroducing? (sourcesOf [defining, citing]) signature
      = firstIntroducing? (sourcesOf [citing, defining]) signature := by
    intro signature
    simp [firstIntroducing?, sourcesOf, defining, citing, List.find?_cons, bare]
  have apart : ToldApart (sourcesOf [defining, citing]) := by
    have differs : comparePaths "a.math" "b.math" = .lt := by decide +kernel
    have differs' : comparePaths "b.math" "a.math" = .gt := by decide +kernel
    intro first firstMem second secondMem _ _ close
    simp only [sourcesOf, defining, citing, List.map_cons, List.map_nil, List.mem_cons,
      List.not_mem_nil, or_false] at firstMem secondMem
    rcases firstMem with rfl | rfl <;> rcases secondMem with rfl | rfl
    · rfl
    · exact absurd (differs.symm.trans close) (by simp)
    · exact absurd (differs'.symm.trans close) (by simp)
    · rfl
  have distinct : ([defining, citing].map Prod.fst).Nodup := by simp [defining, citing]
  have permuted : [defining, citing].Perm [citing, defining] := .swap ..
  rcases answers_of_permuted_texts defaultOptions distinct permuted with ⟨answers, checks⟩
  exact ⟨defining, citing, rfl, rfl, (answers "\\a" (same _)).2.2,
    checks apart (fun signature => (answers signature (same _)).2.2)
      fun signature => (answers signature (same _)).2.1⟩

/-- What a signature refers to that two files introduce depends on which of them is given first. -/
theorem order_shown_if_introduced_twice :
    [("a.math", "[\\a]\nDefines: x\n"), ("b.math", "[\\a]\nStates:\nthat: 'x'\n")].Perm
        [("b.math", "[\\a]\nStates:\nthat: 'x'\n"), ("a.math", "[\\a]\nDefines: x\n")]
      ∧ (ofTexts defaultOptions [("a.math", "[\\a]\nDefines: x\n"),
        ("b.math", "[\\a]\nStates:\nthat: 'x'\n")]).signatureKind? "\\a" = some (.defines false)
      ∧ (ofTexts defaultOptions [("b.math", "[\\a]\nStates:\nthat: 'x'\n"),
        ("a.math", "[\\a]\nDefines: x\n")]).signatureKind? "\\a" = some .states := by
  exact ⟨.swap .., by decide +kernel, by decide +kernel⟩

end Treatise.Corpus
