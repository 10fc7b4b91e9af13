import Treatise.Proofs.Corpus.PathOrder
import Treatise.Proofs.Corpus.Undefined

/-!
# What the checks of a corpus depend on

The checks go through the entries of the files, look at the references to signatures, and ask for
the definition or the kind of a signature. Two corpora are alike if all that the checks of entries
look at is the same. The files that do not read as documents have findings of their own, and all
other findings lie in files that do.
-/

namespace Treatise.Corpus

open Document (Entry)

variable {corpus first second : Corpus} {options : Options} {sources : List Source}

/-! ## Findings in documents -/

/-- What the checks find in files that read as documents. -/
def documentFindings (corpus : Corpus) : List Finding :=
  corpus.idErrors ++ corpus.duplicateSignatures ++ corpus.undefinedSignatures
    ++ corpus.invalidTypes shapeAnalyzer ++ corpus.illegalReferences ++ corpus.scopingErrors
    ++ corpus.nonExpressingUses ++ corpus.duplicateContent

theorem check_eq (corpus : Corpus) :
    corpus.check = Finding.sort (corpus.parseErrors ++ corpus.documentFindings) := by
  simp only [check, checkWith, documentFindings, List.append_assoc]

theorem mem_entries_of_mem_inEntries {find : Entry → List Diagnostic} {finding : Finding}
    (found : finding ∈ corpus.inEntries find) :
    ∃ placed ∈ corpus.entries, placed.path = finding.path := by
  rcases List.mem_flatMap.mp found with ⟨placed, member, foundHere⟩
  rcases List.mem_map.mp foundHere with ⟨_, -, rfl⟩
  exact ⟨placed, member, rfl⟩

theorem mem_of_mem_duplicatesFrom {reported : List (String × Nat)} {finding : Finding}
    {references : List (String × Reference)}
    (found : finding ∈ duplicatesFrom reported references) :
    ∃ reference ∈ references, reference.2.path = finding.path := by
  induction references generalizing reported with
  | nil => simp [duplicatesFrom] at found
  | cons first rest ih =>
      rw [duplicatesFrom] at found
      split_ifs at found
      · rcases ih found with ⟨reference, member, same⟩
        exact ⟨reference, List.mem_cons_of_mem first member, same⟩
      · rcases List.mem_cons.mp found with rfl | later
        · exact ⟨first, List.mem_cons_self, rfl⟩
        · rcases ih later with ⟨reference, member, same⟩
          exact ⟨reference, List.mem_cons_of_mem first member, same⟩

theorem mem_of_mem_repeatedFrom {earlier : List Entry} {placed : Placed} {all : List Placed}
    (found : placed ∈ repeatedFrom earlier all) : placed ∈ all := by
  induction all generalizing earlier with
  | nil => simp [repeatedFrom] at found
  | cons first rest ih =>
      rw [repeatedFrom] at found
      split_ifs at found
      · rcases List.mem_cons.mp found with rfl | later
        · exact List.mem_cons_self
        · exact List.mem_cons_of_mem first (ih later)
      · exact List.mem_cons_of_mem first (ih found)

theorem Holds.path_of_mem_entries (holds : Holds corpus options sources)
    (distinct : Distinct sources) {placed : Placed} (present : placed ∈ corpus.entries) :
    ∃ source ∈ sources, source.path = placed.path := by
  rcases (holds.mem_entries_iff distinct).mp present with ⟨source, member, place⟩
  exact ⟨source, member, (Source.path_of_mem_placedEntries place).symm⟩

theorem Indexed.references_eq (indexed : Indexed corpus sources) (form : String) :
    corpus.references form = sources.flatMap (·.referencesFor form) :=
  indexed.references form

theorem Indexed.isDefined_iff (indexed : Indexed corpus sources) {signature : String} :
    corpus.isDefined signature = true ↔ ∃ source ∈ sources, signature ∈ source.forms := by
  rw [← not_iff_not, Bool.not_eq_true, indexed.isDefined_eq_false_iff]
  simp [Source.forms]

theorem Indexed.path_of_mem_references (indexed : Indexed corpus sources) {form : String}
    {reference : Reference} (present : reference ∈ corpus.references form) :
    ∃ source ∈ sources, source.path = reference.path := by
  rw [indexed.references_eq] at present
  rcases List.mem_flatMap.mp present with ⟨source, member, referenced⟩
  exact ⟨source, member, (Source.path_of_mem_referencesFor referenced).symm⟩

theorem Indexed.path_of_mem_normalized (indexed : Indexed corpus sources) {placed : Placed}
    (present : placed ∈ corpus.normalized) : ∃ source ∈ sources, source.path = placed.path := by
  rw [indexed.normalized] at present
  rcases List.mem_flatMap.mp present with ⟨source, member, place⟩
  exact ⟨source, member, (Source.path_of_mem_normalizedEntries place).symm⟩

theorem Holds.path_of_mem_duplicateSignatures (holds : Holds corpus options sources)
    {finding : Finding} (found : finding ∈ corpus.duplicateSignatures) :
    ∃ source ∈ sources, source.path = finding.path := by
  rcases mem_of_mem_duplicatesFrom (List.mem_mergeSort.mp found) with ⟨reference, member, same⟩
  rcases List.mem_flatMap.mp member with ⟨⟨form, references⟩, entryMem, later⟩
  rcases List.mem_map.mp later with ⟨reference, dropped, rfl⟩
  have listed : reference ∈ references := List.mem_mergeSort.mp (List.mem_of_mem_drop dropped)
  have present := (Table.find?_eq_some_iff holds.indexed.filled.sorted).mpr entryMem
  have referred : reference ∈ corpus.references form := by
    simpa [Corpus.references, present] using listed
  rw [← same]
  exact holds.indexed.path_of_mem_references referred

theorem Holds.path_of_mem_duplicateContent (holds : Holds corpus options sources)
    {finding : Finding} (found : finding ∈ corpus.duplicateContent) :
    ∃ source ∈ sources, source.path = finding.path := by
  rcases List.mem_filterMap.mp found with ⟨placed, again, reported⟩
  have present : placed ∈ corpus.normalized := List.mem_mergeSort.mp (mem_of_mem_repeatedFrom again)
  split at reported
  · cases reported
    exact holds.indexed.path_of_mem_normalized present
  · cases reported

theorem Holds.path_of_mem_documentFindings (holds : Holds corpus options sources)
    (distinct : Distinct sources) {finding : Finding} (found : finding ∈ corpus.documentFindings) :
    ∃ source ∈ sources, source.path = finding.path := by
  have ofEntries : ∀ {find : Entry → List Diagnostic}, finding ∈ corpus.inEntries find →
      ∃ source ∈ sources, source.path = finding.path := by
    intro find foundHere
    rcases mem_entries_of_mem_inEntries foundHere with ⟨placed, member, same⟩
    rw [← same]
    exact holds.path_of_mem_entries distinct member
  simp only [documentFindings, List.mem_append, or_assoc] at found
  rcases found with ids | duplicates | undefined | types | illegal | scoping | bare | again
  · exact ofEntries ids
  · exact holds.path_of_mem_duplicateSignatures duplicates
  · exact ofEntries undefined
  · exact ofEntries types
  · exact ofEntries illegal
  · exact ofEntries scoping
  · exact ofEntries bare
  · exact holds.path_of_mem_duplicateContent again

/-! ## Findings in texts -/

/-- The diagnostics of a text are those of its tokens, of its groups and of its document. -/
theorem diagnostics_read (path content : String) : (Source.read path content).diagnostics
    = Diagnostic.sortByLocation ((Layout.read content).diagnostics
        ++ (Outline.read (Layout.read content).tokens).problems.map Outline.Fault.diagnostic
        ++ (Document.ofOutline (Outline.read (Layout.read content).tokens).value).problems.map
          Document.Fault.diagnostic) := by
  simp only [Source.diagnostics, Source.read, Document.read]
  split_ifs with clean
  · exact (List.isEmpty_iff.mp clean).symm
  · rfl

/-- What is wrong with a file is among the findings of the checks. -/
theorem Holds.mem_check_of_mem_diagnostics (holds : Holds corpus options sources)
    (distinct : Distinct sources) {source : Source} {diagnostic : Diagnostic}
    (member : source ∈ sources) (wrong : diagnostic ∈ source.diagnostics) :
    ⟨source.path, diagnostic⟩ ∈ corpus.check := by
  rw [check_eq, Finding.sort, List.mem_mergeSort, List.mem_append, parseErrors, Finding.sort,
    List.mem_mergeSort, List.mem_flatMap]
  exact .inl ⟨source, (holds.mem_values_iff distinct).mpr member, List.mem_map_of_mem wrong⟩

/-! ## Corpora that are alike -/

/-- All that the checks of entries look at is the same. -/
structure Alike (first second : Corpus) : Prop where
  options : first.options = second.options
  entries : first.entries = second.entries
  engine : first.engine = second.engine
  isDefined : ∀ signature, first.isDefined signature = second.isDefined signature
  signatureKind : ∀ signature, first.signatureKind? signature = second.signatureKind? signature
  definitionId : ∀ signature, first.definitionId? signature = second.definitionId? signature

theorem Alike.inEntries_eq (alike : Alike first second) {find find' : Entry → List Diagnostic}
    (agree : ∀ entry, find entry = find' entry) :
    first.inEntries find = second.inEntries find' := by
  rw [inEntries, inEntries, alike.entries, funext agree]

theorem Alike.undefinedSignatures_eq (alike : Alike first second) :
    first.undefinedSignatures = second.undefinedSignatures :=
  alike.inEntries_eq fun entry => by
    simp only [undefinedIn, alike.options, alike.isDefined]

theorem Alike.invalidTypes_eq (alike : Alike first second) :
    first.invalidTypes shapeAnalyzer = second.invalidTypes shapeAnalyzer :=
  alike.inEntries_eq fun entry => by
    simp only [shapeAnalyzer, misshapen, alike.engine, alike.definitionId]

theorem Alike.illegalReferences_eq (alike : Alike first second) :
    first.illegalReferences = second.illegalReferences := by
  have isRight : first.illegalIs? = second.illegalIs? := by
    funext expr
    simp only [illegalIs?, alike.signatureKind]
  have inRight : first.nonExpressing? = second.nonExpressing? := by
    funext expr
    simp only [nonExpressing?, alike.signatureKind]
  have nodes : first.illegalAt = second.illegalAt := by
    funext expr
    unfold illegalAt
    rw [isRight, inRight]
  exact alike.inEntries_eq fun entry => by rw [nodes]

theorem Alike.nonExpressingUses_eq (alike : Alike first second) :
    first.nonExpressingUses = second.nonExpressingUses :=
  alike.inEntries_eq fun entry => by
    simp only [nonExpressingIn, alike.signatureKind]

/-- Alike corpora with the same duplicates have the same findings in documents. -/
theorem Alike.documentFindings_eq (alike : Alike first second)
    (signatures : first.duplicateSignatures = second.duplicateSignatures)
    (content : first.duplicateContent = second.duplicateContent) :
    first.documentFindings = second.documentFindings := by
  have ids : first.idErrors = second.idErrors := alike.inEntries_eq fun _ => rfl
  have scoping : first.scopingErrors = second.scopingErrors := alike.inEntries_eq fun _ => rfl
  rw [documentFindings, documentFindings, ids, signatures, alike.undefinedSignatures_eq,
    alike.invalidTypes_eq, alike.illegalReferences_eq, scoping, alike.nonExpressingUses_eq, content]

theorem duplicateContent_eq
    (ordered : first.normalized.mergeSort placedLe = second.normalized.mergeSort placedLe)
    (entries : ∀ placed ∈ first.normalized,
      first.entry placed.path placed.index = second.entry placed.path placed.index) :
    first.duplicateContent = second.duplicateContent := by
  change (repeatedFrom [] (first.normalized.mergeSort placedLe)).filterMap _
    = (repeatedFrom [] (second.normalized.mergeSort placedLe)).filterMap _
  rw [← ordered]
  refine List.filterMap_congr fun placed again => ?_
  rw [entries placed (List.mem_mergeSort.mp (mem_of_mem_repeatedFrom again))]

/-! ## What a signature refers to -/

/-- What a signature refers to depends on the entry that introduced it first. -/
theorem answers_of_introducing (signature : String)
    (same : first.introducing? signature = second.introducing? signature) :
    first.definition? signature = second.definition? signature
      ∧ first.definitionId? signature = second.definitionId? signature
      ∧ first.signatureKind? signature = second.signatureKind? signature := by
  have definition : first.definition? signature = second.definition? signature := by
    rw [definition?, definition?, same]
  refine ⟨definition, ?_, ?_⟩
  · rw [definitionId?, definitionId?, definition]
  · rw [signatureKind?, signatureKind?, same, definition]

/-- The entry that introduced a signature first is found by the first reference to it. -/
theorem introducing?_eq (signature : String)
    (heads : (first.references signature).head? = (second.references signature).head?)
    (entries : ∀ reference ∈ first.references signature,
      first.entry reference.path reference.index = second.entry reference.path reference.index) :
    first.introducing? signature = second.introducing? signature := by
  rw [introducing?, introducing?, ← heads]
  cases found : (first.references signature).head? with
  | none => rfl
  | some reference =>
      have same := entries reference (List.mem_of_mem_head? found)
      simp only [Option.bind_eq_bind, Option.bind_some, same]

/-- The entries that introduce a signature are those that its references resolve to. -/
theorem withSignature_eq (signature : String)
    (found : first.signatures.find? signature = second.signatures.find? signature)
    (resolved : ∀ reference ∈ first.references signature,
      first.resolve reference = second.resolve reference) :
    first.withSignature signature = second.withSignature signature := by
  have mapped : ∀ references : List Reference,
      (∀ reference ∈ references, first.resolve reference = second.resolve reference) →
        references.mapM first.resolve = references.mapM second.resolve := by
    intro references
    induction references with
    | nil => exact fun _ => rfl
    | cons head rest ih =>
        intro agree
        rw [List.mapM_cons, List.mapM_cons, agree head List.mem_cons_self,
          ih fun reference member => agree reference (List.mem_cons_of_mem head member)]
  rw [withSignature, withSignature, ← found]
  cases listed : first.signatures.find? signature with
  | none => rfl
  | some references => exact mapped references (by simpa [Corpus.references, listed] using resolved)

end Treatise.Corpus
