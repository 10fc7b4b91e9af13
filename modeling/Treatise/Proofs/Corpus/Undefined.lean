import Treatise.Proofs.Corpus.History
import Treatise.Proofs.Statement.Usage

/-!
# Signatures that nothing introduces

The check for undefined signatures goes through all statements of the files that survive the edits
of a corpus. It searches each statement for the nodes that refer to signatures, and asks whether an
entry of a file introduces the signature or an abbreviation of the entry itself does.

Main statement: it finds exactly the references that the search comes to and that nothing
introduces. The search comes to all of them unless an operator before its operand holds something in
brackets.
-/

namespace Treatise.Corpus

open Document (Clauses Entry)
open Statement (Expr Use)

variable {corpus : Corpus} {options : Options} {sources : List Source} {signature : String}

/-! ## What introduces a signature -/

/-- Neither an entry of the files nor an abbreviation in the entry itself introduces a signature. -/
structure Unknown (sources : List Source) (entry : Entry) (signature : String) : Prop where
  introduced : ∀ source ∈ sources, ∀ found ∈ source.signatures, found.form ≠ signature
  abbreviated : ∀ aliases ∈ entry.aliases, ∀ formula ∈ aliases.outerFormulas,
    ∀ left right location, formula.expr? = some (.assignment left right location) →
      left.soleCommand? ≠ some signature

theorem aliasSignature?_eq (left : Expr) : Expansion.aliasSignature? left = left.soleCommand? := by
  cases left with
  | call isCommand word groups location => cases isCommand <;> rfl
  | _ => rfl

theorem mem_aliasSignatures_iff {aliases : Clauses} :
    signature ∈ Expansion.aliasSignatures aliases ↔ ∃ formula ∈ aliases.outerFormulas,
      ∃ left right location, formula.expr? = some (.assignment left right location)
        ∧ left.soleCommand? = some signature := by
  simp only [Expansion.aliasSignatures, Expansion.assignments, List.mem_filterMap,
    aliasSignature?_eq]
  constructor
  · rintro ⟨⟨left, right⟩, ⟨formula, member, found⟩, sole⟩
    split at found
    · next left' right' location reading =>
      cases found
      exact ⟨formula, member, left, right, location, reading, sole⟩
    · cases found
  · rintro ⟨formula, member, left, right, location, reading, sole⟩
    exact ⟨(left, right), ⟨formula, member, by simp [reading]⟩, sole⟩

theorem Source.referencesFor_eq_nil_iff {source : Source} :
    source.referencesFor signature = [] ↔ signature ∉ source.forms := by
  refine ⟨fun bare member => ?_, referencesFor_eq_nil⟩
  rw [← map_fst_introductions] at member
  rcases List.mem_map.mp member with ⟨found, introduced, rfl⟩
  have present : found ∈ source.introductions.filter fun other => other.1 = found.1 :=
    List.mem_filter.mpr ⟨introduced, by simp⟩
  rw [referencesFor, List.map_eq_nil_iff] at bare
  rw [bare] at present
  cases present

theorem Indexed.isDefined_eq_false_iff (indexed : Indexed corpus sources) :
    corpus.isDefined signature = false
      ↔ ∀ source ∈ sources, ∀ found ∈ source.signatures, found.form ≠ signature := by
  have unlisted : corpus.isDefined signature = false ↔ corpus.signatures.listAt signature = [] := by
    cases found : corpus.signatures.find? signature with
    | none => simp [isDefined, Table.contains, Table.listAt, found]
    | some references =>
        have filled := indexed.filled.nonempty found
        simp [isDefined, Table.contains, Table.listAt, found, filled]
  rw [unlisted, indexed.references, List.flatMap_eq_nil_iff]
  simp [Source.referencesFor_eq_nil_iff, Source.forms]

theorem Indexed.unknown_iff (indexed : Indexed corpus sources) {entry : Entry} :
    Unknown sources entry signature ↔ corpus.isDefined signature = false
      ∧ ¬ ∃ aliases ∈ entry.aliases, signature ∈ Expansion.aliasSignatures aliases := by
  simp only [indexed.isDefined_eq_false_iff, mem_aliasSignatures_iff]
  constructor
  · rintro ⟨introduced, abbreviated⟩
    refine ⟨introduced, ?_⟩
    rintro ⟨aliases, member, formula, formulaMem, left, right, location, reading, sole⟩
    exact abbreviated aliases member formula formulaMem left right location reading sole
  · rintro ⟨introduced, absent⟩
    refine ⟨introduced, ?_⟩
    intro aliases member formula formulaMem left right location reading sole
    exact absent ⟨aliases, member, formula, formulaMem, left, right, location, reading, sole⟩

/-! ## What is searched -/

theorem Holds.mem_values_iff (holds : Holds corpus options sources) (distinct : Distinct sources)
    {source : Source} : source ∈ corpus.files.values ↔ source ∈ sources := by
  simp only [Table.values, List.mem_map, Prod.exists, exists_eq_right,
    ← Table.find?_eq_some_iff holds.sorted, holds.files, find?_path_eq_some_iff distinct]
  simp

theorem Holds.mem_entries_iff (holds : Holds corpus options sources) (distinct : Distinct sources)
    {placed : Placed} :
    placed ∈ corpus.entries ↔ ∃ source ∈ sources, placed ∈ placedEntries source := by
  simp only [entries, List.mem_flatMap, sortedFiles, sortByPath, List.mem_mergeSort,
    holds.mem_values_iff distinct]

theorem mem_inEntries_iff {find : Entry → List Diagnostic} {finding : Finding}
    (holds : Holds corpus options sources) (distinct : Distinct sources) :
    finding ∈ corpus.inEntries find ↔ ∃ source ∈ sources, ∃ entry ∈ source.entries,
      ∃ diagnostic ∈ find entry, finding = ⟨source.path, diagnostic⟩ := by
  simp only [inEntries, List.mem_flatMap, List.mem_map, holds.mem_entries_iff distinct]
  constructor
  · rintro ⟨placed, ⟨source, member, place⟩, diagnostic, found, rfl⟩
    rcases List.mem_map.mp place with ⟨⟨entry, index⟩, entryMem, rfl⟩
    exact ⟨source, member, entry, (List.mem_zipIdx' entryMem).2 ▸ List.getElem_mem _, diagnostic,
      found, rfl⟩
  · rintro ⟨source, member, entry, entryMem, diagnostic, found, rfl⟩
    rcases List.getElem?_of_mem entryMem with ⟨index, stands⟩
    exact ⟨⟨source.path, index, entry⟩, ⟨source, member, List.mem_map.mpr ⟨(entry, index),
      List.mem_zipIdx_iff_getElem?.mpr stands, rfl⟩⟩, diagnostic, found, rfl⟩

/-! ## What is found -/

/-- A finding is that a node refers to a signature which nothing introduces. The node is one that
steps to parts lead down to from a statement of a file. If operators are skipped, then an operator
counts only if its signature begins like that of a command. -/
def UndefinedUse (parts : Expr → List Expr) (skips : Bool) (sources : List Source)
    (finding : Finding) : Prop :=
  ∃ source ∈ sources, ∃ entry ∈ source.entries, ∃ formula ∈ entry.formulas, ∃ expr node signature,
    formula.expr? = some expr ∧ Expr.Within parts node expr ∧ node.Refers signature
      ∧ Unknown sources entry signature
      ∧ (skips = true → node.soleCommand? = none → Document.isOperatorForm signature = false)
      ∧ finding = .ofProblem source.path (.undefinedSignature signature)
        (node.location.within formula.origin)

/-- The signature of a command is not that of an operator. -/
theorem isOperatorForm_of_soleCommand {node : Expr} (refers : node.Refers signature)
    (sole : node.soleCommand? ≠ none) : Document.isOperatorForm signature = false := by
  cases refers with
  | command => simp [Document.isOperatorForm, Statement.commandSignature]
  | call => simp [Document.isOperatorForm]
  | operation => exact absurd rfl sole
  | prefixed => exact absurd rfl sole

/-- Whether operators are skipped or not, the signature of a command is looked at. -/
theorem looked_at_iff {skips : Bool} {node : Expr} (refers : node.Refers signature) :
    (skips && Document.isOperatorForm signature) = false
      ↔ (skips = true → node.soleCommand? = none → Document.isOperatorForm signature = false) := by
  rw [Bool.and_eq_false_imp]
  refine forall_congr' fun _ => ⟨fun plain _ => plain, fun plain => ?_⟩
  by_cases sole : node.soleCommand? = none
  · exact plain sole
  · exact isOperatorForm_of_soleCommand refers sole

theorem Indexed.mem_undefinedIn_iff (indexed : Indexed corpus sources) {entry : Entry}
    {found : Found} : found ∈ corpus.undefinedIn entry ↔ ∃ formula ∈ entry.formulas,
      ∃ expr node signature, formula.expr? = some expr ∧ Expr.Within Expr.searchedParts node expr
        ∧ node.Refers signature ∧ Unknown sources entry signature
        ∧ (corpus.options.skipOperatorSignatures = true → node.soleCommand? = none →
          Document.isOperatorForm signature = false)
        ∧ found = ⟨node.location.within formula.origin, .undefinedSignature signature⟩ := by
  simp only [undefinedIn, readable, List.mem_flatMap, List.mem_filterMap, List.mem_map,
    List.mem_filter, Expr.mem_uses_iff, Bool.and_eq_true, Bool.not_eq_true', List.contains_eq_mem,
    decide_eq_false_iff_not]
  constructor
  · rintro ⟨⟨expr, origin⟩, ⟨formula, member, reading⟩, use, ⟨⟨node, within, refers, place⟩,
      ⟨plain, undefined⟩, unnamed⟩, rfl⟩
    rcases Option.map_eq_some_iff.mp reading with ⟨expr', reading', same⟩
    cases same
    exact ⟨formula, member, expr, node, use.value, reading', within, refers,
      indexed.unknown_iff.mpr ⟨undefined, unnamed⟩, (looked_at_iff refers).mp plain, by rw [place]⟩
  · rintro ⟨formula, member, expr, node, signature, reading, within, refers, unknown, plain, rfl⟩
    rcases indexed.unknown_iff.mp unknown with ⟨undefined, unnamed⟩
    exact ⟨(expr, formula.origin), ⟨formula, member, by simp [reading]⟩, ⟨node.location, signature⟩,
      ⟨⟨node, within, refers, rfl⟩, ⟨(looked_at_iff refers).mpr plain, undefined⟩, unnamed⟩, rfl⟩

theorem mem_undefinedSignatures_iff (options : Options) (edits : List Edit) (finding : Finding) :
    finding ∈ (afterEdits options edits).undefinedSignatures
      ↔ UndefinedUse Expr.searchedParts options.skipOperatorSignatures
        (survivors edits) finding := by
  have holds := holds_afterEdits options edits
  rw [undefinedSignatures, mem_inEntries_iff holds (distinct_survivors edits)]
  simp only [List.mem_map, holds.indexed.mem_undefinedIn_iff, holds.options]
  constructor
  · rintro ⟨source, member, entry, entryMem, _, ⟨_, ⟨formula, formulaMem, expr, node, signature,
      reading, within, refers, unknown, plain, rfl⟩, rfl⟩, rfl⟩
    exact ⟨source, member, entry, entryMem, formula, formulaMem, expr, node, signature, reading,
      within, refers, unknown, plain, rfl⟩
  · rintro ⟨source, member, entry, entryMem, formula, formulaMem, expr, node, signature, reading,
      within, refers, unknown, plain, rfl⟩
    exact ⟨source, member, entry, entryMem, _, ⟨_, ⟨formula, formulaMem, expr, node, signature,
      reading, within, refers, unknown, plain, rfl⟩, rfl⟩, rfl⟩

/-- No operator before its operand holds anything in brackets in the statements of files. -/
def PrefixesBare (sources : List Source) : Prop :=
  ∀ source ∈ sources, ∀ entry ∈ source.entries, ∀ formula ∈ entry.formulas,
    ∀ expr, formula.expr? = some expr → expr.PrefixesBare

theorem PrefixesBare.undefinedUse_iff (bare : PrefixesBare sources) {skips : Bool}
    {finding : Finding} : UndefinedUse Expr.searchedParts skips sources finding
      ↔ UndefinedUse Expr.usedParts skips sources finding := by
  constructor
  · rintro ⟨source, member, entry, entryMem, formula, formulaMem, expr, node, signature, reading,
      within, rest⟩
    exact ⟨source, member, entry, entryMem, formula, formulaMem, expr, node, signature, reading,
      within.used, rest⟩
  · rintro ⟨source, member, entry, entryMem, formula, formulaMem, expr, node, signature, reading,
      within, rest⟩
    have searched := bare source member entry entryMem formula formulaMem expr reading
    exact ⟨source, member, entry, entryMem, formula, formulaMem, expr, node, signature, reading,
      searched.searched_iff.mpr within, rest⟩

/-- After any edits the check for undefined signatures reports exactly the uses of signatures that
nothing introduces, at the nodes that the search comes to in the statements of the files that
survive. Where no operator before its operand holds anything in brackets, these are all uses. -/
theorem undefinedSignatures_exact (options : Options) (edits : List Edit) (finding : Finding) :
    (finding ∈ (afterEdits options edits).undefinedSignatures
      ↔ UndefinedUse Expr.searchedParts options.skipOperatorSignatures (survivors edits) finding)
      ∧ (PrefixesBare (survivors edits) →
        (finding ∈ (afterEdits options edits).undefinedSignatures
          ↔ UndefinedUse Expr.usedParts options.skipOperatorSignatures
            (survivors edits) finding)) := by
  have searched := mem_undefinedSignatures_iff options edits finding
  exact ⟨searched, fun bare => searched.trans bare.undefinedUse_iff⟩

/-- A command that stands alone and that nothing introduces is reported. -/
theorem sole_command_reported :
    .ofProblem "a.math" (.undefinedSignature "\\g") ⟨1, 7⟩ ∈ (afterEdits defaultOptions
        [.add (.read "a.math" "Theorem:\nthen: '\\g'\n")]).undefinedSignatures
      ∧ UndefinedUse Expr.usedParts true
        (survivors [.add (.read "a.math" "Theorem:\nthen: '\\g'\n")])
        (.ofProblem "a.math" (.undefinedSignature "\\g") ⟨1, 7⟩) := by
  let source := Source.read "a.math" "Theorem:\nthen: '\\g'\n"
  have statements : (source.entries.all fun entry => entry.formulas.all fun formula =>
      formula.expr?.all fun expr => expr.usedParts.isEmpty && expr.soleCommand?.isSome) = true := by
    decide +kernel
  simp only [List.all_eq_true, Option.all_eq_true, Bool.and_eq_true, List.isEmpty_iff]
    at statements
  have bare : PrefixesBare (survivors [.add source]) := by
    intro other member entry entryMem formula formulaMem expr reading operator operand place within
    rw [List.mem_singleton.mp member] at entryMem
    rcases statements entry entryMem formula formulaMem expr reading with ⟨noParts, sole⟩
    rcases Expr.within_iff.mp within with rfl | ⟨part, partMem, -⟩
    · cases sole
    · rw [noParts] at partMem
      cases partMem
  have reported : .ofProblem "a.math" (.undefinedSignature "\\g") ⟨1, 7⟩
      ∈ (afterEdits defaultOptions [.add source]).undefinedSignatures := by
    decide +kernel
  exact ⟨reported, ((undefinedSignatures_exact defaultOptions [.add source] _).2 bare).mp reported⟩

/-- A command in the brackets of an operator before its operand is used there, but it is not
reported. -/
theorem brackets_of_prefix_unsearched :
    UndefinedUse Expr.usedParts true
        (survivors [.add (.read "a.math" "Theorem:\nthen: '\\f\x7b\\g\x7d/ x'\n")])
        (.ofProblem "a.math" (.undefinedSignature "\\g") ⟨1, 10⟩)
      ∧ .ofProblem "a.math" (.undefinedSignature "\\g") ⟨1, 10⟩ ∉ (afterEdits defaultOptions
        [.add (.read "a.math" "Theorem:\nthen: '\\f\x7b\\g\x7d/ x'\n")]).undefinedSignatures := by
  let source := Source.read "a.math" "Theorem:\nthen: '\\f\x7b\\g\x7d/ x'\n"
  have statement : (source.entries.any fun entry => entry.aliases.isEmpty
      && entry.formulas.any fun formula => formula.origin == ⟨1, 7⟩
        && formula.expr?.any fun expr => expr.usedParts.any fun part =>
          part.soleCommand? == some "\\g" && part.location == ⟨0, 3⟩) = true := by
    decide +kernel
  have unintroduced : source.signatures = [] := by decide +kernel
  simp only [List.any_eq_true, Option.any_eq_true, Bool.and_eq_true, beq_iff_eq,
    List.isEmpty_iff] at statement
  rcases statement with ⟨entry, entryMem, bare, formula, formulaMem, origin, expr, reading, part,
    partMem, sole, place⟩
  refine ⟨⟨source, List.mem_singleton_self source, entry, entryMem, formula, formulaMem, expr, part,
    "\\g", reading, .single partMem, Expr.refers_of_soleCommand sole, ⟨?_, ?_⟩, ?_, ?_⟩,
    by decide +kernel⟩
  · intro other member
    rw [List.mem_singleton.mp member, unintroduced]
    nofun
  · rw [bare]
    nofun
  · simp [sole]
  · rw [origin, place]
    rfl

end Treatise.Corpus
