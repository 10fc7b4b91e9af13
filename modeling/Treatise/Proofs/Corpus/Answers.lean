import Treatise.Corpus.Check
import Treatise.Proofs.Corpus.Rendering

/-!
# History independence

A corpus does not remember how it came about: after any edits it answers like a new corpus to which
only the files that survive are added, in the order in which they were last added.
-/

namespace Treatise.Corpus

/-- Two corpora answer alike, except about the hierarchy of types. -/
structure SameAnswers (first second : Corpus) : Prop where
  references : ∀ form, first.references form = second.references form
  withSignature : ∀ form, first.withSignature form = second.withSignature form
  definition : ∀ form, first.definition? form = second.definition? form
  signatureKind : ∀ form, first.signatureKind? form = second.signatureKind? form
  entriesOfKind : ∀ kind, first.entriesOfKind kind = second.entriesOfKind kind
  completeWord : ∀ start, first.completeWord start = second.completeWord start
  completeSignature : ∀ start, first.completeSignature start = second.completeSignature start
  find : ∀ query, first.find query = second.find query
  check : first.check = second.check
  render : ∀ path index options,
    (first.render path index options).1 = (second.render path index options).1

/-- Every reference that a corpus holds leads to an entry that introduces the form there. -/
def Resolving (corpus : Corpus) : Prop :=
  ∀ form, ∀ reference ∈ corpus.references form,
    ∃ entry, corpus.resolve reference = .ok ⟨reference.path, reference.index, entry⟩
      ∧ ⟨form, reference.location⟩ ∈ entry.signatures

/-- Neither the hierarchy nor, in coherent corpora, a kept rendering shows in these answers. -/
theorem Holds.sameAnswers {first second : Corpus} {options : Options} {sources : List Source}
    (holds : Holds first options sources) (holds' : Holds second options sources)
    (coherent : Coherent first) (coherent' : Coherent second) : SameAnswers first second := by
  rcases holds.agree holds' with ⟨types, renderings, rfl⟩
  refine ⟨fun _ => rfl, fun _ => rfl, fun _ => rfl, fun _ => rfl, fun _ => rfl, fun _ => rfl,
    fun _ => rfl, fun _ => rfl, rfl, fun path index choice => ?_⟩
  rw [coherent.render_fst, coherent'.render_fst]
  rfl

theorem coherent_afterEdits (options : Options) (edits : List Edit) :
    Coherent (afterEdits options edits) := by
  induction edits using List.reverseRecOn with
  | nil => exact coherent_empty options
  | append_singleton edits edit ih =>
      rw [afterEdits, List.foldl_append]
      exact ih.edited edit

/-- A corpus answers like the new corpus of the files that survive, and its references resolve. -/
theorem sameAnswers_afterEdits (options : Options) (edits : List Edit) :
    SameAnswers (afterEdits options edits) (ofSources options (survivors edits))
      ∧ Resolving (afterEdits options edits) := by
  have distinct := distinct_survivors edits
  have holds := holds_afterEdits options edits
  have coherent : Coherent (ofSources options (survivors edits)) := by
    rw [← afterEdits_map_add]
    exact coherent_afterEdits options _
  refine ⟨holds.sameAnswers (holds_ofSources options distinct)
    (coherent_afterEdits options edits) coherent, ?_⟩
  intro form reference present
  exact holds.resolve_reference distinct present

end Treatise.Corpus
