import Treatise.Proofs.Corpus.History

/-!
# Kept renderings

What is rendered depends on the templates and the bodies of all files, so a rendering that is kept
may go out of date with any edit. A corpus is coherent if each rendering that it keeps is what would
be rendered now. Edits throw all renderings away and rendering adds what is rendered now, so a
corpus stays coherent in every run, and no answer shows whether it was kept.
-/

namespace Treatise.Corpus

/-- Renders the entry at an index of a file without looking at what is kept. -/
def rendered (corpus : Corpus) (path : String) (index : Nat) (options : RenderOptions) :
    Except Error String := do
  return corpus.renderEntry options (← corpus.entry path index)

/-- Each rendering that is kept is what would be rendered now. -/
def Coherent (corpus : Corpus) : Prop :=
  ∀ key text, (key, text) ∈ corpus.renderings →
    corpus.rendered key.path key.index key.options = .ok text

theorem coherent_empty (options : Options) : Coherent (empty options) := by
  simp [Coherent, empty]

/-- A coherent corpus answers as if it kept nothing. -/
theorem Coherent.render_fst {corpus : Corpus} (coherent : Coherent corpus) (path : String)
    (index : Nat) (options : RenderOptions) :
    (corpus.render path index options).1 = corpus.rendered path index options := by
  unfold render
  dsimp only
  split
  · next text kept =>
    rcases List.lookup_eq_some_iff.mp kept with ⟨before, after, split, -⟩
    have member : (⟨path, index, options⟩, text) ∈ corpus.renderings := by simp [split]
    exact (coherent _ _ member).symm
  · split
    · next error missing => simp [rendered, missing, bind, Except.bind]
    · next entry found => simp [rendered, found, bind, Except.bind, pure, Except.pure]

theorem render_snd (corpus : Corpus) (path : String) (index : Nat) (options : RenderOptions) :
    ∃ renderings, (corpus.render path index options).2
      = { corpus with renderings := renderings } := by
  unfold render
  dsimp only
  split
  · exact ⟨corpus.renderings, rfl⟩
  · split
    · exact ⟨corpus.renderings, rfl⟩
    · exact ⟨_, rfl⟩

theorem Coherent.render_snd {corpus : Corpus} (coherent : Coherent corpus) (path : String)
    (index : Nat) (options : RenderOptions) : Coherent (corpus.render path index options).2 := by
  unfold render
  dsimp only
  split
  · exact coherent
  · split
    · exact coherent
    · next entry found =>
      intro key text member
      rcases List.mem_cons.mp member with new | old
      · cases new
        change corpus.rendered path index options = _
        simp [rendered, found, bind, Except.bind, pure, Except.pure]
      · exact coherent key text old

/-- A coherent corpus renders entries one after the other as if it kept nothing. -/
theorem Coherent.renderIndexes_fst {corpus : Corpus} (coherent : Coherent corpus) (path : String)
    (options : RenderOptions) (indexes : List Nat) :
    (corpus.renderIndexes path options indexes).1
      = indexes.mapM fun index => corpus.rendered path index options := by
  induction indexes generalizing corpus with
  | nil => rfl
  | cons index rest ih =>
      have first := coherent.render_fst path index options
      have later := ih (coherent.render_snd path index options)
      rcases Corpus.render_snd corpus path index options with ⟨renderings, unchanged⟩
      have same : ∀ other, (corpus.render path index options).2.rendered path other options
          = corpus.rendered path other options := by
        intro other
        rw [unchanged]
        rfl
      simp only [same] at later
      rw [List.mapM_cons, ← first, ← later, renderIndexes]
      cases rendered : corpus.render path index options with
      | mk answer after =>
          cases answer with
          | error error => rfl
          | ok text =>
              cases more : after.renderIndexes path options rest with
              | mk answers last =>
                  simp only [more]
                  cases answers <;> rfl

theorem Coherent.renderFile_fst {corpus : Corpus} (coherent : Coherent corpus) (path : String)
    (options : RenderOptions) : (corpus.renderFile path options).1
      = (do
        let document ← corpus.document path
        (List.range document.entries.length).mapM fun index =>
          corpus.rendered path index options) := by
  unfold renderFile
  cases found : corpus.document path with
  | error error => rfl
  | ok document => exact coherent.renderIndexes_fst path options _

theorem Coherent.edited {corpus : Corpus} (coherent : Coherent corpus) (edit : Edit) :
    Coherent (corpus.edited edit) := by
  cases edit with
  | add source => simp [Corpus.edited, add, refresh, Coherent]
  | remove path =>
      simp only [Corpus.edited, remove]
      split
      · simp [refresh, Coherent]
      · exact coherent

/-! ## Runs -/

/-- What can be done with a corpus: changing its files, or rendering an entry. -/
inductive Action where
  | edit (edit : Edit)
  | render (path : String) (index : Nat) (options : RenderOptions)

/-- The edit that an action is, if it is one. -/
def Action.edit? : Action → Option Edit
  | edit found => some found
  | render _ _ _ => none

def performed (corpus : Corpus) : Action → Corpus
  | .edit edit => corpus.edited edit
  | .render path index options => (corpus.render path index options).2

/-- The corpus that actions lead to from the corpus without files. -/
def afterActions (options : Options) (actions : List Action) : Corpus :=
  actions.foldl performed (empty options)

theorem coherent_afterActions (options : Options) (actions : List Action) :
    Coherent (afterActions options actions) := by
  induction actions using List.reverseRecOn with
  | nil => exact coherent_empty options
  | append_singleton actions action ih =>
      rw [afterActions, List.foldl_append]
      cases action with
      | edit edit => exact ih.edited edit
      | render path index choice => exact ih.render_snd path index choice

theorem Holds.withRenderings {corpus : Corpus} {options : Options} {sources : List Source}
    (holds : Holds corpus options sources) (renderings : List (RenderKey × String)) :
    Holds { corpus with renderings := renderings } options sources :=
  ⟨holds.options, holds.sorted, holds.files,
    ⟨holds.indexed.filled, holds.indexed.references, holds.indexed.normalized,
      holds.indexed.tidyWords, holds.indexed.words, holds.indexed.tidyForms, holds.indexed.forms,
      holds.indexed.neat, holds.indexed.search⟩, holds.engine⟩

/-- After any actions a corpus holds the files that survive the edits among them. -/
theorem holds_afterActions (options : Options) (actions : List Action) :
    Holds (afterActions options actions) options (survivors (actions.filterMap Action.edit?)) := by
  induction actions using List.reverseRecOn with
  | nil => exact holds_empty options
  | append_singleton actions action ih =>
      rw [afterActions, List.foldl_append, List.filterMap_append]
      cases action with
      | edit edit => exact ih.edited edit
      | render path index choice =>
          rcases render_snd (afterActions options actions) path index choice with
            ⟨renderings, after⟩
          have unchanged : [Action.render path index choice].filterMap Action.edit? = [] := rfl
          rw [unchanged, List.append_nil]
          change Holds ((afterActions options actions).render path index choice).2 _ _
          rw [after]
          exact ih.withRenderings renderings

/-- Whatever was done before, an entry is rendered as in a new corpus of the files at that
moment. -/
theorem render_afterActions (options : Options) (actions : List Action) (path : String)
    (index : Nat) (choice : RenderOptions) :
    ((afterActions options actions).render path index choice).1
      = (ofSources options (survivors (actions.filterMap Action.edit?))).rendered path index
          choice := by
  rw [(coherent_afterActions options actions).render_fst]
  rcases (holds_afterActions options actions).agree
    (holds_ofSources options (distinct_survivors _)) with ⟨types, renderings, fresh⟩
  rw [fresh]
  rfl

end Treatise.Corpus
