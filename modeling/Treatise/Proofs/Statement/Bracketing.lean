import Mathlib.Data.List.Basic
import Treatise.Proofs.Review
import Treatise.Statement.Bracketing

/-!
# Balanced brackets

Tokens are grouped without a problem exactly if their brackets are balanced: every group is closed
by a bracket of its own kind, and no closing bracket is left over. The trees then spell out the
tokens.
-/

namespace Treatise.Statement

/-- The tokens that token trees spell, with all groups closed. -/
inductive TreesSpelled : List TokenTree → List Token → Prop
  | nil : TreesSpelled [] []
  | leaf {token : Token} {trees : List TokenTree} {tokens : List Token}
      (noOpener : ∀ bracket, token.kind ≠ .opening bracket)
      (noCloser : ∀ bracket, token.kind ≠ .closing bracket) (more : TreesSpelled trees tokens) :
      TreesSpelled (.leaf token :: trees) (token :: tokens)
  | group {bracket : Bracket} {opener closer : Token} {items trees : List TokenTree}
      {inner tokens : List Token} (opens : opener.kind = .opening bracket)
      (inside : TreesSpelled items inner) (closes : closer.kind = .closing bracket)
      (more : TreesSpelled trees tokens) :
      TreesSpelled (.group bracket opener items (some closer) :: trees)
        (opener :: inner ++ closer :: tokens)

theorem TreesSpelled.append {trees others : List TokenTree} {tokens following : List Token}
    (spelled : TreesSpelled trees tokens) (after : TreesSpelled others following) :
    TreesSpelled (trees ++ others) (tokens ++ following) := by
  induction spelled with
  | nil => exact after
  | leaf noOpener noCloser _ ih => exact .leaf noOpener noCloser ih
  | group opens inside closes _ _ ih =>
      rw [List.append_assoc]
      exact .group opens inside closes ih

theorem TreesSpelled.of_leaf {token : Token} (noOpener : ∀ bracket, token.kind ≠ .opening bracket)
    (noCloser : ∀ bracket, token.kind ≠ .closing bracket) : TreesSpelled [.leaf token] [token] :=
  .leaf noOpener noCloser .nil

theorem TreesSpelled.of_group {bracket : Bracket} {opener closer : Token} {items : List TokenTree}
    {inner : List Token} (opens : opener.kind = .opening bracket)
    (inside : TreesSpelled items inner) (closes : closer.kind = .closing bracket) :
    TreesSpelled [.group bracket opener items (some closer)] (opener :: inner ++ [closer]) :=
  .group opens inside closes .nil

namespace Bracketing

/-! ## Soundness -/

/-- The tokens that lead to a state without a problem. -/
inductive Reached : List TokenTree → List OpenGroup → List Token → Prop
  | outside {trees : List TokenTree} {tokens : List Token} (spelled : TreesSpelled trees tokens) :
      Reached trees [] tokens
  | inside {trees items : List TokenTree} {outer : List OpenGroup} {bracket : Bracket}
      {opener : Token} {before inner : List Token} (reached : Reached trees outer before)
      (opens : opener.kind = .opening bracket) (spelled : TreesSpelled items inner) :
      Reached trees (⟨bracket, opener, items⟩ :: outer) (before ++ opener :: inner)

theorem Reached.push {outside : List TokenTree} {groups : List OpenGroup} {tree : TokenTree}
    {before inner : List Token} (reached : Reached outside groups before)
    (spelled : TreesSpelled [tree] inner) :
    Reached (push tree ⟨outside, groups⟩).outside (push tree ⟨outside, groups⟩).groups
      (before ++ inner) := by
  cases reached with
  | outside reached => exact .outside (reached.append spelled)
  | inside reached opens inside =>
      rw [List.append_assoc]
      exact .inside reached opens (inside.append spelled)

theorem Reached.step {state next : Bracketing} {before : List Token} {token : Token}
    (reached : Reached state.outside state.groups before) (clean : state.step token = ⟨next, []⟩) :
    Reached next.outside next.groups (before ++ [token]) := by
  rcases state with ⟨outside, groups⟩
  unfold Bracketing.step at clean
  split at clean
  · next bracket opens =>
    cases Review.pure_eq_clean_iff.mp clean
    exact .inside reached opens .nil
  · next bracket closes =>
    split at clean
    · next waits =>
      cases reached with
      | outside _ => simp at waits
      | inside reached opens inside =>
          unfold closeThrough at clean
          dsimp only at clean
          split at clean
          · next same =>
            subst same
            cases Review.pure_eq_clean_iff.mp clean
            rw [List.append_assoc]
            simp only [OpenGroup.close, Option.toList_none, List.append_nil]
            exact reached.push (.of_group opens inside closes)
          · exact absurd clean Review.report_bind_ne_clean
    · exact absurd clean Review.report_bind_ne_clean
  · next noOpener noCloser =>
    cases Review.pure_eq_clean_iff.mp clean
    exact reached.push (.of_leaf noOpener noCloser)

theorem spelled_of_run {state : Bracketing} {before tokens : List Token} {trees : List TokenTree}
    (reached : Reached state.outside state.groups before) (clean : state.run tokens = ⟨trees, []⟩) :
    TreesSpelled trees (before ++ tokens) := by
  induction tokens generalizing state before with
  | nil =>
      rcases state with ⟨outside, groups⟩
      cases reached with
      | outside spelled =>
          obtain rfl : outside = trees := by
            simpa [run, finish, Review.pure_eq_clean_iff] using clean
          simpa using spelled
      | inside _ _ _ => exact absurd clean Review.report_bind_ne_clean
  | cons token rest ih =>
      rcases Review.bind_eq_clean_iff.mp clean with ⟨next, step, more⟩
      simpa using ih (reached.step step) more

/-! ## Completeness -/

/-- Adds trees one after the other. -/
def pushAll (state : Bracketing) (trees : List TokenTree) : Bracketing :=
  trees.foldl (fun state tree => state.push tree) state

theorem pushAll_outside (outside trees : List TokenTree) :
    pushAll ⟨outside, []⟩ trees = ⟨outside ++ trees, []⟩ := by
  induction trees generalizing outside with
  | nil => simp [pushAll]
  | cons tree rest ih =>
      change pushAll ⟨outside ++ [tree], []⟩ rest = _
      rw [ih, List.append_assoc, List.singleton_append]

theorem pushAll_inside (outside items trees : List TokenTree) (bracket : Bracket) (opener : Token)
    (outer : List OpenGroup) :
    pushAll ⟨outside, ⟨bracket, opener, items⟩ :: outer⟩ trees
      = ⟨outside, ⟨bracket, opener, items ++ trees⟩ :: outer⟩ := by
  induction trees generalizing items with
  | nil => simp [pushAll]
  | cons tree rest ih =>
      change pushAll ⟨outside, ⟨bracket, opener, items ++ [tree]⟩ :: outer⟩ rest = _
      rw [ih, List.append_assoc, List.singleton_append]

theorem run_cons_of_step {state next : Bracketing} {token : Token}
    (step : state.step token = ⟨next, []⟩)
    (rest : List Token) : state.run (token :: rest) = next.run rest := by
  rw [run, step]
  rfl

/-- Balanced tokens are read as the trees that they spell, whatever has been read before. -/
theorem run_of_spelled {trees : List TokenTree} {tokens : List Token}
    (spelled : TreesSpelled trees tokens) (state : Bracketing) (following : List Token) :
    state.run (tokens ++ following) = (state.pushAll trees).run following := by
  induction spelled generalizing state following with
  | nil => rfl
  | @leaf token trees tokens noOpener noCloser _ ih =>
      have step : state.step token = ⟨state.push (.leaf token), []⟩ := by
        unfold Bracketing.step
        split
        · next opens => exact absurd opens (noOpener _)
        · next closes => exact absurd closes (noCloser _)
        · rfl
      rw [List.cons_append, run_cons_of_step step, ih]
      rfl
  | @group bracket opener closer items trees inner tokens opens _ closes _ ih ih' =>
      rcases state with ⟨outside, groups⟩
      have open_ :
          step ⟨outside, groups⟩ opener = ⟨⟨outside, ⟨bracket, opener, []⟩ :: groups⟩, []⟩ := by
        simp only [step, opens]
        rfl
      have close : step ⟨outside, ⟨bracket, opener, items⟩ :: groups⟩ closer
          = ⟨push (.group bracket opener items (some closer)) ⟨outside, groups⟩, []⟩ := by
        simp only [step, closes, List.any_cons, beq_self_eq_true, Bool.true_or, if_true,
          closeThrough, Option.toList_none, List.append_nil]
        rfl
      rw [List.append_assoc, List.cons_append, run_cons_of_step open_, List.cons_append, ih,
        pushAll_inside, List.nil_append, run_cons_of_step close, ih']
      rfl

end Bracketing

/-- Tokens are grouped without a problem exactly if their brackets are balanced. -/
theorem bracket_clean_iff {tokens : List Token} {trees : List TokenTree} :
    bracket tokens = ⟨trees, []⟩ ↔ TreesSpelled trees tokens := by
  constructor
  · intro clean
    exact Bracketing.spelled_of_run (.outside .nil) clean
  · intro spelled
    have run := Bracketing.run_of_spelled spelled ⟨[], []⟩ []
    rw [List.append_nil, Bracketing.pushAll_outside] at run
    rw [bracket, run]
    simp [Bracketing.run, Bracketing.finish, Review.pure_eq_clean_iff]

end Treatise.Statement
