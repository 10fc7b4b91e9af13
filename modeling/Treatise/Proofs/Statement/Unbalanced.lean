import Treatise.Proofs.Statement.Bracketing

/-!
# Brackets that are not balanced

Whatever the brackets of the tokens are, grouping loses no token but the closing brackets that it
reports. The trees spell the other tokens in order, a closing bracket closes the innermost open
bracket of its kind, and one that is left out stands where no bracket around it is of its kind.
There is one problem for every group without a closing bracket and one for every closing bracket
that is left out, and so there is none exactly if the brackets are balanced.

The proof keeps, for what has been read so far, the tokens that it spells (`Bracketing.Spelling`). A
closing bracket that ends several groups at once hands the inner ones on as one tree without a
closing bracket, which is why a list of trees may end in such a tree and why nothing may be added
after it.
-/

namespace Treatise.Statement

/-! ## What trees spell -/

mutual

/-- The tokens of a tree, in the order of the text. -/
def TokenTree.flatten : TokenTree → List Token
  | .leaf token => [token]
  | .group _ opener items closer => opener :: (flattenTrees items ++ closer.toList)

def flattenTrees : List TokenTree → List Token
  | [] => []
  | tree :: rest => tree.flatten ++ flattenTrees rest

end

mutual

/-- The opening brackets of the groups in a tree that have no closing bracket. -/
def TokenTree.unclosed : TokenTree → List Token
  | .leaf _ => []
  | .group _ opener items none => opener :: unclosedIn items
  | .group _ _ items (some _) => unclosedIn items

def unclosedIn : List TokenTree → List Token
  | [] => []
  | tree :: rest => tree.unclosed ++ unclosedIn rest

end

mutual

/-- The brackets that are still open after a tree, from outside to inside. -/
def TokenTree.openAfter : TokenTree → List Bracket
  | .group bracket _ items none => bracket :: openAfterAll items
  | .group _ _ _ (some _) => []
  | .leaf _ => []

def openAfterAll : List TokenTree → List Bracket
  | [] => []
  | [tree] => tree.openAfter
  | _ :: next :: rest => openAfterAll (next :: rest)

end

/-- Two lists put together to one in which each of them keeps its order. -/
inductive Interleaved {α : Type} : List α → List α → List α → Prop
  | nil : Interleaved [] [] []
  | left {first : α} {left right whole : List α} (more : Interleaved left right whole) :
      Interleaved (first :: left) right (first :: whole)
  | right {first : α} {left right whole : List α} (more : Interleaved left right whole) :
      Interleaved left (first :: right) (first :: whole)

/-- The tokens that trees spell inside the brackets `around`, together with the stray closing
brackets among these tokens, which are in none of the trees. -/
inductive Grouped : List Bracket → List TokenTree → List Token → List Token → Prop
  | nil {around : List Bracket} : Grouped around [] [] []
  | leaf {around : List Bracket} {token : Token} {trees : List TokenTree}
      {tokens strays : List Token} (noOpener : ∀ bracket, token.kind ≠ .opening bracket)
      (noCloser : ∀ bracket, token.kind ≠ .closing bracket)
      (more : Grouped around trees tokens strays) :
      Grouped around (.leaf token :: trees) (token :: tokens) strays
  | stray {around : List Bracket} {bracket : Bracket} {token : Token} {trees : List TokenTree}
      {tokens strays : List Token} (closes : token.kind = .closing bracket)
      (unmatched : bracket ∉ around) (more : Grouped around trees tokens strays) :
      Grouped around trees (token :: tokens) (token :: strays)
  | closed {around : List Bracket} {bracket : Bracket} {opener closer : Token}
      {items trees : List TokenTree} {inner tokens strays others : List Token}
      (opens : opener.kind = .opening bracket)
      (inside : Grouped (bracket :: around) items inner strays)
      (closes : closer.kind = .closing bracket) (innermost : bracket ∉ openAfterAll items)
      (more : Grouped around trees tokens others) :
      Grouped around (.group bracket opener items (some closer) :: trees)
        (opener :: inner ++ closer :: tokens) (strays ++ others)
  | unclosed {around : List Bracket} {bracket : Bracket} {opener : Token} {items : List TokenTree}
      {inner strays : List Token} (opens : opener.kind = .opening bracket)
      (inside : Grouped (bracket :: around) items inner strays) :
      Grouped around [.group bracket opener items none] (opener :: inner) strays

variable {around : List Bracket} {trees others : List TokenTree}
  {tokens following strays more : List Token}

theorem Interleaved.append {α : Type} {left right whole left' right' whole' : List α}
    (first : Interleaved left right whole) (second : Interleaved left' right' whole') :
    Interleaved (left ++ left') (right ++ right') (whole ++ whole') := by
  induction first with
  | nil => exact second
  | left _ ih => exact .left ih
  | right _ ih => exact .right ih

/-- The tokens of the trees and the stray closing brackets are all tokens there are, in order. -/
theorem Grouped.interleaved (grouped : Grouped around trees tokens strays) :
    Interleaved (flattenTrees trees) strays tokens := by
  induction grouped with
  | nil => exact .nil
  | leaf _ _ _ ih => exact .left ih
  | stray _ _ _ ih => exact .right ih
  | @closed _ _ _ closer _ _ _ _ _ _ _ _ _ _ _ inside after =>
      have group : Interleaved (_ ++ closer :: _) _ (_ ++ closer :: _) :=
        inside.append (.left after)
      simpa [flattenTrees, TokenTree.flatten] using Interleaved.left group
  | unclosed _ _ inside =>
      simpa [flattenTrees, TokenTree.flatten] using Interleaved.left inside

theorem openAfterAll_cons_eq_nil {tree : TokenTree} (ended : openAfterAll (tree :: trees) = []) :
    openAfterAll trees = [] := by
  cases trees with
  | nil => rfl
  | cons next rest => exact ended

theorem openAfterAll_append (ended : openAfterAll trees = []) (others : List TokenTree) :
    openAfterAll (trees ++ others) = openAfterAll others := by
  induction trees with
  | nil => rfl
  | cons tree rest ih =>
      cases rest with
      | cons next rest => exact ih ended
      | nil =>
          cases others with
          | nil => exact ended
          | cons next rest => rfl

/-- Trees that leave no bracket open may be followed by others. -/
theorem Grouped.append (grouped : Grouped around trees tokens strays)
    (ended : openAfterAll trees = []) (after : Grouped around others following more) :
    Grouped around (trees ++ others) (tokens ++ following) (strays ++ more) := by
  induction grouped with
  | nil => exact after
  | leaf noOpener noCloser _ ih =>
      exact .leaf noOpener noCloser (ih (openAfterAll_cons_eq_nil ended) after)
  | stray closes unmatched _ ih => exact .stray closes unmatched (ih ended after)
  | closed opens inside closes innermost _ _ ih =>
      rw [List.append_assoc, List.append_assoc]
      exact .closed opens inside closes innermost (ih (openAfterAll_cons_eq_nil ended) after)
  | unclosed _ _ _ => cases ended

theorem unclosedIn_append (trees others : List TokenTree) :
    unclosedIn (trees ++ others) = unclosedIn trees ++ unclosedIn others := by
  induction trees with
  | nil => rfl
  | cons tree rest ih => rw [List.cons_append, unclosedIn, unclosedIn, ih, List.append_assoc]

/-! ## What has been read -/

/-- The problem of a group without a closing bracket. -/
def unclosedFault (opener : Token) : Located Fault := ⟨opener.location, .unclosedBracket⟩

/-- The problem of a closing bracket that is left out. -/
def strayFault (closer : Token) : Located Fault := ⟨closer.location, .unexpectedCloser closer.text⟩

namespace Bracketing

/-- The tokens that lead to a state, and the stray closing brackets among them. -/
inductive Spelling : List TokenTree → List OpenGroup → List Token → List Token → Prop
  | outside {trees : List TokenTree} {tokens strays : List Token}
      (grouped : Grouped [] trees tokens strays) (ended : openAfterAll trees = []) :
      Spelling trees [] tokens strays
  | inside {trees items : List TokenTree} {outer : List OpenGroup} {bracket : Bracket}
      {opener : Token} {before inner strays others : List Token}
      (spelling : Spelling trees outer before strays) (opens : opener.kind = .opening bracket)
      (grouped : Grouped (bracket :: outer.map OpenGroup.bracket) items inner others)
      (ended : openAfterAll items = []) :
      Spelling trees (⟨bracket, opener, items⟩ :: outer) (before ++ opener :: inner)
        (strays ++ others)

/-- The opening brackets of the groups that have ended without a closing bracket. -/
def unclosed (state : Bracketing) : List Token :=
  unclosedIn state.outside ++ state.groups.flatMap fun group => unclosedIn group.items

variable {outside : List TokenTree} {groups : List OpenGroup}
  {before inner strays others : List Token}

theorem Spelling.push {tree : TokenTree} (spelling : Spelling outside groups before strays)
    (grouped : Grouped (groups.map OpenGroup.bracket) [tree] inner others)
    (ended : tree.openAfter = []) :
    Spelling (push tree ⟨outside, groups⟩).outside (push tree ⟨outside, groups⟩).groups
      (before ++ inner) (strays ++ others) := by
  cases spelling with
  | outside spelled closed =>
      exact .outside (spelled.append closed grouped) ((openAfterAll_append closed _).trans ended)
  | inside spelling opens spelled closed =>
      rw [List.append_assoc, List.append_assoc]
      exact .inside spelling opens (spelled.append closed grouped)
        ((openAfterAll_append closed _).trans ended)

theorem Spelling.stray {bracket : Bracket} {token : Token}
    (spelling : Spelling outside groups before strays) (closes : token.kind = .closing bracket)
    (unmatched : bracket ∉ groups.map OpenGroup.bracket) :
    Spelling outside groups (before ++ [token]) (strays ++ [token]) := by
  cases spelling with
  | outside spelled closed =>
      refine .outside ?_ closed
      simpa using spelled.append closed (.stray closes unmatched .nil)
  | inside spelling opens spelled closed =>
      rw [List.append_assoc, List.append_assoc]
      refine .inside spelling opens ?_ closed
      simpa using spelled.append closed (.stray closes unmatched .nil)

/-- A closing bracket ends the innermost group of its kind, and the groups inside it without one. -/
theorem Spelling.closeThrough {bracket : Bracket} {closer : Token} (unclosed : Option TokenTree)
    (spelling : Spelling outside groups before strays) (closes : closer.kind = .closing bracket)
    (waits : bracket ∈ groups.map OpenGroup.bracket)
    (grouped : Grouped (groups.map OpenGroup.bracket) unclosed.toList inner others)
    (innermost : bracket ∉ openAfterAll unclosed.toList) :
    Spelling (closeThrough bracket closer outside unclosed groups).value.outside
      (closeThrough bracket closer outside unclosed groups).value.groups
      (before ++ inner ++ [closer]) (strays ++ others) := by
  -- From the innermost group outwards; `unclosed` holds those that have ended on the way.
  induction groups generalizing before strays inner others unclosed with
  | nil => simp at waits
  | cons group outer ih =>
      rcases group with ⟨kind, opener, items⟩
      cases spelling with
      | inside spelling opens spelled closed =>
          have whole := spelled.append closed grouped
          have still := openAfterAll_append closed unclosed.toList
          unfold Bracketing.closeThrough
          dsimp only
          split
          · next same =>
            subst same
            have group : Grouped (outer.map OpenGroup.bracket)
                [.group kind opener (items ++ unclosed.toList) (some closer)]
                (opener :: (_ ++ inner) ++ [closer]) (_ ++ others ++ []) :=
              .closed opens whole closes (still ▸ innermost) .nil
            simpa [OpenGroup.close] using spelling.push group rfl
          · next differs =>
            have group : Grouped (outer.map OpenGroup.bracket)
                [.group kind opener (items ++ unclosed.toList) none]
                (opener :: (_ ++ inner)) (_ ++ others) := .unclosed opens whole
            have later : bracket ∈ outer.map OpenGroup.bracket :=
              (List.mem_cons.mp waits).resolve_left (Ne.symm differs)
            have apart : bracket ∉ kind :: openAfterAll (items ++ unclosed.toList) := by
              rw [still]
              exact List.not_mem_cons_of_ne_of_not_mem (Ne.symm differs) innermost
            simpa [OpenGroup.close] using ih (some _) spelling later group apart

/-- At the end of the tokens all open groups end without a closing bracket. -/
theorem Spelling.finish (unclosed : Option TokenTree)
    (spelling : Spelling outside groups before strays)
    (grouped : Grouped (groups.map OpenGroup.bracket) unclosed.toList inner others) :
    Grouped [] (finish outside unclosed groups).value (before ++ inner) (strays ++ others) := by
  induction groups generalizing before strays inner others unclosed with
  | nil =>
      cases spelling with
      | outside spelled closed => exact spelled.append closed grouped
  | cons group outer ih =>
      rcases group with ⟨kind, opener, items⟩
      cases spelling with
      | inside spelling opens spelled closed =>
          have group : Grouped (outer.map OpenGroup.bracket)
              [.group kind opener (items ++ unclosed.toList) none]
              (opener :: (_ ++ inner)) (_ ++ others) :=
            .unclosed opens (spelled.append closed grouped)
          simpa [Bracketing.finish, OpenGroup.close] using ih (some _) spelling group

/-! ## The problems -/

theorem unclosed_push (tree : TokenTree) (state : Bracketing) :
    (state.push tree).unclosed.Perm (state.unclosed ++ tree.unclosed) := by
  rcases state with ⟨outside, _ | ⟨group, outer⟩⟩
  · simp [push, unclosed, unclosedIn_append, unclosedIn]
  · simp only [push, unclosed, List.flatMap_cons, unclosedIn_append, unclosedIn, List.append_nil,
      List.perm_iff_count, List.count_append]
    omega

/-- An open group that ends without a closing bracket adds its opening bracket. -/
theorem unclosed_group (outside : List TokenTree) (unclosed : Option TokenTree) (group : OpenGroup)
    (outer : List OpenGroup) :
    (Bracketing.unclosed ⟨outside, outer⟩
        ++ unclosedIn
          [.group group.bracket group.opener (group.items ++ unclosed.toList) none]).Perm
      (group.opener
        :: (Bracketing.unclosed ⟨outside, group :: outer⟩ ++ unclosedIn unclosed.toList)) := by
  simp only [Bracketing.unclosed, TokenTree.unclosed, unclosedIn, List.flatMap_cons,
    List.append_nil, unclosedIn_append, List.perm_iff_count, List.count_cons, List.count_append]
  omega

/-- Closing groups reports those that end without a closing bracket, each once. -/
theorem problems_closeThrough (bracket : Bracket) (closer : Token) (outside : List TokenTree)
    (unclosed : Option TokenTree) (groups : List OpenGroup) :
    ((closeThrough bracket closer outside unclosed groups).problems
        ++ (Bracketing.unclosed ⟨outside, groups⟩ ++ unclosedIn unclosed.toList).map
          unclosedFault).Perm
      ((closeThrough bracket closer outside unclosed groups).value.unclosed.map unclosedFault) := by
  induction groups generalizing unclosed with
  | nil =>
      cases unclosed with
      | none => simp [closeThrough, Bracketing.unclosed, unclosedIn]
      | some tree =>
          simpa [closeThrough, unclosedIn] using
            ((unclosed_push tree ⟨outside, []⟩).map unclosedFault).symm
  | cons group outer ih =>
      rcases group with ⟨kind, opener, items⟩
      unfold closeThrough
      dsimp only
      split
      · have pushed := (unclosed_push (.group kind opener (items ++ unclosed.toList) (some closer))
          ⟨outside, outer⟩).map unclosedFault
        refine .trans ?_ pushed.symm
        simp only [Review.problems_pure, List.nil_append, Bracketing.unclosed, TokenTree.unclosed,
          List.flatMap_cons, unclosedIn_append, List.map_append, List.perm_iff_count,
          List.count_append]
        omega
      · have more := ih (some (.group kind opener (items ++ unclosed.toList) none))
        have ended :=
          (unclosed_group outside unclosed ⟨kind, opener, items⟩ outer).map unclosedFault
        rw [Review.problems_bind, Review.problems_report]
        exact (List.perm_middle.symm.trans (ended.symm.append_left _)).trans more

theorem problems_finish (outside : List TokenTree) (unclosed : Option TokenTree)
    (groups : List OpenGroup) :
    ((finish outside unclosed groups).problems
        ++ (Bracketing.unclosed ⟨outside, groups⟩ ++ unclosedIn unclosed.toList).map
          unclosedFault).Perm
      ((unclosedIn (finish outside unclosed groups).value).map unclosedFault) := by
  induction groups generalizing unclosed with
  | nil => simp [finish, Bracketing.unclosed, unclosedIn_append]
  | cons group outer ih =>
      rcases group with ⟨kind, opener, items⟩
      have more := ih (some (.group kind opener (items ++ unclosed.toList) none))
      have ended := (unclosed_group outside unclosed ⟨kind, opener, items⟩ outer).map unclosedFault
      rw [finish, Review.problems_bind, Review.problems_report]
      exact (List.perm_middle.symm.trans (ended.symm.append_left _)).trans more

/-! ## Runs -/

/-- One token: what the state spells goes on, and what is reported is what is lost or left open. -/
theorem Spelling.step {state : Bracketing} (token : Token)
    (spelling : Spelling state.outside state.groups before strays) :
    ∃ more, Spelling (state.step token).value.outside (state.step token).value.groups
        (before ++ [token]) (strays ++ more)
      ∧ ((state.step token).problems ++ state.unclosed.map unclosedFault).Perm
        ((state.step token).value.unclosed.map unclosedFault ++ more.map strayFault) := by
  rcases state with ⟨outside, groups⟩
  unfold Bracketing.step
  split
  · next bracket opens =>
    exact ⟨[], .inside spelling opens .nil rfl, by simp [unclosed, unclosedIn]⟩
  · next bracket closes =>
    split
    · next waits =>
      have waits' : bracket ∈ groups.map OpenGroup.bracket := by simpa using waits
      refine ⟨[], ?_, ?_⟩
      · simpa using spelling.closeThrough none closes waits' .nil List.not_mem_nil
      · simpa [unclosedIn] using problems_closeThrough bracket token outside none groups
    · next unmatched =>
      have unmatched' : bracket ∉ groups.map OpenGroup.bracket := by simpa using unmatched
      refine ⟨[token], spelling.stray closes unmatched', ?_⟩
      exact (List.perm_append_singleton (strayFault token) _).symm
  · next noOpener noCloser =>
    refine ⟨[], ?_, ?_⟩
    · simpa using spelling.push (.leaf noOpener noCloser .nil) rfl
    · simpa [TokenTree.unclosed] using
        ((unclosed_push (.leaf token) ⟨outside, groups⟩).map unclosedFault).symm

theorem Spelling.run {state : Bracketing} (tokens : List Token)
    (spelling : Spelling state.outside state.groups before strays) :
    ∃ more, Grouped [] (state.run tokens).value (before ++ tokens) (strays ++ more)
      ∧ ((state.run tokens).problems ++ state.unclosed.map unclosedFault).Perm
        ((unclosedIn (state.run tokens).value).map unclosedFault ++ more.map strayFault) := by
  induction tokens generalizing state before strays with
  | nil =>
      refine ⟨[], spelling.finish none .nil, ?_⟩
      simpa [Bracketing.run, unclosedIn] using problems_finish state.outside none state.groups
  | cons token rest ih =>
      rcases spelling.step token with ⟨more, next, reported⟩
      rcases ih next with ⟨later, grouped, reportedLater⟩
      refine ⟨more ++ later, by simpa [Bracketing.run] using grouped, ?_⟩
      rw [List.perm_iff_count] at reported reportedLater ⊢
      intro fault
      have here := reported fault
      have there := reportedLater fault
      simp only [Bracketing.run, Review.problems_bind, Review.value_bind, List.map_append,
        List.count_append] at here there ⊢
      omega

end Bracketing

/-! ## Balanced brackets -/

/-- Tokens in which every bracket has its counterpart of the same kind, and pairs do not overlap. -/
inductive Balanced : List Token → Prop
  | nil : Balanced []
  | other {token : Token} {tokens : List Token}
    (noOpener : ∀ bracket, token.kind ≠ .opening bracket)
      (noCloser : ∀ bracket, token.kind ≠ .closing bracket) (more : Balanced tokens) :
      Balanced (token :: tokens)
  | pair {bracket : Bracket} {opener closer : Token} {inner tokens : List Token}
      (opens : opener.kind = .opening bracket) (inside : Balanced inner)
      (closes : closer.kind = .closing bracket) (more : Balanced tokens) :
      Balanced (opener :: inner ++ closer :: tokens)

theorem balanced_iff {tokens : List Token} :
    Balanced tokens ↔ ∃ trees, TreesSpelled trees tokens := by
  constructor
  · intro balanced
    induction balanced with
    | nil => exact ⟨[], .nil⟩
    | other noOpener noCloser _ ih =>
        rcases ih with ⟨trees, spelled⟩
        exact ⟨_, .leaf noOpener noCloser spelled⟩
    | pair opens _ closes _ ih ih' =>
        rcases ih with ⟨items, inside⟩
        rcases ih' with ⟨trees, spelled⟩
        exact ⟨_, .group opens inside closes spelled⟩
  · rintro ⟨trees, spelled⟩
    induction spelled with
    | nil => exact .nil
    | leaf noOpener noCloser _ ih => exact .other noOpener noCloser ih
    | group opens _ closes _ ih ih' => exact .pair opens ih closes ih'

theorem problems_bracket_eq_nil_iff {tokens : List Token} :
    (bracket tokens).problems = [] ↔ Balanced tokens := by
  rw [balanced_iff]
  constructor
  · intro clean
    exact ⟨_, bracket_clean_iff.mp (Review.eq_clean_iff.mpr ⟨rfl, clean⟩)⟩
  · rintro ⟨trees, spelled⟩
    exact (Review.eq_clean_iff.mp (bracket_clean_iff.mpr spelled)).2

/-- Grouping keeps all tokens but stray closing brackets, in order; it reports each of these and
each group without a closing bracket once and nothing else, and so nothing exactly if the brackets
are balanced. -/
theorem bracket_accounts (tokens : List Token) :
    (∃ strays, Grouped [] (bracket tokens).value tokens strays
        ∧ Interleaved (flattenTrees (bracket tokens).value) strays tokens
        ∧ (bracket tokens).problems.Perm
          ((unclosedIn (bracket tokens).value).map unclosedFault ++ strays.map strayFault))
      ∧ ((bracket tokens).problems = [] ↔ Balanced tokens) := by
  refine ⟨?_, problems_bracket_eq_nil_iff⟩
  have start :
      Bracketing.Spelling (Bracketing.mk [] []).outside (Bracketing.mk [] []).groups [] [] :=
    .outside .nil rfl
  rcases start.run tokens with ⟨strays, grouped, reported⟩
  refine ⟨strays, grouped, grouped.interleaved, ?_⟩
  simpa [bracket, Bracketing.unclosed, unclosedIn] using reported

/-- Of two pairs that overlap, the inner opening bracket and the outer closing bracket are
reported. -/
example :
    (bracket [⟨.opening .paren, "(", ⟨0, 0⟩⟩, ⟨.opening .square, "[", ⟨0, 1⟩⟩,
      ⟨.closing .paren, ")", ⟨0, 2⟩⟩, ⟨.closing .square, "]", ⟨0, 3⟩⟩]).problems
      = [⟨⟨0, 1⟩, .unclosedBracket⟩, ⟨⟨0, 3⟩, .unexpectedCloser "]"⟩] := by
  decide

end Treatise.Statement
