import Treatise.Proofs.Layout.LineBreaks
import Treatise.Proofs.Outline.Concatenation
import Treatise.Proofs.Review

/-!
# Going on after a problem

No group takes a line break, and a group that ends before a line break would also end at the end of
the tokens. So what stands before a line break and what stands after it are read apart from each
other: a problem ends the group that it is found in, and reading goes on as if nothing had been
there before.

Main statements: the items and the problems of an outline are those of its runs of tokens without a
line break, one run after the other, and each run has one problem at most. The line break at which
reading goes on stands outside all blocks, unless a block comment stands right before it.
-/

namespace Treatise.Outline

open Layout (Token TokenKind Mark)

variable {tokens rest others : List Token} {separator : Token}

/-! ## Groups before a line break -/

/-- Sections are taken as long as they follow each other. -/
theorem sections_greedy {tokens rest : List Token} {found : List Section}
    (taken : Takes (sections tokens) found rest) : atSection rest = false := by
  unfold sections at taken
  split at taken
  · simp only [takes_bind] at taken
    rcases taken with ⟨inline, body, shorter, line, arguments, after, shorter', dotted, taken⟩
    split at taken
    · simp only [takes_bind, takes_pure] at taken
      rcases taken with ⟨parts, last, shorter'', first, rfl, rfl⟩
      exact sections_greedy ⟨shorter'', first⟩
    · next ends =>
      simp only [takes_pure] at taken
      rcases taken with ⟨rfl, rfl⟩
      simpa using ends
  · simp at taken
termination_by tokens.length
decreasing_by simp_all; omega

theorem takes_group_iff {found : Group} : Takes (group tokens) found rest
    ↔ ∃ used, tokens = used ++ rest ∧ Group.Spelled found used ∧ atSection rest = false := by
  constructor
  · intro taken
    rcases group_sound taken with ⟨used, split, spelled⟩
    refine ⟨used, split, spelled, ?_⟩
    unfold group at taken
    split at taken
    · simp only [takes_bind, takes_pure] at taken
      rcases taken with ⟨_, _, _, _, _, _, shorter, first, -, rfl⟩
      exact sections_greedy ⟨shorter, first⟩
    · simp only [takes_bind, takes_pure] at taken
      rcases taken with ⟨_, _, shorter, first, -, rfl⟩
      exact sections_greedy ⟨shorter, first⟩
  · rintro ⟨used, rfl, spelled, ends⟩
    exact group_complete spelled ends

theorem atSection_before_lineBreak (isBreak : separator.kind = .lineBreak) :
    atSection (rest ++ separator :: others) = atSection rest := by
  rw [Bool.eq_iff_iff, atSection_iff, atSection_iff]
  constructor
  · rintro ⟨name, colon, more, same, isName, isColon⟩
    rcases rest with _ | ⟨first, _ | ⟨second, rest⟩⟩
    · rcases List.cons.inj same with ⟨rfl, -⟩
      simp [isBreak] at isName
    · rcases List.cons.inj (List.cons.inj same).2 with ⟨rfl, -⟩
      simp [isBreak] at isColon
    · simp only [List.cons_append, List.cons.injEq] at same
      rcases same with ⟨rfl, rfl, -⟩
      exact ⟨_, _, rest, rfl, isName, isColon⟩
  · rintro ⟨name, colon, more, rfl, isName, isColon⟩
    exact ⟨name, colon, _, rfl, isName, isColon⟩

/-- A group before a line break is taken as if the tokens ended there. -/
theorem takes_group_before_lineBreak (isBreak : separator.kind = .lineBreak) {found : Group} :
    Takes (group (tokens ++ separator :: others)) found rest
      ↔ ∃ left, rest = left ++ separator :: others ∧ Takes (group tokens) found left := by
  simp only [takes_group_iff]
  constructor
  · rintro ⟨used, same, spelled, ends⟩
    rcases List.append_eq_append_iff.mp same with ⟨more, rfl, left⟩ | ⟨left, rfl, rfl⟩
    · cases more with
      | nil =>
          rw [List.nil_append] at left
          exact ⟨[], left.symm, tokens, by simp, by simpa using spelled, rfl⟩
      | cons first more =>
          -- The line break would be a token of the group.
          rcases List.cons.inj left with ⟨rfl, -⟩
          exact absurd (.inl isBreak) (spelled.unseparated separator (by simp))
    · exact ⟨left, rfl, used, rfl, spelled, by rwa [atSection_before_lineBreak isBreak] at ends⟩
  · rintro ⟨left, rfl, used, rfl, spelled, ends⟩
    exact ⟨used, by simp, spelled, by rwa [atSection_before_lineBreak isBreak]⟩

theorem atBoundary_before_lineBreak (isBreak : separator.kind = .lineBreak) :
    atBoundary (rest ++ separator :: others) = atBoundary rest := by
  cases rest <;> simp [atBoundary, isBreak]

theorem skip_before_lineBreak (isBreak : separator.kind = .lineBreak) :
    skip (rest ++ separator :: others) = skip rest ++ separator :: others := by
  rw [skip, List.dropWhile_append]
  split_ifs with skipped
  · simp [skip, List.isEmpty_iff.mp skipped, isBreak]
  · rfl

/-! ## Problems at the outermost level -/

section Problems

variable (last : Location) {token : Token} (notBreak : token.kind ≠ .lineBreak)
  (notComment : token.kind ≠ .literal .blockComment)

include notBreak notComment

/-- Where no group can be taken, one problem is reported and the next line break is looked for. -/
theorem items_failed (fails : ∀ found after, ¬ Takes (group (token :: rest)) found after) :
    ∃ problem, items last (token :: rest)
      = ⟨(items last (skip rest)).value, problem :: (items last (skip rest)).problems⟩ := by
  rw [items, if_neg notBreak, if_neg notComment]
  split
  · exact ⟨_, rfl⟩
  · next found after shorter taken => exact absurd ⟨shorter, taken⟩ (fails found after)

/-- The same happens behind a group that does not end at a line break or a comment. -/
theorem items_strayed {found : Group} {after : List Token}
    (taken : Takes (group (token :: rest)) found after) (strays : atBoundary after = false) :
    ∃ problem, items last (token :: rest) = ⟨.group found :: (items last (skip after)).value,
      problem :: (items last (skip after)).problems⟩ := by
  rcases taken with ⟨shorter, taken⟩
  rw [items, if_neg notBreak, if_neg notComment]
  split
  · next failure failed =>
    rw [taken] at failed
    cases failed
  · next found' after' _ same =>
    rw [taken] at same
    cases same
    rw [if_neg (by simp [strays])]
    exact ⟨⟨(after.head?.map Token.location).getD last, Fault.unexpected after⟩,
      by simp [bind, pure, Review.bind, Review.pure, Review.report]⟩

end Problems

/-! ## Outlines on both sides of a line break -/

/-- Items on both sides of a line break are read apart. `last` is the place of problems at the end
of all tokens, and `end_` is that of problems at the end of the first ones. -/
theorem items_across_lineBreak (isBreak : separator.kind = .lineBreak) (last end_ : Location)
    (first second : List Token) :
    (items last (first ++ separator :: second)).value
        = (items end_ first).value ++ (items last second).value
      ∧ ∃ earlier, earlier.length = (items end_ first).problems.length
        ∧ (items last (first ++ separator :: second)).problems
          = earlier ++ (items last second).problems := by
  fun_induction items end_ first with
  | case1 =>
      rw [List.nil_append, items_lineBreak isBreak]
      exact ⟨rfl, [], rfl, rfl⟩
  | case2 token rest mark ih =>
      rw [List.cons_append, items_lineBreak mark]
      exact ih
  | case3 token rest notBreak isComment ih =>
      rcases ih with ⟨value, earlier, length, problems⟩
      rw [List.cons_append, items_comment isComment]
      exact ⟨congrArg (Item.comment token :: ·) value, earlier, by simpa using length, problems⟩
  | case4 token rest notBreak notComment failure failed ih =>
      rcases ih with ⟨value, earlier, length, problems⟩
      have fails : ∀ found after,
          ¬ Takes (group (token :: (rest ++ separator :: second))) found after := by
        intro found after taken
        rw [← List.cons_append, takes_group_before_lineBreak isBreak] at taken
        rcases taken with ⟨left, -, shorter, taken⟩
        rw [failed] at taken
        cases taken
      rcases items_failed last notBreak notComment fails with ⟨problem, whole⟩
      rw [List.cons_append, whole, skip_before_lineBreak isBreak]
      exact ⟨value, problem :: earlier, by simp [length, Nat.add_comm],
        congrArg (problem :: ·) problems⟩
  | case5 token rest notBreak notComment found after shorter taken ends ih =>
      rcases ih with ⟨value, earlier, length, problems⟩
      have whole : Takes (group ((token :: rest) ++ separator :: second)) found
          (after ++ separator :: second) :=
        (takes_group_before_lineBreak isBreak).mpr ⟨after, rfl, shorter, taken⟩
      rw [List.cons_append] at whole ⊢
      rw [items_group notBreak notComment whole (by rwa [atBoundary_before_lineBreak isBreak])]
      exact ⟨congrArg (Item.group found :: ·) value, earlier, by simpa using length, problems⟩
  | case6 token rest notBreak notComment found after shorter taken strays ih =>
      rcases ih with ⟨value, earlier, length, problems⟩
      have whole : Takes (group ((token :: rest) ++ separator :: second)) found
          (after ++ separator :: second) :=
        (takes_group_before_lineBreak isBreak).mpr ⟨after, rfl, shorter, taken⟩
      have strays' : atBoundary (after ++ separator :: second) = false := by
        simpa [atBoundary_before_lineBreak isBreak] using strays
      rw [List.cons_append] at whole ⊢
      rcases items_strayed last notBreak notComment whole strays' with ⟨problem, reads⟩
      rw [reads, skip_before_lineBreak isBreak]
      exact ⟨congrArg (Item.group found :: ·) value, problem :: earlier,
        by simp [length, Nat.add_comm], congrArg (problem :: ·) problems⟩

theorem skip_eq_nil (unbroken : ∀ token ∈ tokens, token.kind ≠ .lineBreak) : skip tokens = [] :=
  List.dropWhile_eq_nil_iff.mpr (by simpa using unbroken)

@[simp]
theorem items_nil (last : Location) : items last [] = ⟨[], []⟩ := by
  rw [items]
  rfl

/-- After a problem nothing is left of tokens without a line break, so there is no other problem. -/
theorem length_problems_le {last : Location}
    (unbroken : ∀ token ∈ tokens, token.kind ≠ .lineBreak) :
    (items last tokens).problems.length ≤ 1 := by
  fun_induction items last tokens with
  | case1 => simp
  | case2 token rest mark ih => exact absurd mark (unbroken token List.mem_cons_self)
  | case3 token rest notBreak isComment ih =>
      simpa using ih fun token member => unbroken token (List.mem_cons_of_mem _ member)
  | case4 token rest notBreak notComment failure failed ih =>
      rw [skip_eq_nil fun token member => unbroken token (List.mem_cons_of_mem _ member)]
      simp
  | case5 token rest notBreak notComment found after shorter taken ends ih =>
      rcases group_sound ⟨shorter, taken⟩ with ⟨used, split, -⟩
      rw [split] at unbroken
      simpa using ih fun token member => unbroken token (List.mem_append_right _ member)
  | case6 token rest notBreak notComment found after shorter taken strays ih =>
      rcases group_sound ⟨shorter, taken⟩ with ⟨used, split, -⟩
      rw [split] at unbroken
      rw [skip_eq_nil fun token member => unbroken token (List.mem_append_right _ member)]
      simp

/-- What stands on both sides of a line break is read as if it stood alone. -/
theorem read_before_lineBreak (isBreak : separator.kind = .lineBreak) (first second : List Token) :
    (read (first ++ separator :: second)).value = (read first).value ++ (read second).value
      ∧ ∃ earlier, earlier.length = (read first).problems.length
        ∧ (read (first ++ separator :: second)).problems = earlier ++ (read second).problems := by
  have last :
      items (((first ++ separator :: second).getLast?.map Token.location).getD .start) second
      = read second := by
    cases second with
    | nil => simp [read]
    | cons token rest => simp [read, List.getLast?_append, List.getLast?_cons]
  rw [← last]
  exact items_across_lineBreak isBreak _ _ first second

/-! ## Runs -/

/-- The longest runs of tokens without a line break, in order. A run may be empty. -/
def runs (tokens : List Token) : List (List Token) :=
  tokens.splitOnP fun token => token.kind == .lineBreak

theorem runs_of_unbroken (unbroken : ∀ token ∈ tokens, token.kind ≠ .lineBreak) :
    runs tokens = [tokens] :=
  List.splitOnP_eq_singleton (by simpa using unbroken)

theorem runs_before_lineBreak (isBreak : separator.kind = .lineBreak)
    (unbroken : ∀ token ∈ tokens, token.kind ≠ .lineBreak) :
    runs (tokens ++ separator :: others) = tokens :: runs others :=
  List.splitOnP_append_cons_of_forall_mem (by simpa using unbroken) separator
    (by simpa using isBreak)
    others

/-- The problems of tokens, cut into those of each run. -/
theorem problems_of_runs (tokens : List Token) : ∃ parts,
    List.Forall₂ (fun run problems => problems.length = (read run).problems.length
      ∧ problems.length ≤ 1) (runs tokens) parts ∧ (read tokens).problems = parts.flatten := by
  -- By recursion on the tokens behind the first line break.
  cases search : tokens.find? fun token => token.kind == .lineBreak with
  | none =>
      have unbroken : ∀ token ∈ tokens, token.kind ≠ .lineBreak := by
        simpa using List.find?_eq_none.mp search
      rw [runs_of_unbroken unbroken]
      exact ⟨[(read tokens).problems], .cons ⟨rfl, length_problems_le unbroken⟩ .nil, by simp⟩
  | some separator =>
      rcases List.find?_eq_some_iff_append.mp search with ⟨mark, run, others, split, free⟩
      have isBreak : separator.kind = .lineBreak := by simpa using mark
      have unbroken : ∀ token ∈ run, token.kind ≠ .lineBreak := by simpa using free
      rcases read_before_lineBreak isBreak run others with ⟨-, earlier, length, problems⟩
      rcases problems_of_runs others with ⟨parts, counted, later⟩
      have few : earlier.length ≤ 1 := length.trans_le (length_problems_le unbroken)
      rw [split, runs_before_lineBreak isBreak unbroken, problems, later]
      exact ⟨earlier :: parts, .cons ⟨length, few⟩ counted, rfl⟩
termination_by tokens.length
decreasing_by simp [split]; omega

/-- A line break keeps what stands before it from what stands after it. The items are those of both
parts. There are as many problems as in the first part, and then exactly those of the second part.
So each longest run of tokens without a line break adds as many problems as it has alone, and that
is one at most. -/
theorem lineBreak_isolates :
    (∀ first second text location,
      (read (first ++ ⟨.lineBreak, text, location⟩ :: second)).value
          = (read first).value ++ (read second).value
        ∧ ∃ earlier, earlier.length = (read first).problems.length
          ∧ (read (first ++ ⟨.lineBreak, text, location⟩ :: second)).problems
            = earlier ++ (read second).problems)
      ∧ ∀ tokens, ∃ parts, List.Forall₂ (fun run problems =>
          problems.length = (read run).problems.length ∧ problems.length ≤ 1) (runs tokens) parts
          ∧ (read tokens).problems = parts.flatten :=
  ⟨fun first second _ _ => read_before_lineBreak rfl first second, problems_of_runs⟩

/-! ## Where reading goes on -/

/-- Tokens are skipped up to the next line break or up to their end. -/
theorem skip_split (tokens : List Token) : ∃ skipped, tokens = skipped ++ skip tokens
    ∧ ∀ mark later, skip tokens = mark :: later → mark.kind = .lineBreak := by
  refine ⟨tokens.takeWhile (·.kind != .lineBreak), List.takeWhile_append_dropWhile.symm, ?_⟩
  intro mark later found
  have stops := List.head?_dropWhile_not (·.kind != .lineBreak) tokens
  rw [skip] at found
  simpa [found] using stops

/-- A line break of a text stands outside all blocks, unless it comes right after a block comment.
So does the place where reading goes on after a problem, which is the next line break. -/
theorem resumes_outside_blocks (text : String) :
    (∀ earlier mark later, (Layout.read text).tokens = earlier ++ mark :: later →
        mark.kind = .lineBreak → Layout.Outside earlier)
      ∧ ∀ before rest, (Layout.read text).tokens = before ++ rest → ∃ skipped,
        rest = skipped ++ skip rest ∧ (skip rest = [] ∨ Layout.Outside (before ++ skipped)) := by
  have outside : ∀ earlier mark later, (Layout.read text).tokens = earlier ++ mark :: later →
      mark.kind = .lineBreak → Layout.Outside earlier := by
    intro earlier mark later split isBreak
    exact Layout.grounded_read text earlier mark ⟨later, by simp [split]⟩ isBreak
  refine ⟨outside, ?_⟩
  intro before rest split
  rcases skip_split rest with ⟨skipped, whole, isBreak⟩
  refine ⟨skipped, whole, ?_⟩
  cases found : skip rest with
  | nil => exact .inl rfl
  | cons mark later =>
      rw [found] at whole
      exact .inr (outside _ mark later (by rw [split, whole, List.append_assoc])
        (isBreak mark later found))

/-- A blank line closes the block of the line above it. -/
theorem blankLine_ends_block : ∃ earlier mark later,
    (Layout.read "a:\n. b\n\nd\n").tokens = earlier ++ mark :: later
      ∧ mark.kind = .lineBreak ∧ Layout.opens earlier = 2 ∧ Layout.Outside earlier := by
  have split : (Layout.read "a:\n. b\n\nd\n").tokens
      = (Layout.read "a:\n. b\n\nd\n").tokens.take 8
        ++ ⟨.lineBreak, "-", ⟨2, 0⟩⟩ :: (Layout.read "a:\n. b\n\nd\n").tokens.drop 9 := by
    decide +kernel
  exact ⟨_, _, _, split, rfl, by decide +kernel,
    (resumes_outside_blocks "a:\n. b\n\nd\n").1 _ _ _ split rfl⟩

/-- The block of a line is still open at the blank line under it, if a block comment ends the
line. -/
theorem comment_keeps_block_open : ∃ earlier mark later,
    (Layout.read "a:\n. b ::c::\n\nd\n").tokens = earlier ++ mark :: later
      ∧ mark.kind = .lineBreak ∧ Layout.opens earlier ≠ Layout.closes earlier :=
  ⟨(Layout.read "a:\n. b ::c::\n\nd\n").tokens.take 6, ⟨.lineBreak, "-", ⟨2, 0⟩⟩,
    (Layout.read "a:\n. b ::c::\n\nd\n").tokens.drop 7, by decide +kernel⟩

end Treatise.Outline
