import Mathlib.Order.Bounds.Basic
import Mathlib.Tactic.IntervalCases
import Treatise.Expansion.Engine

/-!
# The texts that inlining goes through

Inlining a text once gives the next text, unless it cannot be read or there is nothing to inline.
Repeated, this gives a sequence of texts, which may come to an end, return to an earlier text, or go
on forever. It goes on without repetition up to some count at most, and then nothing new comes.

Main statement: inlining up to a limit leads to the last text within the limit up to which nothing
comes twice, and to the same one for every greater limit unless the limit was what stopped it.
-/

namespace Treatise.Expansion

namespace Engine

/-- The text after a number of inlinings. Each text is read as an expression, which has to meet no
problem, and what inlining makes of the expression is written out. There is no text where nothing is
to inline. -/
def iterate? (engine : Engine) (text : String) : Nat → Option String
  | 0 => some text
  | count + 1 => do
    let current ← engine.iterate? text count
    guard ((Statement.read current).problems = [])
    let inlined ← inline? engine.bodies (Statement.read current).value
    return inlined.code

/-- There is a text after a number of inlinings, and up to it no text comes twice. -/
structure Fresh (engine : Engine) (text : String) (count : Nat) : Prop where
  reached : (engine.iterate? text count).isSome
  distinct : ∀ early late, early < late → late ≤ count →
    engine.iterate? text early ≠ engine.iterate? text late

/-- The next text has come before. -/
def Returns (engine : Engine) (text : String) (count : Nat) : Prop :=
  ∃ next, engine.iterate? text (count + 1) = some next
    ∧ ∃ early ≤ count, engine.iterate? text early = some next

/-- The engine with another limit to how often a text is inlined. -/
def limited (engine : Engine) (limit : Nat) : Engine :=
  { engine with maxIterations := limit }

/-- Inlining within a limit ends with the text at a count, and says how often something was
inlined. -/
structure Ends (engine : Engine) (text : String) (limit count : Nat)
    (found : FixedPoint) : Prop where
  last : IsGreatest {count | count ≤ limit ∧ engine.Fresh text count} count
  reaches : engine.iterate? text count = some found.text
  returned : count < limit → engine.Returns text count → found.iterations = count + 1
  stopped : ¬ (count < limit ∧ engine.Returns text count) → found.iterations = count

variable {engine : Engine} {text : String}

/-- The loop steps from each text to the next. -/
theorem iterate?_succ {count : Nat} {current : String}
    (here : engine.iterate? text count = some current) :
    engine.iterate? text (count + 1) = engine.step? current := by
  rw [iterate?, here, step?, readStatement]
  by_cases clean : (Statement.read current).problems = []
  · simp [clean, Except.toOption, guard]
  · simp [clean, Except.toOption, guard]

theorem isSome_iterate?_of_le {early late : Nat} (before : early ≤ late)
    (reached : (engine.iterate? text late).isSome) : (engine.iterate? text early).isSome := by
  induction before with
  | refl => exact reached
  | @step late before ih =>
      apply ih
      cases found : engine.iterate? text late with
      | none => simp [iterate?, found] at reached
      | some current => rfl

theorem Fresh.of_le {early late : Nat} (fresh : engine.Fresh text late) (before : early ≤ late) :
    engine.Fresh text early where
  reached := isSome_iterate?_of_le before fresh.reached
  distinct first second below within :=
    fresh.distinct first second below (Nat.le_trans within before)

theorem fresh_zero : engine.Fresh text 0 where
  reached := rfl
  distinct early late below within := by omega

/-- A text that has not come before goes on with the texts up to it. -/
theorem Fresh.succ {count : Nat} {next : String} (fresh : engine.Fresh text count)
    (found : engine.iterate? text (count + 1) = some next)
    (unseen : ∀ early ≤ count, engine.iterate? text early ≠ some next) :
    engine.Fresh text (count + 1) where
  reached := by rw [found]; rfl
  distinct early late below within := by
    rcases Nat.lt_or_eq_of_le within with earlier | rfl
    · exact fresh.distinct early late below (by omega)
    · rw [found]
      exact unseen early (by omega)

/-- The text at a fresh count does not come earlier. -/
theorem Fresh.le_of_same {count other : Nat} (fresh : engine.Fresh text count)
    (same : engine.iterate? text other = engine.iterate? text count) : count ≤ other :=
  Nat.le_of_not_lt fun before => fresh.distinct other count before le_rfl same

/-- Where the next text is missing or has come before, nothing new comes at all. -/
theorem Fresh.last {limit count : Nat} (fresh : engine.Fresh text count) (within : count ≤ limit)
    (past : count < limit → ¬ engine.Fresh text (count + 1)) :
    IsGreatest {count | count ≤ limit ∧ engine.Fresh text count} count := by
  constructor
  · exact ⟨within, fresh⟩
  · rintro later ⟨laterWithin, laterFresh⟩
    rcases Nat.lt_or_ge count later with after | before
    · exact absurd (laterFresh.of_le after) (past (Nat.lt_of_lt_of_le after laterWithin))
    · exact before

theorem not_fresh_of_returns {count : Nat} (returns : engine.Returns text count) :
    ¬ engine.Fresh text (count + 1) := by
  rcases returns with ⟨next, found, early, before, same⟩
  intro fresh
  apply fresh.distinct early (count + 1) (by omega) (by omega)
  rw [found, same]

/-- Going on from a fresh text, with the texts so far at hand, inlining ends as it should. -/
theorem exists_ends_inlineFrom {seen : List String} {current : String} {count fuel : Nat}
    (fresh : engine.Fresh text count) (here : engine.iterate? text count = some current)
    (listed : ∀ other, other ∈ seen ↔ ∃ early ≤ count, engine.iterate? text early = some other) :
    ∃ last, engine.Ends text (count + fuel) last (engine.inlineFrom seen current count fuel) := by
  induction fuel generalizing seen current count with
  | zero =>
      refine ⟨count, fresh.last (by omega) (by omega), here, by omega, ?_⟩
      intro _
      rfl
  | succ fuel ih =>
      have next := iterate?_succ here
      rw [inlineFrom]
      cases found : engine.step? current with
      | none =>
          rw [found] at next
          have missing : ¬ engine.Fresh text (count + 1) := by
            intro more
            simpa [next] using more.reached
          refine ⟨count, fresh.last (by omega) fun _ => missing, here, ?_, ?_⟩
          · rintro - ⟨other, there, -⟩
            simp [next] at there
          · intro _
            rfl
      | some following =>
          rw [found] at next
          by_cases again : following ∈ seen
          · have returns : engine.Returns text count :=
              ⟨following, next, (listed following).mp again⟩
            simp only [List.contains_iff_mem, again, if_true]
            refine ⟨count, fresh.last (by omega) fun _ => not_fresh_of_returns returns,
              here, ?_, ?_⟩
            · intro _ _
              rfl
            · intro elsewhere
              exact absurd ⟨by omega, returns⟩ elsewhere
          · have unseen : ∀ early ≤ count, engine.iterate? text early ≠ some following := by
              intro early before same
              exact again ((listed following).mpr ⟨early, before, same⟩)
            simp only [List.contains_iff_mem, again, if_false]
            have limit : count + (fuel + 1) = count + 1 + fuel := by omega
            rw [limit]
            apply ih (fresh.succ next unseen) next
            intro other
            rw [List.mem_cons, listed]
            constructor
            · rintro (rfl | ⟨early, before, same⟩)
              · exact ⟨count + 1, le_refl _, next⟩
              · exact ⟨early, by omega, same⟩
            · rintro ⟨early, before, same⟩
              rcases Nat.lt_or_eq_of_le before with earlier | rfl
              · exact .inr ⟨early, by omega, same⟩
              · rw [next] at same
                exact .inl (Option.some.inj same).symm

/-- The limit says how often a text is inlined and has no part in inlining itself. -/
theorem inlineFrom_limited {seen : List String} {current : String} {iterations limit fuel : Nat} :
    (engine.limited limit).inlineFrom seen current iterations fuel =
      engine.inlineFrom seen current iterations fuel := by
  have same : (engine.limited limit).step? current = engine.step? current := rfl
  induction fuel generalizing seen current iterations with
  | zero => rfl
  | succ fuel ih =>
      simp only [inlineFrom, same]
      cases engine.step? current with
      | none => rfl
      | some next => simp only [ih rfl]

/-- Within any limit inlining ends. -/
theorem exists_ends (engine : Engine) (text : String) (limit : Nat) :
    ∃ count, engine.Ends text limit count ((engine.limited limit).fixedPoint text) := by
  have listed : ∀ other, other ∈ [text] ↔ ∃ early ≤ 0, engine.iterate? text early = some other := by
    intro other
    simp [iterate?, eq_comm]
  have ends : ∃ count, engine.Ends text (0 + limit) count (engine.inlineFrom [text] text 0 limit) :=
    exists_ends_inlineFrom fresh_zero rfl listed
  rw [Nat.zero_add] at ends
  change ∃ count, engine.Ends text limit count
    ((engine.limited limit).inlineFrom [text] text 0 limit)
  rw [inlineFrom_limited]
  exact ends

/-- If the limit did not stop it, inlining ends in the same way within every greater limit. -/
theorem Ends.eq_of_lt {limit more count count' : Nat} {found found' : FixedPoint}
    (ends : engine.Ends text limit count found) (ends' : engine.Ends text more count' found')
    (early : count < limit) (greater : limit ≤ more) : found' = found := by
  have past : ¬ engine.Fresh text (count + 1) := by
    intro fresh
    exact absurd (ends.last.2 ⟨early, fresh⟩) (by omega)
  have same : count' = count := by
    apply Nat.le_antisymm
    · rcases Nat.lt_or_ge count count' with after | before
      · exact absurd (ends'.last.1.2.of_le after) past
      · exact before
    · exact ends'.last.2 ⟨by omega, ends.last.1.2⟩
  subst same
  have texts : found'.text = found.text :=
    Option.some.inj (ends'.reaches.symm.trans ends.reaches)
  have counts : found'.iterations = found.iterations := by
    by_cases returns : engine.Returns text count'
    · rw [ends.returned early returns, ends'.returned (by omega) returns]
    · rw [ends.stopped (by simp [returns]), ends'.stopped (by simp [returns])]
  cases found
  cases found'
  cases texts
  cases counts
  rfl

/-- Inlining within a limit leads to the last text up to which no text comes twice, and counts one
more step if the next text has come before. If the limit was not reached, every greater limit leads
to the same. -/
theorem fixedPoint_ends (engine : Engine) (text : String) (limit : Nat) :
    ∃ count, IsGreatest {count | count ≤ limit ∧ engine.Fresh text count} count
      ∧ engine.iterate? text count = some ((engine.limited limit).fixedPoint text).text
      ∧ (count < limit → engine.Returns text count →
        ((engine.limited limit).fixedPoint text).iterations = count + 1)
      ∧ (¬ (count < limit ∧ engine.Returns text count) →
        ((engine.limited limit).fixedPoint text).iterations = count)
      ∧ (count < limit → ∀ more, limit ≤ more →
        (engine.limited more).fixedPoint text = (engine.limited limit).fixedPoint text) := by
  rcases exists_ends engine text limit with ⟨count, ends⟩
  refine ⟨count, ends.last, ends.reaches, ends.returned, ends.stopped, ?_⟩
  intro early more greater
  rcases exists_ends engine text more with ⟨count', ends'⟩
  exact ends.eq_of_lt ends' early greater

/-- An engine by which an `\A` is a `\B`, and a `\B` is something else. -/
def chained (something : String) : Engine :=
  { empty 10 with
    bodies :=
      (Table.empty.insert "\\A" ⟨some "a", [], (Statement.read "a is \\B").value⟩).insert "\\B"
        ⟨some "b", [], (Statement.read ("b is " ++ something)).value⟩ }

/-- A chain is followed to its end, a cycle up to the text that comes back, and neither past a
limit. -/
theorem chain_and_cycle_followed :
    ((chained "\\C").limited 10).fixedPoint "x is \\A" = ⟨"x is \\C", 2⟩
      ∧ ((chained "\\A").limited 50).fixedPoint "x is \\A" = ⟨"x is \\B", 2⟩
      ∧ ((chained "\\C").limited 1).fixedPoint "x is \\A" = ⟨"x is \\B", 1⟩
      ∧ IsGreatest {count | count ≤ 10 ∧ (chained "\\C").Fresh "x is \\A" count} 2
      ∧ IsGreatest {count | count ≤ 50 ∧ (chained "\\A").Fresh "x is \\A" count} 1 := by
  have chain : ((chained "\\C").limited 10).fixedPoint "x is \\A" = ⟨"x is \\C", 2⟩ := by
    decide +kernel
  have cycle : ((chained "\\A").limited 50).fixedPoint "x is \\A" = ⟨"x is \\B", 2⟩ := by
    decide +kernel
  refine ⟨chain, cycle, by decide +kernel, ?_, ?_⟩
  · rcases fixedPoint_ends (chained "\\C") "x is \\A" 10 with ⟨count, greatest, reaches, -⟩
    rw [chain] at reaches
    have second : (chained "\\C").iterate? "x is \\A" 2 = some "x is \\C" := by decide +kernel
    have within : count ≤ 2 := greatest.1.2.le_of_same (second.trans reaches.symm)
    interval_cases count
    · exact absurd reaches (by decide +kernel)
    · exact absurd reaches (by decide +kernel)
    · exact greatest
  · rcases fixedPoint_ends (chained "\\A") "x is \\A" 50 with ⟨count, greatest, reaches, -⟩
    rw [cycle] at reaches
    have first : (chained "\\A").iterate? "x is \\A" 1 = some "x is \\B" := by decide +kernel
    have within : count ≤ 1 := greatest.1.2.le_of_same (first.trans reaches.symm)
    interval_cases count
    · exact absurd reaches (by decide +kernel)
    · exact greatest

end Engine

end Treatise.Expansion
