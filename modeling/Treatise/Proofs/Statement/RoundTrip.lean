import Treatise.Proofs.Statement.Printing
import Treatise.Proofs.Statement.Recasting

/-!
# Reading the written form of a statement

A statement without problems whose tree is `printable` can be written out and read again: the
written form has no problems, and its tree differs only in the places. The words of the tree fit the
tokens of the statement and are laid out in the written form. So the written form has the same
tokens, up to the brackets of groups, and these are put together in the same way.
-/

namespace Treatise.Statement

theorem lexical_of_fits {words : List Word} {tokens : List Token}
    (fits : List.Forall₂ Word.Fits words tokens)
    (lexical : ∀ token ∈ tokens, Lexical token.kind token.text.toList) :
    ∀ word ∈ words, word.Lexical := by
  induction fits with
  | nil => nofun
  | cons here _ ih =>
      rw [List.forall_mem_cons] at lexical ⊢
      exact ⟨here.lexical lexical.1, ih lexical.2⟩

theorem recast_of_fits {words : List Word} {tokens tokens' : List Token}
    (fits : List.Forall₂ Word.Fits words tokens) (prints : List.Forall₂ Word.Prints words tokens') :
    List.Forall₂ Token.Recast tokens tokens' := by
  induction fits generalizing tokens' with
  | nil =>
      cases prints
      exact .nil
  | cons here _ ih =>
      rcases prints with _ | ⟨printed, more⟩
      exact .cons (here.recast printed) (ih more)

/-- The written form of a printable expression is read as the same expression, at other places. -/
theorem code_read_again {text : String} (clean : (read text).problems = [])
    (printable : (read text).value.printable = true) :
    (read (read text).value.code).problems = []
      ∧ (read (read text).value.code).value.mapLocations forget
        = (read text).value.mapLocations forget := by
  generalize whole : (read text).value = expr at printable
  rcases read_clean_iff.mp (Review.eq_clean_iff.mpr ⟨whole, clean⟩) with
    ⟨spelled, trees, lexed, grouped, spells⟩
  have lexical := @lexical_of_mem_tokensFrom .start text.toList
  rw [tokens] at lexed
  rw [lexed] at lexical
  have fits := spells.written _ (grouped.holds lexical)
  have laid : Laid expr.written expr.code.toList := by
    have printed := expr.printed printable (lexical_of_fits fits lexical)
    simpa using @Printed.laid _ _ printed [] [] (by simp [Closed]) (by simp [NameEnds]) .nil
  rcases laid.tokens .start with ⟨spelled', lexed', prints⟩
  rcases grouped.recast (recast_of_fits fits prints) with ⟨trees', grouped', terms⟩
  rcases ExprSpelled.recast spells terms printable with ⟨expr', spells', same⟩
  have again : read expr.code = ⟨expr', []⟩ :=
    read_clean_iff.mpr ⟨spelled', trees', lexed', grouped', spells'⟩
  rw [again]
  exact ⟨rfl, same⟩

theorem membership_read_again :
    (read "\\f[a](-x, y...) not  in [: u := \"t\" :], \\op/ (p)").problems = []
      ∧ (read "\\f[a](-x, y...) not  in [: u := \"t\" :], \\op/ (p)").value.printable = true
      ∧ (read (read "\\f[a](-x, y...) not  in [: u := \"t\" :], \\op/ (p)").value.code).problems
        = []
      ∧ (read
        (read "\\f[a](-x, y...) not  in [: u := \"t\" :], \\op/ (p)").value.code).value.mapLocations
          forget
        = (read "\\f[a](-x, y...) not  in [: u := \"t\" :], \\op/ (p)").value.mapLocations
          forget := by
  have clean : (read "\\f[a](-x, y...) not  in [: u := \"t\" :], \\op/ (p)").problems = [] := by
    decide +kernel
  have printable :
      (read "\\f[a](-x, y...) not  in [: u := \"t\" :], \\op/ (p)").value.printable = true := by
    decide +kernel
  exact ⟨clean, printable, code_read_again clean printable⟩

/-- The symbols of two prefix operators run together. -/
theorem signs_not_read_again :
    (read "- -x").problems = []
      ∧ (read (read "- -x").value.code).value.mapLocations forget
        ≠ (read "- -x").value.mapLocations forget := by
  refine ⟨by decide +kernel, fun same => ?_⟩
  have count := congrArg (fun expr => expr.nodes.length) same
  revert count
  decide +kernel

end Treatise.Statement
