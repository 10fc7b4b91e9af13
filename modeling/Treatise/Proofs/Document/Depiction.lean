import Treatise.Document.Printer
import Treatise.Proofs.Document.Shape

/-!
# Blocks that depict groups

A block depicts a group if it has the same id, and a row for each section of the group, in the same
order, with the name of the section and all its arguments. A row may put targets on its line, so a
block does not say how the lines of the group were broken. It loses nothing else but the places.
-/

namespace Treatise.Document

open Layout (Token)
open Outline (Argument Group Section Target)

/-- A leaf on the page that has the token or the target of an outline. -/
inductive Leaf.Depicts : Leaf → Target → Prop
  | formula {token : Token} (isFormula : token.kind = .literal .statement) :
      Leaf.Depicts (.formula (.ofToken token)) (.single token)
  | text {token : Token} (isText : token.kind = .literal .string) :
      Leaf.Depicts (.text (.ofToken token)) (.single token)
  | target (target : Target) : Leaf.Depicts (.target target) target

mutual

/-- A block with the id and the sections of a group. -/
inductive Block.Depicts : Block → Group → Prop
  | untagged {rows : List Row} {sections : List Section} (depicted : RowsDepict rows sections) :
      Block.Depicts (.mk none rows) (.mk none sections)
  | tagged {id : Token} {rows : List Row} {sections : List Section}
      (depicted : RowsDepict rows sections) :
      Block.Depicts (.mk (some (.ofToken id)) rows) (.mk (some id) sections)

/-- Rows for sections, one by one. -/
inductive RowsDepict : List Row → List Section → Prop
  | none : RowsDepict [] []
  | some {row : Row} {part : Section} {rows : List Row} {parts : List Section}
      (depicted : Row.Depicts row part) (more : RowsDepict rows parts) :
      RowsDepict (row :: rows) (part :: parts)

/-- A row with the name and the arguments of a section. -/
inductive Row.Depicts : Row → Section → Prop
  | mk {name : Token} {inline : List Leaf} {targets : List Target} {items : List Item}
      {arguments : List Argument} (onLine : List.Forall₂ Leaf.Depicts inline targets)
      (below : ItemsDepict items arguments) :
      Row.Depicts (.mk name.text inline items) (.mk name (targets.map .target ++ arguments))

/-- Lines for arguments, one by one. -/
inductive ItemsDepict : List Item → List Argument → Prop
  | none : ItemsDepict [] []
  | some {item : Item} {argument : Argument} {items : List Item} {arguments : List Argument}
      (depicted : Item.Depicts item argument) (more : ItemsDepict items arguments) :
      ItemsDepict (item :: items) (argument :: arguments)

/-- A formula, a text or a block on a line of its own. -/
inductive Item.Depicts : Item → Argument → Prop
  | formula {token : Token} (isFormula : token.kind = .literal .statement) :
      Item.Depicts (.leaf (.formula (.ofToken token))) (.target (.single token))
  | text {token : Token} (isText : token.kind = .literal .string) :
      Item.Depicts (.leaf (.text (.ofToken token))) (.target (.single token))
  | block {block : Block} {group : Group} (depicted : Block.Depicts block group) :
      Item.Depicts (.block block) (.group group)

end

theorem RowsDepict.one {row : Row} {part : Section} (depicted : Row.Depicts row part) :
    RowsDepict [row] [part] :=
  .some depicted .none

theorem RowsDepict.append {rows others : List Row} {parts more : List Section}
    (first : RowsDepict rows parts) (second : RowsDepict others more) :
    RowsDepict (rows ++ others) (parts ++ more) := by
  match first with
  | .none => exact second
  | .some depicted rest => exact .some depicted (rest.append second)

/-! ## Rows of sections -/

section Rows

variable {part : Section} {name : String}

/-- A row that puts all targets of a section on its line. -/
theorem Row.Depicts.onLine {leaves : List Leaf} {targets : List Target}
    (named : part.name = name) (arguments : part.arguments = targets.map .target)
    (onLine : List.Forall₂ Leaf.Depicts leaves targets) :
    Row.Depicts (.mk name leaves []) part := by
  rcases part with ⟨title, given⟩
  obtain rfl : title.text = name := named
  obtain rfl : given = targets.map .target := arguments
  have whole : Row.Depicts _ (.mk title (targets.map .target ++ [])) := .mk onLine .none
  rwa [List.append_nil] at whole

/-- A row that puts the only target of a section on its line. -/
theorem Row.Depicts.single {leaf : Leaf} {target : Target} (named : part.name = name)
    (arguments : part.arguments = [.target target]) (depicted : leaf.Depicts target) :
    Row.Depicts (.mk name [leaf] []) part :=
  have listed : part.arguments = [target].map .target := arguments
  .onLine named listed (.cons depicted .nil)

/-- A row that puts all arguments of a section below it. -/
theorem Row.Depicts.beneath {items : List Item} (named : part.name = name)
    (below : ItemsDepict items part.arguments) : Row.Depicts (.mk name [] items) part := by
  rcases part with ⟨title, given⟩
  obtain rfl : title.text = name := named
  exact Row.Depicts.mk .nil below

theorem targetsOf_clean {arguments : List Argument} (clean : (targetsOf arguments).problems = []) :
    arguments = (targetsOf arguments).value.map .target := by
  induction arguments with
  | nil => rfl
  | cons argument rest ih =>
      cases argument with
      | target leaf =>
          simp only [targetsOf, Review.problems_bind, Review.problems_pure,
            List.append_nil] at clean
          simpa [targetsOf] using ih clean
      | group inner => simp [targetsOf] at clean

theorem groupsOf_clean {arguments : List Argument} (clean : (groupsOf arguments).problems = []) :
    arguments = (groupsOf arguments).value.map .group := by
  induction arguments with
  | nil => rfl
  | cons argument rest ih =>
      cases argument with
      | group inner =>
          simp only [groupsOf, Review.problems_bind, Review.problems_pure, List.append_nil] at clean
          simpa [groupsOf] using ih clean
      | target leaf => simp [groupsOf] at clean

theorem tokenOf?_eq_some {kind : Layout.TokenKind} {argument : Argument} {token : Token}
    (found : tokenOf? kind argument = some token) :
    argument = .target (.single token) ∧ token.kind = kind := by
  cases argument with
  | group inner => simp [tokenOf?] at found
  | target leaf =>
      cases leaf with
      | single other =>
          simp only [tokenOf?, Target.tokenOf?] at found
          split at found
          · next same =>
            rcases Option.some.inj found with rfl
            exact ⟨rfl, same⟩
          · simp at found
      | _ => simp [tokenOf?, Target.tokenOf?] at found

theorem formula_clean {argument : Argument} (clean : (formula argument).problems = []) :
    ∃ token : Token, token.kind = .literal .statement ∧ argument = .target (.single token)
      ∧ (formula argument).value = .ofToken token := by
  unfold formula at clean ⊢
  cases found : tokenOf? (.literal .statement) argument with
  | none => simp [found] at clean
  | some token =>
      rcases tokenOf?_eq_some found with ⟨rfl, kind⟩
      exact ⟨token, kind, rfl, rfl⟩

theorem text_clean {argument : Argument} (clean : (text argument).problems = []) :
    ∃ token : Token, token.kind = .literal .string ∧ argument = .target (.single token)
      ∧ (text argument).value = .ofToken token := by
  unfold text at clean ⊢
  cases found : tokenOf? (.literal .string) argument with
  | none => simp [found] at clean
  | some token =>
      rcases tokenOf?_eq_some found with ⟨rfl, kind⟩
      exact ⟨token, kind, rfl, rfl⟩

theorem textsOf_clean {arguments : List Argument} (clean : (textsOf arguments).problems = []) :
    ∃ targets : List Target, arguments = targets.map .target
      ∧ List.Forall₂ Leaf.Depicts ((textsOf arguments).value.map .text) targets := by
  induction arguments with
  | nil => exact ⟨[], rfl, .nil⟩
  | cons argument rest ih =>
      simp only [textsOf, Review.problems_bind, Review.problems_pure, List.append_nil,
        List.append_eq_nil_iff] at clean
      rcases text_clean clean.1 with ⟨token, isText, rfl, same⟩
      rcases ih clean.2 with ⟨targets, rfl, onLine⟩
      refine ⟨.single token :: targets, rfl, ?_⟩
      simp only [textsOf, Review.value_bind, Review.value_pure, List.map_cons, same]
      exact .cons (.text isText) onLine

theorem depicts_bare (clean : (noArguments part).problems = []) (named : part.name = name) :
    Row.Depicts (.bare name) part := by
  refine .onLine named ?_ .nil
  unfold noArguments at clean
  split at clean
  · assumption
  · simp at clean

theorem depicts_formula (clean : (singleFormula part).problems = []) (named : part.name = name) :
    Row.Depicts (.formula name (singleFormula part).value) part := by
  simp only [singleFormula, Review.problems_bind, Review.value_bind,
    List.append_eq_nil_iff] at clean ⊢
  rcases singleArgument_clean clean.1 with ⟨argument, arguments, same⟩
  rw [same] at clean ⊢
  rcases formula_clean clean.2 with ⟨token, isFormula, rfl, value⟩
  rw [value]
  exact .single named arguments (.formula isFormula)

theorem depicts_text (clean : (singleText part).problems = []) (named : part.name = name) :
    Row.Depicts (.text name (singleText part).value) part := by
  simp only [singleText, Review.problems_bind, Review.value_bind, List.append_eq_nil_iff] at clean ⊢
  rcases singleArgument_clean clean.1 with ⟨argument, arguments, same⟩
  rw [same] at clean ⊢
  rcases text_clean clean.2 with ⟨token, isText, rfl, value⟩
  rw [value]
  exact .single named arguments (.text isText)

theorem depicts_texts (clean : (texts part).problems = []) (named : part.name = name) :
    Row.Depicts (.texts name (texts part).value) part := by
  simp only [texts, Review.problems_bind, Review.problems_pure, List.append_nil] at clean
  rcases textsOf_clean clean with ⟨targets, arguments, onLine⟩
  exact .onLine named arguments onLine

theorem depicts_targets (clean : (targets part).problems = []) (named : part.name = name) :
    Row.Depicts (.targets name (targets part).value) part := by
  simp only [targets, Review.problems_bind, Review.problems_pure, List.append_nil,
    List.append_eq_nil_iff] at clean
  refine .onLine named (targetsOf_clean clean.2) ?_
  exact List.forall₂_map_left_iff.mpr (List.forall₂_same.mpr fun target _ => .target target)

theorem singleTarget_clean (clean : (singleTarget part).problems = []) :
    ∃ target : Target, part.arguments = [.target target]
      ∧ (singleTarget part).value = some target := by
  simp only [singleTarget, Review.problems_bind, Review.value_bind,
    List.append_eq_nil_iff] at clean ⊢
  rcases singleArgument_clean clean.1 with ⟨argument, arguments, same⟩
  rw [same] at clean ⊢
  cases argument with
  | target leaf => exact ⟨leaf, arguments, rfl⟩
  | group inner => simp at clean

/-! ## Sections of a group -/

variable {group : Group} {α : Type}

theorem Row.Depicts.under {row : Row} (depicted : Row.Depicts row part)
    (found : section? group name = some part) : RowsDepict [row] (section? group name).toList := by
  rw [found]
  exact .one depicted

/-- The row of a section that has to be there. -/
theorem required_depicts [Inhabited α] {read : Section → Review Fault α} {row : α → Row}
    (each : ∀ part ∈ group.sections, (read part).problems = [] → part.name = name →
      Row.Depicts (row (read part).value) part)
    (present : ∃ part, section? group name = some part)
    (clean : (required (sectionsOf group) name read).problems = []) :
    RowsDepict [row (required (sectionsOf group) name read).value]
      (section? group name).toList := by
  rcases present with ⟨part, found⟩
  simp only [required, get?_sectionsOf, found] at clean
  rw [required, get?_sectionsOf, found]
  exact .one (each part (mem_of_section? found) clean (name_of_section? found))

/-- The row of a section that has to be there and has no arguments. -/
theorem required_bare_depicts (present : ∃ part, section? group name = some part)
    (clean : (required (sectionsOf group) name noArguments).problems = []) :
    RowsDepict [Row.bare name] (section? group name).toList := by
  rcases present with ⟨part, found⟩
  simp only [required, get?_sectionsOf, found] at clean
  exact (depicts_bare clean (name_of_section? found)).under found

/-- The row of a section that may be left out. -/
theorem whenPresent_depicts {read : Section → Review Fault α} {row : α → Row}
    (each : ∀ part ∈ group.sections, (read part).problems = [] → part.name = name →
      Row.Depicts (row (read part).value) part)
    (clean : (whenPresent (sectionsOf group) name read).problems = []) :
    RowsDepict (Row.optional row (whenPresent (sectionsOf group) name read).value)
      (section? group name).toList := by
  cases found : section? group name with
  | none =>
      rw [whenPresent, get?_sectionsOf, found]
      exact .none
  | some part =>
      simp only [whenPresent, get?_sectionsOf, found, Review.problems_bind, Review.problems_pure,
        List.append_nil] at clean
      simp only [whenPresent, get?_sectionsOf, found, Review.value_bind, Review.value_pure]
      exact .one (each part (mem_of_section? found) clean (name_of_section? found))

end Rows

end Treatise.Document
