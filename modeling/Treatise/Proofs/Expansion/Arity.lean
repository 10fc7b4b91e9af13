import Treatise.Expansion.Rendering
import Treatise.Proofs.Statement.Usage
import Treatise.Proofs.Table
import Treatise.Statement.Reading

/-!
# When rendering fails

Rendering goes through an expression from the left to the right, and it fails only where a template
does not take the arguments that it is given. So the first thing below an expression that fails
makes the whole expression fail, and otherwise the template of the expression itself may do so.

Main statement: rendering fails exactly if some reference that it comes to has a number of arguments
that its template does not admit, and the error is that of such a reference. The arguments of a
reference in parentheses are not found where a template speaks of the thing; it counts as one
without arguments.
-/

namespace Treatise.Expansion

open Statement (ArgGroup Expr Operator commandSignature)
open Statement.Expr (Within)

/-- The error of what failed. -/
def failure? {α : Type} : Except Error α → Option Error
  | .error error => some error
  | .ok _ => none

section Failures

variable {α β : Type}

@[simp]
theorem failure?_error (error : Error) :
    failure? (.error error : Except Error α) = some error := rfl

@[simp]
theorem failure?_ok (value : α) : failure? (.ok value) = none := rfl

@[simp]
theorem failure?_pure (value : α) : failure? (pure value) = none := rfl

/-- One step after another fails like the first, and otherwise like the second. -/
theorem failure?_bind {first : Except Error α} {next : α → Except Error β} {later : Option Error}
    (same : ∀ value, first = .ok value → failure? (next value) = later) :
    failure? (first >>= next) = (failure? first).or later := by
  cases first with
  | error error => rfl
  | ok value => exact same value rfl

/-- What one step after another gives is what the second gives for what the first gave. -/
theorem exists_of_bind_ok {first : Except Error α} {next : α → Except Error β} {value : β}
    (given : (first >>= next) = .ok value) :
    ∃ found, first = .ok found ∧ next found = .ok value := by
  cases first with
  | error error => cases given
  | ok found => exact ⟨found, rfl, given⟩

end Failures

/-! ## Templates and their arguments -/

/-- A template admits as many arguments as it has parameters. If the last parameter is variadic it
admits more, and one less unless none is left, and it admits none if no hole asks for one. -/
def Template.Admits (template : Template) (count : Nat) : Prop :=
  count = template.params.length
    ∨ (template.isVariadic = true ∧ 0 < count ∧ template.params.length ≤ count + 1)
    ∨ (count = 0 ∧ template.usesParams = false)

theorem Template.admits_iff {template : Template} {count : Nat} :
    template.admits count = true ↔ template.Admits count := by
  unfold Template.admits Template.Admits
  rcases Nat.eq_zero_or_pos count with rfl | some
  · have unused : 0 = template.params.length → template.usesParams = false := by
      intro none
      simp [Template.usesParams, List.eq_nil_of_length_eq_zero none.symm]
    simpa using unused
  · have many : count ≠ 0 := by omega
    cases template.isVariadic with
    | false => simp [many]
    | true =>
        simp only [many, if_false, if_true, decide_eq_true_eq, some, true_and, false_and, or_false]
        omega

theorem failure?_fill (template : Template) (target : Option String) (texts : List String) :
    failure? (template.fill target texts) = if template.admits texts.length then none
      else some (.arityMismatch template.signature template.params.length texts.length) := by
  unfold Template.fill
  split <;> rfl

/-! ## What rendering comes to -/

/-- The parts of an expression that are rendered, in the order in which they are. -/
def renderedParts (templates : Table Template) : Expr → List Expr
  | .operation operator left right _ =>
    if (templates.find? operator.signature).isSome then [left, right]
    else left :: (operator.arguments ++ [right])
  | .prefixed operator operand _ =>
    if (templates.find? operator.signature).isSome then [operand]
    else operator.arguments ++ [operand]
  | .relation .isA [thing] [something] _ =>
    if (targetTemplate? templates something).isSome then thing :: arguments something
    else [thing, something]
  | .assignment _ right _ => [right]
  | expr => expr.children

/-- The arguments of an expression are parts of it. -/
theorem arguments_subset_parts (expr : Expr) : arguments expr ⊆ expr.parts := by
  intro item member
  cases expr with
  | call isCommand word groups location =>
      cases isCommand with
      | true => exact member
      | false => cases member
  | command => exact member
  | operation | prefixed => exact List.mem_append_right _ member
  | _ => cases member

/-- What is written by a template: its signature, the template, and how many arguments it has. -/
structure Reference where
  signature : String
  template : Template
  count : Nat
  deriving DecidableEq, Repr

/-- The error of a reference whose number of arguments does not fit. -/
def Reference.error (reference : Reference) : Error :=
  .arityMismatch reference.signature reference.template.params.length reference.count

/-- The reference that an expression is. `count` counts the arguments of what a thing is. -/
def reference? (templates : Table Template) (count : Expr → Nat) : Expr → Option Reference
  | .name word _ => (templates.find? word).map (⟨word, ·, 0⟩)
  | .command names groups _ =>
    (templates.find? (commandSignature names groups)).map
      (⟨commandSignature names groups, ·, (ArgGroup.arguments groups).length⟩)
  | .call true word groups _ =>
    (templates.find? ("\\" ++ word)).map (⟨"\\" ++ word, ·, (ArgGroup.arguments groups).length⟩)
  | .operation operator _ _ _ =>
    (templates.find? operator.signature).map (⟨operator.signature, ·, 2⟩)
  | .prefixed operator _ _ => (templates.find? operator.signature).map (⟨operator.signature, ·, 1⟩)
  | .relation .isA [_] [something] _ => do
    let signature ← something.signature?
    let template ← targetTemplate? templates something
    return ⟨signature, template, count something⟩
  | _ => none

/-- How many arguments rendering finds. -/
def foundCount (expr : Expr) : Nat :=
  (arguments expr).length

/-- An expression without the parentheses around it. -/
def unwrapped : Expr → Expr
  | .grouped inner _ => unwrapped inner
  | expr => expr

/-- How many arguments an expression has, in parentheses or not. -/
def ownCount (expr : Expr) : Nat :=
  (arguments (unwrapped expr)).length

/-- The error that the template of an expression gives. -/
def mismatch? (templates : Table Template) (expr : Expr) : Option Error :=
  (reference? templates foundCount expr).bind fun reference =>
    if reference.template.admits reference.count then none
    else some (.arityMismatch reference.template.signature reference.template.params.length
      reference.count)

theorem findSome?_cons_eq_or {α β : Type} (f : α → Option β) (item : α) (rest : List α) :
    (item :: rest).findSome? f = (f item).or (rest.findSome? f) := by
  rw [List.findSome?_cons]
  cases f item <;> rfl

section Rendering

variable {templates : Table Template}

theorem targetTemplate?_eq_some_iff {something : Expr} {template : Template} :
    targetTemplate? templates something = some template ↔ ∃ signature,
      something.signature? = some signature ∧ templates.find? signature = some template
        ∧ template.usesTarget = true := by
  simp only [targetTemplate?, Option.bind_eq_bind, Option.bind_eq_some_iff]
  constructor
  · rintro ⟨signature, signed, found, known, speaks⟩
    split at speaks
    · next uses =>
      cases speaks
      exact ⟨signature, signed, known, uses⟩
    · cases speaks
  · rintro ⟨signature, signed, known, uses⟩
    exact ⟨signature, signed, template, known, by rw [if_pos uses]⟩

theorem find?_of_reference? {count : Expr → Nat} {expr : Expr} {reference : Reference}
    (refers : reference? templates count expr = some reference) :
    templates.find? reference.signature = some reference.template := by
  unfold reference? at refers
  split at refers
  case h_6 thing something location =>
    simp only [Option.bind_eq_bind, Option.bind_eq_some_iff] at refers
    rcases refers with ⟨signature, signed, template, found, made⟩
    cases made
    rcases targetTemplate?_eq_some_iff.mp found with ⟨other, signed', known, -⟩
    rw [signed] at signed'
    cases signed'
    exact known
  case h_7 => cases refers
  all_goals
    rcases Option.map_eq_some_iff.mp refers with ⟨template, known, rfl⟩
    exact known

theorem sizeOf_lt_of_mem_renderedParts {expr part : Expr}
    (member : part ∈ renderedParts templates expr) :
    sizeOf part < sizeOf expr := by
  unfold renderedParts at member
  split at member
  case h_1 operator left right location =>
    apply Expr.sizeOf_lt_of_mem_children
    split at member
    · exact List.mem_append_right _ member
    · simp only [Expr.children, List.mem_append, List.mem_cons, List.not_mem_nil,
        or_false] at member ⊢
      tauto
  case h_2 operator operand location =>
    apply Expr.sizeOf_lt_of_mem_parts
    split at member
    · exact List.mem_append_right _ member
    · exact member
  case h_3 thing something location =>
    simp only [Expr.relation.sizeOf_spec, List.cons.sizeOf_spec]
    split at member
    · rcases List.mem_cons.mp member with rfl | argument
      · omega
      · have := Expr.sizeOf_lt_of_mem_parts (arguments_subset_parts something argument)
        omega
    · simp only [List.mem_cons, List.not_mem_nil, or_false] at member
      rcases member with rfl | rfl <;> omega
  case h_4 left right location =>
    rcases List.mem_singleton.mp member with rfl
    simp only [Expr.assignment.sizeOf_spec]
    omega
  case h_5 => exact Expr.sizeOf_lt_of_mem_children member

theorem failure?_renderAll (items : List Expr) :
    failure? (renderAll templates items)
      = items.findSome? fun item => failure? (render templates item) := by
  induction items with
  | nil => rfl
  | cons item rest ih =>
      rw [renderAll, failure?_bind fun _ _ => failure?_bind fun _ _ => failure?_pure _, ih,
        Option.or_none, findSome?_cons_eq_or]

theorem failure?_renderEnclosed (items : List Expr) :
    failure? (renderEnclosed templates items)
      = items.findSome? fun item => failure? (render templates item) := by
  induction items with
  | nil => rfl
  | cons item rest ih =>
      rw [renderEnclosed, failure?_bind fun _ _ => failure?_bind fun _ _ => failure?_pure _, ih,
        Option.or_none, findSome?_cons_eq_or]

theorem renderEnclosed_append (front back : List Expr) :
    renderEnclosed templates (front ++ back) = do
      let first ← renderEnclosed templates front
      return first ++ (← renderEnclosed templates back) := by
  induction front with
  | nil =>
      rw [List.nil_append, renderEnclosed]
      cases renderEnclosed templates back <;> rfl
  | cons item rest ih =>
      rw [List.cons_append, renderEnclosed, renderEnclosed, ih]
      cases render templates item with
      | error => rfl
      | ok =>
          cases renderEnclosed templates rest with
          | error => rfl
          | ok => cases renderEnclosed templates back <;> rfl

/-- The arguments in bracket groups are rendered in one row. -/
theorem renderArguments_eq (groups : List ArgGroup) :
    renderArguments templates groups = renderEnclosed templates (ArgGroup.arguments groups) := by
  induction groups with
  | nil => rfl
  | cons group rest ih =>
      rcases group with ⟨slot, items⟩
      rw [renderArguments, ih]
      exact (renderEnclosed_append items _).symm

theorem failure?_renderArguments (groups : List ArgGroup) :
    failure? (renderArguments templates groups)
      = (ArgGroup.arguments groups).findSome? fun item => failure? (render templates item) := by
  rw [renderArguments_eq, failure?_renderEnclosed]

theorem failure?_renderGroups (groups : List ArgGroup) :
    failure? (renderGroups templates groups)
      = (ArgGroup.arguments groups).findSome? fun item => failure? (render templates item) := by
  induction groups with
  | nil => rfl
  | cons group rest ih =>
      rcases group with ⟨slot, items⟩
      rw [renderGroups, failure?_bind fun _ _ => failure?_bind fun _ _ => failure?_pure _,
        failure?_renderAll, ih, Option.or_none]
      exact (List.findSome?_append ..).symm

theorem failure?_renderOperator (operator : Operator) :
    failure? (renderOperator templates operator)
      = operator.arguments.findSome? fun item => failure? (render templates item) := by
  cases operator with
  | symbol => rfl
  | command names groups location =>
      rw [renderOperator, failure?_bind fun _ _ => failure?_pure _, failure?_renderGroups,
        Option.or_none]
      rfl

theorem length_of_renderEnclosed {items : List Expr} {texts : List String}
    (rendered : renderEnclosed templates items = .ok texts) : texts.length = items.length := by
  induction items generalizing texts with
  | nil =>
      cases rendered
      rfl
  | cons item rest ih =>
      rw [renderEnclosed] at rendered
      rcases exists_of_bind_ok rendered with ⟨text, -, further⟩
      rcases exists_of_bind_ok further with ⟨others, more, same⟩
      cases same
      simp [ih more]

theorem length_of_renderArguments {groups : List ArgGroup} {texts : List String}
    (rendered : renderArguments templates groups = .ok texts) :
    texts.length = (ArgGroup.arguments groups).length := by
  rw [renderArguments_eq] at rendered
  exact length_of_renderEnclosed rendered

theorem failure?_argumentTexts (expr : Expr) :
    failure? (argumentTexts templates expr)
      = (arguments expr).findSome? fun item => failure? (render templates item) := by
  cases expr with
  | command names groups location =>
      rw [argumentTexts, failure?_renderArguments]
      rfl
  | call isCommand word groups location =>
      cases isCommand with
      | true =>
          rw [argumentTexts, failure?_renderArguments]
          rfl
      | false => rfl
  | operation operator left right location =>
      rw [argumentTexts, failure?_bind fun _ _ => failure?_bind fun _ _ => failure?_pure _,
        Option.or_none]
      simp [arguments, findSome?_cons_eq_or]
  | prefixed operator operand location =>
      rw [argumentTexts, failure?_bind fun _ _ => failure?_pure _, Option.or_none]
      simp [arguments, findSome?_cons_eq_or]
  | _ => rfl

theorem length_of_argumentTexts {expr : Expr} {texts : List String}
    (rendered : argumentTexts templates expr = .ok texts) : texts.length = foundCount expr := by
  cases expr with
  | command names groups location => exact length_of_renderArguments rendered
  | call isCommand word groups location =>
      cases isCommand with
      | true => exact length_of_renderArguments rendered
      | false =>
          cases rendered
          rfl
  | operation operator left right location =>
      rw [argumentTexts] at rendered
      rcases exists_of_bind_ok rendered with ⟨first, -, further⟩
      rcases exists_of_bind_ok further with ⟨second, -, same⟩
      cases same
      rfl
  | prefixed operator operand location =>
      rw [argumentTexts] at rendered
      rcases exists_of_bind_ok rendered with ⟨text, -, same⟩
      cases same
      rfl
  | _ =>
      cases rendered
      rfl

/-- A template that is filled with what was rendered fails as that did, or by its own arguments. -/
theorem failure?_filled {template : Template} {target : Option String} {count : Nat}
    {rendered : Except Error (List String)}
    (long : ∀ texts, rendered = .ok texts → texts.length = count) :
    failure? (rendered >>= fun texts => template.fill target texts) = (failure? rendered).or
      (if template.admits count then none
        else some (.arityMismatch template.signature template.params.length count)) := by
  apply failure?_bind
  intro texts found
  rw [failure?_fill, long texts found]

/-- An expression fails like the first part that does, and otherwise by its own template. -/
def FailsInOrder (templates : Table Template) (expr : Expr) : Prop :=
  failure? (render templates expr)
    = ((renderedParts templates expr).findSome? fun part => failure? (render templates part)).or
        (mismatch? templates expr)

theorem failsInOrder_command (names : List String) (groups : List ArgGroup) (location : Location) :
    FailsInOrder templates (.command names groups location) := by
  rw [FailsInOrder, render]
  cases found : templates.find? (commandSignature names groups) with
  | none =>
      simp only [failure?_bind fun _ _ => failure?_pure _, failure?_renderGroups, mismatch?,
        reference?, found, Option.map_none, Option.bind_none]
      rfl
  | some template =>
      simp only [failure?_filled fun _ => length_of_renderArguments, failure?_renderArguments,
        mismatch?, reference?, found, Option.map_some, Option.bind_some]
      rfl

theorem failsInOrder_call (isCommand : Bool) (word : String) (groups : List ArgGroup)
    (location : Location) : FailsInOrder templates (.call isCommand word groups location) := by
  cases isCommand with
  | false =>
      rw [FailsInOrder, render, failure?_bind fun _ _ => failure?_pure _, failure?_renderGroups]
      rfl
  | true =>
      rw [FailsInOrder, render]
      cases found : templates.find? ("\\" ++ word) with
      | none =>
          simp only [failure?_bind fun _ _ => failure?_pure _, failure?_renderGroups, mismatch?,
            reference?, found, Option.map_none, Option.bind_none]
          rfl
      | some template =>
          simp only [failure?_filled fun _ => length_of_renderArguments, failure?_renderArguments,
            mismatch?, reference?, found, Option.map_some, Option.bind_some]
          rfl

theorem failsInOrder_operation (operator : Operator) (left right : Expr) (location : Location) :
    FailsInOrder templates (.operation operator left right location) := by
  rw [FailsInOrder, render]
  cases found : templates.find? operator.signature with
  | none =>
      rw [failure?_bind fun _ _ => failure?_bind fun _ _ => failure?_bind fun _ _ =>
        failure?_pure _]
      simp [failure?_renderOperator, renderedParts, mismatch?, reference?, found,
        findSome?_cons_eq_or]
  | some template =>
      have second : ∀ first, failure? (do
          let second ← render templates right
          template.fill none [enclosed left first, enclosed right second])
            = (failure? (render templates right)).or (mismatch? templates
              (.operation operator left right location)) := by
        intro first
        apply failure?_bind
        intro text _
        simp [failure?_fill, mismatch?, reference?, found]
      simp only [failure?_bind fun first _ => second first]
      simp [renderedParts, found, findSome?_cons_eq_or, Option.or_assoc]

theorem failsInOrder_prefixed (operator : Operator) (operand : Expr) (location : Location) :
    FailsInOrder templates (.prefixed operator operand location) := by
  rw [FailsInOrder, render]
  cases found : templates.find? operator.signature with
  | none =>
      simp only [failure?_bind fun _ _ => failure?_bind fun _ _ => failure?_pure _]
      simp [failure?_renderOperator, renderedParts, mismatch?, reference?, found,
        findSome?_cons_eq_or]
  | some template =>
      have filled : ∀ text, failure? (template.fill none [enclosed operand text])
          = mismatch? templates (.prefixed operator operand location) := by
        intro text
        simp [failure?_fill, mismatch?, reference?, found]
      simp only [failure?_bind fun text _ => filled text]
      simp [renderedParts, found, findSome?_cons_eq_or]

/-- What a thing is may be written by a template that speaks of the thing. -/
theorem failsInOrder_is (thing something : Expr) (location : Location) :
    FailsInOrder templates (.relation .isA [thing] [something] location) := by
  rw [FailsInOrder, render]
  cases found : targetTemplate? templates something with
  | none =>
      simp only [failure?_bind fun _ _ => failure?_bind fun _ _ => failure?_pure _]
      simp [renderedParts, found, findSome?_cons_eq_or, mismatch?, reference?]
  | some template =>
      rcases targetTemplate?_eq_some_iff.mp found with ⟨signature, signed, -, -⟩
      have filled : ∀ target : String, failure? (do
          template.fill (some target) (← argumentTexts templates something))
            = ((arguments something).findSome? fun item => failure? (render templates item)).or
              (mismatch? templates (.relation .isA [thing] [something] location)) := by
        intro target
        rw [failure?_filled fun _ => length_of_argumentTexts, failure?_argumentTexts]
        simp [mismatch?, reference?, found, signed]
      simp only [failure?_bind fun target _ => filled target]
      simp [renderedParts, found, findSome?_cons_eq_or, Option.or_assoc]

theorem failsInOrder_relation (kind : Statement.RelationKind) (left right : List Expr)
    (location : Location) : FailsInOrder templates (.relation kind left right location) := by
  by_cases single : kind = .isA ∧ left.length = 1 ∧ right.length = 1
  · rcases single with ⟨rfl, one, other⟩
    rcases List.length_eq_one_iff.mp one with ⟨thing, rfl⟩
    rcases List.length_eq_one_iff.mp other with ⟨something, rfl⟩
    exact failsInOrder_is thing something location
  · have several :
        ∀ thing something, kind = .isA → left = [thing] → right = [something] → False := by
      rintro thing something rfl rfl rfl
      exact single ⟨rfl, rfl, rfl⟩
    rw [FailsInOrder, render_relation single,
      failure?_bind fun _ _ => failure?_bind fun _ _ => failure?_pure _, failure?_renderAll,
      failure?_renderAll, renderedParts, mismatch?, reference?]
    · simp [Expr.children]
    all_goals simp_all

/-- Rendering fails like the first part that does, and otherwise by the template of the
expression. -/
theorem failure?_render (expr : Expr) :
    failure? (render templates expr)
      = ((renderedParts templates expr).findSome? fun part => failure? (render templates part)).or
          (mismatch? templates expr) := by
  cases expr with
  | name word location =>
      rw [render]
      cases found : templates.find? word with
      | none => simp [renderedParts, Expr.children, mismatch?, reference?, found]
      | some template =>
          simp [renderedParts, Expr.children, mismatch?, reference?, found, failure?_fill]
  | command names groups location => exact failsInOrder_command names groups location
  | call isCommand word groups location => exact failsInOrder_call isCommand word groups location
  | function word items location | tuple items location | set items location =>
      rw [render, failure?_bind fun _ _ => failure?_pure _, failure?_renderAll]
      rfl
  | grouped inner location =>
      rw [render, failure?_bind fun _ _ => failure?_pure _]
      simp [renderedParts, Expr.children, mismatch?, reference?, findSome?_cons_eq_or]
  | operation operator left right location =>
      exact failsInOrder_operation operator left right location
  | prefixed operator operand location => exact failsInOrder_prefixed operator operand location
  | relation kind left right location => exact failsInOrder_relation kind left right location
  | assignment left right location =>
      rw [render, failure?_bind fun _ _ => failure?_pure _]
      simp [renderedParts, mismatch?, reference?, findSome?_cons_eq_or]
  | _ => rfl

end Rendering

/-! ## The references that do not fit -/

/-- Each template stands under its own signature. -/
def Keyed (templates : Table Template) : Prop :=
  ∀ signature template, templates.find? signature = some template → template.signature = signature

/-- A reference that rendering comes to, with a number of arguments that its template does not
admit. -/
def Misfits (templates : Table Template) (count : Expr → Nat) (expr : Expr)
    (reference : Reference) :
    Prop :=
  ∃ node, Within (renderedParts templates) node expr
    ∧ reference? templates count node = some reference
    ∧ ¬ reference.template.Admits reference.count

/-- Rendering fails exactly by the references that do not fit. -/
structure FailsByMisfits (templates : Table Template) (count : Expr → Nat)
    (expr : Expr) : Prop where
  fails : (∃ error, render templates expr = .error error)
    ↔ ∃ reference, Misfits templates count expr reference
  names : ∀ error, render templates expr = .error error →
    ∃ reference, Misfits templates count expr reference ∧ error = reference.error

/-- Where a template speaks of the thing, what the thing is does not stand in parentheses. -/
def NoneWrapped (templates : Table Template) (expr : Expr) : Prop :=
  ∀ thing something location,
    Within (renderedParts templates) (.relation .isA [thing] [something] location) expr →
    something.isGrouped = true → targetTemplate? templates something = none

section Misfits

variable {templates : Table Template} {count : Expr → Nat} {expr : Expr}

theorem mismatch?_eq_some_iff (keyed : Keyed templates) {error : Error} :
    mismatch? templates expr = some error ↔ ∃ reference,
      reference? templates foundCount expr = some reference
        ∧ ¬ reference.template.Admits reference.count ∧ error = reference.error := by
  rw [mismatch?, Option.bind_eq_some_iff]
  apply exists_congr
  intro reference
  apply and_congr_right
  intro refers
  rw [← Template.admits_iff, Reference.error, keyed _ _ (find?_of_reference? refers)]
  cases reference.template.admits reference.count <;> simp [eq_comm]

theorem exists_misfit_of_failure (keyed : Keyed templates) {expr : Expr} {error : Error}
    (failed : failure? (render templates expr) = some error) :
    ∃ reference, Misfits templates foundCount expr reference ∧ error = reference.error := by
  -- By recursion on the expression: what failed is a part or the template of the expression itself.
  rw [failure?_render, Option.or_eq_some_iff] at failed
  rcases failed with below | ⟨-, own⟩
  · rcases List.exists_of_findSome?_eq_some below with ⟨part, member, failedPart⟩
    have := sizeOf_lt_of_mem_renderedParts member
    rcases exists_misfit_of_failure keyed failedPart with ⟨reference, ⟨node, within, misfit⟩, same⟩
    exact ⟨reference, ⟨node, Expr.within_iff.mpr (.inr ⟨part, member, within⟩), misfit⟩, same⟩
  · rcases (mismatch?_eq_some_iff keyed).mp own with ⟨reference, refers, misfit, same⟩
    exact ⟨reference, ⟨expr, .refl, refers, misfit⟩, same⟩
termination_by sizeOf expr

theorem failure_of_misfit (keyed : Keyed templates) {reference : Reference}
    (misfits : Misfits templates foundCount expr reference) :
    ∃ error, failure? (render templates expr) = some error := by
  rcases misfits with ⟨node, within, refers, misfit⟩
  rw [← Option.isSome_iff_exists]
  induction within using Relation.ReflTransGen.head_induction_on with
  | refl =>
      have own := (mismatch?_eq_some_iff keyed).mpr ⟨reference, refers, misfit, rfl⟩
      rw [failure?_render, own]
      simp
  | head member _ ih =>
      rw [failure?_render, Option.isSome_or, Bool.or_eq_true]
      left
      apply List.findSome?_isSome_iff.mpr
      exact ⟨_, member, ih⟩

theorem failsByMisfits (keyed : Keyed templates) (expr : Expr) :
    FailsByMisfits templates foundCount expr := by
  have failed : ∀ error, render templates expr = .error error
      ↔ failure? (render templates expr) = some error := by
    intro error
    cases render templates expr <;> simp
  constructor
  · simp only [failed]
    constructor
    · rintro ⟨error, found⟩
      rcases exists_misfit_of_failure keyed found with ⟨reference, misfits, -⟩
      exact ⟨reference, misfits⟩
    · rintro ⟨reference, misfits⟩
      exact failure_of_misfit keyed misfits
  · intro error found
    exact exists_misfit_of_failure keyed ((failed error).mp found)

theorem foundCount_eq_ownCount {something : Expr} (plain : something.isGrouped = false) :
    foundCount something = ownCount something := by
  cases something with
  | grouped => cases plain
  | _ => rfl

/-- Where nothing stands in parentheses the arguments that are found are those of the reference. -/
theorem NoneWrapped.misfits_iff (bare : NoneWrapped templates expr) {reference : Reference} :
    Misfits templates foundCount expr reference ↔ Misfits templates ownCount expr reference := by
  apply exists_congr
  intro node
  apply and_congr_right
  intro within
  have same : reference? templates foundCount node = reference? templates ownCount node := by
    unfold reference?
    split
    case h_6 thing something location =>
      cases wrapped : something.isGrouped with
      | true => simp [bare thing something location within wrapped]
      | false => rw [foundCount_eq_ownCount wrapped]
    all_goals rfl
  rw [same]

end Misfits

/-- Rendering fails exactly if it comes to a reference whose number of arguments its template does
not admit, and the error is that of such a reference. Its arguments are its own where no reference
stands in parentheses right of an `is` whose template speaks of the thing. -/
theorem arity_errors_exact {templates : Table Template} (keyed : Keyed templates) (expr : Expr) :
    FailsByMisfits templates foundCount expr
      ∧ (NoneWrapped templates expr → FailsByMisfits templates ownCount expr) := by
  have found := failsByMisfits keyed expr
  refine ⟨found, ?_⟩
  intro bare
  constructor
  · rw [found.fails]
    apply exists_congr
    intro reference
    exact bare.misfits_iff
  · intro error failed
    rcases found.names error failed with ⟨reference, misfits, same⟩
    exact ⟨reference, bare.misfits_iff.mp misfits, same⟩

theorem keyed_insert_empty (template : Template) :
    Keyed (Table.empty.insert template.signature template) := by
  intro signature found known
  rw [Table.find?_insert] at known
  split_ifs at known with same
  · cases known
    exact same.symm
  · rw [Table.find?_empty] at known
    cases known

/-- A template that speaks of the thing misses an argument. -/
theorem missing_argument_fails :
    render (Table.empty.insert "\\pair"
          ⟨"\\pair", some "p", [⟨"a", false⟩, ⟨"b", false⟩], "p? is (a?, b?)"⟩)
        (.relation .isA [.name "z" .start] [(Statement.read "\\pair\x7by\x7d").value] .start)
        = .error (.arityMismatch "\\pair" 2 1)
      ∧ FailsByMisfits (Table.empty.insert "\\pair"
          ⟨"\\pair", some "p", [⟨"a", false⟩, ⟨"b", false⟩], "p? is (a?, b?)"⟩) ownCount
        (.relation .isA [.name "z" .start] [(Statement.read "\\pair\x7by\x7d").value] .start) := by
  let template : Template :=
    ⟨"\\pair", some "p", [⟨"a", false⟩, ⟨"b", false⟩], "p? is (a?, b?)"⟩
  let templates := Table.empty.insert "\\pair" template
  let something := (Statement.read "\\pair\x7by\x7d").value
  have leaves :
      ((renderedParts templates (.relation .isA [.name "z" .start] [something] .start)).all
      fun part => (renderedParts templates part).isEmpty) = true := by
    decide +kernel
  have bare : NoneWrapped templates (.relation .isA [.name "z" .start] [something] .start) := by
    intro thing other location within wrapped
    rcases Expr.within_iff.mp within with same | ⟨part, member, inPart⟩
    · cases same
      revert wrapped
      decide +kernel
    · have leaf := List.isEmpty_iff.mp (List.all_eq_true.mp leaves part member)
      rcases Expr.within_iff.mp inPart with rfl | ⟨below, belowMem, -⟩
      · rw [renderedParts] at leaf
        split at leaf <;> cases leaf
      · rw [leaf] at belowMem
        cases belowMem
  exact ⟨by decide +kernel, (arity_errors_exact (keyed_insert_empty template) _).2 bare⟩

/-- A reference in parentheses fails though it has as many arguments as its template admits. -/
theorem wrapped_reference_fails :
    render (Table.empty.insert "\\f" ⟨"\\f", some "x", [⟨"a", false⟩], "x? is F of a?"⟩)
        (Statement.read "y is (\\f\x7bb\x7d)").value = .error (.arityMismatch "\\f" 1 0)
      ∧ ¬ FailsByMisfits (Table.empty.insert "\\f"
          ⟨"\\f", some "x", [⟨"a", false⟩], "x? is F of a?"⟩) ownCount
        (Statement.read "y is (\\f\x7bb\x7d)").value := by
  let template : Template := ⟨"\\f", some "x", [⟨"a", false⟩], "x? is F of a?"⟩
  let templates := Table.empty.insert "\\f" template
  let expr := (Statement.read "y is (\\f\x7bb\x7d)").value
  have failed : render templates expr = .error (.arityMismatch "\\f" 1 0) := by decide +kernel
  have own : reference? templates ownCount expr = some ⟨"\\f", template, 1⟩ := by decide +kernel
  have leaves : ((renderedParts templates expr).all fun part =>
      (renderedParts templates part).isEmpty && (reference? templates ownCount part).isNone)
        = true := by
    decide +kernel
  refine ⟨failed, fun exact => ?_⟩
  rcases exact.fails.mp ⟨_, failed⟩ with ⟨reference, node, within, refers, misfit⟩
  rcases Expr.within_iff.mp within with rfl | ⟨part, member, inPart⟩
  · rw [own] at refers
    cases refers
    exact misfit (.inl rfl)
  · have leaf := List.all_eq_true.mp leaves part member
    rw [Bool.and_eq_true, List.isEmpty_iff, Option.isNone_iff_eq_none] at leaf
    rcases Expr.within_iff.mp inPart with rfl | ⟨below, belowMem, -⟩
    · rw [leaf.2] at refers
      cases refers
    · rw [leaf.1] at belowMem
      cases belowMem

end Treatise.Expansion
