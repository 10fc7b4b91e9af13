import Treatise.Proofs.Expansion.Marks

/-!
# Which templates rendering depends on

An expression asks for the templates of its names and of the signatures that it refers to, at any
depth and also in the brackets of operators. Rendering looks at no other templates: two tables that
agree on what an expression asks for render it alike, errors included. The left side of an
assignment asks for templates too, though rendering leaves it as it is.

Main statement: an expression that asks for no template of a table is rendered, and as its written
form.
-/

namespace Treatise.Expansion

open Statement (ArgGroup Expr Operator)
open Statement.Expr (Within)

/-- The keys under which an expression itself asks for templates, whatever its parts ask for. -/
inductive Asks : Expr → String → Prop
  | name {word : String} {location : Location} : Asks (.name word location) word
  | signature {expr : Expr} {signature : String} (refers : expr.Refers signature) :
      Asks expr signature

/-- Two tables have the same templates under all keys that an expression and its parts ask for. -/
def Agree (templates others : Table Template) (expr : Expr) : Prop :=
  ∀ node key, Within Expr.parts node expr → Asks node key → templates.find? key = others.find? key

variable {templates others : Table Template} {expr : Expr}

theorem Agree.part {part : Expr} (agree : Agree templates others expr)
    (member : part ∈ expr.parts) :
    Agree templates others part := by
  intro node key within
  apply agree node key
  exact Expr.within_iff.mpr (.inr ⟨part, member, within⟩)

theorem Agree.referred {signature : String} (agree : Agree templates others expr)
    (refers : expr.Refers signature) : templates.find? signature = others.find? signature :=
  agree expr signature .refl (.signature refers)

/-- The signature of an expression in parentheses is that of what stands in them. -/
theorem Agree.signed : ∀ {expr : Expr} {signature : String}, Agree templates others expr →
    expr.signature? = some signature → templates.find? signature = others.find? signature
  | .grouped _ _, _, agree, signed => (agree.part (.head _)).signed signed
  | .command .., _, agree, rfl => agree.referred .command
  | .call true .., _, agree, rfl => agree.referred .call
  | .operation .., _, agree, rfl => agree.referred .operation
  | .prefixed .., _, agree, rfl => agree.referred .prefixed

theorem Agree.targetTemplate?_eq (agree : Agree templates others expr) :
    targetTemplate? templates expr = targetTemplate? others expr := by
  cases signed : expr.signature? with
  | none => simp [targetTemplate?, signed]
  | some signature => simp [targetTemplate?, signed, agree.signed signed]

/-! ## Lists of expressions that are rendered alike -/

theorem renderAll_congr {items : List Expr}
    (alike : ∀ item ∈ items, render templates item = render others item) :
    renderAll templates items = renderAll others items := by
  induction items with
  | nil => rfl
  | cons item rest ih =>
      rw [List.forall_mem_cons] at alike
      rw [renderAll, renderAll, alike.1, ih alike.2]

theorem renderEnclosed_congr {items : List Expr}
    (alike : ∀ item ∈ items, render templates item = render others item) :
    renderEnclosed templates items = renderEnclosed others items := by
  induction items with
  | nil => rfl
  | cons item rest ih =>
      rw [List.forall_mem_cons] at alike
      rw [renderEnclosed, renderEnclosed, alike.1, ih alike.2]

section Groups

variable {groups : List ArgGroup}

theorem renderArguments_congr
    (alike : ∀ item ∈ ArgGroup.arguments groups, render templates item = render others item) :
    renderArguments templates groups = renderArguments others groups := by
  rw [renderArguments_eq, renderArguments_eq]
  exact renderEnclosed_congr alike

theorem renderGroups_congr
    (alike : ∀ item ∈ ArgGroup.arguments groups, render templates item = render others item) :
    renderGroups templates groups = renderGroups others groups := by
  induction groups with
  | nil => rfl
  | cons group rest ih =>
      rcases group with ⟨slot, items⟩
      have split : ∀ item ∈ items ++ ArgGroup.arguments rest,
        render templates item = render others item := alike
      rw [List.forall_mem_append] at split
      rw [renderGroups, renderGroups, renderAll_congr split.1, ih split.2]

end Groups

theorem renderOperator_congr {operator : Operator}
    (alike : ∀ item ∈ operator.arguments, render templates item = render others item) :
    renderOperator templates operator = renderOperator others operator := by
  cases operator with
  | symbol text location => rfl
  | command names groups location => rw [renderOperator, renderOperator, renderGroups_congr alike]

theorem argumentTexts_congr
    (alike : ∀ item ∈ arguments expr, render templates item = render others item) :
    argumentTexts templates expr = argumentTexts others expr := by
  cases expr with
  | command names groups location =>
      rw [argumentTexts, argumentTexts]
      exact renderArguments_congr alike
  | call isCommand word groups location =>
      cases isCommand with
      | false => rfl
      | true =>
          rw [argumentTexts, argumentTexts]
          exact renderArguments_congr alike
  | operation operator left right location =>
      rw [argumentTexts, argumentTexts, alike left (.head _), alike right (.tail _ (.head _))]
  | prefixed operator operand location =>
      rw [argumentTexts, argumentTexts, alike operand (.head _)]
  | _ => rfl

/-! ## Expressions -/

/-- A statement that a thing is something may be written as a whole by the template of the
something. -/
theorem render_relation_congr {kind : Statement.RelationKind} {left right : List Expr}
    {location : Location} (agree : Agree templates others (.relation kind left right location))
    (alike : ∀ part ∈ left ++ right, render templates part = render others part)
    (below : ∀ something ∈ right, ∀ item ∈ arguments something,
      render templates item = render others item) :
    render templates (.relation kind left right location)
      = render others (.relation kind left right location) := by
  by_cases single : ∃ thing something, kind = .isA ∧ left = [thing] ∧ right = [something]
  · rcases single with ⟨thing, something, rfl, rfl, rfl⟩
    have target := (agree.part (.tail _ (.head _))).targetTemplate?_eq
    rw [render, render, target, alike thing (.head _), alike something (.tail _ (.head _)),
      argumentTexts_congr (below something (.head _))]
  · have several :
        ∀ thing something, kind = .isA → left = [thing] → right = [something] → False := by
      intro thing something isA one other
      exact single ⟨thing, something, isA, one, other⟩
    rw [List.forall_mem_append] at alike
    rw [render, render, renderAll_congr alike.1, renderAll_congr alike.2]
    · exact several
    · exact several

/-- Tables that agree on what an expression asks for render it alike. -/
theorem Agree.render_eq {expr : Expr} (agree : Agree templates others expr) :
    render templates expr = render others expr := by
  have alike : ∀ part ∈ expr.parts, render templates part = render others part := by
    intro part member
    have := Expr.sizeOf_lt_of_mem_parts member
    exact (agree.part member).render_eq
  have below : ∀ part ∈ expr.parts, ∀ item ∈ arguments part,
      render templates item = render others item := by
    intro part member item inner
    have further := arguments_subset_parts part inner
    have := Expr.sizeOf_lt_of_mem_parts member
    have := Expr.sizeOf_lt_of_mem_parts further
    exact ((agree.part member).part further).render_eq
  cases expr with
  | name word location => rw [render, render, agree _ word .refl .name]
  | variadic word location | text text location | empty location => rfl
  | command names groups location =>
      rw [render, render, agree.referred .command, renderArguments_congr alike,
        renderGroups_congr alike]
  | function word items location | tuple items location | set items location =>
      have listed : renderAll templates items = renderAll others items := renderAll_congr alike
      rw [render, render, listed]
  | call isCommand word groups location =>
      cases isCommand with
      | false => rw [render, render, renderGroups_congr alike]
      | true =>
          rw [render, render, agree.referred .call, renderArguments_congr alike,
            renderGroups_congr alike]
  | grouped inner location => rw [render, render, alike inner (.head _)]
  | operation operator left right location =>
      have operands : ∀ part ∈ operator.arguments ++ [left, right],
        render templates part = render others part := alike
      rw [List.forall_mem_append] at operands
      rw [render, render, agree.referred .operation, renderOperator_congr operands.1,
        operands.2 left (.head _), operands.2 right (.tail _ (.head _))]
  | prefixed operator operand location =>
      have operands : ∀ part ∈ operator.arguments ++ [operand],
        render templates part = render others part := alike
      rw [List.forall_mem_append] at operands
      rw [render, render, agree.referred .prefixed, renderOperator_congr operands.1,
        operands.2 operand (.head _)]
  | relation kind left right location =>
      apply render_relation_congr agree alike
      intro something member
      exact below something (List.mem_append_right left member)
  | assignment left right location => rw [render, render, alike right (.tail _ (.head _))]
termination_by sizeOf expr

/-- No template of a table is under a key that an expression and its parts ask for. -/
def Unasked (templates : Table Template) (expr : Expr) : Prop :=
  ∀ node key, Within Expr.parts node expr → Asks node key → templates.contains key = false

theorem unasked_iff : Unasked templates expr
    ↔ (∀ key, Asks expr key → templates.contains key = false)
      ∧ ∀ part ∈ expr.parts, Unasked templates part := by
  constructor
  · intro unasked
    constructor
    · intro key asks
      exact unasked expr key .refl asks
    · intro part member node key within
      apply unasked node key
      exact Expr.within_iff.mpr (.inr ⟨part, member, within⟩)
  · rintro ⟨here, below⟩ node key within asks
    rcases Expr.within_iff.mp within with rfl | ⟨part, member, inPart⟩
    · exact here key asks
    · exact below part member node key inPart asks

/-- An expression is rendered as its written form if no name in it and no signature that is referred
to in it has a template. -/
theorem render_unasked {templates : Table Template} {expr : Expr}
    (unasked : Unasked templates expr) :
    render templates expr = .ok expr.code := by
  have agree : Agree templates .empty expr := by
    intro node key within asks
    have missing := unasked node key within asks
    rw [Table.contains, Option.isSome_eq_false_iff, Option.isNone_iff_eq_none] at missing
    rw [missing, Table.find?_empty]
  rw [agree.render_eq, render_empty]

/-- The brackets of an operator before its operand are written out like all others. -/
theorem brackets_written_out :
    ∃ templates expr, Table.contains templates "\\h" = true ∧ Unasked templates expr
      ∧ render templates expr = .ok "\\f\x7bx\x7d/(\\g_\x7by\x7d)" := by
  let templates := Table.empty.insert "\\h" (Template.abbreviation "\\h" [] "H")
  have name : ∀ word, word ≠ "\\h" → Unasked templates (.name word .start) := by
    intro word other
    apply unasked_iff.mpr
    refine ⟨?_, nofun⟩
    rintro key (_ | ⟨⟨⟩⟩)
    rw [Table.contains, Table.find?_insert, if_neg other]
    rfl
  have argument : Unasked templates (.command ["g"] [.mk .sub [.name "y" .start]] .start) := by
    apply unasked_iff.mpr
    refine ⟨?_, List.forall_mem_singleton.mpr (name "y" (by decide))⟩
    rintro key (_ | ⟨⟨⟩⟩)
    decide
  have operand : Unasked templates
      (.grouped (.command ["g"] [.mk .sub [.name "y" .start]] .start) .start) := by
    apply unasked_iff.mpr
    refine ⟨?_, List.forall_mem_singleton.mpr argument⟩
    rintro key (_ | ⟨⟨⟩⟩)
  have unasked : Unasked templates
      (.prefixed (.command ["f"] [.mk .curly [.name "x" .start]] .start)
        (.grouped (.command ["g"] [.mk .sub [.name "y" .start]] .start) .start) .start) := by
    apply unasked_iff.mpr
    refine ⟨?_,
      List.forall_mem_cons.mpr ⟨name "x" (by decide), List.forall_mem_singleton.mpr operand⟩⟩
    rintro key (_ | ⟨⟨⟩⟩)
    decide
  exact ⟨templates, _, by decide, unasked, render_unasked unasked⟩

end Treatise.Expansion
