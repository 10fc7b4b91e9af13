import Treatise.Proofs.Statement.Bracketing
import Treatise.Proofs.Statement.Cutting

/-!
# Reading relations and assignments

An expression is read without a problem exactly if it is spelled by the grammar. The levels are read
one on top of the other, from operations to assignments. A level can be cut at its separators
because the next one keeps its terms together: outside brackets it has no assignments, no relations
of a looser level, and no commas but those between operands of its own relations. These facts go
along with the statement from each level to the looser one.
-/

namespace Treatise.Statement

open Review (bind_eq_clean_iff pure_eq_clean_iff report_bind_ne_clean)

/-! ## Terms that separate nothing -/

/-- Whether a kind of token separates expressions. -/
def TokenKind.separates : TokenKind → Bool
  | .relation _ | .assign | .comma => true
  | _ => false

/-- No term outside brackets separates expressions. -/
def Inseparable (terms : List Term) : Prop :=
  ∀ term ∈ terms, term.kind.separates = false

@[simp]
theorem inseparable_nil : Inseparable [] :=
  List.forall_mem_nil _

@[simp]
theorem inseparable_cons {term : Term} {rest : List Term} :
    Inseparable (term :: rest) ↔ term.kind.separates = false ∧ Inseparable rest :=
  List.forall_mem_cons

@[simp]
theorem inseparable_append {terms others : List Term} :
    Inseparable (terms ++ others) ↔ Inseparable terms ∧ Inseparable others :=
  List.forall_mem_append

theorem Inseparable.kind_ne {terms : List Term} {term : Term} {kind : TokenKind}
    (inseparable : Inseparable terms) (separates : kind.separates = true) (among : term ∈ terms) :
    term.kind ≠ kind := by
  rintro rfl
  cases (inseparable term among).symm.trans separates

theorem DottedSpelled.inseparable {names : List String} {terms : List Term}
    (spelled : DottedSpelled names terms) : Inseparable terms := by
  induction spelled with
  | none => exact inseparable_nil
  | more isDot isName _ ih => simp [Term.kind, isDot, isName, TokenKind.separates, ih]

/-! ## Lists of operands -/

/-- Reads without a problem exactly what is spelled. The commas outside brackets are those of
lists. -/
structure Exact (read : List Term → Location → Review Fault Expr)
    (Spelled : Expr → List Term → Prop) : Prop where
  clean_iff {expr : Expr} {terms : List Term} {location : Location} :
    read terms location = ⟨expr, []⟩ ↔ Spelled expr terms
  nonempty {expr : Expr} {terms : List Term} (spelled : Spelled expr terms) : terms ≠ []
  flat_iff {expr : Expr} {terms : List Term} (spelled : Spelled expr terms) :
    expr.flat = true ↔ Uncut Term.comma? terms

section Segments

variable {read : List Term → Location → Review Fault Expr} {Spelled : Expr → List Term → Prop}
variable {items : List Expr} {terms : List Term}

theorem SegmentsSpelled.items_ne_nil (spelled : SegmentsSpelled Spelled items terms) :
    items ≠ [] := by
  cases spelled <;> nofun

theorem SegmentsSpelled.uncut {Separator : Type} {separator? : Term → Option Separator}
    (spelled : SegmentsSpelled Spelled items terms)
    (comma : ∀ token, token.kind = .comma → separator? (.leaf token) = none)
    (uncut : ∀ {expr terms}, Spelled expr terms → Uncut separator? terms) :
    Uncut separator? terms := by
  induction spelled with
  | one spelled _ => exact uncut spelled
  | more spelled _ isComma _ ih =>
      exact uncut_append.mpr ⟨uncut spelled, uncut_cons.mpr ⟨comma _ isComma, ih⟩⟩

theorem readSegments_cons_clean_iff {segment : List Term} {location : Location}
    {rest : List (List Term × Location)} :
    readSegments read ((segment, location) :: rest) = ⟨items, []⟩
      ↔ segment ≠ [] ∧ ∃ item others, read segment location = ⟨item, []⟩
        ∧ readSegments read rest = ⟨others, []⟩ ∧ items = item :: others := by
  rcases segment with _ | ⟨term, segment⟩
  · simp [readSegments]
  · simp [readSegments, bind_eq_clean_iff, pure_eq_clean_iff, @eq_comm _ items]

theorem Exact.segments_sound (exact : Exact read Spelled) {first : List Term} {location : Location}
    {more : List (Location × List Term)} (cut : Cut Term.comma? terms first more)
    (clean : readSegments read ((first, location)
      :: more.map fun (comma, segment) => (segment, firstLocation segment comma)) = ⟨items, []⟩) :
    SegmentsSpelled Spelled items terms := by
  induction cut generalizing location items with
  | last uncut =>
      rcases readSegments_cons_clean_iff.mp clean with ⟨_, item, others, here, last, rfl⟩
      cases pure_eq_clean_iff.mp last
      have spelled := exact.clean_iff.mp here
      exact .one spelled ((exact.flat_iff spelled).mpr uncut)
  | more uncut separates _ ih =>
      rcases readSegments_cons_clean_iff.mp clean with ⟨_, item, others, here, later, rfl⟩
      rcases Term.comma?_eq_some_iff.mp separates with ⟨comma, rfl, isComma, _⟩
      have spelled := exact.clean_iff.mp here
      exact .more spelled ((exact.flat_iff spelled).mpr uncut) isComma (ih later)

theorem Exact.segments_complete (exact : Exact read Spelled)
    (spelled : SegmentsSpelled Spelled items terms) :
    ∃ first more, Cut Term.comma? terms first more
      ∧ ∀ location, readSegments read ((first, location)
          :: more.map fun (comma, segment) => (segment, firstLocation segment comma))
        = ⟨items, []⟩ := by
  induction spelled with
  | one spelled flat =>
      refine ⟨_, [], .last ((exact.flat_iff spelled).mp flat), fun location => ?_⟩
      exact readSegments_cons_clean_iff.mpr
        ⟨exact.nonempty spelled, _, [], exact.clean_iff.mpr spelled, rfl, rfl⟩
  | more spelled flat isComma _ ih =>
      rcases ih with ⟨first, more, cut, others⟩
      refine ⟨_, (_, first) :: more, .more ((exact.flat_iff spelled).mp flat)
        (Term.comma?_eq_some_iff.mpr ⟨_, rfl, isComma, rfl⟩) cut, fun location => ?_⟩
      exact readSegments_cons_clean_iff.mpr
        ⟨exact.nonempty spelled, _, _, exact.clean_iff.mpr spelled, others _, rfl⟩

theorem Exact.segments_clean_iff (exact : Exact read Spelled) {location : Location} :
    readSegments read (commaSegments terms location) = ⟨items, []⟩
      ↔ SegmentsSpelled Spelled items terms := by
  constructor
  · exact fun clean => exact.segments_sound (cut_chunks _ _) clean
  · intro spelled
    rcases exact.segments_complete spelled with ⟨first, more, cut, clean⟩
    rw [commaSegments, cut.chunks]
    exact clean _

theorem Exact.segments_ne_nil (exact : Exact read Spelled)
    (spelled : SegmentsSpelled Spelled items terms) : terms ≠ [] := by
  cases spelled with
  | one spelled _ => exact exact.nonempty spelled
  | more _ _ _ _ => simp

theorem Exact.operands_clean_iff (exact : Exact read Spelled) {location : Location} :
    readOperands read terms location = ⟨items, []⟩ ↔ SegmentsSpelled Spelled items terms := by
  rcases terms with _ | ⟨term, terms⟩
  · constructor
    · intro clean
      cases congrArg Review.problems clean
    · exact fun spelled => absurd rfl (exact.segments_ne_nil spelled)
  · exact exact.segments_clean_iff

theorem Exact.arguments_clean_iff (exact : Exact read Spelled) {location : Location} :
    readArguments read terms location = ⟨items, []⟩
      ↔ items = [] ∧ terms = [] ∨ SegmentsSpelled Spelled items terms := by
  rcases terms with _ | ⟨term, terms⟩
  · have nothing : ¬ SegmentsSpelled Spelled items [] :=
      fun spelled => exact.segments_ne_nil spelled rfl
    simp [readArguments, pure_eq_clean_iff, nothing, eq_comm]
  · simpa [readArguments] using exact.segments_clean_iff

/-- Commas outside brackets stand between the operands of a list, so there are none if it has only
one. -/
theorem Exact.flatSingle_iff (exact : Exact read Spelled)
    (spelled : SegmentsSpelled Spelled items terms) :
    flatSingle items = true ↔ Uncut Term.comma? terms := by
  cases spelled with
  | one spelled _ => exact exact.flat_iff spelled
  | more spelled _ isComma more =>
      have separates := Term.comma?_eq_some_iff.mpr ⟨_, rfl, isComma, rfl⟩
      cases more <;> simp [flatSingle, separates]

end Segments

/-! ## Relations -/

/-- A level of relations: outside brackets it leaves assignments to the looser levels, and takes no
relations but those of some kinds. -/
structure Level (kinds : List RelationKind) (read : List Term → Location → Review Fault Expr)
    (Spelled : Expr → List Term → Prop) : Prop extends Exact read Spelled where
  unassigned {expr : Expr} {terms : List Term} (spelled : Spelled expr terms) :
      Uncut Term.assign? terms
  unrelated {expr : Expr} {terms : List Term} {others : List RelationKind}
    (apart : ∀ kind ∈ others, kind ∉ kinds) (spelled : Spelled expr terms) :
    Uncut (Term.relationIn? others) terms

section Relations

variable {read : List Term → Location → Review Fault Expr} {Spelled : Expr → List Term → Prop}
variable {inner kinds : List RelationKind} {expr : Expr} {terms : List Term}

theorem Exact.relations_sound (exact : Exact read Spelled) {rest segment : List Term}
    {token : Token} {location : Location} {relation : RelationKind × Location}
    {more : List ((RelationKind × Location) × List Term)}
    (cut : Cut (Term.relationIn? kinds) rest segment more)
    (isRelation : token.kind = .relation relation.1) (within : relation.1 ∈ kinds)
    (clean : readRelationsFrom read terms location relation segment more = ⟨expr, []⟩) :
    RelationSpelled Spelled kinds expr (terms ++ .leaf token :: rest) := by
  induction cut generalizing terms location relation token expr with
  | last _ =>
      rcases bind_eq_clean_iff.mp clean with ⟨left, before, clean⟩
      rcases bind_eq_clean_iff.mp clean with ⟨right, after, last⟩
      cases pure_eq_clean_iff.mp last
      have spelled := exact.operands_clean_iff.mp before
      rcases left with _ | ⟨first, left⟩
      · exact absurd rfl spelled.items_ne_nil
      exact .one spelled isRelation within (exact.operands_clean_iff.mp after)
  | @more _ _ _ _ separator _ _ separates _ ih =>
      rcases bind_eq_clean_iff.mp clean with ⟨left, before, clean⟩
      rcases bind_eq_clean_iff.mp clean with ⟨right, after, last⟩
      cases pure_eq_clean_iff.mp last
      have spelled := exact.operands_clean_iff.mp before
      rcases left with _ | ⟨first, left⟩
      · exact absurd rfl spelled.items_ne_nil
      rcases separator with ⟨kind, place⟩
      rcases Term.relationIn?_eq_some_iff.mp separates with ⟨among, following, rfl, same, _⟩
      exact .more spelled isRelation within (ih same among after)

theorem Level.operands_unrelated (level : Level inner read Spelled) {items : List Expr}
    (apart : ∀ kind ∈ kinds, kind ∉ inner) (spelled : SegmentsSpelled Spelled items terms) :
    Uncut (Term.relationIn? kinds) terms :=
  spelled.uncut (fun _ same => Term.relationIn?_eq_none (by simp [Term.kind, same]))
    (level.unrelated apart)

theorem Level.relations_complete (level : Level inner read Spelled)
    (apart : ∀ kind ∈ kinds, kind ∉ inner) (spelled : RelationSpelled Spelled kinds expr terms) :
    ∃ first relation segment more,
      Cut (Term.relationIn? kinds) terms first ((relation, segment) :: more)
      ∧ ∀ location, readRelationsFrom read first location relation segment more = ⟨expr, []⟩ := by
  induction spelled with
  | @one kind relation first left right terms others spelledLeft isRelation within spelledRight =>
      refine ⟨_, (kind, relation.location), _, [],
        .more (level.operands_unrelated apart spelledLeft)
        (Term.relationIn?_eq_some_iff.mpr ⟨within, _, rfl, isRelation, rfl⟩)
        (.last (level.operands_unrelated apart spelledRight)), fun location => ?_⟩
      rw [readRelationsFrom, level.operands_clean_iff.mpr spelledLeft,
        level.operands_clean_iff.mpr spelledRight]
      rfl
  | @more kind relation first right left terms others spelledLeft isRelation within _ ih =>
      rcases ih with ⟨segment, following, rest, more, cut, clean⟩
      refine ⟨_, (kind, relation.location), _, _, .more (level.operands_unrelated apart spelledLeft)
        (Term.relationIn?_eq_some_iff.mpr ⟨within, _, rfl, isRelation, rfl⟩) cut,
        fun location => ?_⟩
      rw [readRelationsFrom, level.operands_clean_iff.mpr spelledLeft, clean]
      rfl

theorem RelationSpelled.uncut {Separator : Type} {separator? : Term → Option Separator}
    (spelled : RelationSpelled Spelled kinds expr terms)
    (comma : ∀ token, token.kind = .comma → separator? (.leaf token) = none)
    (relation : ∀ token kind, kind ∈ kinds → token.kind = .relation kind →
      separator? (.leaf token) = none)
    (uncut : ∀ {expr terms}, Spelled expr terms → Uncut separator? terms) :
    Uncut separator? terms := by
  induction spelled with
  | one spelledLeft isRelation within spelledRight =>
      exact uncut_append.mpr ⟨spelledLeft.uncut comma uncut,
        uncut_cons.mpr ⟨relation _ _ within isRelation, spelledRight.uncut comma uncut⟩⟩
  | more spelledLeft isRelation within _ ih =>
      exact uncut_append.mpr ⟨spelledLeft.uncut comma uncut,
        uncut_cons.mpr ⟨relation _ _ within isRelation, ih⟩⟩

theorem Exact.relation_flat_iff (exact : Exact read Spelled)
    (spelled : RelationSpelled Spelled kinds expr terms) :
    expr.flat = true ↔ Uncut Term.comma? terms := by
  have noComma {token : Token} {kind : RelationKind} (isRelation : token.kind = .relation kind) :
      (Term.leaf token).comma? = none := Term.comma?_eq_none (by simp [Term.kind, isRelation])
  induction spelled with
  | one spelledLeft isRelation _ spelledRight =>
      simp only [Expr.flat, Bool.and_eq_true, uncut_append, uncut_cons, noComma isRelation,
        true_and, exact.flatSingle_iff spelledLeft, exact.flatSingle_iff spelledRight]
  | more spelledLeft isRelation _ _ ih =>
      simp only [Expr.flat, flatSingle_singleton, Bool.and_eq_true, uncut_append, uncut_cons,
        noComma isRelation, true_and, exact.flatSingle_iff spelledLeft, ih]

/-- The relations of a level are read on top of those of the next one, if these are other
relations. -/
theorem Level.related (level : Level inner read Spelled) (kinds : List RelationKind)
    (apart : ∀ kind ∈ kinds, kind ∉ inner) :
    Level (kinds ++ inner) (readRelations kinds read) (RelatedSpelled Spelled kinds) where
  clean_iff {expr terms location} := by
    constructor
    · intro clean
      have cut := cut_chunks (Term.relationIn? kinds) terms
      unfold readRelations at clean
      split at clean
      · next first whole =>
        rw [whole] at cut
        cases cut
        exact .inl (level.clean_iff.mp clean)
      · next first relation segment more whole =>
        rw [whole] at cut
        rcases relation with ⟨kind, place⟩
        cases cut with
        | more uncut separates more =>
            rcases Term.relationIn?_eq_some_iff.mp separates with ⟨among, token, rfl, same, _⟩
            exact .inr (level.relations_sound more same among clean)
    · rintro (spelled | spelled)
      · rw [readRelations, (Cut.last (level.unrelated apart spelled)).chunks]
        exact level.clean_iff.mpr spelled
      · rcases level.relations_complete apart spelled with
          ⟨first, relation, segment, more, cut, clean⟩
        rw [readRelations, cut.chunks]
        exact clean location
  nonempty := by
    rintro expr terms (spelled | spelled)
    · exact level.nonempty spelled
    · cases spelled <;> simp
  flat_iff := by
    rintro expr terms (spelled | spelled)
    · exact level.flat_iff spelled
    · exact level.relation_flat_iff spelled
  unassigned := by
    rintro expr terms (spelled | spelled)
    · exact level.unassigned spelled
    · exact spelled.uncut (fun _ same => Term.assign?_eq_none (by simp [Term.kind, same]))
        (fun _ _ _ same => Term.assign?_eq_none (by simp [Term.kind, same])) level.unassigned
  unrelated := by
    intro expr terms others apart' spelled
    have apart'' kind (among : kind ∈ others) : kind ∉ inner := fun member =>
      apart' kind among (List.mem_append_right kinds member)
    rcases spelled with spelled | spelled
    · exact level.unrelated apart'' spelled
    · refine spelled.uncut (fun _ same => Term.relationIn?_eq_none (by simp [Term.kind, same]))
        (fun token kind within same => Term.relationIn?_eq_none fun other among => ?_)
        (level.unrelated apart'')
      -- The relation of this level would be one of the others.
      rintro (again : token.kind = _)
      cases same.symm.trans again
      exact apart' kind among (List.mem_append_left inner within)

end Relations

/-! ## Operations -/

theorem SlotSpelled.inseparable {slot : Slot} {items : List Expr} {terms : List Term}
    (spelled : SlotSpelled slot items terms) : Inseparable terms := by
  cases spelled with
  | square | curly | paren => simp [Term.kind, TokenKind.separates]
  | sub kind | sup kind => simp [Term.kind, TokenKind.separates, kind]
  | named isColon isName => simp [Term.kind, TokenKind.separates, isColon, isName]

theorem SlotsSpelled.inseparable {slots : List Slot} {groups : List ArgGroup} {terms : List Term}
    (spelled : SlotsSpelled slots groups terms) : Inseparable terms := by
  induction spelled with
  | none => exact inseparable_nil
  | skip _ ih => exact ih
  | take spelled _ ih => exact inseparable_append.mpr ⟨spelled.inseparable, ih⟩

theorem NamedSpelled.inseparable {groups : List ArgGroup} {terms : List Term}
    (spelled : NamedSpelled groups terms) : Inseparable terms := by
  induction spelled with
  | none => exact inseparable_nil
  | more spelled _ ih => exact inseparable_append.mpr ⟨spelled.inseparable, ih⟩

theorem CommandSpelled.inseparable {names : List String} {groups : List ArgGroup}
    {terms : List Term} (spelled : CommandSpelled names groups terms) : Inseparable terms := by
  cases spelled with
  | mk isName spelledNames spelledFront spelledNamed spelledBack =>
      simp [Term.kind, isName, TokenKind.separates, spelledNames.inseparable,
        spelledFront.inseparable, spelledNamed.inseparable, spelledBack.inseparable]

theorem OperatorSpelled.inseparable {operator : Operator} {terms : List Term}
    (spelled : OperatorSpelled operator terms) : Inseparable terms := by
  cases spelled with
  | symbol isOperator => simp [Term.kind, isOperator, TokenKind.separates]
  | command isBackslash spelled isOperator _ =>
      simp [Term.kind, isBackslash, isOperator, TokenKind.separates, spelled.inseparable]

theorem OperandSpelled.inseparable {operand : Expr} {terms : List Term}
    (spelled : OperandSpelled operand terms) : Inseparable terms := by
  cases spelled with
  | name isName | text isName => simp [Term.kind, isName, TokenKind.separates]
  | variadic isName isEllipsis => simp [Term.kind, isName, isEllipsis, TokenKind.separates]
  | subscripted isName spelled | applied isName spelled =>
      simp [Term.kind, isName, TokenKind.separates, spelled.inseparable]
  | subscriptedApplied isName spelled spelledParams =>
      simp [Term.kind, isName, TokenKind.separates, spelled.inseparable, spelledParams.inseparable]
  | grouped | tuple _ | set | bracketed => simp [Term.kind, TokenKind.separates]

theorem FactorsSpelled.inseparable {found : List Factor} {terms : List Term}
    (spelled : FactorsSpelled found terms) : Inseparable terms := by
  induction spelled with
  | none => exact inseparable_nil
  | operator spelled _ ih => exact inseparable_append.mpr ⟨spelled.inseparable, ih⟩
  | operand spelled _ ih => exact inseparable_append.mpr ⟨spelled.inseparable, ih⟩
  | command isBackslash spelled _ _ ih =>
      simp [Term.kind, isBackslash, TokenKind.separates, spelled.inseparable, ih]

theorem flat_commandExpr (names : List String) (groups : List ArgGroup) (location : Location) :
    (commandExpr names groups location).flat = true := by
  unfold commandExpr
  split <;> rfl

theorem flat_applied (word : String) (params : List Expr) (location : Location) :
    (applied word params location).flat = true := by
  unfold applied
  dsimp only
  split <;> rfl

theorem OperandSpelled.flat {operand : Expr} {terms : List Term}
    (spelled : OperandSpelled operand terms) : operand.flat = true := by
  cases spelled with
  | applied _ _ => exact flat_applied _ _ _
  | _ => rfl

theorem FactorsSpelled.flat {found : List Factor} {terms : List Term}
    (spelled : FactorsSpelled found terms) :
    ∀ operand, .operand operand ∈ found → operand.flat = true := by
  induction spelled with
  | none => nofun
  | operator _ _ ih => simpa using ih
  | operand spelled _ ih => simpa [spelled.flat] using ih
  | command _ _ _ _ ih => simpa [flat_commandExpr] using ih

theorem flat_prefixedBy {operand : Expr} (flat : operand.flat = true) (operators : List Operator) :
    (prefixedBy operators operand).flat = true := by
  cases operators with
  | nil => exact flat
  | cons => rfl

theorem flat_attach (tree : Expr) (operator : Operator) (operand : Expr) :
    (tree.attach operator operand).flat = true := by
  unfold Expr.attach
  split
  · split <;> rfl
  · rfl

theorem flat_of_clean {location : Location} {tree : Option Expr} {pending : List Operator}
    {found : List Factor} {expr : Expr} (flatTree : ∀ expr ∈ tree, expr.flat = true)
    (flat : ∀ operand, .operand operand ∈ found → operand.flat = true)
    (clean : readFactors location tree pending found = ⟨expr, []⟩) : expr.flat = true := by
  fun_induction readFactors location tree pending found with
  | case1 tree pending operator rest ih =>
      exact ih flatTree (fun _ among => flat _ (.tail _ among)) clean
  | case2 => exact absurd clean report_bind_ne_clean
  | case3 operand rest tree operator operators ih =>
      refine ih ?_ (fun _ among => flat _ (.tail _ among)) clean
      rintro expr ⟨⟩
      exact flat_attach _ _ _
  | case4 pending operand rest ih =>
      refine ih ?_ (fun _ among => flat _ (.tail _ among)) clean
      rintro expr ⟨⟩
      exact flat_prefixedBy (flat _ (.head _)) _
  | case5 tree =>
      cases pure_eq_clean_iff.mp clean
      exact flatTree _ rfl
  | case6 | case7 => exact absurd clean missing_bind_ne_clean

theorem operation_level : Level [] readOperation OperationSpelled where
  clean_iff := operation_clean_iff
  nonempty := by
    rintro expr terms ⟨found, spelled, together⟩ rfl
    generalize empty : ([] : List Term) = terms at spelled
    cases spelled with
    | none => exact missing_bind_ne_clean (together .start)
    | operator spelled _ => cases spelled <;> cases empty
    | operand spelled _ => cases spelled <;> cases empty
    | command => cases empty
  flat_iff := by
    rintro expr terms ⟨found, spelled, together⟩
    have flat : expr.flat = true := flat_of_clean (by simp) spelled.flat (together .start)
    exact iff_of_true flat fun term among =>
      Term.comma?_eq_none (spelled.inseparable.kind_ne rfl among)
  unassigned := by
    rintro expr terms ⟨found, spelled, _⟩ term among
    exact Term.assign?_eq_none (spelled.inseparable.kind_ne rfl among)
  unrelated := by
    rintro expr terms others _ ⟨found, spelled, _⟩ term among
    exact Term.relationIn?_eq_none fun kind _ => spelled.inseparable.kind_ne rfl among

theorem view_level : Level [.viewedAs] (readRelations [.viewedAs] readOperation) ViewSpelled :=
  operation_level.related [.viewedAs] (by simp)

theorem equality_level :
    Level [.equal, .notEqual, .viewedAs]
      (readRelations [.equal, .notEqual] (readRelations [.viewedAs] readOperation))
        EqualitySpelled :=
  view_level.related [.equal, .notEqual] (by simp)

theorem membership_level :
    Level [.isA, .isIn, .notIn, .equal, .notEqual, .viewedAs] readRelated MembershipSpelled :=
  equality_level.related [.isA, .isIn, .notIn] (by simp)

/-! ## Assignments -/

section Assignments

variable {expr : Expr} {terms : List Term}

theorem assignments_sound {first : List Term} {location : Location}
    {more : List (Location × List Term)} (cut : Cut Term.assign? terms first more)
    (clean : readAssignmentsFrom first location more = ⟨expr, []⟩) :
    ExprSpelled expr terms := by
  induction cut generalizing location expr with
  | last _ => exact .one (membership_level.clean_iff.mp clean)
  | more _ separates _ ih =>
      rcases bind_eq_clean_iff.mp clean with ⟨left, before, clean⟩
      rcases bind_eq_clean_iff.mp clean with ⟨right, after, last⟩
      cases pure_eq_clean_iff.mp last
      rcases Term.assign?_eq_some_iff.mp separates with ⟨assign, rfl, isAssign, _⟩
      exact .more (membership_level.clean_iff.mp before) isAssign (ih after)

theorem assignments_complete (spelled : ExprSpelled expr terms) :
    ∃ first more, Cut Term.assign? terms first more
      ∧ ∀ location, readAssignmentsFrom first location more = ⟨expr, []⟩ := by
  induction spelled with
  | one spelled =>
      exact ⟨_, [], .last (membership_level.unassigned spelled),
        fun location => membership_level.clean_iff.mpr spelled⟩
  | more spelled isAssign _ ih =>
      rcases ih with ⟨first, more, cut, clean⟩
      refine ⟨_, (_, first) :: more, .more (membership_level.unassigned spelled)
        (Term.assign?_eq_some_iff.mpr ⟨_, rfl, isAssign, rfl⟩) cut, fun location => ?_⟩
      rw [readAssignmentsFrom, membership_level.clean_iff.mpr spelled, clean]
      rfl

theorem expr_exact : Exact readExpr ExprSpelled where
  clean_iff {expr terms location} := by
    constructor
    · exact fun clean => assignments_sound (cut_chunks _ _) clean
    · intro spelled
      rcases assignments_complete spelled with ⟨first, more, cut, clean⟩
      rw [readExpr, cut.chunks]
      exact clean location
  nonempty spelled := by
    cases spelled with
    | one spelled => exact membership_level.nonempty spelled
    | more _ _ _ => simp
  flat_iff spelled := by
    induction spelled with
    | one spelled => exact membership_level.flat_iff spelled
    | @more _ _ assign _ _ spelled isAssign _ ih =>
        have noComma : (Term.leaf assign).comma? = none :=
          Term.comma?_eq_none (by simp [Term.kind, isAssign])
        simp [Expr.flat, membership_level.flat_iff spelled, ih, noComma]

end Assignments

/-! ## Statements -/

/-- A statement is read without a problem exactly if its tokens spell the expression. -/
theorem read_clean_iff {text : String} {expr : Expr} :
    read text = ⟨expr, []⟩
      ↔ ∃ spelled trees, tokens text = ⟨spelled, []⟩ ∧ TreesSpelled trees spelled
        ∧ ExprSpelled expr (termsOf trees) := by
  have sorted (problems : List (Located Fault)) : Located.sort problems = [] ↔ problems = [] := by
    rw [Located.sort, ← List.length_eq_zero_iff, List.length_mergeSort, List.length_eq_zero_iff]
  simp only [read, sorted, List.append_eq_nil_iff, ← bracket_clean_iff,
    ← @Exact.clean_iff _ _ expr_exact _ _ .start, Review.eq_clean_iff]
  constructor
  · rintro ⟨value, ⟨lexed, grouped⟩, whole⟩
    exact ⟨_, _, ⟨rfl, lexed⟩, ⟨rfl, grouped⟩, value, whole⟩
  · rintro ⟨_, _, ⟨rfl, lexed⟩, ⟨rfl, grouped⟩, value, whole⟩
    exact ⟨value, ⟨lexed, grouped⟩, whole⟩

end Treatise.Statement
