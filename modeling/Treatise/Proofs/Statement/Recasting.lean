import Mathlib.Data.List.Forall2
import Treatise.Proofs.Statement.Printable

/-!
# Reading the written form of an expression

The written form of an expression has the tokens of the statement that the expression was read from,
at other places and with parentheses in the place of square brackets with colons. Along the grammar
these tokens spell the same expression, up to its places. Parentheses are read as a list of items
where the other brackets are read as one expression, so it is needed that the expression inside is a
single item.
-/

namespace Treatise.Statement

open Statement.Expr (mapGroupLocations mapLocationsOf mapOperatorLocations)

/-! ## Terms -/

/-- A term that has been read again from the written form of what it has been read as. -/
inductive Term.Recast : Term → Term → Prop
  | leaf {token token' : Token} (kind : token'.kind = token.kind)
      (text : (∀ kind, token.kind ≠ .relation kind) → token'.text = token.text) :
      Recast (.leaf token) (.leaf token')
  | group {bracket : Bracket} {opener opener' : Token} {listed listed' : Review Fault (List Expr)}
      {whole whole' : Review Fault Expr} (list : bracket ≠ .squareColon)
      (inside : ∀ items, listed = ⟨items, []⟩ → allPrintable items = true →
        ∃ items', listed' = ⟨items', []⟩
          ∧ mapLocationsOf forget items' = mapLocationsOf forget items) :
      Recast (.group bracket opener listed whole) (.group bracket opener' listed' whole')
  | bracketed {opener opener' : Token} {listed listed' : Review Fault (List Expr)}
      {whole whole' : Review Fault Expr}
      (inside : ∀ inner, whole = ⟨inner, []⟩ → inner.printable = true → inner.flat = true →
        ∃ inner', listed' = ⟨[inner'], []⟩
          ∧ inner'.mapLocations forget = inner.mapLocations forget) :
      Recast (.group .squareColon opener listed whole) (.group .paren opener' listed' whole')

/-- What terms spell is spelled by the terms that have been read in their place, up to its
places. -/
def Recasts (Spelled : Expr → List Term → Prop) : Prop :=
  ∀ {expr : Expr} {terms terms' : List Term}, Spelled expr terms →
    List.Forall₂ Term.Recast terms terms' → expr.printable = true →
    ∃ expr', Spelled expr' terms' ∧ expr'.mapLocations forget = expr.mapLocations forget

/-- `Recasts`, for lists of items. -/
def RecastsAll (Spelled : List Expr → List Term → Prop) : Prop :=
  ∀ {items : List Expr} {terms terms' : List Term}, Spelled items terms →
    List.Forall₂ Term.Recast terms terms' → allPrintable items = true →
    ∃ items', Spelled items' terms' ∧ mapLocationsOf forget items' = mapLocationsOf forget items

/-- `Recasts`, for bracket groups. -/
def RecastsGroups (Spelled : List ArgGroup → List Term → Prop) : Prop :=
  ∀ {groups : List ArgGroup} {terms terms' : List Term}, Spelled groups terms →
    List.Forall₂ Term.Recast terms terms' → groupsPrintable groups = true →
    ∃ groups', Spelled groups' terms'
      ∧ mapGroupLocations forget groups' = mapGroupLocations forget groups

variable {terms : List Term}

theorem exists_append_of_forall₂ {α β : Type} {related : α → β → Prop} {front back : List α}
    {others : List β} (all : List.Forall₂ related (front ++ back) others) :
    ∃ front' back', others = front' ++ back' ∧ List.Forall₂ related front front'
      ∧ List.Forall₂ related back back' := by
  induction front generalizing others with
  | nil => exact ⟨[], others, rfl, .nil, all⟩
  | cons first front ih =>
      rcases all with _ | ⟨here, more⟩
      rcases ih more with ⟨front', back', rfl, before, after⟩
      exact ⟨_ :: front', back', rfl, .cons here before, after⟩

theorem DottedSpelled.recast {names : List String} {terms' : List Term}
    (spelled : DottedSpelled names terms)
    (recast : List.Forall₂ Term.Recast terms terms') : DottedSpelled names terms' := by
  induction spelled generalizing terms' with
  | none =>
      cases recast
      exact .none
  | more isDot isName _ ih =>
      rcases recast with _ | ⟨⟨dotKind, _⟩, _ | ⟨⟨nameKind, nameText⟩, others⟩⟩
      rw [← nameText (by simp [isName])]
      exact .more (dotKind.trans isDot) (nameKind.trans isName) (ih others)

theorem recast_group {bracket : Bracket} {opener : Token} {items : List Expr}
    {whole : Review Fault Expr} {terms' : List Term}
    (recast : List.Forall₂ Term.Recast (.group bracket opener ⟨items, []⟩ whole :: terms) terms')
    (printable : allPrintable items = true) (list : bracket ≠ .squareColon) :
    ∃ opener' items' whole' rest, terms' = .group bracket opener' ⟨items', []⟩ whole' :: rest
      ∧ mapLocationsOf forget items' = mapLocationsOf forget items
      ∧ List.Forall₂ Term.Recast terms rest := by
  rcases recast with _ | ⟨here, others⟩
  cases here with
  | group _ inside =>
      rcases inside items rfl printable with ⟨items', rfl, same⟩
      exact ⟨_, items', _, _, rfl, same, others⟩
  | bracketed => exact absurd rfl list

theorem SlotSpelled.recast {slot : Slot} : RecastsAll (SlotSpelled slot) := by
  intro items terms terms' spelled recast printable
  cases spelled with
  | square | curly | paren =>
      rcases recast_group recast printable nofun with ⟨_, items', _, _, rfl, same, ⟨⟩⟩
      exact ⟨items', by constructor, same⟩
  | sub isUnderscore =>
      rcases recast with _ | ⟨⟨kind, _⟩, others⟩
      rcases recast_group others printable nofun with ⟨_, items', _, _, rfl, same, ⟨⟩⟩
      exact ⟨items', .sub (kind.trans isUnderscore), same⟩
  | sup isCaret =>
      rcases recast with _ | ⟨⟨kind, _⟩, others⟩
      rcases recast_group others printable nofun with ⟨_, items', _, _, rfl, same, ⟨⟩⟩
      exact ⟨items', .sup (kind.trans isCaret), same⟩
  | named isColon isName =>
      rcases recast with _ | ⟨⟨kind, _⟩, _ | ⟨⟨nameKind, nameText⟩, others⟩⟩
      rcases recast_group others printable nofun with ⟨_, items', _, _, rfl, same, ⟨⟩⟩
      rw [← nameText (by simp [isName])]
      exact ⟨items', .named (kind.trans isColon) (nameKind.trans isName), same⟩

theorem SlotsSpelled.recast {slots : List Slot} : RecastsGroups (SlotsSpelled slots) := by
  intro groups terms terms' spelled recast printable
  induction spelled generalizing terms' with
  | none =>
      cases recast
      exact ⟨[], .none, rfl⟩
  | skip _ ih =>
      rcases ih recast printable with ⟨groups', spelled, same⟩
      exact ⟨groups', .skip spelled, same⟩
  | take spelled _ ih =>
      rw [groupsPrintable, Bool.and_eq_true] at printable
      rcases exists_append_of_forall₂ recast with ⟨front, back, rfl, here, others⟩
      rcases SlotSpelled.recast spelled here printable.1 with ⟨items', spelled, same⟩
      rcases ih others printable.2 with ⟨groups', more, same'⟩
      exact ⟨_, .take spelled more, by simp [mapGroupLocations, same, same']⟩

theorem NamedSpelled.recast : RecastsGroups NamedSpelled := by
  intro groups terms terms' spelled recast printable
  induction spelled generalizing terms' with
  | none =>
      cases recast
      exact ⟨[], .none, rfl⟩
  | more spelled _ ih =>
      rw [groupsPrintable, Bool.and_eq_true] at printable
      rcases exists_append_of_forall₂ recast with ⟨front, back, rfl, here, others⟩
      rcases SlotSpelled.recast spelled here printable.1 with ⟨items', spelled, same⟩
      rcases ih others printable.2 with ⟨groups', more, same'⟩
      exact ⟨_, .more spelled more, by simp [mapGroupLocations, same, same']⟩

theorem CommandSpelled.recast {names : List String} : RecastsGroups (CommandSpelled names) := by
  intro groups terms terms' spelled recast printable
  cases spelled with
  | mk isName spelledNames spelledFront spelledNamed spelledBack =>
      simp only [groupsPrintable_append, Bool.and_eq_true] at printable
      rcases recast with _ | ⟨⟨kind, text⟩, recast⟩
      rcases exists_append_of_forall₂ recast with ⟨dotted, _, rfl, recastNames, recast⟩
      rcases exists_append_of_forall₂ recast with ⟨front, _, rfl, recastFront, recast⟩
      rcases exists_append_of_forall₂ recast with ⟨named, back, rfl, recastNamed, recastBack⟩
      rcases SlotsSpelled.recast spelledFront recastFront printable.1.1 with ⟨_, front, sameFront⟩
      rcases NamedSpelled.recast spelledNamed recastNamed printable.1.2 with ⟨_, named, sameNamed⟩
      rcases SlotsSpelled.recast spelledBack recastBack printable.2 with ⟨_, back, sameBack⟩
      rw [← text (by simp [isName])]
      exact ⟨_, .mk (kind.trans isName) (spelledNames.recast recastNames) front named back,
        by simp [sameFront, sameNamed, sameBack]⟩

theorem OperatorSpelled.recast {operator : Operator} {terms' : List Term}
    (spelled : OperatorSpelled operator terms) (recast : List.Forall₂ Term.Recast terms terms')
    (printable : operatorPrintable operator = true) :
    ∃ operator', OperatorSpelled operator' terms'
      ∧ mapOperatorLocations forget operator' = mapOperatorLocations forget operator := by
  cases spelled with
  | symbol isOperator =>
      rcases recast with _ | ⟨⟨kind, text⟩, ⟨⟩⟩
      exact ⟨_, .symbol (kind.trans isOperator),
        by simp [mapOperatorLocations, text, isOperator, forget]⟩
  | command isBackslash spelled isOperator isSlash =>
      rcases recast with _ | ⟨⟨kind, _⟩, recast⟩
      rcases exists_append_of_forall₂ recast with
        ⟨front, _, rfl, here, _ | ⟨⟨slashKind, slashText⟩, ⟨⟩⟩⟩
      rcases CommandSpelled.recast spelled here printable with ⟨groups', spelled, same⟩
      exact ⟨_, .command (kind.trans isBackslash) spelled (slashKind.trans isOperator)
        ((slashText (by simp [isOperator])).trans isSlash),
        by simp [mapOperatorLocations, same, forget]⟩

theorem OperandSpelled.recast : Recasts OperandSpelled := by
  intro operand terms terms' spelled recast printable
  cases spelled with
  | name isName =>
      rcases recast with _ | ⟨⟨kind, text⟩, ⟨⟩⟩
      exact ⟨_, .name (kind.trans isName), by simp [Expr.mapLocations, text, isName, forget]⟩
  | variadic isName isEllipsis =>
      rcases recast with _ | ⟨⟨kind, text⟩, _ | ⟨⟨dots, _⟩, ⟨⟩⟩⟩
      exact ⟨_, .variadic (kind.trans isName) (dots.trans isEllipsis),
        by simp [Expr.mapLocations, text, isName, forget]⟩
  | subscripted isName spelled =>
      simp only [Expr.printable, groupsPrintable, Bool.and_true] at printable
      rcases recast with _ | ⟨⟨kind, text⟩, recast⟩
      rcases SlotSpelled.recast spelled recast printable with ⟨sub, spelled, same⟩
      exact ⟨_, .subscripted (kind.trans isName) spelled,
        by simp [Expr.mapLocations, mapGroupLocations, text, isName, same, forget]⟩
  | subscriptedApplied isName spelled spelledParams =>
      simp only [Expr.printable, groupsPrintable, Bool.and_true, Bool.and_eq_true] at printable
      rcases recast with _ | ⟨⟨kind, text⟩, recast⟩
      rcases exists_append_of_forall₂ recast with ⟨front, back, rfl, recastSub, recastParams⟩
      rcases SlotSpelled.recast spelled recastSub printable.1 with ⟨sub, spelled, same⟩
      rcases SlotSpelled.recast spelledParams recastParams printable.2 with
        ⟨params, spelledParams, same'⟩
      exact ⟨_, .subscriptedApplied (kind.trans isName) spelled spelledParams,
        by simp [Expr.mapLocations, mapGroupLocations, text, isName, same, same', forget]⟩
  | applied isName spelled =>
      rw [printable_applied] at printable
      rcases recast with _ | ⟨⟨kind, text⟩, recast⟩
      rcases SlotSpelled.recast spelled recast printable with ⟨params, spelled, same⟩
      refine ⟨_, .applied (kind.trans isName) spelled, ?_⟩
      rw [text (by simp [isName]), applied_mapLocations, applied_mapLocations, same]
      rfl
  | text isText =>
      rcases recast with _ | ⟨⟨kind, text⟩, ⟨⟩⟩
      exact ⟨_, .text (kind.trans isText), by simp [Expr.mapLocations, text, isText, forget]⟩
  | grouped =>
      simp only [Expr.printable, Bool.and_eq_true] at printable
      rcases recast_group recast (by simp [allPrintable, printable]) (by decide) with
        ⟨_, items, _, _, rfl, same, ⟨⟩⟩
      rw [mapLocationsOf_eq_map, mapLocationsOf_eq_map] at same
      rcases List.map_eq_cons_iff.mp same with ⟨item, rest, rfl, here, none⟩
      obtain rfl := List.map_eq_nil_iff.mp none
      exact ⟨_, .grouped, by simp [Expr.mapLocations, here, forget]⟩
  | tuple several =>
      rcases recast_group recast printable (by decide) with ⟨_, items, _, _, rfl, same, ⟨⟩⟩
      refine ⟨_, .tuple fun single => several ?_, by simp [Expr.mapLocations, same, forget]⟩
      simpa [mapLocationsOf_eq_map, single] using (congrArg List.length same).symm
  | set =>
      rcases recast_group recast printable (by decide) with ⟨_, items, _, _, rfl, same, ⟨⟩⟩
      exact ⟨_, .set, by simp [Expr.mapLocations, same, forget]⟩
  | bracketed =>
      simp only [Expr.printable, Bool.and_eq_true] at printable
      rcases recast with _ | ⟨here, ⟨⟩⟩
      cases here with
      | group list _ => exact absurd rfl list
      | bracketed inside =>
          rcases inside _ rfl printable.1 printable.2 with ⟨inner, rfl, same⟩
          exact ⟨_, .grouped, by simp [Expr.mapLocations, same, forget]⟩

theorem Factor.isSlash_mapLocations (f : Location → Location) (factor : Factor) :
    (factor.mapLocations f).isSlash = factor.isSlash := by
  rcases factor with _ | ⟨⟨⟩⟩ <;> rfl

theorem FactorsSpelled.recast {found : List Factor} {terms' : List Term}
    (spelled : FactorsSpelled found terms) (recast : List.Forall₂ Term.Recast terms terms')
    (printable : ∀ factor ∈ found, factor.printable = true) :
    ∃ found', FactorsSpelled found' terms'
      ∧ found'.map (Factor.mapLocations forget) = found.map (Factor.mapLocations forget) := by
  induction spelled generalizing terms' with
  | none =>
      cases recast
      exact ⟨[], .none, rfl⟩
  | operator spelled _ ih =>
      rcases List.forall_mem_cons.mp printable with ⟨here, later⟩
      rcases exists_append_of_forall₂ recast with ⟨front, back, rfl, recast, others⟩
      rcases spelled.recast recast here with ⟨operator, spelled, same⟩
      rcases ih others later with ⟨found, more, same'⟩
      exact ⟨_, .operator spelled more, by simp [Factor.mapLocations, same, same']⟩
  | operand spelled _ ih =>
      rcases List.forall_mem_cons.mp printable with ⟨here, later⟩
      rcases exists_append_of_forall₂ recast with ⟨front, back, rfl, recast, others⟩
      rcases OperandSpelled.recast spelled recast here with ⟨operand, spelled, same⟩
      rcases ih others later with ⟨found, more, same'⟩
      exact ⟨_, .operand spelled more, by simp [Factor.mapLocations, same, same']⟩
  | @command _ _ _ _ _ found isBackslash spelled apart _ ih =>
      rcases List.forall_mem_cons.mp printable with ⟨here, later⟩
      rw [Factor.printable, printable_commandExpr] at here
      rcases recast with _ | ⟨⟨kind, _⟩, recast⟩
      rcases exists_append_of_forall₂ recast with ⟨front, back, rfl, recast, others⟩
      rcases CommandSpelled.recast spelled recast here with ⟨groups, spelled, same⟩
      rcases ih others later with ⟨found', more, same'⟩
      refine ⟨_, .command (kind.trans isBackslash) spelled ?_ more, ?_⟩
      · intro next first
        have heads := congrArg List.head? same'
        rw [List.head?_map, List.head?_map, first] at heads
        rcases Option.map_eq_some_iff.mp heads.symm with ⟨original, among, alike⟩
        rw [← Factor.isSlash_mapLocations forget, ← alike, Factor.isSlash_mapLocations]
        exact apart original among
      · simp [Factor.mapLocations, commandExpr_mapLocations, same, same', forget]

theorem OperationSpelled.recast : Recasts OperationSpelled := by
  intro expr terms terms' spelled recast printable
  rcases spelled with ⟨found, spelled, together⟩
  rcases spelled.recast recast (printable_of_readFactors (together .start) printable).2.2 with
    ⟨found', spelled', same⟩
  rcases readFactors_alike forget rfl rfl same (together .start) with ⟨expr', together', alike⟩
  exact ⟨expr', ⟨found', spelled', readFactors_anywhere together'⟩, alike⟩

/-! ## Relations and assignments -/

section Levels

variable {next : Expr → List Term → Prop} (inner : Recasts next)

include inner

theorem SegmentsSpelled.recast : RecastsAll (SegmentsSpelled next) := by
  intro items terms terms' spelled recast printable
  induction spelled generalizing terms' with
  | one spelled flat =>
      rw [allPrintable, allPrintable, Bool.and_true] at printable
      rcases inner spelled recast printable with ⟨item, spelled, same⟩
      refine ⟨[item], .one spelled ?_, by simp [mapLocationsOf, same]⟩
      rw [← flat_mapLocations forget, same, flat_mapLocations, flat]
  | more spelled flat isComma _ ih =>
      rw [allPrintable, Bool.and_eq_true] at printable
      rcases exists_append_of_forall₂ recast with ⟨front, _, rfl, here, _ | ⟨⟨kind, _⟩, others⟩⟩
      rcases inner spelled here printable.1 with ⟨item, spelled, same⟩
      rcases ih others printable.2 with ⟨items, more, same'⟩
      refine ⟨item :: items, .more spelled ?_ (kind.trans isComma) more, ?_⟩
      · rw [← flat_mapLocations forget, same, flat_mapLocations, flat]
      · simp [mapLocationsOf, same, same']

theorem RelationSpelled.recast {kinds : List RelationKind} :
    Recasts (RelationSpelled next kinds) := by
  intro expr terms terms' spelled recast printable
  induction spelled generalizing terms' with
  | one spelledLeft isRelation within spelledRight =>
      simp only [Expr.printable, Bool.and_eq_true] at printable
      rcases exists_append_of_forall₂ recast with
        ⟨front, _, rfl, recastLeft, _ | ⟨⟨kind, _⟩, recastRight⟩⟩
      rcases SegmentsSpelled.recast inner spelledLeft recastLeft printable.1.1 with
        ⟨left, spelledLeft, same⟩
      rcases SegmentsSpelled.recast inner spelledRight recastRight printable.1.2 with
        ⟨right, spelledRight, same'⟩
      rcases left with _ | ⟨first, left⟩
      · exact absurd rfl spelledLeft.items_ne_nil
      exact ⟨_, .one spelledLeft (kind.trans isRelation) within spelledRight,
        by simp [Expr.mapLocations, same, same', forget]⟩
  | @more _ _ _ right _ _ _ spelledLeft isRelation within _ ih =>
      simp only [Expr.printable, allPrintable, Bool.and_eq_true] at printable
      rcases exists_append_of_forall₂ recast with
        ⟨front, _, rfl, recastLeft, _ | ⟨⟨kind, _⟩, recastRight⟩⟩
      rcases SegmentsSpelled.recast inner spelledLeft recastLeft
        (by simp [allPrintable, printable]) with
        ⟨left, spelledLeft, same⟩
      rcases ih recastRight printable.1.2.1 with ⟨right', spelledRight, same'⟩
      have same' : mapLocationsOf forget [right'] = mapLocationsOf forget [right] := by
        simp [mapLocationsOf, same']
      rcases left with _ | ⟨first, left⟩
      · exact absurd rfl spelledLeft.items_ne_nil
      exact ⟨_, .more spelledLeft (kind.trans isRelation) within spelledRight,
        by simp [Expr.mapLocations, same, same', forget]⟩

theorem RelatedSpelled.recast {kinds : List RelationKind} :
    Recasts (RelatedSpelled next kinds) := by
  intro expr terms terms' spelled recast printable
  rcases spelled with spelled | spelled
  · rcases inner spelled recast printable with ⟨expr', spelled, same⟩
    exact ⟨expr', .inl spelled, same⟩
  · rcases RelationSpelled.recast inner spelled recast printable with ⟨expr', spelled, same⟩
    exact ⟨expr', .inr spelled, same⟩

theorem AssignmentSpelled.recast : Recasts (AssignmentSpelled next) := by
  intro expr terms terms' spelled recast printable
  induction spelled generalizing terms' with
  | one spelled =>
      rcases inner spelled recast printable with ⟨expr', spelled, same⟩
      exact ⟨expr', .one spelled, same⟩
  | more spelled isAssign _ ih =>
      simp only [Expr.printable, Bool.and_eq_true] at printable
      rcases exists_append_of_forall₂ recast with
        ⟨front, _, rfl, recastLeft, _ | ⟨⟨kind, _⟩, recastRight⟩⟩
      rcases inner spelled recastLeft printable.1.1 with ⟨left, spelled, same⟩
      rcases ih recastRight printable.1.2 with ⟨right, more, same'⟩
      exact ⟨_, .more spelled (kind.trans isAssign) more,
        by simp [Expr.mapLocations, same, same', forget]⟩

end Levels

theorem ExprSpelled.recast : Recasts ExprSpelled :=
  AssignmentSpelled.recast
    (RelatedSpelled.recast (RelatedSpelled.recast (RelatedSpelled.recast OperationSpelled.recast)))

theorem ArgumentsSpelled.recast : RecastsAll ArgumentsSpelled := by
  intro items terms terms' spelled recast printable
  rcases spelled with ⟨rfl, rfl⟩ | spelled
  · cases recast
    exact ⟨[], .inl ⟨rfl, rfl⟩, rfl⟩
  · rcases SegmentsSpelled.recast ExprSpelled.recast spelled recast printable with
      ⟨items', spelled, same⟩
    exact ⟨items', .inr spelled, same⟩

/-! ## Tokens -/

/-- The kind of a token in whose place a parenthesis is written if it is a bracket of a group. -/
def TokenKind.parenthesized : TokenKind → TokenKind
  | .opening .squareColon => .opening .paren
  | .closing .squareColon => .closing .paren
  | kind => kind

theorem TokenKind.parenthesized_opening {bracket : Bracket} (list : bracket ≠ .squareColon) :
    TokenKind.parenthesized (.opening bracket) = .opening bracket := by
  cases bracket with
  | squareColon => exact absurd rfl list
  | _ => rfl

theorem TokenKind.parenthesized_closing {bracket : Bracket} (list : bracket ≠ .squareColon) :
    TokenKind.parenthesized (.closing bracket) = .closing bracket := by
  cases bracket with
  | squareColon => exact absurd rfl list
  | _ => rfl

/-- Whether tokens of a kind can be written differently: relations, and brackets. -/
def TokenKind.isRewritten : TokenKind → Bool
  | .relation _ | .opening _ | .closing _ => true
  | _ => false

/-- A token that is written in the place of another one. -/
structure Token.Recast (token token' : Token) : Prop where
  kind : token'.kind = token.kind.parenthesized
  text : token.kind.isRewritten = false → token'.text = token.text

theorem TreesSpelled.recast {trees : List TokenTree} {tokens tokens' : List Token}
    (spelled : TreesSpelled trees tokens) (recast : List.Forall₂ Token.Recast tokens tokens') :
    ∃ trees', TreesSpelled trees' tokens'
      ∧ List.Forall₂ Term.Recast (termsOf trees) (termsOf trees') := by
  induction spelled generalizing tokens' with
  | nil =>
      cases recast
      exact ⟨[], .nil, .nil⟩
  | @leaf token _ _ noOpener noCloser _ ih =>
      rcases recast with _ | ⟨here, others⟩
      rcases ih others with ⟨trees', spelled, terms⟩
      have same : token.kind.parenthesized = token.kind := by
        unfold TokenKind.parenthesized
        split
        · next opens => exact absurd opens (noOpener _)
        · next closes => exact absurd closes (noCloser _)
        · rfl
      have kind := here.kind.trans same
      refine ⟨_, .leaf (kind ▸ noOpener) (kind ▸ noCloser) spelled,
        .cons (.leaf kind fun related => ?_) terms⟩
      refine here.text ?_
      unfold TokenKind.isRewritten
      split
      · next relation => exact absurd relation (related _)
      · next opens => exact absurd opens (noOpener _)
      · next closes => exact absurd closes (noCloser _)
      · rfl
  | @group bracket _ _ _ _ _ _ opens _ closes _ ih ih' =>
      rcases recast with _ | ⟨opener, recast⟩
      rcases exists_append_of_forall₂ recast with ⟨inner, _, rfl, inside, _ | ⟨closer, others⟩⟩
      rcases ih inside with ⟨items', spelled, terms⟩
      rcases ih' others with ⟨trees', more, terms'⟩
      have opener := opener.kind.trans (congrArg _ opens)
      have closer := closer.kind.trans (congrArg _ closes)
      by_cases list : bracket = .squareColon
      · subst list
        refine ⟨_, .group opener spelled closer more, .cons (.bracketed ?_) terms'⟩
        -- In parentheses the expression is an item of a list. It is flat, so it stays a single
        -- item.
        intro expr clean printable flat
        rcases ExprSpelled.recast (expr_exact.clean_iff.mp clean) terms printable with
          ⟨expr', spelled, same⟩
        refine ⟨expr', expr_exact.arguments_clean_iff.mpr (.inr (.one spelled ?_)), same⟩
        rw [← flat_mapLocations forget, same, flat_mapLocations, flat]
      · have opener := opener.trans (TokenKind.parenthesized_opening list)
        have closer := closer.trans (TokenKind.parenthesized_closing list)
        refine ⟨_, .group opener spelled closer more, .cons (.group list ?_) terms'⟩
        intro items clean printable
        rcases
          ArgumentsSpelled.recast (expr_exact.arguments_clean_iff.mp clean) terms printable with
          ⟨items', spelled, same⟩
        exact ⟨items', expr_exact.arguments_clean_iff.mpr spelled, same⟩

end Treatise.Statement
