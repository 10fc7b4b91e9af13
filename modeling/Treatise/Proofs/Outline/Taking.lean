import Treatise.Proofs.Outline.Grammar

/-!
# What the rules of outlines take

A step of reading that succeeds yields a value and the tokens that are left. Each rule takes exactly
what the grammar says: whatever it takes spells its value, and a spelling is taken whole if nothing
follows that would continue it.
-/

namespace Treatise.Outline

open Layout (Token TokenKind Mark)

variable {α β : Type} {tokens rest : List Token}

/-- A step of reading takes some of the tokens as a value and leaves the rest. -/
def Takes (step : Step α tokens) (value : α) (rest : List Token) : Prop :=
  ∃ shorter, step = .ok ⟨value, rest, shorter⟩

theorem takes_of_eq {step : Step α tokens} {parsed : Parsed α tokens} (taken : step = .ok parsed) :
    Takes step parsed.value parsed.rest :=
  ⟨parsed.shorter, taken⟩

@[simp]
theorem takes_ok {parsed : Parsed α tokens} {value : α} :
    Takes (.ok parsed) value rest ↔ parsed.value = value ∧ parsed.rest = rest := by
  rcases parsed with ⟨found, left, shorter⟩
  constructor
  · rintro ⟨shorter, same⟩
    cases same
    exact ⟨rfl, rfl⟩
  · rintro ⟨rfl, rfl⟩
    exact ⟨shorter, rfl⟩

@[simp]
theorem takes_pure {parsed : Parsed α tokens} {value : α} :
    Takes (pure parsed : Step α tokens) value rest ↔ parsed.value = value ∧ parsed.rest = rest :=
  takes_ok

@[simp]
theorem not_takes_error {failure : Failure} {value : α} :
    ¬ Takes (.error failure : Step α tokens) value rest := by
  rintro ⟨shorter, same⟩
  cases same

@[simp]
theorem not_takes_fail {fault : Fault} {place : List Token} {value : α} :
    ¬ Takes (fail fault place : Step α tokens) value rest :=
  not_takes_error

@[simp]
theorem not_takes_unexpected {place : List Token} {value : α} :
    ¬ Takes (unexpected place : Step α tokens) value rest :=
  not_takes_error

/-- One step after another takes what both take. -/
@[simp]
theorem takes_bind {part : List Token} {first : Step α part} {next : Parsed α part → Step β tokens}
    {value : β} :
    Takes (first >>= next) value rest
      ↔ ∃ found left shorter, first = .ok ⟨found, left, shorter⟩
        ∧ Takes (next ⟨found, left, shorter⟩) value rest := by
  cases first with
  | error failure =>
      constructor
      · rintro ⟨shorter, same⟩
        cases same
      · rintro ⟨found, left, shorter, same, -⟩
        cases same
  | ok parsed =>
      rcases parsed with ⟨found, left, shorter⟩
      constructor
      · intro taken
        exact ⟨found, left, shorter, rfl, taken⟩
      · rintro ⟨found, left, shorter, same, taken⟩
        cases same
        exact taken

/-! ## Marks and names -/

theorem takes_blockOpen {value : Unit} :
    Takes (blockOpen tokens) value rest ↔ ∃ opening, opening.kind = .blockOpen
      ∧ tokens = opening :: rest := by
  unfold blockOpen
  split
  · next text location after =>
    simp only [takes_ok, true_and]
    constructor
    · rintro rfl
      exact ⟨_, rfl, rfl⟩
    · rintro ⟨opening, -, same⟩
      exact (List.cons.inj same).2
  · next other =>
    simp only [not_takes_unexpected, false_iff]
    rintro ⟨⟨kind, text, location⟩, rfl, rfl⟩
    exact other _ _ _ rfl

theorem takes_lineEnd {value : Unit} :
    Takes (lineEnd tokens) value rest ↔ ∃ opening closing, opening.kind = .blockOpen
      ∧ closing.kind = .blockClose ∧ tokens = opening :: closing :: rest := by
  unfold lineEnd
  simp only [takes_bind]
  constructor
  · rintro ⟨_, left, shorter, opened, taken⟩
    rcases takes_blockOpen.mp ⟨shorter, opened⟩ with ⟨opening, opens, rfl⟩
    split at taken
    · simp only [takes_pure, true_and] at taken
      subst taken
      exact ⟨opening, _, opens, rfl, rfl⟩
    · simp at taken
    · simp at taken
  · rintro ⟨opening, ⟨kind, text, location⟩, opens, rfl, rfl⟩
    rcases takes_blockOpen.mpr ⟨opening, opens, rfl⟩ with ⟨shorter, opened⟩
    exact ⟨(), _, shorter, opened, by simp⟩

theorem takes_closing {closer : Mark} {value : Unit} :
    Takes (closing closer tokens) value rest ↔ ∃ mark, mark.kind = .mark closer
      ∧ tokens = mark :: rest := by
  unfold closing
  split
  · simp
  · next token after =>
    by_cases closes : token.isMark closer = true
    · simp only [closes, if_true, takes_ok, true_and]
      constructor
      · rintro rfl
        exact ⟨token, by simpa [Token.isMark] using closes, rfl⟩
      · rintro ⟨mark, -, same⟩
        exact (List.cons.inj same).2
    · simp only [closes, Bool.false_eq_true, if_false, not_takes_fail, false_iff]
      rintro ⟨mark, closes', same⟩
      rcases List.cons.inj same with ⟨rfl, rfl⟩
      exact closes (by simp [Token.isMark, closes'])

theorem names_sound {found : List Token} (taken : Takes (names tokens) found rest) :
    ∃ used, tokens = used ++ rest ∧ NamesSpelled found used := by
  fun_induction names tokens generalizing found rest with
  | case1 text location _ _ inner ih =>
      simp only [takes_bind, takes_pure] at taken
      rcases taken with ⟨more, left, shorter, first, rfl, rfl⟩
      rcases ih ⟨shorter, first⟩ with ⟨used, rfl, spelled⟩
      exact ⟨_ :: _ :: used, rfl, .more rfl rfl spelled⟩
  | case2 =>
      simp only [takes_pure] at taken
      rcases taken with ⟨rfl, rfl⟩
      exact ⟨[_], rfl, .one rfl⟩
  | case3 => simp at taken

theorem names_complete {found used : List Token} (spelled : NamesSpelled found used)
    (ends : NotAt [.mark .comma] rest) : Takes (names (used ++ rest)) found rest := by
  induction spelled with
  | @one name isName =>
      rcases name with ⟨kind, text, location⟩
      subst isName
      rw [List.singleton_append, names]
      · simp
      · rintro text location inner rfl
        simp at ends
  | @more name comma _ tokens isName isComma _ ih =>
      rcases name with ⟨kind, text, location⟩
      rcases comma with ⟨kind', text', location'⟩
      subst isName isComma
      rcases ih with ⟨shorter, taken⟩
      simp only [List.cons_append]
      unfold names
      simp only [takes_bind, takes_pure]
      exact ⟨_, _, shorter, taken, rfl, rfl⟩

theorem namesSpelled_head {found used : List Token} (spelled : NamesSpelled found used) :
    ∃ first more, used = first :: more ∧ first.kind = .name := by
  cases spelled with
  | one isName => exact ⟨_, [], rfl, isName⟩
  | more isName _ _ => exact ⟨_, _, rfl, isName⟩

/-- A list of names takes what is enclosed by an opening mark that has been taken before. -/
theorem takes_nameList {closer : Mark} (notComma : closer ≠ .comma) {found : List Token}
    {opener : Mark} (opening : Token) (opens : opening.kind = .mark opener) :
    Takes (nameList closer tokens) found rest
      ↔ ∃ used, tokens = used ++ rest ∧ Enclosed opener closer found (opening :: used) := by
  unfold nameList
  split
  · next closed taken =>
    rcases closed with ⟨_, left, shorter⟩
    rcases takes_closing.mp ⟨shorter, taken⟩ with ⟨mark, closes, rfl⟩
    simp only [takes_ok, Parsed.map]
    constructor
    · rintro ⟨rfl, rfl⟩
      exact ⟨[mark], rfl, .empty opens closes⟩
    · rintro ⟨used, same, enclosed⟩
      cases enclosed with
      | empty _ _ => exact ⟨rfl, (List.cons.inj same).2⟩
      | names _ spelled _ =>
          rcases namesSpelled_head spelled with ⟨first, more, rfl, isName⟩
          rcases List.cons.inj same with ⟨rfl, -⟩
          simp [closes] at isName
  · next failure taken =>
    simp only [takes_bind, takes_pure]
    constructor
    · rintro ⟨names, left, shorter, read_, _, after, shorter', closed, rfl, rfl⟩
      rcases names_sound ⟨shorter, read_⟩ with ⟨used, rfl, spelled⟩
      rcases takes_closing.mp ⟨shorter', closed⟩ with ⟨mark, closes, rfl⟩
      exact ⟨used ++ [mark], by simp, .names opens spelled closes⟩
    · rintro ⟨used, rfl, enclosed⟩
      cases enclosed with
      | @empty _ mark _ closes =>
          obtain ⟨shorter, closed⟩ : Takes (closing closer (mark :: rest)) () rest :=
            takes_closing.mpr ⟨mark, closes, rfl⟩
          simp [closed] at taken
      | @names _ mark _ tokens _ spelled closes =>
          have apart : NotAt [.mark .comma] (mark :: rest) := by simpa [closes] using notComma
          have whole := names_complete spelled apart
          rw [← List.singleton_append, ← List.append_assoc] at whole
          rcases whole with ⟨shorter, read_⟩
          rcases takes_closing.mpr
            ⟨mark, closes, rfl⟩ with ⟨shorter', closed⟩
          exact ⟨_, _, shorter, read_, (), rest, shorter', closed, rfl, rfl⟩

/-! ## Targets -/

/-- What follows a target must not continue it. -/
def continuations : List TokenKind :=
  [.mark .colonEquals, .mark .underscore, .mark .leftParen]

theorem enclosed_head {opener closer : Mark} {names used : List Token}
    (enclosed : Enclosed opener closer names used) :
    ∃ opening more, used = opening :: more ∧ opening.kind = .mark opener := by
  cases enclosed with
  | empty opens _ => exact ⟨_, _, rfl, opens⟩
  | names opens _ _ => exact ⟨_, _, rfl, opens⟩

/-- Parameters are taken if they follow. -/
theorem takes_appliedTo {name : Token} {sub : Option (List Token)} {after : List Token}
    {shorter : after.length < tokens.length} {found : Target} :
    Takes (appliedTo name sub tokens after shorter) found rest
      ↔ (∃ params used, after = used ++ rest ∧ Enclosed .leftParen .rightParen params used
          ∧ found = .applied name sub (some params))
        ∨ NotAt [.mark .leftParen] after ∧ found = .applied name sub none ∧ after = rest := by
  unfold appliedTo
  split
  · next text location inner _ =>
    simp only [takes_bind, takes_pure]
    constructor
    · rintro ⟨params, left, shorter, taken, rfl, rfl⟩
      rcases (takes_nameList (by decide)
        ⟨.mark .leftParen, text, location⟩ rfl).mp ⟨shorter, taken⟩ with ⟨used, rfl, enclosed⟩
      exact .inl ⟨params, _, rfl, enclosed, rfl⟩
    · rintro (⟨params, used, same, enclosed, rfl⟩ | ⟨notAt, -, -⟩)
      · rcases enclosed_head enclosed with ⟨opening, more, rfl, opens⟩
        rcases List.cons.inj same with ⟨rfl, rfl⟩
        rcases (takes_nameList (by decide) _ opens).mpr ⟨more, rfl, enclosed⟩ with ⟨shorter, taken⟩
        exact ⟨params, rest, shorter, taken, rfl, rfl⟩
      · simp at notAt
  · next other =>
    have notAt : NotAt [.mark .leftParen] after := by
      rcases after with _ | ⟨⟨kind, text, location⟩, more⟩
      · simp
      · simp only [notAt_cons, List.mem_singleton]
        rintro rfl
        exact other _ _ _ _ rfl (HEq.refl _)
    simp only [takes_pure]
    constructor
    · rintro ⟨rfl, rfl⟩
      exact .inr ⟨notAt, rfl, rfl⟩
    · rintro (⟨params, used, rfl, enclosed, rfl⟩ | ⟨-, rfl, rfl⟩)
      · rcases enclosed_head enclosed with ⟨opening, more, rfl, opens⟩
        simp [opens] at notAt
      · exact ⟨rfl, rfl⟩

/-- A subscript is taken, and the parameters that may follow it. -/
theorem takes_subscripted {name : Token} {found : Target} :
    Takes (subscripted name tokens) found rest
      ↔ ∃ sub used after, tokens = used ++ after ∧ Enclosed .leftCurly .rightCurly sub used
        ∧ ((∃ params more, after = more ++ rest ∧ Enclosed .leftParen .rightParen params more
            ∧ found = .applied name (some sub) (some params))
          ∨ NotAt [.mark .leftParen] after ∧ found = .applied name (some sub) none
            ∧ after = rest) := by
  unfold subscripted
  split
  · next text location inner =>
    simp only [takes_bind, takes_appliedTo]
    constructor
    · rintro ⟨sub, left, shorter, taken, applied⟩
      rcases (takes_nameList (by decide)
        ⟨.mark .leftCurly, text, location⟩ rfl).mp ⟨shorter, taken⟩ with ⟨used, rfl, enclosed⟩
      exact ⟨sub, _, left, rfl, enclosed, applied⟩
    · rintro ⟨sub, used, after, same, enclosed, applied⟩
      rcases enclosed_head enclosed with ⟨opening, more, rfl, opens⟩
      rcases List.cons.inj same with ⟨rfl, rfl⟩
      rcases (takes_nameList (by decide) _ opens).mpr ⟨more, rfl, enclosed⟩ with ⟨shorter, taken⟩
      exact ⟨sub, after, shorter, taken, applied⟩
  · next other =>
    simp only [not_takes_fail, false_iff]
    rintro ⟨sub, used, after, rfl, enclosed, -⟩
    rcases enclosed_head enclosed with ⟨⟨kind, text, location⟩, more, rfl, rfl⟩
    exact other _ _ _ rfl

mutual

/-- What a target takes spells it. -/
theorem target_sound {tokens rest : List Token} {found : Target}
    (taken : Takes (target tokens) found rest) :
    ∃ used, tokens = used ++ rest ∧ Target.Spelled found used := by
  -- By recursion on the tokens; `targets` calls `target` on the same tokens, hence its odd measure.
  unfold target at taken
  split at taken
  · simp at taken
  · next token inner =>
    split at taken
    · next isParen =>
      split at taken
      · next closed closes =>
        rcases closed with ⟨_, left, shorter⟩
        rcases takes_closing.mp ⟨shorter, closes⟩ with ⟨mark, isMark, rfl⟩
        simp only [takes_ok, Parsed.map, Parsed.widen] at taken
        rcases taken with ⟨rfl, rfl⟩
        exact ⟨[token, mark], rfl, .emptyTuple isParen isMark⟩
      · simp only [takes_bind, takes_pure] at taken
        rcases taken with ⟨items, left, shorter, first, _, after, shorter', closes, rfl, rfl⟩
        rcases targets_sound ⟨shorter, first⟩ with ⟨used, rfl, spelled⟩
        rcases takes_closing.mp ⟨shorter', closes⟩ with ⟨mark, isMark, rfl⟩
        exact ⟨token :: used ++ [mark], by simp, .tuple isParen spelled isMark⟩
    · next isCurly =>
      simp only [takes_bind, takes_pure] at taken
      rcases taken with ⟨params, left, shorter, first, rfl, rfl⟩
      rcases (takes_nameList (by decide) _ isCurly).mp ⟨shorter, first⟩ with ⟨used, rfl, enclosed⟩
      exact ⟨token :: used, rfl, .enclosed enclosed⟩
    · next isName =>
      split at taken
      · simp only [takes_bind, takes_pure] at taken
        rcases taken with ⟨value, left, shorter, first, rfl, rfl⟩
        rcases target_sound ⟨shorter, first⟩ with ⟨used, rfl, spelled⟩
        exact ⟨token :: _ :: used, rfl, .assignment isName rfl spelled⟩
      · next text location inner =>
        simp only [takes_bind, takes_pure] at taken
        rcases taken with ⟨value, left, shorter, first, rfl, rfl⟩
        rcases takes_subscripted.mp ⟨shorter, first⟩ with ⟨sub, used, after, rfl, enclosed, more⟩
        rcases more with ⟨params, others, rfl, enclosed', rfl⟩ | ⟨-, rfl, rfl⟩
        · exact ⟨token :: ⟨.mark .underscore, text, location⟩ :: used ++ others, by simp,
            .subscriptedApplied isName rfl enclosed enclosed'⟩
        · exact ⟨token :: _ :: used, rfl, .subscripted isName rfl enclosed⟩
      · rcases takes_appliedTo.mp taken with ⟨params, used, same, enclosed, rfl⟩ | ⟨notAt, -, -⟩
        · exact ⟨token :: used, by rw [same]; rfl, .applied isName enclosed⟩
        · simp at notAt
      · simp only [takes_pure, Parsed.afterOne] at taken
        rcases taken with ⟨rfl, rfl⟩
        exact ⟨[token], rfl, .single (.inl isName)⟩
    case h_4 kind | h_5 kind | h_6 kind | h_7 kind =>
      simp only [takes_pure, Parsed.afterOne] at taken
      rcases taken with ⟨rfl, rfl⟩
      exact ⟨[token], rfl, .single (by simp [Single, kind])⟩
    · simp at taken
termination_by 2 * tokens.length

/-- What a list of targets takes spells it. -/
theorem targets_sound {tokens rest : List Token} {found : List Target}
    (taken : Takes (targets tokens) found rest) :
    ∃ used, tokens = used ++ rest ∧ TargetsSpelled found used := by
  unfold targets at taken
  simp only [takes_bind] at taken
  rcases taken with ⟨first, left, shorter, taken, next⟩
  rcases target_sound ⟨shorter, taken⟩ with ⟨used, rfl, spelled⟩
  split at next
  · next text location inner _ _ =>
    simp only [takes_bind, takes_pure] at next
    rcases next with ⟨more, after, shorter', taken', rfl, rfl⟩
    rcases targets_sound ⟨shorter', taken'⟩ with ⟨others, rfl, spelled'⟩
    exact ⟨used ++ ⟨.mark .comma, text, location⟩ :: others, by simp, .more spelled rfl spelled'⟩
  · simp only [takes_pure] at next
    rcases next with ⟨rfl, rfl⟩
    exact ⟨used, rfl, .one spelled⟩
termination_by 2 * tokens.length + 1

end

/-- A single token is taken as a target. -/
theorem takes_single {token : Token} (alone : Single token) (ends : NotAt continuations rest) :
    Takes (target (token :: rest)) (.single token) rest := by
  unfold target
  rcases alone with kind | kind | kind | kind | kind
  · simp only [kind]
    split
    · simp [continuations] at ends
    · simp [continuations] at ends
    · simp [continuations] at ends
    · simp [Parsed.afterOne]
  all_goals simp [kind, Parsed.afterOne]

/-- What a target can begin with. -/
def beginnings : List TokenKind :=
  [.name, .operator, .literal .string, .literal .statement, .literal .id, .mark .leftParen,
    .mark .leftCurly]

theorem target_head {found : Target} {used : List Token} (spelled : Target.Spelled found used) :
    ∃ first more, used = first :: more ∧ first.kind ∈ beginnings := by
  cases spelled with
  | single alone =>
      refine ⟨_, [], rfl, ?_⟩
      rcases alone with kind | kind | kind | kind | kind <;> simp [kind, beginnings]
  | enclosed spelled =>
      rcases enclosed_head spelled with ⟨opening, more, same, opens⟩
      rcases List.cons.inj same with ⟨rfl, rfl⟩
      exact ⟨_, _, rfl, by simp [opens, beginnings]⟩
  | assignment isName _ _ | applied isName _ | subscripted isName _ _
  | subscriptedApplied isName _ _ _ => exact ⟨_, _, rfl, by simp [isName, beginnings]⟩
  | emptyTuple opens _ | tuple opens _ _ => exact ⟨_, _, rfl, by simp [opens, beginnings]⟩

theorem targets_head {found : List Target} {used : List Token}
    (spelled : TargetsSpelled found used) :
    ∃ first more, used = first :: more ∧ first.kind ∈ beginnings := by
  cases spelled with
  | one spelled => exact target_head spelled
  | more spelled _ _ =>
      rcases target_head spelled with ⟨first, more, rfl, kind⟩
      exact ⟨first, _, rfl, kind⟩

mutual

/-- A spelling of a target is taken whole. -/
theorem target_complete {found : Target} {used rest : List Token}
    (spelled : Target.Spelled found used) (ends : NotAt continuations rest) :
    Takes (target (used ++ rest)) found rest := by
  match spelled with
  | .single alone => exact takes_single alone ends
  | @Target.Spelled.enclosed _ _ tokens spelled =>
    rcases enclosed_head spelled with ⟨_, _, same, opens⟩
    rcases List.cons.inj same with ⟨rfl, rfl⟩
    rcases (takes_nameList (by decide) _ opens).mpr ⟨tokens, rfl, spelled⟩ with ⟨shorter, taken⟩
    rw [List.cons_append]
    unfold target
    simp only [opens, takes_bind, takes_pure]
    exact ⟨_, _, shorter, taken, rfl, rfl⟩
  | @Target.Spelled.assignment _ equals _ _ isName isEquals spelled =>
    rcases equals with ⟨kind, text, location⟩
    subst isEquals
    rcases target_complete spelled ends with ⟨shorter, taken⟩
    rw [List.cons_append, List.cons_append]
    unfold target
    simp only [isName, takes_bind, takes_pure]
    exact ⟨_, _, shorter, taken, rfl, rfl⟩
  | .applied isName spelled =>
    rcases enclosed_head spelled with ⟨⟨kind, text, location⟩, more, rfl, rfl⟩
    rw [List.cons_append, List.cons_append]
    unfold target
    simp only [isName, takes_appliedTo]
    exact .inl ⟨_, _, rfl, spelled, rfl⟩
  | @Target.Spelled.subscripted _ underscore _ _ isName isUnderscore spelled =>
    rcases underscore with ⟨kind, text, location⟩
    subst isUnderscore
    have notAt : NotAt [.mark .leftParen] rest := fun first member => by
      have apart := ends first member
      simp only [continuations, List.mem_cons, not_or] at apart ⊢
      exact apart.2.2
    rcases takes_subscripted.mpr
      ⟨_, _, rest, rfl, spelled, .inr ⟨notAt, rfl, rfl⟩⟩ with ⟨shorter, taken⟩
    rw [List.cons_append, List.cons_append]
    unfold target
    simp only [isName, takes_bind, takes_pure]
    exact ⟨_, _, shorter, taken, rfl, rfl⟩
  | @Target.Spelled.subscriptedApplied _ underscore _ _ _ _ isName isUnderscore spelled params =>
    rcases underscore with ⟨kind, text, location⟩
    subst isUnderscore
    rcases takes_subscripted.mpr
      ⟨_, _, _, rfl, spelled, .inl ⟨_, _, rfl, params, rfl⟩⟩ with ⟨shorter, taken⟩
    rw [List.append_assoc, List.cons_append, List.cons_append]
    unfold target
    simp only [isName, takes_bind, takes_pure]
    exact ⟨_, _, shorter, taken, rfl, rfl⟩
  | @Target.Spelled.emptyTuple _ mark opens closes =>
    obtain ⟨shorter, taken⟩ : Takes (closing .rightParen (mark :: rest)) () rest :=
      takes_closing.mpr ⟨mark, closes, rfl⟩
    rw [List.cons_append, List.singleton_append]
    unfold target
    simp [opens, taken, Parsed.map, Parsed.widen]
  | @Target.Spelled.tuple _ mark _ _ opens spelled closes =>
    have ends' : NotAt continuations (mark :: rest) := by simp [continuations, closes]
    have whole := targets_complete spelled ends' (by simp [closes])
    rw [← List.singleton_append, ← List.append_assoc] at whole
    rcases whole with ⟨shorter, taken⟩
    rcases takes_closing.mpr ⟨mark, closes, rfl⟩ with ⟨shorter', closed⟩
    rw [List.cons_append, List.cons_append]
    unfold target
    simp only [opens]
    split
    · next left early =>
      rcases takes_closing.mp (takes_of_eq early) with ⟨other, isRight, same⟩
      rcases targets_head spelled with ⟨first, more, rfl, begins⟩
      rcases List.cons.inj same with ⟨rfl, -⟩
      simp [isRight, beginnings] at begins
    · simp only [takes_bind, takes_pure]
      exact ⟨_, _, shorter, taken, (), rest, shorter', closed, rfl, rfl⟩

/-- A spelling of targets is taken whole. -/
theorem targets_complete {found : List Target} {used rest : List Token}
    (spelled : TargetsSpelled found used) (ends : NotAt continuations rest)
    (notComma : NotAt [.mark .comma] rest) : Takes (targets (used ++ rest)) found rest := by
  match spelled with
  | .one spelled =>
    rcases target_complete spelled ends with ⟨shorter, taken⟩
    unfold targets
    simp only [takes_bind]
    refine ⟨_, _, shorter, taken, ?_⟩
    split
    · simp at notComma
    · simp
  | @TargetsSpelled.more _ comma _ _ others spelled isComma more =>
    rcases comma with ⟨kind, text, location⟩
    subst isComma
    rcases targets_complete more ends notComma with ⟨shorter, taken⟩
    have ends' : NotAt continuations (⟨.mark .comma, text, location⟩ :: (others ++ rest)) := by
      simp [continuations]
    rcases target_complete spelled ends' with ⟨shorter', taken'⟩
    rw [List.append_assoc, List.cons_append]
    unfold targets
    simp only [takes_bind]
    refine ⟨_, _, shorter', taken', ?_⟩
    simp only [takes_bind, takes_pure]
    exact ⟨_, _, shorter, taken, rfl, rfl⟩

end

end Treatise.Outline
