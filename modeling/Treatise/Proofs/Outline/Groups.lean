import Treatise.Proofs.Outline.Taking

/-!
# What the rules of groups take

As with targets, what a rule takes spells its value, and a spelling is taken whole if no further
section follows. A section is told from targets by the colon after its name, and a group also by its
id, so that nothing but the beginning of an argument decides how it is read.
-/

namespace Treatise.Outline

open Layout (Token TokenKind Mark)

variable {tokens rest : List Token}

/-! ## Where groups begin -/

theorem atSection_iff : atSection tokens = true
    ↔ ∃ name colon more, tokens = name :: colon :: more ∧ name.kind = .name
      ∧ colon.kind = .mark .colon := by
  unfold atSection
  split
  · simp only [true_iff]
    exact ⟨_, _, _, rfl, rfl, rfl⟩
  · next other =>
    simp only [Bool.false_eq_true, false_iff]
    rintro ⟨⟨kind, text, location⟩, ⟨kind', text', location'⟩, more, rfl, rfl, rfl⟩
    exact other _ _ _ _ _ rfl

theorem atGroup_iff : atGroup tokens = true
    ↔ (∃ id more, tokens = id :: more ∧ id.kind = .literal .id) ∨ atSection tokens = true := by
  unfold atGroup
  split
  · simp
  · next other =>
    refine ⟨.inr, ?_⟩
    rintro (⟨⟨kind, text, location⟩, more, rfl, rfl⟩ | section_)
    · exact absurd rfl (other _ _ _)
    · exact section_

theorem section_head {part : Section} {used : List Token} (spelled : Section.Spelled part used) :
    ∃ name colon more, used = name :: colon :: more ∧ name.kind = .name
      ∧ colon.kind = .mark .colon := by
  cases spelled with
  | mk isName isColon _ _ _ _ => exact ⟨_, _, _, by simp; rfl, isName, isColon⟩

theorem sections_head {parts : List Section} {used : List Token}
    (spelled : SectionsSpelled parts used) (rest : List Token) :
    atSection (used ++ rest) = true := by
  cases spelled with
  | one spelled =>
      rcases section_head spelled with ⟨name, colon, more, rfl, isName, isColon⟩
      exact atSection_iff.mpr ⟨name, colon, _, rfl, isName, isColon⟩
  | more spelled _ =>
      rcases section_head spelled with ⟨name, colon, more, rfl, isName, isColon⟩
      exact atSection_iff.mpr ⟨name, colon, _, rfl, isName, isColon⟩

theorem group_head {found : Group} {used : List Token} (spelled : Group.Spelled found used)
    (rest : List Token) : atGroup (used ++ rest) = true := by
  cases spelled with
  | plain spelled => exact atGroup_iff.mpr (.inr (sections_head spelled rest))
  | tagged isId _ _ _ => exact atGroup_iff.mpr (.inl ⟨_, _, rfl, isId⟩)

/-- A name at the beginning of a target has no colon after it. -/
theorem target_uncolon {found : Target} {used : List Token} (spelled : Target.Spelled found used) :
    ∃ first more, used = first :: more ∧ (first.kind = .name → NotAt [.mark .colon] more) := by
  cases spelled with
  | single _ => exact ⟨_, [], rfl, fun _ => notAt_nil _⟩
  | enclosed spelled =>
      rcases enclosed_head spelled with ⟨opening, more, same, opens⟩
      rcases List.cons.inj same with ⟨rfl, rfl⟩
      exact ⟨_, _, rfl, by simp [opens]⟩
  | assignment _ isEquals _ => exact ⟨_, _, rfl, by simp [isEquals]⟩
  | applied _ spelled =>
      rcases enclosed_head spelled with ⟨opening, more, rfl, opens⟩
      exact ⟨_, _, rfl, by simp [opens]⟩
  | subscripted _ isUnderscore _ => exact ⟨_, _, rfl, by simp [isUnderscore]⟩
  | subscriptedApplied _ isUnderscore _ _ => exact ⟨_, _, rfl, by simp [isUnderscore]⟩
  | emptyTuple opens _ => exact ⟨_, _, rfl, by simp [opens]⟩
  | tuple opens _ _ => exact ⟨_, _, rfl, by simp [opens]⟩

theorem targets_uncolon {found : List Target} {used : List Token}
    (spelled : TargetsSpelled found used) :
    ∃ first more, used = first :: more ∧ (first.kind = .name → NotAt [.mark .colon] more) := by
  cases spelled with
  | one spelled => exact target_uncolon spelled
  | more spelled isComma _ =>
      rcases target_uncolon spelled with ⟨first, more, rfl, uncolon⟩
      refine ⟨first, _, rfl, fun isName => ?_⟩
      cases more with
      | nil => simp [isComma]
      | cons second more => simpa using uncolon isName

/-- Targets that do not begin with an id are not taken for a group. -/
theorem atGroup_targets {found : List Target} {used : List Token} {opening : Token}
    (spelled : TargetsSpelled found used) (untagged : NotAt [.literal .id] used)
    (opens : opening.kind = .blockOpen) : atGroup (used ++ opening :: rest) = false := by
  rcases targets_uncolon spelled with ⟨first, more, rfl, uncolon⟩
  refine Bool.eq_false_iff.mpr fun group => ?_
  rcases atGroup_iff.mp group with ⟨id, others, same, isId⟩ | section_
  · rcases List.cons.inj same with ⟨rfl, -⟩
    simp [isId] at untagged
  · rcases atSection_iff.mp section_ with ⟨name, colon, others, same, isName, isColon⟩
    rcases List.cons.inj same with ⟨rfl, after⟩
    have apart := uncolon isName
    cases more with
    | nil =>
        rcases List.cons.inj after with ⟨rfl, -⟩
        simp [opens] at isColon
    | cons second more =>
        rcases List.cons.inj after with ⟨rfl, -⟩
        simp [isColon] at apart

/-! ## Lines -/

theorem takes_sectionLine {inline : List Target} :
    Takes (sectionLine tokens) inline rest ↔ ∃ used opening, tokens = used ++ opening :: rest
      ∧ InlineSpelled inline used ∧ opening.kind = .blockOpen := by
  unfold sectionLine
  split
  · simp
  · next text location after =>
    simp only [takes_pure]
    constructor
    · rintro ⟨rfl, rfl⟩
      exact ⟨[], _, rfl, .none, rfl⟩
    · rintro ⟨used, opening, same, spelled, opens⟩
      cases spelled with
      | none => exact ⟨rfl, (List.cons.inj same).2⟩
      | some spelled =>
          rcases targets_head spelled with ⟨first, more, rfl, begins⟩
          rcases List.cons.inj same with ⟨rfl, -⟩
          simp [beginnings] at begins
  · next notOpen =>
    simp only [takes_bind, takes_pure]
    constructor
    · rintro ⟨found, left, shorter, taken, _, after, shorter', opened, rfl, rfl⟩
      rcases targets_sound ⟨shorter, taken⟩ with ⟨used, rfl, spelled⟩
      rcases takes_blockOpen.mp ⟨shorter', opened⟩ with ⟨opening, opens, rfl⟩
      exact ⟨used, opening, rfl, .some spelled, opens⟩
    · rintro ⟨used, opening, rfl, spelled, opens⟩
      cases spelled with
      | none =>
          rcases opening with ⟨kind, text, location⟩
          subst opens
          exact absurd rfl (notOpen _ _ _)
      | some spelled =>
          have ends : NotAt continuations (opening :: rest) := by simp [opens, continuations]
          rcases targets_complete spelled ends (by simp [opens]) with ⟨shorter, taken⟩
          rcases takes_blockOpen.mpr ⟨opening, opens, rfl⟩ with ⟨shorter', opened⟩
          exact ⟨_, _, shorter, taken, (), rest, shorter', opened, rfl, rfl⟩

theorem takes_targetLine {found : List Argument} :
    Takes (targetLine tokens) found rest ↔ ∃ targets used opening closing,
      tokens = used ++ opening :: closing :: rest ∧ found = targets.map .target
        ∧ TargetsSpelled targets used ∧ opening.kind = .blockOpen
        ∧ closing.kind = .blockClose := by
  unfold targetLine
  simp only [takes_bind, takes_pure]
  constructor
  · rintro ⟨targets, left, shorter, taken, _, after, shorter', ended, rfl, rfl⟩
    rcases targets_sound ⟨shorter, taken⟩ with ⟨used, rfl, spelled⟩
    rcases takes_lineEnd.mp ⟨shorter', ended⟩ with ⟨opening, closing, opens, closes, rfl⟩
    exact ⟨targets, used, opening, closing, rfl, rfl, spelled, opens, closes⟩
  · rintro ⟨targets, used, opening, closing, rfl, rfl, spelled, opens, closes⟩
    have ends : NotAt continuations (opening :: closing :: rest) := by simp [opens, continuations]
    rcases targets_complete spelled ends (by simp [opens]) with ⟨shorter, taken⟩
    rcases takes_lineEnd.mpr ⟨opening, closing, opens, closes, rfl⟩ with ⟨shorter', ended⟩
    exact ⟨_, _, shorter, taken, (), rest, shorter', ended, rfl, rfl⟩

/-! ## Groups -/

mutual

/-- What a group takes spells it. -/
theorem group_sound {tokens rest : List Token} {found : Group}
    (taken : Takes (group tokens) found rest) :
    ∃ used, tokens = used ++ rest ∧ Group.Spelled found used := by
  unfold group at taken
  split at taken
  · next text location after =>
    simp only [takes_bind, takes_pure] at taken
    rcases taken with ⟨_, body, shorter, ended, parts, left, shorter', first, rfl, rfl⟩
    rcases takes_lineEnd.mp ⟨shorter, ended⟩ with ⟨opening, closing, opens, closes, rfl⟩
    rcases sections_sound ⟨shorter', first⟩ with ⟨used, rfl, spelled⟩
    exact ⟨⟨.literal .id, text, location⟩ :: opening :: closing :: used, rfl,
      .tagged rfl opens closes spelled⟩
  · simp only [takes_bind, takes_pure] at taken
    rcases taken with ⟨parts, left, shorter', first, rfl, rfl⟩
    rcases sections_sound ⟨shorter', first⟩ with ⟨used, rfl, spelled⟩
    exact ⟨used, rfl, .plain spelled⟩
termination_by 3 * tokens.length + 1

/-- What sections take spells them. -/
theorem sections_sound {tokens rest : List Token} {found : List Section}
    (taken : Takes (sections tokens) found rest) :
    ∃ used, tokens = used ++ rest ∧ SectionsSpelled found used := by
  unfold sections at taken
  split at taken
  · next text location text' location' after =>
    simp only [takes_bind] at taken
    rcases taken with ⟨inline, body, shorter, line, arguments, left, shorter', dotted, taken⟩
    rcases takes_sectionLine.mp ⟨shorter, line⟩ with ⟨used, opening, rfl, spelledInline, opens⟩
    rcases arguments_sound ⟨shorter', dotted⟩ with ⟨others, closing, rfl, spelled, closes⟩
    have part : Section.Spelled (.mk ⟨.name, text, location⟩ (inline.map .target ++ arguments))
        (⟨.name, text, location⟩ :: ⟨.mark .colon, text', location'⟩ :: used
          ++ opening :: others ++ [closing]) :=
      .mk rfl rfl spelledInline opens spelled closes
    split at taken
    · simp only [takes_bind, takes_pure] at taken
      rcases taken with ⟨parts, last, shorter'', first, rfl, rfl⟩
      rcases sections_sound ⟨shorter'', first⟩ with ⟨more, rfl, spelledMore⟩
      exact ⟨_, by simp, .more part spelledMore⟩
    · simp only [takes_pure] at taken
      rcases taken with ⟨rfl, rfl⟩
      exact ⟨_, by simp, .one part⟩
  · simp at taken
termination_by 3 * tokens.length

/-- What arguments take spells them. -/
theorem arguments_sound {tokens rest : List Token} {found : List Argument}
    (taken : Takes (dottedArguments tokens) found rest) :
    ∃ used closing, tokens = used ++ closing :: rest ∧ ArgumentsSpelled found used
      ∧ closing.kind = .blockClose := by
  unfold dottedArguments at taken
  split at taken
  · next text location after =>
    simp only [takes_bind, takes_pure] at taken
    rcases taken with ⟨first, body, shorter, one, more, left, shorter', others, rfl, rfl⟩
    rcases argument_sound ⟨shorter, one⟩ with ⟨used, rfl, spelled⟩
    rcases arguments_sound ⟨shorter', others⟩ with ⟨rest_, closing, rfl, spelledMore, closes⟩
    exact ⟨⟨.mark .dotSpace, text, location⟩ :: used ++ rest_, closing, by simp,
      spelled _ _ _ rfl spelledMore, closes⟩
  · next text location after =>
    simp only [takes_pure] at taken
    rcases taken with ⟨rfl, rfl⟩
    exact ⟨[], _, rfl, .none, rfl⟩
  · simp at taken
termination_by 3 * tokens.length

/-- What an argument takes spells it after a dot. -/
theorem argument_sound {tokens rest : List Token} {found : List Argument}
    (taken : Takes (argument tokens) found rest) :
    ∃ used, tokens = used ++ rest
      ∧ ∀ (dot : Token) (arguments : List Argument) (others : List Token),
      dot.kind = .mark .dotSpace → ArgumentsSpelled arguments others →
        ArgumentsSpelled (found ++ arguments) (dot :: used ++ others) := by
  unfold argument at taken
  split at taken
  · simp only [takes_bind, takes_pure] at taken
    rcases taken with ⟨inner, left, shorter, first, rfl, rfl⟩
    rcases group_sound ⟨shorter, first⟩ with ⟨used, rfl, spelled⟩
    exact ⟨used, rfl, fun _ _ _ isDot more => .group isDot spelled more⟩
  · next notGroup =>
    rcases takes_targetLine.mp taken with
      ⟨targets, used, opening, closing, rfl, rfl, spelled, opens, closes⟩
    have untagged : NotAt [.literal .id] used := fun first member isId => by
      rcases List.head?_eq_some_iff.mp member with ⟨more, rfl⟩
      exact notGroup (atGroup_iff.mpr (.inl ⟨first, _, rfl, by simpa using isId⟩))
    refine ⟨used ++ [opening, closing], by simp, fun dot _ _ isDot more => ?_⟩
    simpa using ArgumentsSpelled.targets isDot spelled untagged opens closes more
termination_by 3 * tokens.length + 2

end

theorem takes_untagged_group {parts : List Section} (section_ : atSection tokens = true)
    (taken : Takes (sections tokens) parts rest) : Takes (group tokens) (.mk none parts) rest := by
  rcases taken with ⟨shorter, taken⟩
  unfold group
  split
  · rcases atSection_iff.mp section_ with ⟨name, colon, more, same, isName, -⟩
    rcases List.cons.inj same with ⟨rfl, -⟩
    cases isName
  · simp only [takes_bind, takes_pure]
    exact ⟨_, _, shorter, taken, rfl, rfl⟩

theorem takes_dotted {text : String} {location : Location} {first more : List Argument}
    {body : List Token} (taken : Takes (argument tokens) first body)
    (others : Takes (dottedArguments body) more rest) :
    Takes (dottedArguments (⟨.mark .dotSpace, text, location⟩ :: tokens)) (first ++ more) rest := by
  rcases taken with ⟨shorter, taken⟩
  rcases others with ⟨shorter', others⟩
  unfold dottedArguments
  simp only [takes_bind, takes_pure]
  exact ⟨_, _, shorter, taken, _, _, shorter', others, rfl, rfl⟩

theorem takes_group_argument {found : Group} (begins : atGroup tokens = true)
    (taken : Takes (group tokens) found rest) : Takes (argument tokens) [.group found] rest := by
  rcases taken with ⟨shorter, taken⟩
  unfold argument
  simp only [begins, if_true, takes_bind, takes_pure]
  exact ⟨_, _, shorter, taken, rfl, rfl⟩

theorem takes_target_argument {found : List Argument} (plain : atGroup tokens = false)
    (taken : Takes (targetLine tokens) found rest) : Takes (argument tokens) found rest := by
  unfold argument
  simpa only [plain, Bool.false_eq_true, if_false] using taken

mutual

/-- A spelling of a group is taken whole unless a section follows. -/
theorem group_complete {found : Group} {used rest : List Token} (spelled : Group.Spelled found used)
    (ends : atSection rest = false) : Takes (group (used ++ rest)) found rest := by
  match spelled with
  | .plain spelled =>
    exact takes_untagged_group (sections_head spelled rest) (sections_complete spelled ends)
  | @Group.Spelled.tagged id _ _ _ _ isId opens closes spelled =>
    rcases id with ⟨kind, text, location⟩
    subst isId
    rcases sections_complete spelled ends with ⟨shorter, taken⟩
    rcases takes_lineEnd.mpr ⟨_, _, opens, closes, rfl⟩ with ⟨shorter', ended⟩
    simp only [List.cons_append]
    unfold group
    simp only [takes_bind, takes_pure]
    exact ⟨(), _, shorter', ended, _, _, shorter, taken, rfl, rfl⟩

/-- A spelling of sections is taken whole unless another one follows. -/
theorem sections_complete {found : List Section} {used rest : List Token}
    (spelled : SectionsSpelled found used) (ends : atSection rest = false) :
    Takes (sections (used ++ rest)) found rest := by
  match spelled with
  | .one spelled =>
    rcases section_complete spelled with
      ⟨_, _, _, _, after, inline, body, shorter, arguments, shorter', head, line, dotted, rfl⟩
    rw [head]
    unfold sections
    simp only [takes_bind]
    refine ⟨_, _, shorter, line, _, _, shorter', dotted, ?_⟩
    simp [ends]
  | .more spelled more =>
    rcases sections_complete more ends with ⟨shorter'', taken⟩
    rcases section_complete spelled with
      ⟨_, _, _, _, after, inline, body, shorter, arguments, shorter', head, line, dotted, rfl⟩
    rw [List.append_assoc, head]
    unfold sections
    simp only [takes_bind]
    refine ⟨_, _, shorter, line, _, _, shorter', dotted, ?_⟩
    simp only [sections_head more rest, if_true, takes_bind, takes_pure]
    exact ⟨_, _, shorter'', taken, rfl, rfl⟩

/-- The line of a section and its arguments are taken whole. -/
theorem section_complete {part : Section} {used rest : List Token}
    (spelled : Section.Spelled part used) :
    ∃ text location text' location' after inline body shorter arguments shorter',
      used ++ rest = ⟨.name, text, location⟩ :: ⟨.mark .colon, text', location'⟩ :: after
      ∧ sectionLine after = .ok ⟨inline, body, shorter⟩
      ∧ dottedArguments body = .ok ⟨arguments, rest, shorter'⟩
      ∧ part = .mk ⟨.name, text, location⟩ (inline.map .target ++ arguments) := by
  match spelled with
  | @Section.Spelled.mk name colon opening _ _ _ tokens _ isName isColon spelledInline opens spelled
      closes =>
    rcases name with ⟨kind, text, location⟩
    rcases colon with ⟨kind', text', location'⟩
    subst isName isColon
    rcases arguments_complete spelled closes with ⟨shorter', taken⟩
    rcases takes_sectionLine.mpr ⟨tokens, opening, rfl, spelledInline, opens⟩ with ⟨shorter, line⟩
    exact ⟨text, location, text', location', _, _, _, shorter, _, shorter', by simp, line,
      taken, rfl⟩

/-- A spelling of arguments is taken whole, and the end of their block with it. -/
theorem arguments_complete {found : List Argument} {used rest : List Token} {closing : Token}
    (spelled : ArgumentsSpelled found used) (closes : closing.kind = .blockClose) :
    Takes (dottedArguments (used ++ closing :: rest)) found rest := by
  -- Behind an argument no section may follow that a group in it would take as its own.
  have apart : ∀ {arguments : List Argument} {others : List Token},
      ArgumentsSpelled arguments others → atSection (others ++ closing :: rest) = false := by
    intro arguments others spelled
    refine Bool.eq_false_iff.mpr fun section_ => ?_
    rcases atSection_iff.mp section_ with ⟨name, colon, more, same, isName, -⟩
    cases spelled with
    | none =>
        rcases List.cons.inj same with ⟨rfl, -⟩
        simp [closes] at isName
    | group isDot _ _ | targets isDot _ _ _ _ _ =>
        simp only [List.cons_append] at same
        rcases List.cons.inj same with ⟨rfl, -⟩
        simp [isDot] at isName
  match spelled with
  | .none =>
    rcases closing with ⟨kind, text, location⟩
    subst closes
    simp [dottedArguments]
  | @ArgumentsSpelled.group dot _ _ _ _ isDot spelled more =>
    rcases dot with ⟨kind, text, location⟩
    subst isDot
    rw [List.cons_append, List.cons_append, List.append_assoc]
    exact takes_dotted
      (takes_group_argument (group_head spelled _) (group_complete spelled (apart more)))
      (arguments_complete more closes)
  | @ArgumentsSpelled.targets dot _ _ _ _ _ _ isDot spelled untagged opens closes' more =>
    rcases dot with ⟨kind, text, location⟩
    subst isDot
    rw [List.cons_append, List.cons_append, List.append_assoc]
    exact takes_dotted
      (takes_target_argument (atGroup_targets spelled untagged opens)
        (takes_targetLine.mpr ⟨_, _, _, _, rfl, rfl, spelled, opens, closes'⟩))
      (arguments_complete more closes)

end

end Treatise.Outline
