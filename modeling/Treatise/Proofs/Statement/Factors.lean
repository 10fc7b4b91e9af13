import Mathlib.Data.List.Chain
import Treatise.Proofs.Review
import Treatise.Proofs.Statement.Grammar

/-!
# Reading operators and operands

Operators and operands are read without a problem exactly if they are spelled by the grammar. Each
reader of a part takes the longest part that fits, so a part is only read back as it was spelled if
the term that follows cannot continue it. Within a command this follows from the order of its
bracket groups. Behind an operand it follows from the rule that two operands never come one after
the other, and an operator does not begin like anything that continues an operand.
-/

namespace Treatise.Statement

open Review (bind_eq_clean_iff pure_eq_clean_iff report_bind_ne_clean)

/-! ## The first term -/

/-- The kind of the token that a term begins with. -/
def Term.kind : Term → TokenKind
  | .leaf token => token.kind
  | .group bracket _ _ _ => .opening bracket

/-- The terms do not begin with a term of one of the kinds. -/
def NotAt (kinds : List TokenKind) (terms : List Term) : Prop :=
  ∀ first ∈ terms.head?, first.kind ∉ kinds

/-- The kind of token that a bracket group at a slot begins with. -/
def Slot.first : Slot → TokenKind
  | square => .opening .square
  | sub => .underscore
  | sup => .caret
  | curly => .opening .curly
  | named _ => .colon
  | paren => .opening .paren

variable {terms rest used : List Term} {location : Location}

@[simp]
theorem notAt_nil (kinds : List TokenKind) : NotAt kinds [] := by
  simp [NotAt]

@[simp]
theorem notAt_cons {kinds : List TokenKind} {first : Term} :
    NotAt kinds (first :: rest) ↔ first.kind ∉ kinds := by
  simp [NotAt]

theorem NotAt.mono {kinds others : List TokenKind} (ends : NotAt kinds terms)
    (fewer : others ⊆ kinds) :
    NotAt others terms :=
  fun first member among => ends first member (fewer among)

theorem notAt_iff {kinds : List TokenKind} :
    NotAt kinds terms ↔ ∀ kind ∈ kinds, NotAt [kind] terms := by
  constructor
  · exact fun ends kind among => ends.mono (by simpa using among)
  · exact fun ends first member among => ends first.kind among first member (by simp)

theorem SlotSpelled.exists_first {slot : Slot} {items : List Expr}
    (spelled : SlotSpelled slot items used) :
    ∃ first more, used = first :: more ∧ first.kind = slot.first := by
  cases spelled with
  | square | curly | paren => exact ⟨_, _, rfl, rfl⟩
  | sub kind | sup kind | named kind _ => exact ⟨_, _, rfl, kind⟩

/-! ## Names of commands -/

theorem dotted_sound {names : List String} (clean : (readDottedNames terms).1 = ⟨names, []⟩) :
    ∃ used, terms = used ++ (readDottedNames terms).2 ∧ DottedSpelled names used := by
  fun_induction readDottedNames terms generalizing names with
  | case1 text place word place' rest more =>
      rename_i ih
      rcases bind_eq_clean_iff.mp clean with ⟨names, others, last⟩
      cases pure_eq_clean_iff.mp last
      rcases ih others with ⟨used, split, spelled⟩
      exact ⟨_, congrArg (_ :: _ :: ·) split,
        @DottedSpelled.more ⟨.dot, text, place⟩ ⟨.name, word, place'⟩ _ _ rfl rfl spelled⟩
  | case2 => exact absurd clean report_bind_ne_clean
  | case3 =>
      cases pure_eq_clean_iff.mp clean
      exact ⟨[], rfl, .none⟩

theorem dotted_complete {names : List String} (spelled : DottedSpelled names used)
    (ends : NotAt [.dot] rest) : readDottedNames (used ++ rest) = (⟨names, []⟩, rest) := by
  induction spelled with
  | none =>
      rw [List.nil_append]
      fun_cases readDottedNames rest with
      | case1 | case2 => simp [Term.kind] at ends
      | case3 => rfl
  | @more dot name names terms isDot isName _ ih =>
      rcases dot with ⟨_, _, _⟩
      rcases name with ⟨_, _, _⟩
      subst isDot isName
      rw [List.cons_append, List.cons_append, readDottedNames, ih]
      rfl

/-! ## Bracket groups -/

theorem slot_sound {slot : Slot} {listed : Review Fault (List Expr)} {items : List Expr}
    (found : slotGroup? slot terms = some (listed, rest)) (clean : listed = ⟨items, []⟩) :
    ∃ used, terms = used ++ rest ∧ SlotSpelled slot items used := by
  subst clean
  unfold slotGroup? at found
  split at found
  · cases found
    exact ⟨_, rfl, .square⟩
  · cases found
    exact ⟨[_, _], rfl, .sub rfl⟩
  · cases found
    exact ⟨[_, _], rfl, .sup rfl⟩
  · cases found
    exact ⟨_, rfl, .curly⟩
  · cases found
    exact ⟨_, rfl, .paren⟩
  · cases found

theorem slot_complete {slot : Slot} {items : List Expr} (spelled : SlotSpelled slot items used)
    (unnamed : slot.name? = none) (rest : List Term) :
    slotGroup? slot (used ++ rest) = some (⟨items, []⟩, rest) := by
  cases spelled with
  | square | curly | paren => rfl
  | @sub underscore _ _ _ isUnderscore =>
      rcases underscore with ⟨_, _, _⟩
      subst isUnderscore
      rfl
  | @sup caret _ _ _ isCaret =>
      rcases caret with ⟨_, _, _⟩
      subst isCaret
      rfl
  | named => cases unnamed

theorem slotGroup?_eq_none {slot : Slot} (ends : NotAt [slot.first] terms) :
    slotGroup? slot terms = none := by
  unfold slotGroup?
  split
  case h_6 => rfl
  all_goals simp [Term.kind, Slot.first] at ends

theorem slots_sound {slots : List Slot} {groups : List ArgGroup}
    (clean : (readSlots slots terms).1 = ⟨groups, []⟩) :
    ∃ used, terms = used ++ (readSlots slots terms).2 ∧ SlotsSpelled slots groups used := by
  fun_induction readSlots slots terms generalizing groups with
  | case1 terms =>
      cases pure_eq_clean_iff.mp clean
      exact ⟨[], rfl, .none⟩
  | case2 slot slots terms listed rest found more =>
      rename_i ih
      rcases bind_eq_clean_iff.mp clean with ⟨items, here, later⟩
      rcases bind_eq_clean_iff.mp later with ⟨groups, others, last⟩
      cases pure_eq_clean_iff.mp last
      rcases slot_sound found here with ⟨front, split, spelled⟩
      rcases ih others with ⟨back, split', spelled'⟩
      refine ⟨front ++ back, ?_, .take spelled spelled'⟩
      rw [List.append_assoc, ← split', split]
  | case3 slot slots terms absent ih =>
      rcases ih clean with ⟨used, split, spelled⟩
      exact ⟨used, split, .skip spelled⟩

theorem SlotsSpelled.notAt {slots : List Slot} {groups : List ArgGroup} {kind : TokenKind}
    (spelled : SlotsSpelled slots groups used) (other : kind ∉ slots.map Slot.first)
    (ends : NotAt [kind] rest) : NotAt [kind] (used ++ rest) := by
  induction spelled with
  | none => exact ends
  | skip _ ih =>
      rw [List.map_cons, List.mem_cons, not_or] at other
      exact ih other.2
  | take spelled _ _ =>
      rw [List.map_cons, List.mem_cons, not_or] at other
      rcases spelled.exists_first with ⟨first, more, rfl, same⟩
      simpa [same, eq_comm] using other.1

theorem slots_complete {slots : List Slot} {groups : List ArgGroup}
    (spelled : SlotsSpelled slots groups used) (unnamed : ∀ slot ∈ slots, slot.name? = none)
    (distinct : (slots.map Slot.first).Nodup) (ends : NotAt (slots.map Slot.first) rest) :
    readSlots slots (used ++ rest) = (⟨groups, []⟩, rest) := by
  induction spelled with
  | none => rfl
  | @skip slot slots groups terms spelled ih =>
      rw [List.map_cons, List.nodup_cons] at distinct
      rw [List.forall_mem_cons] at unnamed
      -- A group in this slot would have to belong to a later slot or to what follows.
      have absent : NotAt [slot.first] (terms ++ rest) :=
        spelled.notAt distinct.1 (ends.mono (by simp))
      rw [readSlots, slotGroup?_eq_none absent]
      exact ih unnamed.2 distinct.2 (ends.mono (by simp))
  | @take slot slots items groups terms others spelled more ih =>
      rw [List.map_cons, List.nodup_cons] at distinct
      rw [List.forall_mem_cons] at unnamed
      rw [List.append_assoc, readSlots, slot_complete spelled unnamed.1]
      simp only [ih unnamed.2 distinct.2 (ends.mono (by simp))]
      rfl

theorem named_sound {groups : List ArgGroup} (clean : (readNamedGroups terms).1 = ⟨groups, []⟩) :
    ∃ used, terms = used ++ (readNamedGroups terms).2 ∧ NamedSpelled groups used := by
  fun_induction readNamedGroups terms generalizing groups with
  | case1 text place word place' opener listed whole rest more =>
      rename_i ih
      rcases bind_eq_clean_iff.mp clean with ⟨items, rfl, later⟩
      rcases bind_eq_clean_iff.mp later with ⟨groups, others, last⟩
      cases pure_eq_clean_iff.mp last
      rcases ih others with ⟨used, split, spelled⟩
      exact ⟨_, congrArg (_ :: _ :: _ :: ·) split,
        .more (@SlotSpelled.named ⟨.colon, text, place⟩ ⟨.name, word, place'⟩ _ _ _ rfl rfl)
          spelled⟩
  | case2 | case3 => exact absurd clean report_bind_ne_clean
  | case4 =>
      cases pure_eq_clean_iff.mp clean
      exact ⟨[], rfl, .none⟩

theorem named_complete {groups : List ArgGroup} (spelled : NamedSpelled groups used)
    (ends : NotAt [.colon] rest) : readNamedGroups (used ++ rest) = (⟨groups, []⟩, rest) := by
  induction spelled with
  | none =>
      rw [List.nil_append]
      fun_cases readNamedGroups rest with
      | case1 | case2 | case3 => simp [Term.kind] at ends
      | case4 => rfl
  | more spelled _ ih =>
      cases spelled with
      | @named colon name opener items whole isColon isName =>
      rcases colon with ⟨_, _, _⟩
      rcases name with ⟨_, _, _⟩
      subst isColon isName
      rw [List.append_assoc]
      simp only [List.cons_append, List.nil_append, readNamedGroups, ih]
      rfl

/-! ## Commands -/

theorem command_sound {names : List String} {groups : List ArgGroup}
    (clean : (readCommand location terms).1 = ⟨(names, groups), []⟩) :
    ∃ used, terms = used ++ (readCommand location terms).2 ∧ CommandSpelled names groups used := by
  revert clean
  fun_cases readCommand location terms with
  | case1 word place rest =>
      intro clean
      rcases bind_eq_clean_iff.mp clean with ⟨words, dotted, clean⟩
      rcases bind_eq_clean_iff.mp clean with ⟨front, slots, clean⟩
      rcases bind_eq_clean_iff.mp clean with ⟨named, colons, clean⟩
      rcases bind_eq_clean_iff.mp clean with ⟨back, paren, clean⟩
      cases pure_eq_clean_iff.mp clean
      rcases dotted_sound dotted with ⟨usedNames, splitNames, spelledNames⟩
      rcases slots_sound slots with ⟨usedFront, splitFront, spelledFront⟩
      rcases named_sound colons with ⟨usedNamed, splitNamed, spelledNamed⟩
      rcases slots_sound paren with ⟨usedBack, splitBack, spelledBack⟩
      refine ⟨_, ?_, @CommandSpelled.mk ⟨.name, word, place⟩ _ _ _ _ _ _ _ _ rfl spelledNames
        spelledFront spelledNamed spelledBack⟩
      simp only [List.cons_append, List.append_assoc]
      rw [← splitBack, ← splitNamed, ← splitFront, ← splitNames]
  | case2 => exact fun clean => absurd clean report_bind_ne_clean

/-- The kinds of token that a command can go on with. -/
def commandKinds : List TokenKind :=
  [.dot, .opening .square, .underscore, .caret, .opening .curly, .colon, .opening .paren]

theorem NamedSpelled.notAt {groups : List ArgGroup} {kind : TokenKind}
    (spelled : NamedSpelled groups used) (other : kind ≠ .colon) (ends : NotAt [kind] rest) :
    NotAt [kind] (used ++ rest) := by
  cases spelled with
  | none => exact ends
  | more spelled _ =>
      rcases spelled.exists_first with ⟨first, more, rfl, same⟩
      simpa [same, Slot.first, eq_comm] using other

/-- A command is read up to a term that it cannot go on with. -/
theorem command_complete {names : List String} {groups : List ArgGroup}
    (spelled : CommandSpelled names groups used) (ends : NotAt commandKinds rest)
    (location : Location) :
    readCommand location (used ++ rest) = (⟨(names, groups), []⟩, rest) := by
  cases spelled with
  | @mk name names front named back dotted frontTerms namedTerms backTerms isName spelledNames
      spelledFront spelledNamed spelledBack =>
      rcases name with ⟨_, _, _⟩
      subst isName
      -- From the last part to the first: the end of each part is decided by the parts behind it.
      have afterBack : readSlots [.paren] (backTerms ++ rest) = (⟨back, []⟩, rest) :=
        slots_complete spelledBack (by simp [Slot.name?]) (by simp) (ends.mono (by decide))
      have afterNamed : readNamedGroups (namedTerms ++ (backTerms ++ rest))
          = (⟨named, []⟩, backTerms ++ rest) :=
        named_complete spelledNamed
          (spelledBack.notAt (by simp [Slot.first]) (ends.mono (by decide)))
      have afterFront : readSlots [.square, .sub, .sup, .curly]
          (frontTerms ++ (namedTerms ++ (backTerms ++ rest)))
          = (⟨front, []⟩, namedTerms ++ (backTerms ++ rest)) := by
        refine slots_complete spelledFront (by simp [Slot.name?]) (by decide) ?_
        refine notAt_iff.mpr fun kind among => spelledNamed.notAt ?_ (spelledBack.notAt ?_ ?_)
        · rintro rfl
          revert among
          decide
        · revert kind
          decide
        · exact ends.mono (by revert kind; decide)
      have afterNames :
          readDottedNames (dotted ++ (frontTerms ++ (namedTerms ++ (backTerms ++ rest))))
          = (⟨names, []⟩, frontTerms ++ (namedTerms ++ (backTerms ++ rest))) :=
        dotted_complete spelledNames (spelledFront.notAt (by decide)
          (spelledNamed.notAt (by decide) (spelledBack.notAt (by decide) (ends.mono (by decide)))))
      simp only [List.cons_append, List.append_assoc, readCommand, afterNames, afterFront,
        afterNamed, afterBack]
      rfl

/-! ## Operands -/

theorem name_sound {name : Token} {expr : Expr} (isName : name.kind = .name)
    (clean : (readName name.text name.location terms).1 = ⟨expr, []⟩) :
    ∃ used, terms = used ++ (readName name.text name.location terms).2
      ∧ OperandSpelled expr (.leaf name :: used) := by
  revert clean
  fun_cases readName name.text name.location terms with
  | case1 =>
      intro clean
      cases pure_eq_clean_iff.mp clean
      exact ⟨_, List.singleton_append.symm, .variadic isName rfl⟩
  | case2 =>
      intro clean
      rcases bind_eq_clean_iff.mp clean with ⟨sub, rfl, later⟩
      rcases bind_eq_clean_iff.mp later with ⟨params, rfl, last⟩
      cases pure_eq_clean_iff.mp last
      exact ⟨[_, _, _], rfl, .subscriptedApplied isName (.sub rfl) .paren⟩
  | case3 =>
      intro clean
      rcases bind_eq_clean_iff.mp clean with ⟨sub, rfl, last⟩
      cases pure_eq_clean_iff.mp last
      exact ⟨[_, _], rfl, .subscripted isName (.sub rfl)⟩
  | case4 =>
      intro clean
      rcases bind_eq_clean_iff.mp clean with ⟨params, rfl, last⟩
      cases pure_eq_clean_iff.mp last
      exact ⟨_, List.singleton_append.symm, .applied isName .paren⟩
  | case5 =>
      intro clean
      cases pure_eq_clean_iff.mp clean
      exact ⟨[], rfl, .name isName⟩

/-- The kinds of token that a name can go on with. -/
def nameKinds : List TokenKind :=
  [.ellipsis, .underscore, .opening .paren]

theorem readName_alone {word : String} (ends : NotAt nameKinds rest) :
    readName word location rest = (pure (.name word location), rest) := by
  fun_cases readName word location rest with
  | case1 | case2 | case3 | case4 => simp [Term.kind, nameKinds] at ends
  | case5 => rfl

theorem name_complete {name : Token} {expr : Expr} (isName : name.kind = .name)
    (spelled : OperandSpelled expr (.leaf name :: used)) (ends : NotAt nameKinds rest) :
    readName name.text name.location (used ++ rest) = (⟨expr, []⟩, rest) := by
  cases spelled with
  | name _ => exact readName_alone ends
  | @variadic _ ellipsis _ isEllipsis =>
      rcases ellipsis with ⟨_, _, _⟩
      subst isEllipsis
      rfl
  | subscripted _ spelled =>
      cases spelled with
      | @sub underscore _ _ _ isUnderscore =>
      rcases underscore with ⟨_, _, _⟩
      subst isUnderscore
      rw [List.cons_append, List.cons_append, List.nil_append, readName]
      · rfl
      · rintro opener params whole others rfl
        simp [Term.kind, nameKinds] at ends
  | subscriptedApplied _ spelled spelledParams =>
      cases spelled with
      | @sub underscore _ _ _ isUnderscore =>
      cases spelledParams
      rcases underscore with ⟨_, _, _⟩
      subst isUnderscore
      rfl
  | applied _ spelled =>
      cases spelled
      rfl
  | text isText => rw [isName] at isText; cases isText

theorem group_sound {bracket : Bracket} {opener : Token} {listed : Review Fault (List Expr)}
    {whole : Review Fault Expr} {found : List Factor}
    (clean : readGroup bracket opener listed whole = ⟨found, []⟩) :
    ∃ operand, found = [.operand operand]
      ∧ OperandSpelled operand [.group bracket opener listed whole] := by
  unfold readGroup at clean
  split at clean
  · rcases bind_eq_clean_iff.mp clean with ⟨items, rfl, last⟩
    split at last
    · cases pure_eq_clean_iff.mp last
      exact ⟨_, rfl, .grouped⟩
    · next several =>
      cases pure_eq_clean_iff.mp last
      refine ⟨_, rfl, .tuple fun single => ?_⟩
      rcases List.length_eq_one_iff.mp single with ⟨item, rfl⟩
      exact several item rfl
  · rcases bind_eq_clean_iff.mp clean with ⟨items, rfl, last⟩
    cases pure_eq_clean_iff.mp last
    exact ⟨_, rfl, .set⟩
  · rcases bind_eq_clean_iff.mp clean with ⟨inner, rfl, last⟩
    cases pure_eq_clean_iff.mp last
    exact ⟨_, rfl, .bracketed⟩
  · exact absurd clean report_bind_ne_clean

theorem group_complete {bracket : Bracket} {opener : Token} {listed : Review Fault (List Expr)}
    {whole : Review Fault Expr} {operand : Expr}
    (spelled : OperandSpelled operand [.group bracket opener listed whole]) :
    readGroup bracket opener listed whole = ⟨[.operand operand], []⟩ := by
  cases spelled with
  | grouped | set | bracketed => rfl
  | @tuple _ items _ several =>
      rcases items with _ | ⟨item, _ | ⟨other, rest⟩⟩
      · rfl
      · exact absurd rfl several
      · rfl

/-! ## Factors -/

/-- No slash comes first exactly if the terms do not begin with one. -/
theorem FactorsSpelled.apart_iff {found : List Factor} (spelled : FactorsSpelled found terms) :
    (∀ next ∈ found.head?, next.isSlash = false)
      ↔ ∀ slash others, terms ≠ .leaf ⟨.operator, "/", slash⟩ :: others := by
  cases spelled with
  | none => simp
  | operator spelled _ =>
      cases spelled with
      | @symbol token isOperator =>
          rcases token with ⟨_, _, _⟩
          subst isOperator
          simp [Factor.isSlash]
      | @command backslash _ _ _ _ isBackslash _ _ _ =>
          rcases backslash with ⟨_, _, _⟩
          subst isBackslash
          simp [Factor.isSlash]
  | operand spelled _ =>
      cases spelled with
      | @name name isName | @variadic name _ isName _ | @subscripted name _ _ isName _
      | @subscriptedApplied name _ _ _ _ isName _ _ | @applied name _ _ isName _
      | @text name isName =>
          rcases name with ⟨_, _, _⟩
          subst isName
          simp [Factor.isSlash]
      | grouped | tuple _ | set | bracketed => simp [Factor.isSlash]
  | @command backslash _ _ _ _ _ isBackslash _ _ _ =>
      rcases backslash with ⟨_, _, _⟩
      subst isBackslash
      simp [Factor.isSlash]

theorem factors_sound {found : List Factor} (clean : factors terms = ⟨found, []⟩) :
    FactorsSpelled found terms := by
  fun_induction factors terms generalizing found with
  | case1 =>
      cases pure_eq_clean_iff.mp clean
      exact .none
  | case2 text place rest ih =>
      rcases bind_eq_clean_iff.mp clean with ⟨others, more, last⟩
      cases pure_eq_clean_iff.mp last
      exact .operator (@OperatorSpelled.symbol ⟨.operator, text, place⟩ rfl) (ih more)
  | case3 text place rest _ slash after follows =>
      rename_i ih
      rcases bind_eq_clean_iff.mp clean with ⟨⟨names, groups⟩, command, later⟩
      rcases bind_eq_clean_iff.mp later with ⟨others, more, last⟩
      cases pure_eq_clean_iff.mp last
      rcases command_sound command with ⟨used, split, spelled⟩
      have whole := FactorsSpelled.operator (@OperatorSpelled.command ⟨.backslash, text, place⟩
        ⟨.operator, "/", slash⟩ _ _ _ rfl spelled rfl rfl) (ih more)
      have split : rest = used ++ .leaf ⟨.operator, "/", slash⟩ :: after := follows ▸ split
      rw [split]
      simpa using whole
  | case4 text place rest _ apart =>
      rename_i ih
      rcases bind_eq_clean_iff.mp clean with ⟨⟨names, groups⟩, command, later⟩
      rcases bind_eq_clean_iff.mp later with ⟨others, more, last⟩
      cases pure_eq_clean_iff.mp last
      rcases command_sound command with ⟨used, split, spelled⟩
      have split : .leaf ⟨.backslash, text, place⟩ :: rest
          = .leaf ⟨.backslash, text, place⟩ :: (used ++ (readCommand place rest).2) :=
        congrArg _ split
      rw [split]
      exact @FactorsSpelled.command ⟨.backslash, text, place⟩ _ _ _ _ _ rfl spelled
        ((ih more).apart_iff.mpr apart) (ih more)
  | case5 word place rest =>
      rename_i ih
      rcases bind_eq_clean_iff.mp clean with ⟨operand, here, later⟩
      rcases bind_eq_clean_iff.mp later with ⟨others, more, last⟩
      cases pure_eq_clean_iff.mp last
      rcases @name_sound _ ⟨.name, word, place⟩ _ rfl here with ⟨used, split, spelled⟩
      have split : .leaf ⟨.name, word, place⟩ :: rest
          = (.leaf ⟨.name, word, place⟩ :: used) ++ (readName word place rest).2 := congrArg _ split
      rw [split]
      exact .operand spelled (ih more)
  | case6 text place rest ih =>
      rcases bind_eq_clean_iff.mp clean with ⟨others, more, last⟩
      cases pure_eq_clean_iff.mp last
      exact .operand (@OperandSpelled.text ⟨.text, text, place⟩ rfl) (ih more)
  | case7 => exact absurd clean report_bind_ne_clean
  | case8 bracket opener listed whole rest ih =>
      rcases bind_eq_clean_iff.mp clean with ⟨group, here, later⟩
      rcases bind_eq_clean_iff.mp later with ⟨others, more, last⟩
      cases pure_eq_clean_iff.mp last
      rcases group_sound here with ⟨operand, rfl, spelled⟩
      exact .operand spelled (ih more)

/-! ## Operators between operands -/

/-- Whether a factor is an operand. -/
def Factor.isOperand : Factor → Bool
  | .operand _ => true
  | .operator _ => false

/-- No operand comes right after another one. -/
def Alternating (found : List Factor) : Prop :=
  found.IsChain fun first second => first.isOperand = true → second.isOperand = false

theorem alternating_of_clean {tree : Option Expr} {pending : List Operator} {found : List Factor}
    {expr : Expr} (clean : readFactors location tree pending found = ⟨expr, []⟩) :
    Alternating found
      ∧ (tree.isSome = true → pending = [] → ∀ first ∈ found.head?, first.isOperand = false) := by
  -- The second part carries the induction: behind a tree without pending operators no operand
  -- follows.
  fun_induction readFactors location tree pending found with
  | case1 tree pending operator rest ih =>
      refine ⟨List.isChain_cons.mpr ⟨nofun, (ih clean).1⟩, fun _ _ first among => ?_⟩
      cases among
      rfl
  | case2 => exact absurd clean report_bind_ne_clean
  | case3 _ _ _ _ _ ih | case4 _ _ _ ih =>
      have apart := (ih clean).2 rfl rfl
      exact ⟨List.isChain_cons.mpr ⟨fun next among _ => apart next among, (ih clean).1⟩, nofun⟩
  | case5 | case6 | case7 => exact ⟨.nil, nofun⟩

/-- Where no operand comes first, the terms begin with an operator or a backslash. -/
theorem FactorsSpelled.notAt {found : List Factor} {kinds : List TokenKind}
    (spelled : FactorsSpelled found terms)
    (between : ∀ first ∈ found.head?, first.isOperand = false) (noOperator : .operator ∉ kinds)
    (noBackslash : .backslash ∉ kinds) : NotAt kinds terms := by
  cases spelled with
  | none => exact notAt_nil kinds
  | operator spelled _ =>
      cases spelled with
      | symbol isOperator => simpa [Term.kind, isOperator] using noOperator
      | command isBackslash _ _ _ => simpa [Term.kind, isBackslash] using noBackslash
  | operand _ _ | command _ _ _ _ => cases between _ rfl

theorem factors_commandOperator {text : String} {slash : Location} {names : List String}
    {groups : List ArgGroup} {after : List Term} (command : readCommand location terms
      = (⟨(names, groups), []⟩, .leaf ⟨.operator, "/", slash⟩ :: after)) :
    factors (.leaf ⟨.backslash, text, location⟩ :: terms)
      = do return .operator (.command names groups location) :: (← factors after) := by
  rw [factors]
  split
  · next follows =>
    rw [command] at follows ⊢
    cases follows
    rfl
  · next apart => exact absurd (congrArg Prod.snd command) (apart _ _)

theorem factors_command {text : String} {names : List String} {groups : List ArgGroup}
    {after : List Term} (command : readCommand location terms = (⟨(names, groups), []⟩, after))
    (apart : ∀ slash others, after ≠ .leaf ⟨.operator, "/", slash⟩ :: others) :
    factors (.leaf ⟨.backslash, text, location⟩ :: terms)
      = do return .operand (commandExpr names groups location) :: (← factors after) := by
  rw [factors]
  split
  · next follows =>
    rw [command] at follows
    exact absurd follows (apart _ _)
  · rw [command]
    rfl

theorem factors_name {name : Token} {operand : Expr} (isName : name.kind = .name)
    (spelled : OperandSpelled operand (.leaf name :: used)) (ends : NotAt nameKinds rest) :
    factors (.leaf name :: used ++ rest) = do return .operand operand :: (← factors rest) := by
  have found := name_complete isName spelled ends
  rcases name with ⟨_, _, _⟩
  subst isName
  rw [List.cons_append, factors, found]
  rfl

theorem operand_complete {operand : Expr} (spelled : OperandSpelled operand used)
    (ends : NotAt nameKinds rest) :
    factors (used ++ rest) = do return .operand operand :: (← factors rest) := by
  cases spelled with
  | name isName => exact factors_name isName (.name isName) ends
  | variadic isName isEllipsis => exact factors_name isName (.variadic isName isEllipsis) ends
  | subscripted isName spelled => exact factors_name isName (.subscripted isName spelled) ends
  | subscriptedApplied isName spelled spelledParams =>
      exact factors_name isName (.subscriptedApplied isName spelled spelledParams) ends
  | applied isName spelled => exact factors_name isName (.applied isName spelled) ends
  | @text token isText =>
      rcases token with ⟨_, _, _⟩
      subst isText
      rw [List.singleton_append, factors]
  | grouped => rw [List.singleton_append, factors, group_complete .grouped]; rfl
  | tuple several => rw [List.singleton_append, factors, group_complete (.tuple several)]; rfl
  | set => rw [List.singleton_append, factors, group_complete .set]; rfl
  | bracketed => rw [List.singleton_append, factors, group_complete .bracketed]; rfl

/-- Operators and operands are read back as long as an operator stands between any two operands. -/
theorem factors_complete {found : List Factor} (spelled : FactorsSpelled found terms)
    (alternating : Alternating found) : factors terms = ⟨found, []⟩ := by
  induction spelled with
  | none => simp [factors, pure_eq_clean_iff]
  | operator spelled _ ih =>
      have others := ih (List.isChain_cons.mp alternating).2
      cases spelled with
      | @symbol token isOperator =>
          rcases token with ⟨_, _, _⟩
          subst isOperator
          rw [List.singleton_append, factors, others]
          rfl
      | @command backslash slash names groups terms isBackslash spelled isOperator isSlash =>
          rcases backslash with ⟨_, _, place⟩
          rcases slash with ⟨_, _, _⟩
          subst isBackslash isOperator isSlash
          rw [List.cons_append, List.append_assoc, List.singleton_append, factors_commandOperator
            (command_complete spelled (by simp [Term.kind, commandKinds]) place), others]
          rfl
  | @operand operand terms rest found spelled more ih =>
      have others := ih (List.isChain_cons.mp alternating).2
      have ends : NotAt nameKinds rest :=
        more.notAt ((List.isChain_cons.mp alternating).1 · · rfl) (by decide) (by decide)
      rw [operand_complete spelled ends, others]
      rfl
  | @command backslash names groups terms rest found isBackslash spelled apart more ih =>
      have others := ih (List.isChain_cons.mp alternating).2
      have ends : NotAt commandKinds rest :=
        more.notAt ((List.isChain_cons.mp alternating).1 · · rfl) (by decide) (by decide)
      rcases backslash with ⟨_, _, place⟩
      subst isBackslash
      rw [factors_command (command_complete spelled ends place) (more.apart_iff.mp apart), others]
      rfl

theorem missing_bind_ne_clean {next : Expr → Review Fault Expr} {expr : Expr} :
    ¬ missing location >>= next = ⟨expr, []⟩ := by
  intro clean
  cases congrArg Review.problems clean

/-- The place matters only to the problem that an operand is missing. -/
theorem readFactors_anywhere {tree : Option Expr} {pending : List Operator} {found : List Factor}
    {expr : Expr} (clean : readFactors location tree pending found = ⟨expr, []⟩)
    (other : Location) :
    readFactors other tree pending found = ⟨expr, []⟩ := by
  fun_induction readFactors location tree pending found with
  | case1 _ _ _ _ ih | case3 _ _ _ _ _ ih | case4 _ _ _ ih => exact ih clean
  | case2 => exact absurd clean report_bind_ne_clean
  | case5 => exact clean
  | case6 | case7 => exact absurd clean missing_bind_ne_clean

/-- Operators and operands are read without a problem exactly if they can be put together. -/
theorem operation_clean_iff {expr : Expr} :
    readOperation terms location = ⟨expr, []⟩ ↔ OperationSpelled expr terms := by
  constructor
  · intro clean
    rcases bind_eq_clean_iff.mp clean with ⟨found, spelled, together⟩
    exact ⟨found, factors_sound spelled, readFactors_anywhere together⟩
  · rintro ⟨found, spelled, together⟩
    rw [readOperation, factors_complete spelled (alternating_of_clean (together location)).1]
    exact together location

end Treatise.Statement
