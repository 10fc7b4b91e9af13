import Treatise.Proofs.Outline.Code

/-!
# Outlines that can be written

A group can be written if its names and its id are written tokens and written tokens spell each of
its targets. It does not matter how the group itself was spelled: what a text without faults spells
can be written, and it can be written on other lines as well.
-/

namespace Treatise.Outline

open Layout (Token Mark Written written_cons written_append)

/-- Every token except the markers is written. -/
def WrittenContent (tokens : List Token) : Prop :=
  ∀ token ∈ tokens, token.kind.isMarker = false → token.Written

/-- Written tokens spell the target. -/
def Target.Sayable (target : Target) : Prop :=
  ∃ tokens, Target.Spelled target tokens ∧ Written tokens

mutual

/-- There are sections, and the id and all sections can be written. -/
def Group.Sayable : Group → Prop
  | .mk id sections => (∀ token ∈ id, token.kind = .literal .id ∧ token.Written)
    ∧ sections ≠ [] ∧ SectionsSayable sections

def SectionsSayable : List Section → Prop
  | [] => True
  | part :: rest => part.Sayable ∧ SectionsSayable rest

/-- The name and all arguments can be written. -/
def Section.Sayable : Section → Prop
  | .mk name arguments => name.kind = .name ∧ name.Written ∧ ArgumentsSayable arguments

def ArgumentsSayable : List Argument → Prop
  | [] => True
  | argument :: rest => argument.Sayable ∧ ArgumentsSayable rest

/-- The target or the group can be written. -/
def Argument.Sayable : Argument → Prop
  | .target leaf => leaf.Sayable
  | .group inner => inner.Sayable

end

theorem argumentsSayable_targets {targets : List Target} {arguments : List Argument} :
    ArgumentsSayable (targets.map .target ++ arguments)
      ↔ (∀ target ∈ targets, target.Sayable) ∧ ArgumentsSayable arguments := by
  induction targets with
  | nil => simp
  | cons target rest ih =>
      rw [List.map_cons, List.cons_append, ArgumentsSayable, ih, List.forall_mem_cons, and_assoc]
      rfl

/-! ## What a text without faults spells -/

section Content

variable {first : Token} {rest tokens others : List Token}

theorem writtenContent_cons :
    WrittenContent (first :: rest)
      ↔ (first.kind.isMarker = false → first.Written) ∧ WrittenContent rest :=
  List.forall_mem_cons

theorem writtenContent_append :
    WrittenContent (tokens ++ others) ↔ WrittenContent tokens ∧ WrittenContent others :=
  List.forall_mem_append

theorem NamesSpelled.content {names : List Token} (spelled : NamesSpelled names tokens) :
    ∀ token ∈ tokens, token.kind.isMarker = false := by
  induction spelled with
  | one isName => simp [isName, Layout.TokenKind.isMarker]
  | more isName isComma _ ih =>
      simpa [isName, isComma, Layout.TokenKind.isMarker] using ih

theorem Enclosed.content {opener closer : Mark} {names : List Token}
    (spelled : Enclosed opener closer names tokens) :
    ∀ token ∈ tokens, token.kind.isMarker = false := by
  cases spelled with
  | empty opens closes => simp [opens, closes, Layout.TokenKind.isMarker]
  | names opens spelled closes =>
      have inside := spelled.content
      simp only [List.cons_append, List.mem_cons, List.mem_append, List.not_mem_nil, or_false]
      rintro token (rfl | here | rfl)
      · rw [opens]; rfl
      · exact inside token here
      · rw [closes]; rfl

mutual

/-- The tokens of a target are no markers. -/
theorem Target.Spelled.content {found : Target} {tokens : List Token}
    (spelled : Target.Spelled found tokens) : ∀ token ∈ tokens, token.kind.isMarker = false := by
  match spelled with
  | .single alone =>
    rcases alone with kind | kind | kind | kind | kind <;>
      simp [kind, Layout.TokenKind.isMarker]
  | .enclosed spelled => exact spelled.content
  | .assignment isName isEquals spelled =>
    simpa [isName, isEquals, Layout.TokenKind.isMarker] using spelled.content
  | .applied isName spelled =>
    simpa [isName, Layout.TokenKind.isMarker] using spelled.content
  | .subscripted isName isUnderscore spelled =>
    simpa [isName, isUnderscore, Layout.TokenKind.isMarker] using spelled.content
  | .subscriptedApplied isName isUnderscore spelled params =>
    refine List.forall_mem_append.mpr ⟨?_, params.content⟩
    simpa [isName, isUnderscore, Layout.TokenKind.isMarker] using spelled.content
  | .emptyTuple opens closes => simp [opens, closes, Layout.TokenKind.isMarker]
  | .tuple opens spelled closes =>
    refine List.forall_mem_append.mpr ⟨?_, ?_⟩
    · simpa [opens, Layout.TokenKind.isMarker] using spelled.content
    · simp [closes, Layout.TokenKind.isMarker]

theorem TargetsSpelled.content {found : List Target} {tokens : List Token}
    (spelled : TargetsSpelled found tokens) : ∀ token ∈ tokens, token.kind.isMarker = false := by
  match spelled with
  | .one spelled => exact spelled.content
  | .more spelled isComma more =>
    refine List.forall_mem_append.mpr ⟨spelled.content, ?_⟩
    simpa [isComma, Layout.TokenKind.isMarker] using more.content

end

theorem TargetsSpelled.sayable {found : List Target} {tokens : List Token}
    (spelled : TargetsSpelled found tokens) (content : WrittenContent tokens) :
    ∀ target ∈ found, target.Sayable := by
  match spelled with
  | .one spelled =>
    simp only [List.mem_singleton, forall_eq]
    exact ⟨tokens, spelled, fun token member =>
      content token member (spelled.content token member)⟩
  | .more spelled isComma later =>
    rcases writtenContent_append.mp content with ⟨here, after⟩
    refine List.forall_mem_cons.mpr ⟨?_, later.sayable (writtenContent_cons.mp after).2⟩
    exact ⟨_, spelled, fun token member => here token member (spelled.content token member)⟩

theorem InlineSpelled.sayable {found : List Target} (spelled : InlineSpelled found tokens)
    (content : WrittenContent tokens) : ∀ target ∈ found, target.Sayable := by
  cases spelled with
  | none => simp
  | some spelled => exact spelled.sayable content

mutual

/-- What tokens with written content spell can be written. -/
theorem Group.Spelled.sayable {found : Group} {tokens : List Token}
    (spelled : Group.Spelled found tokens) (content : WrittenContent tokens) : found.Sayable := by
  match spelled with
  | .plain spelled => exact ⟨by simp, spelled.sayable content⟩
  | .tagged isId opens closes spelled =>
    simp only [writtenContent_cons] at content
    rcases content with ⟨writtenId, -, -, content⟩
    refine ⟨?_, spelled.sayable content⟩
    rintro token same
    rcases Option.some.inj same with rfl
    exact ⟨isId, writtenId (by rw [isId]; rfl)⟩

theorem SectionsSpelled.sayable {found : List Section} {tokens : List Token}
    (spelled : SectionsSpelled found tokens) (content : WrittenContent tokens) :
    found ≠ [] ∧ SectionsSayable found := by
  match spelled with
  | .one spelled => exact ⟨by simp, spelled.sayable content, trivial⟩
  | .more spelled more =>
    rcases writtenContent_append.mp content with ⟨here, after⟩
    exact ⟨by simp, spelled.sayable here, (more.sayable after).2⟩

theorem Section.Spelled.sayable {found : Section} {tokens : List Token}
    (spelled : Section.Spelled found tokens) (content : WrittenContent tokens) :
    found.Sayable := by
  match spelled with
  | .mk isName isColon spelledInline opens spelled closes =>
    simp only [writtenContent_append, writtenContent_cons] at content
    rcases content with ⟨⟨⟨writtenName, -, line⟩, -, inner⟩, -⟩
    exact ⟨isName, writtenName (by rw [isName]; rfl),
      argumentsSayable_targets.mpr ⟨spelledInline.sayable line, spelled.sayable inner⟩⟩

theorem ArgumentsSpelled.sayable {found : List Argument} {tokens : List Token}
    (spelled : ArgumentsSpelled found tokens) (content : WrittenContent tokens) :
    ArgumentsSayable found := by
  match spelled with
  | .none => exact trivial
  | .group isDot spelled more =>
    simp only [writtenContent_append, writtenContent_cons] at content
    rcases content with ⟨⟨-, inner⟩, after⟩
    exact ⟨spelled.sayable inner, more.sayable after⟩
  | .targets isDot spelled untagged opens closes more =>
    simp only [writtenContent_append, writtenContent_cons] at content
    rcases content with ⟨⟨-, inner⟩, -, -, after⟩
    exact argumentsSayable_targets.mpr ⟨spelled.sayable inner, more.sayable after⟩

end

/-- The groups among items that tokens with written content spell can be written. -/
theorem ItemsSpelled.sayable {found : List Item} (spelled : ItemsSpelled found tokens)
    (content : WrittenContent tokens) :
    ∀ group : Group, .group group ∈ found → group.Sayable := by
  induction spelled with
  | none => simp
  | lineBreak _ _ ih => exact ih (writtenContent_cons.mp content).2
  | comment _ _ ih =>
      intro group member
      exact ih (writtenContent_cons.mp content).2 group (by simpa using member)
  | group spelled _ _ ih =>
      rcases writtenContent_append.mp content with ⟨here, after⟩
      intro other member
      rcases List.mem_cons.mp member with same | later
      · rcases Item.group.inj same with rfl
        exact spelled.sayable here
      · exact ih after other later

end Content

end Treatise.Outline
