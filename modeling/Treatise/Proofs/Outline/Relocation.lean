import Treatise.Proofs.Outline.Items

/-!
# Moving outlines

When the tokens of an outline are moved, the outline moves along. The grammar looks at kinds only,
so moved tokens spell exactly the moved outlines: this holds in both directions, and reading
inherits it.
-/

namespace Treatise.Outline

open Layout (Token TokenKind Mark)

variable (f : Location → Location)

def moved (tokens : List Token) : List Token :=
  tokens.map (·.mapLocation f)

mutual

/-- Changes every place in a group. -/
def Group.mapLocations : Group → Group
  | .mk id sections => .mk (id.map (·.mapLocation f)) (mapSections sections)

def mapSections : List Section → List Section
  | [] => []
  | part :: rest => part.mapLocations :: mapSections rest

def Section.mapLocations : Section → Section
  | .mk name arguments => .mk (name.mapLocation f) (mapArguments arguments)

def mapArguments : List Argument → List Argument
  | [] => []
  | argument :: rest => argument.mapLocations :: mapArguments rest

def Argument.mapLocations : Argument → Argument
  | .target leaf => .target (leaf.mapLocations f)
  | .group inner => .group inner.mapLocations

end

def Item.mapLocations : Item → Item
  | .group inner => .group (inner.mapLocations f)
  | .comment token => .comment (token.mapLocation f)

theorem mapSections_eq (sections : List Section) :
    mapSections f sections = sections.map (Section.mapLocations f) := by
  induction sections with
  | nil => rfl
  | cons part rest ih => rw [mapSections, ih, List.map_cons]

theorem mapArguments_eq (arguments : List Argument) :
    mapArguments f arguments = arguments.map (Argument.mapLocations f) := by
  induction arguments with
  | nil => rfl
  | cons argument rest ih => rw [mapArguments, ih, List.map_cons]

theorem mapTargets_eq (targets : List Target) :
    Target.mapLocationsOf f targets = targets.map (Target.mapLocations f) := by
  induction targets with
  | nil => rfl
  | cons target rest ih => rw [Target.mapLocationsOf, ih, List.map_cons]

@[simp]
theorem kind_mapLocation (token : Token) : (token.mapLocation f).kind = token.kind := rfl

@[simp]
theorem text_mapLocation (token : Token) : (token.mapLocation f).text = token.text := rfl

variable {f} {tokens spelling : List Token}

/-! ## Spellings of moved tokens -/

theorem moved_eq_nil_iff : moved f tokens = [] ↔ tokens = [] := List.map_eq_nil_iff

theorem moved_eq_cons_iff {first : Token} {rest : List Token} : moved f tokens = first :: rest
    ↔ ∃ token others, tokens = token :: others ∧ token.mapLocation f = first
      ∧ moved f others = rest :=
  List.map_eq_cons_iff

theorem moved_eq_append_iff {front back : List Token} : moved f tokens = front ++ back
    ↔ ∃ first second, tokens = first ++ second ∧ moved f first = front ∧ moved f second = back :=
  List.map_eq_append_iff

theorem NamesSpelled.of_moved {names : List Token} (spelled : NamesSpelled names spelling)
    (same : moved f tokens = spelling) :
    ∃ origin, moved f origin = names ∧ NamesSpelled origin tokens := by
  induction spelled generalizing tokens with
  | one isName =>
      simp only [moved_eq_cons_iff, moved_eq_nil_iff] at same
      rcases same with ⟨name, _, rfl, rfl, rfl⟩
      exact ⟨[name], rfl, .one isName⟩
  | more isName isComma _ ih =>
      simp only [moved_eq_cons_iff] at same
      rcases same with ⟨name, _, rfl, rfl, comma, _, rfl, rfl, after⟩
      rcases ih after with ⟨origin, rfl, here⟩
      exact ⟨name :: origin, rfl, .more isName isComma here⟩

theorem Enclosed.of_moved {opener closer : Mark} {names : List Token}
    (spelled : Enclosed opener closer names spelling) (same : moved f tokens = spelling) :
    ∃ origin, moved f origin = names ∧ Enclosed opener closer origin tokens := by
  cases spelled with
  | empty opens closes =>
      simp only [moved_eq_cons_iff, moved_eq_nil_iff] at same
      rcases same with ⟨opening, _, rfl, rfl, closing, _, rfl, rfl, rfl⟩
      exact ⟨[], rfl, .empty opens closes⟩
  | names opens spelled closes =>
      simp only [moved_eq_append_iff, moved_eq_cons_iff, moved_eq_nil_iff] at same
      rcases same with ⟨_, _, rfl, ⟨opening, _, rfl, rfl, inner⟩, closing, _, rfl, rfl, rfl⟩
      rcases spelled.of_moved inner with ⟨origin, rfl, here⟩
      exact ⟨origin, rfl, .names opens here closes⟩

mutual

/-- What spells a moved target spells a target that moves there. -/
theorem Target.Spelled.of_moved {found : Target} {tokens spelling : List Token}
    (spelled : Target.Spelled found spelling) (same : moved f tokens = spelling) :
    ∃ origin : Target, origin.mapLocations f = found ∧ Target.Spelled origin tokens := by
  match spelled with
  | .single alone =>
    simp only [moved_eq_cons_iff, moved_eq_nil_iff] at same
    rcases same with ⟨token, _, rfl, rfl, rfl⟩
    exact ⟨.single token, rfl, .single alone⟩
  | .enclosed spelled =>
    rcases spelled.of_moved same with ⟨origin, rfl, enclosed⟩
    simp only [moved_eq_cons_iff] at same
    rcases same with ⟨opening, _, rfl, rfl, -⟩
    exact ⟨.enclosed origin opening.location, rfl, .enclosed enclosed⟩
  | .assignment isName isEquals spelled =>
    simp only [moved_eq_cons_iff] at same
    rcases same with ⟨name, _, rfl, rfl, equals, _, rfl, rfl, after⟩
    rcases spelled.of_moved after with ⟨origin, rfl, here⟩
    exact ⟨.assignment name origin, rfl, .assignment isName isEquals here⟩
  | .applied isName spelled =>
    simp only [moved_eq_cons_iff] at same
    rcases same with ⟨name, _, rfl, rfl, after⟩
    rcases spelled.of_moved after with ⟨origin, rfl, here⟩
    exact ⟨.applied name none (some origin), rfl, .applied isName here⟩
  | .subscripted isName isUnderscore spelled =>
    simp only [moved_eq_cons_iff] at same
    rcases same with ⟨name, _, rfl, rfl, underscore, _, rfl, rfl, after⟩
    rcases spelled.of_moved after with ⟨origin, rfl, here⟩
    exact ⟨.applied name (some origin) none, rfl, .subscripted isName isUnderscore here⟩
  | .subscriptedApplied isName isUnderscore spelled params =>
    simp only [moved_eq_append_iff, moved_eq_cons_iff] at same
    rcases same with ⟨_, _, rfl, ⟨name, _, rfl, rfl, underscore, _, rfl, rfl, inner⟩, after⟩
    rcases spelled.of_moved inner with ⟨origin, rfl, here⟩
    rcases params.of_moved after with ⟨origin', rfl, applied⟩
    exact ⟨.applied name (some origin) (some origin'), rfl,
      .subscriptedApplied isName isUnderscore here applied⟩
  | .emptyTuple opens closes =>
    simp only [moved_eq_cons_iff, moved_eq_nil_iff] at same
    rcases same with ⟨opening, _, rfl, rfl, closing, _, rfl, rfl, rfl⟩
    exact ⟨.tuple [] opening.location, rfl, .emptyTuple opens closes⟩
  | .tuple opens spelled closes =>
    simp only [moved_eq_append_iff, moved_eq_cons_iff, moved_eq_nil_iff] at same
    rcases same with ⟨_, _, rfl, ⟨opening, _, rfl, rfl, inner⟩, closing, _, rfl, rfl, rfl⟩
    rcases spelled.of_moved inner with ⟨origin, rfl, here⟩
    refine ⟨.tuple origin opening.location, ?_, .tuple opens here closes⟩
    rw [Target.mapLocations, mapTargets_eq]
    rfl

/-- What spells moved targets spells targets that move there. -/
theorem TargetsSpelled.of_moved {found : List Target} {tokens spelling : List Token}
    (spelled : TargetsSpelled found spelling) (same : moved f tokens = spelling) :
    ∃ origin : List Target, origin.map (Target.mapLocations f) = found
      ∧ TargetsSpelled origin tokens := by
  match spelled with
  | .one spelled =>
    rcases spelled.of_moved same with ⟨origin, rfl, here⟩
    exact ⟨[origin], rfl, .one here⟩
  | .more spelled isComma more =>
    simp only [moved_eq_append_iff, moved_eq_cons_iff] at same
    rcases same with ⟨_, _, rfl, inner, comma, _, rfl, rfl, after⟩
    rcases spelled.of_moved inner with ⟨origin, rfl, here⟩
    rcases more.of_moved after with ⟨origins, rfl, later⟩
    exact ⟨origin :: origins, rfl, .more here isComma later⟩

end

theorem InlineSpelled.of_moved {found : List Target} (spelled : InlineSpelled found spelling)
    (same : moved f tokens = spelling) :
    ∃ origin : List Target, origin.map (Target.mapLocations f) = found
      ∧ InlineSpelled origin tokens := by
  cases spelled with
  | none =>
      rcases moved_eq_nil_iff.mp same with rfl
      exact ⟨[], rfl, .none⟩
  | some spelled =>
      rcases spelled.of_moved same with ⟨origin, rfl, here⟩
      exact ⟨origin, rfl, .some here⟩

theorem notAt_moved (kinds : List TokenKind) :
    NotAt kinds (moved f tokens) ↔ NotAt kinds tokens := by
  cases tokens <;> simp [moved]

theorem map_target_mapLocations (targets : List Target) :
    (targets.map Argument.target).map (Argument.mapLocations f)
      = (targets.map (Target.mapLocations f)).map Argument.target := by
  simp [Argument.mapLocations]

mutual

/-- What spells a moved group spells a group that moves there. -/
theorem Group.Spelled.of_moved {found : Group} {tokens spelling : List Token}
    (spelled : Group.Spelled found spelling) (same : moved f tokens = spelling) :
    ∃ origin : Group, origin.mapLocations f = found ∧ Group.Spelled origin tokens := by
  match spelled with
  | .plain spelled =>
    rcases spelled.of_moved same with ⟨origin, rfl, here⟩
    exact ⟨.mk none origin, by rw [Group.mapLocations, mapSections_eq]; rfl, .plain here⟩
  | .tagged isId opens closes spelled =>
    simp only [moved_eq_cons_iff] at same
    rcases same with ⟨id, _, rfl, rfl, opening, _, rfl, rfl, closing, _, rfl, rfl, after⟩
    rcases spelled.of_moved after with ⟨origin, rfl, here⟩
    exact ⟨.mk (some id) origin, by rw [Group.mapLocations, mapSections_eq]; rfl,
      .tagged isId opens closes here⟩

theorem SectionsSpelled.of_moved {found : List Section} {tokens spelling : List Token}
    (spelled : SectionsSpelled found spelling) (same : moved f tokens = spelling) :
    ∃ origin : List Section, origin.map (Section.mapLocations f) = found
      ∧ SectionsSpelled origin tokens := by
  match spelled with
  | .one spelled =>
    rcases spelled.of_moved same with ⟨origin, rfl, here⟩
    exact ⟨[origin], rfl, .one here⟩
  | .more spelled more =>
    simp only [moved_eq_append_iff] at same
    rcases same with ⟨_, _, rfl, inner, after⟩
    rcases spelled.of_moved inner with ⟨origin, rfl, here⟩
    rcases more.of_moved after with ⟨origins, rfl, later⟩
    exact ⟨origin :: origins, rfl, .more here later⟩

theorem Section.Spelled.of_moved {found : Section} {tokens spelling : List Token}
    (spelled : Section.Spelled found spelling) (same : moved f tokens = spelling) :
    ∃ origin : Section, origin.mapLocations f = found ∧ Section.Spelled origin tokens := by
  match spelled with
  | .mk isName isColon spelledInline opens spelled closes =>
    simp only [moved_eq_append_iff, moved_eq_cons_iff, moved_eq_nil_iff] at same
    rcases same with
      ⟨_, _, rfl, ⟨_, _, rfl, ⟨name, _, rfl, rfl, colon, _, rfl, rfl, line⟩, opening, _, rfl, rfl,
       inner⟩, closing, _, rfl, rfl, rfl⟩
    rcases spelledInline.of_moved line with ⟨inline, rfl, hereInline⟩
    rcases spelled.of_moved inner with ⟨arguments, rfl, here⟩
    refine ⟨.mk name (inline.map .target ++ arguments), ?_,
      @Section.Spelled.mk name colon opening closing _ _ _ _ isName isColon hereInline opens here
        closes⟩
    rw [Section.mapLocations, mapArguments_eq, List.map_append, map_target_mapLocations]

theorem ArgumentsSpelled.of_moved {found : List Argument} {tokens spelling : List Token}
    (spelled : ArgumentsSpelled found spelling) (same : moved f tokens = spelling) :
    ∃ origin : List Argument, origin.map (Argument.mapLocations f) = found
      ∧ ArgumentsSpelled origin tokens := by
  match spelled with
  | .none =>
    rcases moved_eq_nil_iff.mp same with rfl
    exact ⟨[], rfl, .none⟩
  | .group isDot spelled more =>
    simp only [moved_eq_append_iff, moved_eq_cons_iff] at same
    rcases same with ⟨_, _, rfl, ⟨dot, _, rfl, rfl, inner⟩, after⟩
    rcases spelled.of_moved inner with ⟨origin, rfl, here⟩
    rcases more.of_moved after with ⟨origins, rfl, later⟩
    exact ⟨.group origin :: origins, rfl, .group isDot here later⟩
  | .targets isDot spelled untagged opens closes more =>
    simp only [moved_eq_append_iff, moved_eq_cons_iff] at same
    rcases same with
      ⟨_, _, rfl, ⟨dot, _, rfl, rfl, inner⟩, opening, _, rfl, rfl, closing, _, rfl, rfl, after⟩
    subst inner
    rcases spelled.of_moved rfl with ⟨origin, rfl, here⟩
    rcases more.of_moved after with ⟨origins, rfl, later⟩
    refine ⟨origin.map .target ++ origins, by rw [List.map_append, map_target_mapLocations],
      @ArgumentsSpelled.targets dot opening closing _ _ _ _ isDot here
        ((notAt_moved _).mp untagged) opens closes later⟩

end

theorem atBoundary_moved (tokens : List Token) :
    atBoundary (moved f tokens) = atBoundary tokens := by
  cases tokens <;> rfl

/-- What spells moved items spells items that move there. -/
theorem ItemsSpelled.of_moved {found : List Item} (spelled : ItemsSpelled found spelling)
    (same : moved f tokens = spelling) :
    ∃ origin : List Item, origin.map (Item.mapLocations f) = found
      ∧ ItemsSpelled origin tokens := by
  induction spelled generalizing tokens with
  | none =>
      rcases moved_eq_nil_iff.mp same with rfl
      exact ⟨[], rfl, .none⟩
  | lineBreak isBreak _ ih =>
      simp only [moved_eq_cons_iff] at same
      rcases same with ⟨mark, _, rfl, rfl, after⟩
      rcases ih after with ⟨origin, rfl, here⟩
      exact ⟨origin, rfl, .lineBreak isBreak here⟩
  | comment isComment _ ih =>
      simp only [moved_eq_cons_iff] at same
      rcases same with ⟨comment, _, rfl, rfl, after⟩
      rcases ih after with ⟨origin, rfl, here⟩
      exact ⟨.comment comment :: origin, rfl, .comment isComment here⟩
  | group spelled ends _ ih =>
      simp only [moved_eq_append_iff] at same
      rcases same with ⟨_, _, rfl, inner, after⟩
      rcases spelled.of_moved inner with ⟨origin, rfl, here⟩
      rcases ih after with ⟨origins, rfl, later⟩
      subst after
      exact ⟨.group origin :: origins, rfl, .group here (by rwa [atBoundary_moved] at ends) later⟩

/-! ## Moved spellings -/

@[simp]
theorem moved_nil : moved f [] = [] := rfl

@[simp]
theorem moved_cons (token : Token) (rest : List Token) :
    moved f (token :: rest) = token.mapLocation f :: moved f rest := rfl

@[simp]
theorem moved_append (first second : List Token) :
    moved f (first ++ second) = moved f first ++ moved f second :=
  List.map_append

variable (f)

theorem NamesSpelled.moved {names : List Token} (spelled : NamesSpelled names tokens) :
    NamesSpelled (moved f names) (moved f tokens) := by
  induction spelled with
  | one isName => exact .one isName
  | more isName isComma _ ih => exact .more isName isComma ih

theorem Enclosed.moved {opener closer : Mark} {names : List Token}
    (spelled : Enclosed opener closer names tokens) :
    Enclosed opener closer (moved f names) (moved f tokens) := by
  cases spelled with
  | empty opens closes => exact .empty opens closes
  | names opens spelled closes =>
      simp only [moved_append, moved_cons, moved_nil]
      exact .names opens (spelled.moved f) closes

mutual

/-- A moved target is spelled by the moved tokens. -/
theorem Target.Spelled.moved {found : Target} {tokens : List Token}
    (spelled : Target.Spelled found tokens) :
    Target.Spelled (found.mapLocations f) (moved f tokens) := by
  match spelled with
  | .single alone => exact .single alone
  | .enclosed spelled => exact .enclosed (spelled.moved f)
  | .assignment isName isEquals spelled => exact .assignment isName isEquals spelled.moved
  | .applied isName spelled => exact .applied isName (spelled.moved f)
  | .subscripted isName isUnderscore spelled =>
    exact .subscripted isName isUnderscore (spelled.moved f)
  | .subscriptedApplied isName isUnderscore spelled params =>
    rw [moved_append]
    exact .subscriptedApplied isName isUnderscore (spelled.moved f) (params.moved f)
  | @Target.Spelled.emptyTuple opening closing opens closes =>
    exact @Target.Spelled.emptyTuple (opening.mapLocation f) (closing.mapLocation f) opens closes
  | @Target.Spelled.tuple opening closing _ _ opens spelled closes =>
    rw [moved_append, moved_cons, Target.mapLocations, mapTargets_eq]
    exact @Target.Spelled.tuple (opening.mapLocation f) (closing.mapLocation f) _ _ opens
      spelled.moved closes

theorem TargetsSpelled.moved {found : List Target} {tokens : List Token}
    (spelled : TargetsSpelled found tokens) :
    TargetsSpelled (found.map (Target.mapLocations f)) (moved f tokens) := by
  match spelled with
  | .one spelled => exact .one spelled.moved
  | .more spelled isComma more =>
    rw [moved_append]
    exact .more spelled.moved isComma more.moved

end

theorem InlineSpelled.moved {found : List Target} (spelled : InlineSpelled found tokens) :
    InlineSpelled (found.map (Target.mapLocations f)) (moved f tokens) := by
  cases spelled with
  | none => exact .none
  | some spelled => exact .some (spelled.moved f)

mutual

/-- A moved group is spelled by the moved tokens. -/
theorem Group.Spelled.moved {found : Group} {tokens : List Token}
    (spelled : Group.Spelled found tokens) :
    Group.Spelled (found.mapLocations f) (moved f tokens) := by
  match spelled with
  | .plain spelled =>
    rw [Group.mapLocations, mapSections_eq]
    exact .plain spelled.moved
  | .tagged isId opens closes spelled =>
    rw [Group.mapLocations, mapSections_eq]
    exact .tagged isId opens closes spelled.moved

theorem SectionsSpelled.moved {found : List Section} {tokens : List Token}
    (spelled : SectionsSpelled found tokens) :
    SectionsSpelled (found.map (Section.mapLocations f)) (moved f tokens) := by
  match spelled with
  | .one spelled => exact .one spelled.moved
  | .more spelled more =>
    rw [moved_append]
    exact .more spelled.moved more.moved

theorem Section.Spelled.moved {found : Section} {tokens : List Token}
    (spelled : Section.Spelled found tokens) :
    Section.Spelled (found.mapLocations f) (moved f tokens) := by
  match spelled with
  | @Section.Spelled.mk name colon opening closing _ _ _ _ isName isColon inline opens spelled
    closes =>
    rw [Section.mapLocations, mapArguments_eq, List.map_append, map_target_mapLocations]
    simp only [moved_append, moved_cons, moved_nil]
    exact @Section.Spelled.mk (name.mapLocation f) (colon.mapLocation f) (opening.mapLocation f)
      (closing.mapLocation f) _ _ _ _ isName isColon (inline.moved f) opens spelled.moved closes

theorem ArgumentsSpelled.moved {found : List Argument} {tokens : List Token}
    (spelled : ArgumentsSpelled found tokens) :
    ArgumentsSpelled (found.map (Argument.mapLocations f)) (moved f tokens) := by
  match spelled with
  | .none => exact .none
  | .group isDot spelled more =>
    rw [moved_append, moved_cons]
    exact .group isDot spelled.moved more.moved
  | .targets isDot spelled untagged opens closes more =>
    rw [List.map_append, map_target_mapLocations]
    simp only [moved_append, moved_cons]
    exact .targets isDot (spelled.moved f) ((notAt_moved _).mpr untagged) opens closes more.moved

end

/-- Moved items are spelled by the moved tokens. -/
theorem ItemsSpelled.moved {found : List Item} (spelled : ItemsSpelled found tokens) :
    ItemsSpelled (found.map (Item.mapLocations f)) (moved f tokens) := by
  induction spelled with
  | none => exact .none
  | lineBreak isBreak _ ih => exact .lineBreak isBreak ih
  | comment isComment _ ih => exact .comment isComment ih
  | group spelled ends _ ih =>
      rw [moved_append]
      exact .group (spelled.moved f) (by rwa [atBoundary_moved]) ih

end Treatise.Outline
