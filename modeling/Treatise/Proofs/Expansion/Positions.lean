import Mathlib.Data.List.Forall2
import Mathlib.Data.List.Nodup
import Treatise.Corpus.Check

/-!
# Arguments by groups and by positions

The shape of a command is compared with its id group by group, and every group may end with a
variadic parameter. A template takes all arguments in one row, and there only the last parameter may
be variadic.

Main statement: a template takes the arguments of a command whose shape fits, and each hole takes
what its parameter takes in the group it is declared in. That holds as long as the slots of the
groups differ, a group that ends with a variadic parameter is the last one with parameters unless it
is given one argument for each, and there is an argument or no hole that asks for one.
-/

namespace Treatise.Expansion

open Corpus (accepts wrongCounts)
open Document (Definition Formula)
open Statement (ArgGroup Expr)

/-! ## Shapes -/

/-- Whether the last of some parameters is variadic. -/
def endsVariadic (params : List Expr) : Bool :=
  match params.getLast? with
  | some (.variadic _ _) => true
  | _ => false

/-- A group that ends with a variadic parameter is the last one with parameters, or it is given one
argument for each of its parameters. -/
def OpenOnlyLast : List ArgGroup → List ArgGroup → Prop
  | group :: declared, found :: used =>
    (endsVariadic group.items = true →
        ArgGroup.arguments declared = [] ∨ found.items.length = group.items.length)
      ∧ OpenOnlyLast declared used
  | _, _ => True

/-- The number of arguments of a bracket group fits what is declared. -/
def GroupFits (group found : ArgGroup) : Prop :=
  accepts group.items found.items.length = true

theorem accepts_iff {params : List Expr} {count : Nat} :
    accepts params count = true ↔
      if endsVariadic params then params.length ≤ count + 1 else count = params.length := by
  cases last : params.getLast? with
  | none => simp [accepts, endsVariadic, last]
  | some param => cases param <;> simp [accepts, endsVariadic, last]

theorem endsVariadic_append {front back : List Expr} (some : back ≠ []) :
    endsVariadic (front ++ back) = endsVariadic back := by
  rw [endsVariadic, List.getLast?_append_of_ne_nil front some, endsVariadic]

theorem eq_concat_of_endsVariadic {params : List Expr} (ends : endsVariadic params = true) :
    ∃ front word location, params = front ++ [.variadic word location] := by
  unfold endsVariadic at ends
  split at ends
  · next word location last =>
    exact ⟨params.dropLast, word, location, (List.dropLast_append_getLast? _ last).symm⟩
  · cases ends

/-- What is compared with an id is the group of the same slot. -/
theorem groupFits_of_mem {signature : String} {used declared : List ArgGroup}
    (distinct : (declared.map ArgGroup.slot).Nodup)
    (fits : wrongCounts signature used declared = []) {group found : ArgGroup}
    (declares : group ∈ declared) (uses : found ∈ used)
    (same : found.slot = group.slot) : GroupFits group found := by
  have known : declared.find? (fun other => other.slot = found.slot) = some group := by
    cases first : declared.find? (fun other => other.slot = found.slot) with
    | none =>
        have differs := List.find?_eq_none.mp first group declares
        simp [same] at differs
    | some other =>
        have slot : other.slot = found.slot := by simpa using List.find?_some first
        rw [List.inj_on_of_nodup_map distinct (List.mem_of_find?_eq_some first) declares
          (slot.trans same)]
  have quiet := List.filterMap_eq_nil_iff.mp fits found uses
  rw [known] at quiet
  by_contra wrong
  simp only [GroupFits] at wrong
  simp [wrong] at quiet

theorem forall₂_groupFits {signature : String} {used declared : List ArgGroup}
    (sameSlots : used.map ArgGroup.slot = declared.map ArgGroup.slot)
    (distinct : (declared.map ArgGroup.slot).Nodup)
    (fits : wrongCounts signature used declared = []) :
    List.Forall₂ GroupFits declared used := by
  rw [← List.forall₂_eq_eq_eq, List.forall₂_map_left_iff, List.forall₂_map_right_iff,
    List.forall₂_iff_zip] at sameSlots
  rcases sameSlots with ⟨length, slots⟩
  apply List.Forall₂.flip
  apply List.forall₂_iff_zip.mpr
  refine ⟨length, ?_⟩
  intro found group paired
  have members := List.of_mem_zip paired
  exact groupFits_of_mem distinct fits members.2 members.1 (slots paired)

theorem arguments_cons (group : ArgGroup) (rest : List ArgGroup) :
    ArgGroup.arguments (group :: rest) = group.items ++ ArgGroup.arguments rest := rfl

/-- Groups without parameters take no arguments. -/
theorem arguments_eq_nil {declared used : List ArgGroup}
    (fits : List.Forall₂ GroupFits declared used)
    (none : ArgGroup.arguments declared = []) : ArgGroup.arguments used = [] := by
  induction fits with
  | nil => rfl
  | cons groupFits _ ih =>
      rw [arguments_cons, List.append_eq_nil_iff] at none
      rw [GroupFits, none.1, accepts_iff] at groupFits
      rw [arguments_cons, ih none.2, List.append_nil]
      exact List.eq_nil_of_length_eq_zero groupFits

/-- The groups after one are without parameters, or the group is given one argument for each of its
own. -/
theorem last_or_exact {group found : ArgGroup} {declared used : List ArgGroup}
    (groupFits : GroupFits group found)
    (openLast : OpenOnlyLast (group :: declared) (found :: used)) :
    ArgGroup.arguments declared = [] ∨ found.items.length = group.items.length := by
  cases ends : endsVariadic group.items with
  | true => exact openLast.1 ends
  | false =>
      rw [GroupFits, accepts_iff, ends] at groupFits
      exact .inr groupFits

/-- What fits group by group also fits as a whole. -/
theorem accepts_arguments {declared used : List ArgGroup}
    (fits : List.Forall₂ GroupFits declared used) (openLast : OpenOnlyLast declared used) :
    accepts (ArgGroup.arguments declared) (ArgGroup.arguments used).length = true := by
  induction fits with
  | nil => rfl
  | @cons group found declared used groupFits rest ih =>
      have restFits := ih openLast.2
      by_cases none : ArgGroup.arguments declared = []
      · rw [arguments_cons, arguments_cons, none, arguments_eq_nil rest none, List.append_nil,
          List.append_nil]
        exact groupFits
      · have exact := (last_or_exact groupFits openLast).resolve_left none
        rw [accepts_iff] at restFits ⊢
        rw [arguments_cons, arguments_cons, endsVariadic_append none, List.length_append,
          List.length_append, exact]
        split
        · next ends =>
          rw [if_pos ends] at restFits
          omega
        · next ends =>
          rw [if_neg ends] at restFits
          omega

/-! ## What parameters take -/

/-- What the parameters of one group take, in their order. A variadic one at the end takes all that
is left, put together. -/
def taken : List Expr → List String → List (String × String)
  | [.variadic word _], texts => [(word, ", ".intercalate texts)]
  | param :: rest, text :: texts => ((Param.ofExpr param).name, text) :: taken rest texts
  | _, _ => []

/-- What the parameters take if each group takes the arguments that are given in its slot. -/
def takenByGroups : List ArgGroup → List ArgGroup → List String → List (String × String)
  | group :: declared, found :: used, texts =>
    taken group.items (texts.take found.items.length)
      ++ takenByGroups declared used (texts.drop found.items.length)
  | _, _, _ => []

/-- The names of parameters. -/
def paramNames (params : List Expr) : List String :=
  params.map fun param => (Param.ofExpr param).name

theorem taken_cons {param : Expr} {rest : List Expr} {text : String} {texts : List String}
    (more : rest ≠ []) :
    taken (param :: rest) (text :: texts)
      = ((Param.ofExpr param).name, text) :: taken rest texts := by
  cases rest with
  | nil => cases more rfl
  | cons => cases param <;> rfl

/-- Parameters that are followed by others take one argument each. -/
theorem taken_append {front back : List Expr} (more : back ≠ []) {own later : List String}
    (length : own.length = front.length) :
    taken (front ++ back) (own ++ later) = (paramNames front).zip own ++ taken back later := by
  induction front generalizing own with
  | nil =>
      rw [List.eq_nil_of_length_eq_zero length]
      rfl
  | cons param rest ih =>
      cases own with
      | nil => cases length
      | cons text texts =>
          rw [List.cons_append, List.cons_append, taken_cons (by simp [more]),
            ih (Nat.succ.inj length)]
          rfl

theorem taken_eq_zip {params : List Expr} {texts : List String}
    (length : texts.length = params.length) :
    taken params texts = (paramNames params).zip texts := by
  rcases params.eq_nil_or_concat with rfl | ⟨front, last, rfl⟩
  · rw [List.eq_nil_of_length_eq_zero length]
    rfl
  · rcases texts.eq_nil_or_concat with rfl | ⟨own, text, rfl⟩
    · simp at length
    · have same : own.length = front.length := by simpa using length
      have alone : taken [last] [text] = [((Param.ofExpr last).name, text)] := by
        cases last <;> simp [taken, Param.ofExpr]
      rw [List.concat_eq_append, List.concat_eq_append, taken_append (by simp) same, alone,
        paramNames, paramNames, List.map_append, List.zip_append (by simp [same])]
      rfl

/-- The names that something is taken for are those of parameters. -/
theorem mem_paramNames_of_taken {params : List Expr} {texts : List String} {name text : String}
    (member : (name, text) ∈ taken params texts) : name ∈ paramNames params := by
  unfold taken at member
  split at member
  · rcases List.mem_singleton.mp member with ⟨rfl, rfl⟩
    exact List.mem_singleton.mpr rfl
  · next param rest first others isOpen =>
    rcases List.mem_cons.mp member with same | later
    · cases same
      exact List.mem_cons_self
    · exact List.mem_cons_of_mem _ (mem_paramNames_of_taken later)
  · cases member

/-- All groups in one row take what the groups take one by one. -/
theorem takenByGroups_eq_taken {declared used : List ArgGroup}
    (fits : List.Forall₂ GroupFits declared used) (openLast : OpenOnlyLast declared used)
    {texts : List String} (length : texts.length = (ArgGroup.arguments used).length) :
    takenByGroups declared used texts = taken (ArgGroup.arguments declared) texts := by
  induction fits generalizing texts with
  | nil =>
      rw [List.eq_nil_of_length_eq_zero length]
      rfl
  | @cons group found declared used groupFits rest ih =>
      rw [arguments_cons, List.length_append] at length
      have later : (texts.drop found.items.length).length = (ArgGroup.arguments used).length := by
        rw [List.length_drop]
        omega
      rw [takenByGroups, ih openLast.2 later, arguments_cons]
      by_cases none : ArgGroup.arguments declared = []
      · -- The group is the last one with parameters, so it takes all texts.
        rw [arguments_eq_nil rest none, List.length_nil, Nat.add_zero] at length
        rw [none, List.append_nil, ← length, List.take_length, List.drop_length]
        exact List.append_nil _
      · have exact := (last_or_exact groupFits openLast).resolve_left none
        have own : (texts.take found.items.length).length = group.items.length := by
          rw [List.length_take]
          omega
        rw [taken_eq_zip own, ← taken_append none own, List.take_append_drop]

/-! ## Filling -/

section Templates

variable {template : Template} {declared : List Expr}

/-- A variadic parameter at the end is bound to all arguments that are left. -/
theorem bindings_of_variadic {front : List Expr} {word : String} {location : Location}
    (params : template.params = (front ++ [Expr.variadic word location]).map Param.ofExpr)
    {own later : List String} (length : own.length = front.length) (some : own ++ later ≠ []) :
    template.bindings (own ++ later) = (word, ", ".intercalate later)
      :: ([word].zip later).reverse ++ ((paramNames front).zip own).reverse := by
  have single : (template.params.map Param.name).zip (own ++ later)
      = (paramNames front).zip own ++ [word].zip later := by
    rw [params, List.map_map, List.map_append]
    exact List.zip_append (by simp [length])
  have last : template.params.getLast? = .some ⟨word, true⟩ := by
    rw [params, List.map_append]
    exact List.getLast?_concat
  have fixed : template.params.length - 1 = own.length := by
    rw [params, List.length_map, List.length_append, length]
    rfl
  rw [Template.bindings, if_neg (by simpa using some), single, last, fixed]
  simp

/-- Without a variadic parameter at the end every argument is bound to its parameter. -/
theorem bindings_of_fixed (params : template.params = declared.map Param.ofExpr)
    {texts : List String} (ends : endsVariadic declared = false) (some : texts ≠ []) :
    template.bindings texts = ((paramNames declared).zip texts).reverse := by
  have last : ∀ name, template.params.getLast? ≠ .some ⟨name, true⟩ := by
    intro name found
    rw [params, List.getLast?_map, Option.map_eq_some_iff] at found
    rcases found with ⟨param, isLast, same⟩
    cases param with
    | variadic word location =>
        rw [endsVariadic, isLast] at ends
        cases ends
    | _ => cases same
  rw [Template.bindings, if_neg (by simpa using some)]
  dsimp only
  split
  · next name found => exact absurd found (last name)
  · rw [params, List.map_map]
    rfl

/-- Arguments in one row are bound to the parameters that take them. -/
theorem lookup_bindings (params : template.params = declared.map Param.ofExpr) {texts : List String}
    (some : texts ≠ []) (fits : accepts declared texts.length = true) (name : String) :
    (template.bindings texts).lookup name = (taken declared texts).reverse.lookup name := by
  rw [accepts_iff] at fits
  cases ends : endsVariadic declared with
  | false =>
      simp only [ends, Bool.false_eq_true, if_false] at fits
      rw [bindings_of_fixed params ends some, taken_eq_zip fits]
  | true =>
      rcases eq_concat_of_endsVariadic ends with ⟨front, word, location, rfl⟩
      simp only [ends, if_true, List.length_append, List.length_singleton] at fits
      obtain ⟨own, later, rfl, length⟩ :
          ∃ own later, texts = own ++ later ∧ own.length = front.length := by
        refine ⟨texts.take front.length, texts.drop front.length,
          (List.take_append_drop ..).symm, ?_⟩
        rw [List.length_take]
        omega
      rw [bindings_of_variadic params length some, taken_append (by simp) length, taken]
      cases later with
      | nil => simp
      | cons text others =>
          -- The first of them is bound as well, but what is put together comes first.
          simp only [List.zip_cons_cons, List.zip_nil_left, List.reverse_singleton,
            List.reverse_append]
          by_cases same : name = word
          · simp [same]
          · simp [List.lookup_cons, beq_eq_false_iff_ne.mpr same]

/-- What is bound to names that no hole asks for does not matter. -/
theorem fillPart_congr {target : Option String} {first second : List (String × String)}
    (agree : ∀ name ∈ template.holes, first.lookup name = second.lookup name) :
    template.parts.flatMap (template.fillPart target first)
      = template.parts.flatMap (template.fillPart target second) := by
  apply List.flatMap_congr
  intro part member
  cases part with
  | text => rfl
  | hole name =>
      have asked : name ∈ template.holes := List.mem_filterMap.mpr ⟨.hole name, member, rfl⟩
      simp only [Template.fillPart, agree name asked]

theorem lookup_taken_of_unasked (params : template.params = declared.map Param.ofExpr)
    (unasked : template.usesParams = false) (texts : List String) {name : String}
    (hole : name ∈ template.holes) : (taken declared texts).reverse.lookup name = none := by
  apply List.lookup_eq_none_iff.mpr
  rintro ⟨other, text⟩ member
  rw [List.mem_reverse] at member
  rcases List.mem_map.mp (mem_paramNames_of_taken member) with ⟨param, declares, same⟩
  have differs := List.any_eq_false.mp unasked name hole
  rw [Bool.not_eq_true, List.any_eq_false] at differs
  have apart := differs (Param.ofExpr param) (params ▸ List.mem_map_of_mem declares)
  rw [same, beq_iff_eq] at apart
  apply bne_iff_ne.mpr
  exact Ne.symm apart

theorem isVariadic_eq (params : template.params = declared.map Param.ofExpr) :
    template.isVariadic = endsVariadic declared := by
  rw [Template.isVariadic, params, List.getLast?_map, endsVariadic]
  cases declared.getLast? with
  | none => rfl
  | some param => cases param <;> rfl

/-- A template takes arguments that fit its parameters, unless there are none and a hole asks for
one. -/
theorem fill_eq_taken (params : template.params = declared.map Param.ofExpr) {texts : List String}
    (fits : accepts declared texts.length = true)
    (asked : texts ≠ [] ∨ template.usesParams = false) (target : Option String) :
    template.fill target texts = .ok (String.ofList (template.parts.flatMap
      (template.fillPart target (taken declared texts).reverse))) := by
  have admitted : template.admits texts.length = true := by
    rw [accepts_iff] at fits
    rw [Template.admits, isVariadic_eq params, params, List.length_map]
    split
    · next none =>
      have unused := asked.resolve_left (not_not.mpr (List.eq_nil_of_length_eq_zero none))
      simp [unused]
    · split <;> simp_all
  rw [Template.fill, if_pos admitted]
  congr 2
  apply fillPart_congr
  intro name hole
  rcases eq_or_ne texts [] with rfl | some
  · rw [lookup_taken_of_unasked params (asked.resolve_left (by simp)) [] hole]
    rfl
  · exact lookup_bindings params some fits name

end Templates

/-- A template takes the arguments of a command whose shape fits the id, and each hole for a
parameter takes what the parameter takes in its own group. If two parameters have one name the hole
is for the last one. -/
theorem filled_by_groups {definition : Definition} {template : Template} {names : List String}
    {declared used : List ArgGroup} {location : Location} {signature : String}
    (defined : Template.ofDefinition? definition = some template)
    (isCommand : definition.id.expr? = some (.command names declared location))
    (sameSlots : used.map ArgGroup.slot = declared.map ArgGroup.slot)
    (distinct : (declared.map ArgGroup.slot).Nodup)
    (fits : wrongCounts signature used declared = []) (openLast : OpenOnlyLast declared used)
    {texts : List String} (length : texts.length = (ArgGroup.arguments used).length)
    (asked : texts ≠ [] ∨ template.usesParams = false) (target : Option String) :
    template.fill target texts = .ok (String.ofList (template.parts.flatMap
      (template.fillPart target (takenByGroups declared used texts).reverse))) := by
  have groups := forall₂_groupFits sameSlots distinct fits
  have params : template.params = (ArgGroup.arguments declared).map Param.ofExpr := by
    simp only [Template.ofDefinition?, isCommand, Option.bind_eq_bind,
      Option.bind_eq_some_iff] at defined
    rcases defined with ⟨_, _, _, _, _, _, _, same, built⟩
    cases same
    cases built
    rfl
  have whole := accepts_arguments groups openLast
  rw [takenByGroups_eq_taken groups openLast length]
  rw [← length] at whole
  exact fill_eq_taken params whole asked target

/-- A definition that only says how an id is written. -/
def writtenAs (id : Expr) (text : String) : Definition :=
  .states ⟨⟨id.code, .ok id, .start⟩, none, none, none, default, none,
    some ⟨[⟨text, .start⟩], .start⟩, none, none, .start⟩

/-- The arguments of a last group that ends with a variadic parameter are put together. -/
theorem last_group_filled :
    Template.ofDefinition? (writtenAs (.command ["f"]
        [.mk .square [.name "x" .start],
          .mk .curly [.name "y" .start, .variadic "z" .start]] .start)
        "x?; y?; z?")
        = some ⟨"\\f", none, [⟨"x", false⟩, ⟨"y", false⟩, ⟨"z", true⟩], "x?; y?; z?"⟩
      ∧ Template.fill ⟨"\\f", none, [⟨"x", false⟩, ⟨"y", false⟩, ⟨"z", true⟩], "x?; y?; z?"⟩ none
        ["a", "b", "c", "d"] = .ok "a; b; c, d" := by
  let declared : List ArgGroup :=
    [.mk .square [.name "x" .start], .mk .curly [.name "y" .start, .variadic "z" .start]]
  let used : List ArgGroup :=
    [.mk .square [.name "a" .start],
      .mk .curly [.name "b" .start, .name "c" .start, .name "d" .start]]
  have defined : Template.ofDefinition? (writtenAs (.command ["f"] declared .start) "x?; y?; z?")
      = some ⟨"\\f", none, [⟨"x", false⟩, ⟨"y", false⟩, ⟨"z", true⟩], "x?; y?; z?"⟩ := by
    decide +kernel
  have sameSlots : used.map ArgGroup.slot = declared.map ArgGroup.slot := rfl
  have fits : wrongCounts "\\f" used declared = [] := by
    decide +kernel
  have openLast : OpenOnlyLast declared used :=
    ⟨fun _ => .inr rfl, fun _ => .inl rfl, trivial⟩
  refine ⟨defined, ?_⟩
  rw [filled_by_groups defined rfl sameSlots (by decide) fits openLast rfl (.inl (by simp)) none]
  decide +kernel

/-- The shape fits where a group before the last one ends with a variadic parameter, the template
does not. -/
theorem earlier_open_group_fails :
    Template.ofDefinition? (writtenAs
        (.command ["f"] [.mk .square [.variadic "x" .start], .mk .curly [.name "y" .start]] .start)
        "<x?|y?>")
        = some ⟨"\\f", none, [⟨"x", true⟩, ⟨"y", false⟩], "<x?|y?>"⟩
      ∧ wrongCounts "\\f"
        [.mk .square [.name "a" .start, .name "b" .start], .mk .curly [.name "c" .start]]
        [.mk .square [.variadic "x" .start], .mk .curly [.name "y" .start]] = []
      ∧ Template.fill ⟨"\\f", none, [⟨"x", true⟩, ⟨"y", false⟩], "<x?|y?>"⟩ none ["a", "b", "c"]
        = .error (.arityMismatch "\\f" 2 3) := by
  decide +kernel

end Treatise.Expansion
