import Treatise.Proofs.Expansion.Marks
import Treatise.Proofs.Expansion.Positions

/-!
# What abbreviations mean

The template of an abbreviation is its right side, rendered with marks in the places of the
parameters. Words that are given to the abbreviation are filled into these marks.

Main statement: an abbreviation is written as its right side is when the words stand in the places
of the parameters, as long as nothing in the right side or in its templates interferes with marks.
-/

namespace Treatise.Expansion

open Statement (Expr Replacement)

/-- An expression that is a name. -/
def IsName (expr : Expr) (word : String) : Prop :=
  ∃ location, expr = .name word location

theorem forall₂_isName {items : List Expr} {words : List String}
    (names : items.map Expr.name? = words.map some) : List.Forall₂ IsName items words := by
  rw [← List.forall₂_eq_eq_eq, List.forall₂_map_left_iff, List.forall₂_map_right_iff] at names
  apply names.imp
  intro expr word same
  cases expr with
  | name other location =>
      cases same
      exact ⟨location, rfl⟩
  | _ => cases same

theorem paramNames_of_isName {items : List Expr} {words : List String}
    (names : List.Forall₂ IsName items words) : paramNames items = words := by
  induction names with
  | nil => rfl
  | cons here _ ih =>
      rcases here with ⟨location, rfl⟩
      exact congrArg _ ih

theorem exists_word_of_mem {items : List Expr} {words : List String}
    (names : List.Forall₂ IsName items words) {item : Expr} (member : item ∈ items) :
    ∃ word, IsName item word := by
  rcases List.getElem_of_mem member with ⟨index, bound, rfl⟩
  exact ⟨_, names.get bound (names.length_eq ▸ bound)⟩

theorem exists_mem_of_word {items : List Expr} {words : List String}
    (names : List.Forall₂ IsName items words) {word : String} (member : word ∈ words) :
    ∃ item ∈ items, IsName item word := by
  rcases List.getElem_of_mem member with ⟨index, bound, rfl⟩
  have bound' : index < items.length := names.length_eq ▸ bound
  exact ⟨items[index], List.getElem_mem bound', names.get bound' bound⟩

/-- The arguments of a legible expression that are names are words. -/
theorem lexical_of_isName {expr : Expr} {words : List String} (legible : expr.Legible)
    (names : List.Forall₂ IsName (arguments expr) words) :
    ∀ word ∈ words, Statement.Lexical .name word.toList := by
  intro word member
  rcases exists_mem_of_word names member with ⟨item, itemMem, location, rfl⟩
  exact legible.part (arguments_subset_parts expr itemMem) _ (.head _)

theorem endsVariadic_of_isName {items : List Expr} {words : List String}
    (names : List.Forall₂ IsName items words) : endsVariadic items = false := by
  unfold endsVariadic
  split
  · next last =>
    rcases exists_word_of_mem names (List.mem_of_getLast? last) with ⟨_, _, same⟩
    cases same
  · rfl

theorem renderEnclosed_of_isName {templates : Table Template} {items : List Expr}
    {words : List String} (names : List.Forall₂ IsName items words)
    (unknown : ∀ word ∈ words, templates.find? word = none) :
    renderEnclosed templates items = .ok words := by
  induction names with
  | nil => rfl
  | cons here _ ih =>
      rw [List.forall_mem_cons] at unknown
      rcases here with ⟨location, rfl⟩
      rw [renderEnclosed, render, unknown.1, ih unknown.2]
      rfl

/-- What a hole is filled with, where the holes of some names are filled. -/
def answer (bound : List (String × String)) (name : String) : List Char :=
  match bound.lookup name with
  | some text => text.toList
  | none => name.toList ++ ['?']

/-- Parameters are replaced by marks, and by the words that are given for them. -/
theorem marking_of_names {templates : Table Template} {params given : List String}
    {arguments : List Expr} (names : List.Forall₂ IsName arguments given)
    (length : given.length = params.length) (distinct : params.Nodup)
    (words : ∀ param ∈ params, Statement.Lexical .name param.toList)
    (unknown : ∀ word ∈ given, templates.find? word = none)
    (unmarked : ∀ param ∈ params, templates.find? (param ++ "?") = none) :
    Marking templates (answer (params.zip given)) params (params.zip (params.map hole))
      (params.zip arguments) where
  word param member := (words param member).letters
  marked param member := by
    rcases List.getElem_of_mem member with ⟨index, bound, rfl⟩
    rw [Replacement.find?, lookup_zip distinct (List.length_map ..) bound, List.getElem_map]
  unmarked := unmarked
  used param member := by
    rcases List.getElem_of_mem member with ⟨index, bound, rfl⟩
    have bound' : index < given.length := by omega
    have long := names.length_eq
    rcases names.get (long ▸ bound') bound' with ⟨location, same⟩
    refine ⟨given[index], location, ?_, ?_, unknown _ (List.getElem_mem bound')⟩
    · rw [Replacement.find?, lookup_zip distinct (long.trans length) bound]
      exact congrArg some same
    · rw [answer, lookup_zip distinct length bound]
  other name absent := by
    rw [Replacement.find?, Replacement.find?, answer, lookup_zip_eq_none absent,
      lookup_zip_eq_none absent, lookup_zip_eq_none absent]
    exact ⟨rfl, rfl, rfl⟩

/-- An abbreviation is filled with as many words as it has parameters. -/
theorem fill_abbreviation {signature marked text : String} {declared : List Expr}
    {params given : List String} (names : List.Forall₂ IsName declared params)
    (distinct : params.Nodup) (length : given.length = params.length)
    (becomes : BecomesText (answer (params.zip given)) marked text) :
    (Template.abbreviation signature (declared.map Param.ofExpr) marked).fill none given
      = .ok text := by
  have long := names.length_eq
  have fits : Corpus.accepts declared given.length = true := by
    rw [accepts_iff, endsVariadic_of_isName names, if_neg (by decide), long, length]
  have asked : given ≠ []
      ∨ (Template.abbreviation signature (declared.map Param.ofExpr) marked).usesParams
        = false := by
    rcases eq_or_ne given [] with rfl | some
    · right
      have none : declared = [] := List.eq_nil_of_length_eq_zero (long.trans length.symm)
      simp [Template.usesParams, Template.abbreviation, none]
    · exact .inl some
  have keys : ((params.zip given).map Prod.fst).Nodup := by
    rw [List.map_fst_zip length.ge]
    exact distinct
  rw [fill_eq_taken rfl fits asked, Template.flatMap_fillPart,
    taken_eq_zip (length.trans long.symm), paramNames_of_isName names]
  have content : (Template.abbreviation signature (declared.map Param.ofExpr) marked).inHole none
      (params.zip given).reverse = answer (params.zip given) := by
    funext name
    rw [Template.inHole, Template.fillPart, if_neg (by simp [Template.abbreviation]),
      lookup_reverse keys]
    cases found : (params.zip given).lookup name <;> simp [answer, found]
  rw [content]
  exact congrArg Except.ok (String.toList_inj.mp (String.toList_ofList.trans becomes))

/-- A signature that can be abbreviated begins with a backslash. -/
theorem exists_of_aliasSignature? {expr : Expr} {signature : String}
    (signed : aliasSignature? expr = some signature) : ∃ rest, signature = "\\" ++ rest := by
  cases expr with
  | command names groups location =>
      cases signed
      exact ⟨_, String.append_assoc⟩
  | call isCommand word groups location =>
      cases isCommand with
      | true =>
          cases signed
          exact ⟨word, rfl⟩
      | false => cases signed
  | _ => cases signed

theorem ne_signature_of_lexical {expr : Expr} {signature word : String}
    (signed : aliasSignature? expr = some signature)
    (spelled : Statement.Lexical .name word.toList) : word ≠ signature := by
  rintro rfl
  rcases exists_of_aliasSignature? signed with ⟨rest, rfl⟩
  have letter := spelled.letters.2 '\\' (by simp)
  revert letter
  decide

/-- Words that are given to an abbreviation are written as they are. -/
theorem render_abbreviation {templates : Table Template} {use : Expr} {signature : String}
    {template : Template} {given : List String} (refers : aliasSignature? use = some signature)
    (known : templates.find? signature = some template)
    (names : List.Forall₂ IsName (arguments use) given)
    (unknown : ∀ word ∈ given, templates.find? word = none) :
    render templates use = template.fill none given := by
  have rendered := renderEnclosed_of_isName names unknown
  cases use with
  | command words groups location =>
      cases refers
      rw [render, known]
      dsimp only
      rw [renderArguments_eq]
      exact congrArg (· >>= template.fill none) rendered
  | call isCommand word groups location =>
      cases isCommand with
      | true =>
          cases refers
          rw [render, known]
          dsimp only
          rw [renderArguments_eq]
          exact congrArg (· >>= template.fill none) rendered
      | false => cases refers
  | _ => cases refers

/-- An abbreviation is written as its right side is when the arguments stand in the places of the
parameters. -/
theorem alias_written_as_right {engine : Engine} {section_ : Document.Clauses}
    {left right use : Expr} {signature : String} {params given : List String}
    (assigned : assignments section_ = [(left, right)])
    (signed : aliasSignature? left = some signature) (refers : aliasSignature? use = some signature)
    (declares : (arguments left).map Expr.name? = params.map some)
    (gives : (arguments use).map Expr.name? = given.map some)
    (length : given.length = params.length) (distinct : params.Nodup)
    (legible : left.Legible ∧ use.Legible)
    (unknown : ∀ word ∈ given, engine.templates.find? word = none)
    (unmarked : ∀ param ∈ params, engine.templates.find? (param ++ "?") = none)
    (clear : Clear engine.templates params (params.zip (arguments use)) right) {text : String}
    (written : engine.written (right.substitute (params.zip (arguments use))) = .ok text) :
    (engine.withAliases [section_]).written use = .ok text := by
  have declared := forall₂_isName declares
  have names := forall₂_isName gives
  have words := lexical_of_isName legible.1 declared
  have marking := marking_of_names names length distinct words unknown unmarked
  rcases rendersAlike marking clear text written with ⟨marked, rendered, becomes⟩
  have aliases : engine.aliases left right
      = [.abbreviation signature (Expansion.params left) marked] := by
    have marks : (Expansion.params left).map (fun param => (param.name, hole param.name))
        = params.zip (params.map hole) := by
      rw [← List.map_prod_left_eq_zip, Expansion.params, List.map_map,
        ← paramNames_of_isName declared, paramNames, List.map_map]
      rfl
    simp only [Engine.aliases, signed, marks, Engine.aliasText, Engine.written, rendered]
  have added : (engine.withAliases [section_]).templates
      = engine.templates.insert signature
        (.abbreviation signature (Expansion.params left) marked) := by
    simp [Engine.withAliases, Engine.addAliases, assigned, aliases, Engine.addTemplate,
      Template.abbreviation]
  have still : ∀ word ∈ given, (engine.withAliases [section_]).templates.find? word = none := by
    intro word member
    have other := ne_signature_of_lexical refers (lexical_of_isName legible.2 names word member)
    rw [added, Table.find?_insert, if_neg other]
    exact unknown word member
  have known : (engine.withAliases [section_]).templates.find? signature
      = some (.abbreviation signature (Expansion.params left) marked) := by
    rw [added, Table.find?_insert_self]
  rw [Engine.written, render_abbreviation refers known names still]
  exact fill_abbreviation declared distinct length becomes

/-- A section with one abbreviation. -/
def abbreviating (left right : Expr) : Document.Clauses :=
  .mk [.formula ⟨"", .ok (.assignment left right .start), .start⟩] .start

/-- An engine with one template. -/
def Engine.ofTemplate (template : Template) : Engine :=
  (Engine.empty defaultMaxIterations).addTemplate template

/-- The parameters of an abbreviation are marks within the template of its right side. -/
theorem swapped_arguments_written :
    ((Engine.ofTemplate ⟨"\\g", none, [⟨"a", false⟩, ⟨"b", false⟩], "(a? | b?)"⟩).withAliases
        [abbreviating (Statement.read "\\f\x7bx, y\x7d").value
          (Statement.read "\\g\x7by, x\x7d").value]).written
      (Statement.read "\\f\x7bp, q\x7d").value = .ok "(q | p)" := by
  let template : Template := ⟨"\\g", none, [⟨"a", false⟩, ⟨"b", false⟩], "(a? | b?)"⟩
  let left := (Statement.read "\\f\x7bx, y\x7d").value
  let right := (Statement.read "\\g\x7by, x\x7d").value
  let use := (Statement.read "\\f\x7bp, q\x7d").value
  have signed : aliasSignature? left = some "\\f" := by decide +kernel
  have refers : aliasSignature? use = some "\\f" := by decide +kernel
  have written : (Engine.ofTemplate template).written
      (right.substitute (["x", "y"].zip (arguments use))) = .ok "(q | p)" := by
    decide +kernel
  have declares : (arguments left).map Expr.name? = ["x", "y"].map some := by decide +kernel
  have gives : (arguments use).map Expr.name? = ["p", "q"].map some := by decide +kernel
  have legible : left.Legible ∧ use.Legible :=
    ⟨Statement.legible_of_read (by decide +kernel), Statement.legible_of_read (by decide +kernel)⟩
  have unknown : ∀ word ∈ ["p", "q"], (Engine.ofTemplate template).templates.find? word = none := by
    decide
  have unmarked : ∀ param ∈ ["x", "y"],
      (Engine.ofTemplate template).templates.find? (param ++ "?") = none := by
    decide
  have leaves : (right.parts.all fun part => part.name?.isSome && part.parts.isEmpty) = true := by
    decide +kernel
  have clear : Clear (Engine.ofTemplate template).templates ["x", "y"]
      (["x", "y"].zip (arguments use)) right := by
    refine ⟨Statement.legible_of_read (by decide +kernel), ?_, ?_⟩
    · intro text location within
      rcases Expr.within_iff.mp within with same | ⟨part, member, inPart⟩
      · have signed : right.signature? = some "\\g" := by decide +kernel
        rw [← same] at signed
        cases signed
      · have leaf := List.all_eq_true.mp leaves part member
        rw [Bool.and_eq_true, List.isEmpty_iff] at leaf
        rcases Expr.within_iff.mp inPart with rfl | ⟨below, belowMem, -⟩
        · cases leaf.1
        · rw [leaf.2] at belowMem
          cases belowMem
    · intro node found _ written
      rcases exists_find?_of_templateOf? written with ⟨signature, known⟩
      rw [Engine.ofTemplate, Engine.addTemplate, Table.find?_insert] at known
      split_ifs at known
      · cases known
        exact ⟨by decide, by decide⟩
      · cases known
  exact alias_written_as_right rfl signed refers declares gives rfl (by decide) legible unknown
    unmarked
    clear written

/-- A mark that comes to stand behind a letter is part of another hole. -/
theorem merged_mark_left_open :
    (Engine.ofTemplate ⟨"\\times", none, [⟨"a", false⟩, ⟨"b", false⟩], "a?b?"⟩).written
        ((Statement.read "\\times\x7bc, x\x7d").value.substitute
          (["x"].zip (arguments (Statement.read "\\f\x7by\x7d").value))) = .ok "cy"
      ∧ ((Engine.ofTemplate ⟨"\\times", none, [⟨"a", false⟩, ⟨"b", false⟩], "a?b?"⟩).withAliases
          [abbreviating (Statement.read "\\f\x7bx\x7d").value
            (Statement.read "\\times\x7bc, x\x7d").value]).written
        (Statement.read "\\f\x7by\x7d").value = .ok "cx?" := by
  decide +kernel

end Treatise.Expansion
