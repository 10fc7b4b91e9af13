import Treatise.Expansion.Inlining
import Treatise.Proofs.Statement.Substitution
import Treatise.Proofs.Table
import Treatise.Statement.Reading

/-!
# What inlining says

A statement that a thing is something is inlined by what the definition says, with the thing in the
place of the name by which the definition speaks of it and the arguments in the places of the
parameters. If these names differ from each other, it does not matter in which order they are
replaced.

Main statement: the result is what the definition says with these names replaced, all at once. A
node of the result that mentions one of the names lies in the thing or in an argument, or is called
like one of them, or is one of two places of the definition that are passed over: a variadic name,
and the name of a function in whose place there is no name to put.
-/

namespace Treatise.Expansion

open Statement (Expr)
open Statement.Expr (Replaced Within)

/-- The names by which a definition speaks of its thing and of its parameters. -/
def Body.locals (body : Body) : List String :=
  body.target.toList ++ body.params

/-- What the names of a definition stand for when a thing and arguments are given. -/
inductive StandsFor (body : Body) (thing : Expr) (given : List Expr) : String → Expr → Prop
  | target {word : String} (speaks : body.target = some word) :
      StandsFor body thing given word (spliced thing)
  | param {word : String} {argument : Expr} (placed : (word, argument) ∈ body.params.zip given) :
      StandsFor body thing given word (spliced argument)

/-- Where inlining passes over a name of the definition. -/
inductive PassedOver (body : Body) (thing : Expr) (given : List Expr) : String → Prop
  | variadic {word : String} {location : Location}
      (inside : Within Expr.parts (.variadic word location) body.expr) :
      PassedOver body thing given word
  | function {word : String} {node : Expr} (inside : Within Expr.parts node body.expr)
      (applies : node.applied? = some word)
      (nameless : ∀ other location, ¬ StandsFor body thing given word (.name other location)) :
      PassedOver body thing given word

theorem mentioned?_eq_some_iff {expr : Expr} {word : String} :
    expr.mentioned? = some word ↔ expr.name? = some word
      ∨ (∃ location, expr = .variadic word location) ∨ expr.applied? = some word := by
  cases expr with
  | call isCommand => cases isCommand <;> simp [Expr.mentioned?, Expr.name?, Expr.applied?]
  | _ => simp [Expr.mentioned?, Expr.name?, Expr.applied?]

section Bodies

variable {body : Body} {thing : Expr} {given : List Expr}

theorem mem_replacement_iff {word : String} {expr : Expr} :
    (word, expr) ∈ body.replacement thing given ↔ StandsFor body thing given word expr := by
  have split : (word, expr) ∈ body.replacement thing given
      ↔ (body.target = some word ∧ expr = spliced thing)
        ∨ ∃ argument, (word, argument) ∈ body.params.zip given ∧ expr = spliced argument := by
    simp only [Body.replacement, List.mem_append, List.mem_map, Option.mem_toList, List.mem_reverse,
      List.zip_map_right, Prod.mk.injEq, Prod.exists, Prod.map, id_eq]
    constructor
    · rintro (⟨_, speaks, rfl, rfl⟩ | ⟨_, argument, placed, rfl, rfl⟩)
      · exact .inl ⟨speaks, rfl⟩
      · exact .inr ⟨argument, placed, rfl⟩
    · rintro (⟨speaks, rfl⟩ | ⟨argument, placed, rfl⟩)
      · exact .inl ⟨word, speaks, rfl, rfl⟩
      · exact .inr ⟨word, argument, placed, rfl, rfl⟩
  rw [split]
  constructor
  · rintro (⟨speaks, rfl⟩ | ⟨argument, placed, rfl⟩)
    · exact .target speaks
    · exact .param placed
  · intro stands
    cases stands with
    | target speaks => exact .inl ⟨speaks, rfl⟩
    | param placed => exact .inr ⟨_, placed, rfl⟩

/-- Every name of the definition stands for something if there are as many arguments as
parameters. -/
theorem exists_standsFor (fits : given.length = body.params.length) {word : String}
    (speaks : word ∈ body.locals) : ∃ expr, StandsFor body thing given word expr := by
  rcases List.mem_append.mp speaks with target | param
  · exact ⟨_, .target (Option.mem_toList.mp target)⟩
  · rcases List.getElem_of_mem param with ⟨index, bound, rfl⟩
    have bound' : index < given.length := by omega
    have placed : (body.params[index], given[index]) ∈ body.params.zip given := by
      apply List.mem_iff_getElem.mpr
      exact ⟨index, by simp [bound, bound'], by simp⟩
    exact ⟨_, .param placed⟩

/-- Names that differ from each other are replaced by what they stand for. -/
theorem gives_replacement (distinct : body.locals.Nodup)
    (fits : given.length = body.params.length) :
    Expr.Gives (body.replacement thing given) (StandsFor body thing given) := by
  have keys : ((body.replacement thing given).map Prod.fst).Nodup := by
    have same : (body.replacement thing given).map Prod.fst
        = body.target.toList ++ body.params.reverse := by
      have zipped : (body.params.zip (given.map spliced)).map Prod.fst = body.params := by
        rw [List.map_fst_zip]
        simp [fits]
      rw [Body.replacement, List.map_append, List.map_reverse, zipped, List.map_map]
      simp [Function.comp_def]
    rw [same]
    exact ((List.reverse_perm body.params).append_left _).nodup_iff.mpr distinct
  intro word expr
  rw [← mem_replacement_iff]
  exact lookup_eq_some_iff_mem keys

/-- A node of what the definition says that is kept and then mentions one of its names. -/
theorem named_or_passedOver {replacement : Statement.Replacement}
    (gives : Expr.Gives replacement (StandsFor body thing given))
    (fits : given.length = body.params.length) {kept : Expr} {word : String}
    (inside : Within Expr.parts kept body.expr)
    (stays : ∀ other, ¬ Expr.IsReplaced replacement kept other)
    (mentions : (kept.substitute replacement).mentioned? = some word)
    (speaks : word ∈ body.locals) :
    ((kept.substitute replacement).applied? = some word
        ∧ ∃ name location, StandsFor body thing given name (.name word location))
      ∨ PassedOver body thing given word := by
  rw [Expr.substitute_of_kept stays] at mentions ⊢
  rcases mentioned?_eq_some_iff.mp mentions with isName | ⟨location, isVariadic⟩ | applies
  · -- A name that stands for something is replaced.
    obtain ⟨expr, stands⟩ : ∃ expr, StandsFor body thing given word expr :=
      exists_standsFor fits speaks
    have plain : kept.name? = some word := by
      cases kept <;> exact isName
    exact absurd (gives.isReplaced_iff.mpr ⟨word, plain, stands⟩) (stays expr)
  · right
    have plain : kept = .variadic word location := by
      cases kept <;> cases isVariadic
      rfl
    exact .variadic (plain ▸ inside)
  · rw [Expr.applied?_mapNode] at applies ⊢
    rcases Option.map_eq_some_iff.mp applies with ⟨before, applied, renamed⟩
    rcases gives.renamed_iff.mpr renamed.symm with ⟨location, stands⟩ | ⟨rfl, nameless⟩
    · exact .inl ⟨applies, before, location, stands⟩
    · exact .inr (.function inside applied nameless)

end Bodies

/-- A statement `thing is something` is inlined if there are as many arguments as parameters, and
the result is what the definition says with its names replaced. What mentions one of the names in
the result lies in the thing or in an argument, or is a function called like one of them, or was
passed over. -/
theorem inlined_iff_replaced {bodies : Table Body} {thing something : Expr} {location : Location}
    {signature : String} {body : Body} (signed : something.signature? = some signature)
    (known : bodies.find? signature = some body) (distinct : body.locals.Nodup) (result : Expr) :
    (inline? bodies (.relation .isA [thing] [something] location) = some result
        ↔ (arguments something).length = body.params.length
          ∧ Replaced (StandsFor body thing (arguments something)) body.expr result)
      ∧ (inline? bodies (.relation .isA [thing] [something] location) = some result →
        ∀ node word, Within Expr.parts node result → node.mentioned? = some word →
          word ∈ body.locals →
          (∃ name expr, StandsFor body thing (arguments something) name expr
            ∧ (Within Expr.parts node expr
              ∨ node.applied? = some word ∧ ∃ location, expr = .name word location))
          ∨ PassedOver body thing (arguments something) word) := by
  have unfolds : inline? bodies (.relation .isA [thing] [something] location) = some result
      ↔ (arguments something).length = body.params.length
        ∧ body.expr.substitute (body.replacement thing (arguments something)) = result := by
    simp [inline?, signed, known]
  constructor
  · rw [unfolds]
    apply and_congr_right
    intro fits
    rw [(gives_replacement distinct fits).replaced_iff, eq_comm]
  · intro inlined node word within mentions speaks
    rcases unfolds.mp inlined with ⟨fits, rfl⟩
    have gives : Expr.Gives (body.replacement thing (arguments something))
        (StandsFor body thing (arguments something)) :=
      gives_replacement distinct fits
    rcases Expr.within_substitute within with ⟨name, expr, found, inside⟩
      | ⟨kept, inside, stays, rfl⟩
    · exact .inl ⟨name, expr, (gives name expr).mp found, .inl inside⟩
    · rcases named_or_passedOver gives fits inside stays mentions speaks with
        ⟨applies, name, place, stands⟩ | passed
      · exact .inl ⟨name, _, stands, .inr ⟨applies, place, rfl⟩⟩
      · exact .inr passed

/-- The thing and the name of a function are replaced, and a compound argument gets parentheses. -/
theorem function_and_thing_inlined :
    ∃ result, inline? (Table.empty.insert "\\sub.of"
          ⟨some "S", ["X", "f"], (Statement.read "f(S) in \\power\x7bX\x7d").value⟩)
        (.relation .isA [.name "A" .start]
          [(Statement.read "\\sub.of\x7bb + c, g\x7d").value] .start)
        = some result
      ∧ result.code = "g(A) in \\power\x7b(b + c)\x7d"
      ∧ Replaced
        (StandsFor ⟨some "S", ["X", "f"], (Statement.read "f(S) in \\power\x7bX\x7d").value⟩
          (.name "A" .start) (arguments (Statement.read "\\sub.of\x7bb + c, g\x7d").value))
        (Statement.read "f(S) in \\power\x7bX\x7d").value result := by
  have signed : (Statement.read "\\sub.of\x7bb + c, g\x7d").value.signature? = some "\\sub.of" := by
    decide +kernel
  have known : (Table.empty.insert "\\sub.of"
      (⟨some "S", ["X", "f"], (Statement.read "f(S) in \\power\x7bX\x7d").value⟩ : Body)).find?
        "\\sub.of"
        = some ⟨some "S", ["X", "f"], (Statement.read "f(S) in \\power\x7bX\x7d").value⟩ :=
    Table.find?_insert_self ..
  have written : (inline? (Table.empty.insert "\\sub.of"
        ⟨some "S", ["X", "f"], (Statement.read "f(S) in \\power\x7bX\x7d").value⟩)
      (.relation .isA [.name "A" .start] [(Statement.read "\\sub.of\x7bb + c, g\x7d").value]
        .start)).map Expr.code = some "g(A) in \\power\x7b(b + c)\x7d" := by
    decide +kernel
  rcases Option.map_eq_some_iff.mp written with ⟨result, inlined, code⟩
  have exact :=
    @inlined_iff_replaced _ (.name "A" .start) _ .start _ _ signed known (by decide) result
  exact ⟨result, inlined, code, (exact.1.mp inlined).2⟩

/-- A variadic parameter is not replaced by a variadic argument. -/
theorem variadic_name_passed_over :
    (inline?
      (Table.empty.insert "\\D" ⟨some "d", ["x"], (Statement.read "d is \\E\x7bx...\x7d").value⟩)
        (Statement.read "y is \\D\x7bz...\x7d").value).map
          (fun result => (result.code, result.mentionedNames))
        = some ("y is \\E\x7bx...\x7d", ["y", "x"])
      ∧ (Statement.read "y is \\D\x7bz...\x7d").value.mentionedNames = ["y", "z"] := by
  decide +kernel

end Treatise.Expansion
