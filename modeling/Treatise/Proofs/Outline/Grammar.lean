import Treatise.Outline.Reading

/-!
# The grammar of outlines

The grammar says which tokens spell which part of an outline. It does not say how the tokens are
taken apart, and it looks at their kinds only: when the places of the tokens change, the same
grammar rules spell the same outline with its places changed, and the other way round.
-/

namespace Treatise.Outline

open Layout (Token TokenKind Mark)

/-! ## Spelling -/

/-- One or more names with commas between them. -/
inductive NamesSpelled : List Token → List Token → Prop
  | one {name : Token} (isName : name.kind = .name) : NamesSpelled [name] [name]
  | more {name comma : Token} {names tokens : List Token} (isName : name.kind = .name)
      (isComma : comma.kind = .mark .comma) (others : NamesSpelled names tokens) :
      NamesSpelled (name :: names) (name :: comma :: tokens)

/-- Names with commas between them between two marks. There may be none. -/
inductive Enclosed (opener closer : Mark) : List Token → List Token → Prop
  | empty {opening closing : Token} (opens : opening.kind = .mark opener)
      (closes : closing.kind = .mark closer) : Enclosed opener closer [] [opening, closing]
  | names {opening closing : Token} {names tokens : List Token}
    (opens : opening.kind = .mark opener)
      (spelled : NamesSpelled names tokens) (closes : closing.kind = .mark closer) :
      Enclosed opener closer names (opening :: tokens ++ [closing])

/-- A token that is a target of its own. -/
def Single (token : Token) : Prop :=
  token.kind = .name ∨ token.kind = .operator ∨ token.kind = .literal .string
    ∨ token.kind = .literal .statement ∨ token.kind = .literal .id

mutual

/-- The tokens of a target. -/
inductive Target.Spelled : Target → List Token → Prop
  | single {token : Token} (alone : Single token) : Target.Spelled (.single token) [token]
  | enclosed {opening : Token} {params tokens : List Token}
      (spelled : Enclosed .leftCurly .rightCurly params (opening :: tokens)) :
      Target.Spelled (.enclosed params opening.location) (opening :: tokens)
  | assignment {name equals : Token} {value : Target} {tokens : List Token}
      (isName : name.kind = .name) (isEquals : equals.kind = .mark .colonEquals)
      (spelled : Target.Spelled value tokens) :
      Target.Spelled (.assignment name value) (name :: equals :: tokens)
  | applied {name : Token} {params tokens : List Token} (isName : name.kind = .name)
      (spelled : Enclosed .leftParen .rightParen params tokens) :
      Target.Spelled (.applied name none (some params)) (name :: tokens)
  | subscripted {name underscore : Token} {sub tokens : List Token} (isName : name.kind = .name)
      (isUnderscore : underscore.kind = .mark .underscore)
      (spelled : Enclosed .leftCurly .rightCurly sub tokens) :
      Target.Spelled (.applied name (some sub) none) (name :: underscore :: tokens)
  | subscriptedApplied {name underscore : Token} {sub params tokens others : List Token}
      (isName : name.kind = .name) (isUnderscore : underscore.kind = .mark .underscore)
      (spelled : Enclosed .leftCurly .rightCurly sub tokens)
      (spelledParams : Enclosed .leftParen .rightParen params others) :
      Target.Spelled (.applied name (some sub) (some params))
        (name :: underscore :: tokens ++ others)
  | emptyTuple {opening closing : Token} (opens : opening.kind = .mark .leftParen)
      (closes : closing.kind = .mark .rightParen) :
      Target.Spelled (.tuple [] opening.location) [opening, closing]
  | tuple {opening closing : Token} {items : List Target} {tokens : List Token}
      (opens : opening.kind = .mark .leftParen) (spelled : TargetsSpelled items tokens)
      (closes : closing.kind = .mark .rightParen) :
      Target.Spelled (.tuple items opening.location) (opening :: tokens ++ [closing])

/-- The tokens of one or more targets with commas between them. -/
inductive TargetsSpelled : List Target → List Token → Prop
  | one {target : Target} {tokens : List Token} (spelled : Target.Spelled target tokens) :
      TargetsSpelled [target] tokens
  | more {target : Target} {comma : Token} {targets : List Target} {tokens others : List Token}
      (spelled : Target.Spelled target tokens) (isComma : comma.kind = .mark .comma)
      (more : TargetsSpelled targets others) :
      TargetsSpelled (target :: targets) (tokens ++ comma :: others)

end

/-- The tokens of the targets that stand on the line of a section. There may be none. -/
inductive InlineSpelled : List Target → List Token → Prop
  | none : InlineSpelled [] []
  | some {targets : List Target} {tokens : List Token} (spelled : TargetsSpelled targets tokens) :
      InlineSpelled targets tokens

/-- The tokens do not begin with a token of one of the kinds. -/
def NotAt (kinds : List TokenKind) (tokens : List Token) : Prop :=
  ∀ first ∈ tokens.head?, first.kind ∉ kinds

@[simp]
theorem notAt_nil (kinds : List TokenKind) : NotAt kinds [] := by
  simp [NotAt]

@[simp]
theorem notAt_cons (kinds : List TokenKind) (first : Token) (rest : List Token) :
    NotAt kinds (first :: rest) ↔ first.kind ∉ kinds := by
  simp [NotAt]

mutual

/-- The tokens of a group. -/
inductive Group.Spelled : Group → List Token → Prop
  | plain {sections : List Section} {tokens : List Token}
    (spelled : SectionsSpelled sections tokens) :
      Group.Spelled (.mk none sections) tokens
  | tagged {id opening closing : Token} {sections : List Section} {tokens : List Token}
      (isId : id.kind = .literal .id) (opens : opening.kind = .blockOpen)
      (closes : closing.kind = .blockClose) (spelled : SectionsSpelled sections tokens) :
      Group.Spelled (.mk (some id) sections) (id :: opening :: closing :: tokens)

/-- The tokens of one or more sections. -/
inductive SectionsSpelled : List Section → List Token → Prop
  | one {part : Section} {tokens : List Token} (spelled : Section.Spelled part tokens) :
      SectionsSpelled [part] tokens
  | more {part : Section} {parts : List Section} {tokens others : List Token}
      (spelled : Section.Spelled part tokens) (more : SectionsSpelled parts others) :
      SectionsSpelled (part :: parts) (tokens ++ others)

/-- The tokens of a section. -/
inductive Section.Spelled : Section → List Token → Prop
  | mk {name colon opening closing : Token} {inline : List Target} {arguments : List Argument}
      {tokens dotted : List Token} (isName : name.kind = .name)
      (isColon : colon.kind = .mark .colon) (spelledInline : InlineSpelled inline tokens)
      (opens : opening.kind = .blockOpen) (spelled : ArgumentsSpelled arguments dotted)
      (closes : closing.kind = .blockClose) :
      Section.Spelled (.mk name (inline.map .target ++ arguments))
        (name :: colon :: tokens ++ opening :: dotted ++ [closing])

/-- The tokens of arguments, each line of which begins with a dot. -/
inductive ArgumentsSpelled : List Argument → List Token → Prop
  | none : ArgumentsSpelled [] []
  | group {dot : Token} {group : Group} {arguments : List Argument} {tokens others : List Token}
      (isDot : dot.kind = .mark .dotSpace) (spelled : Group.Spelled group tokens)
      (more : ArgumentsSpelled arguments others) :
      ArgumentsSpelled (.group group :: arguments) (dot :: tokens ++ others)
  | targets {dot opening closing : Token} {targets : List Target} {arguments : List Argument}
      {tokens others : List Token} (isDot : dot.kind = .mark .dotSpace)
      (spelled : TargetsSpelled targets tokens) (untagged : NotAt [.literal .id] tokens)
      (opens : opening.kind = .blockOpen) (closes : closing.kind = .blockClose)
      (more : ArgumentsSpelled arguments others) :
      ArgumentsSpelled (targets.map .target ++ arguments)
        (dot :: tokens ++ opening :: closing :: others)

end

/-- The tokens of the items of an outline. -/
inductive ItemsSpelled : List Item → List Token → Prop
  | none : ItemsSpelled [] []
  | lineBreak {mark : Token} {items : List Item} {tokens : List Token}
      (isBreak : mark.kind = .lineBreak) (more : ItemsSpelled items tokens) :
      ItemsSpelled items (mark :: tokens)
  | comment {comment : Token} {items : List Item} {tokens : List Token}
      (isComment : comment.kind = .literal .blockComment) (more : ItemsSpelled items tokens) :
      ItemsSpelled (.comment comment :: items) (comment :: tokens)
  | group {group : Group} {items : List Item} {tokens others : List Token}
      (spelled : Group.Spelled group tokens) (ends : atBoundary others = true)
      (more : ItemsSpelled items others) :
      ItemsSpelled (.group group :: items) (tokens ++ others)

end Treatise.Outline
