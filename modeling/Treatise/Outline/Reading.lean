import Treatise.Diagnostic
import Treatise.Outline.Tree
import Treatise.Review

/-!
# Reading outlines

The grammar of outlines follows the block markers of the layout. The content of a line is followed
by a block, which holds the arguments of a section and is empty after any other line.

    items    = (line break | block comment | group)*
    group    = [id open close] section+
    section  = name ":" [targets] open (". " argument)* close
    argument = group | targets open close
    targets  = target ("," target)*

A group inside a group begins with an id or with a name and a colon. It ends where no further
section begins.

A problem ends the group at the outermost level that it occurs in: it is reported, and reading goes
on after the next line break. No rule of a group takes a line break, so nothing of a later group is
lost.
-/

namespace Treatise.Outline

open Layout (Token TokenKind Mark)

/-- The problems of an outline. -/
inductive Fault where
  | unexpectedIndentation
  | unexpectedBlockEnd
  | unexpectedToken (text : String)
  | unexpectedEnd
  | noSectionName
  | noArgument
  | noOpeningBrace
  | noName
  | noCloser (closer : Mark)
  deriving DecidableEq, Repr

/-- What is said about a fault. -/
def Fault.message : Fault → String
  | unexpectedIndentation => "Unexpected indentation"
  | unexpectedBlockEnd => "Unexpected end of block"
  | unexpectedToken text => "Unexpected token " ++ text
  | unexpectedEnd => "Unexpected end of input"
  | noSectionName => "Expected a section name"
  | noArgument => "Expected an argument"
  | noOpeningBrace => "Expected a '\x7b'"
  | noName => "Expected a name"
  | noCloser closer => "Expected a closing " ++ closer.text

/-- The diagnostic of a fault found at a place. -/
def Fault.diagnostic (fault : Located Fault) : Diagnostic :=
  Diagnostic.ofLocated .structural Fault.message fault

/-- A fault and the token it was found at; there is none at the end of the tokens. -/
structure Failure where
  fault : Fault
  token? : Option Token
  deriving DecidableEq, Repr

/-- The beginning of `tokens` read as a value, and the tokens that are left. -/
structure Parsed (α : Type) (tokens : List Token) where
  value : α
  rest : List Token
  shorter : rest.length < tokens.length

/-- A step of reading: it takes at least one token or fails. -/
abbrev Step (α : Type) (tokens : List Token) := Except Failure (Parsed α tokens)

/-- Fails at the first of the tokens that are left. -/
def fail {α : Type} (fault : Fault) (tokens : List Token) : Except Failure α :=
  .error ⟨fault, tokens.head?⟩

/-- What is wrong with a token that no rule takes. -/
def Fault.unexpected (tokens : List Token) : Fault :=
  match tokens with
  | [] => .unexpectedEnd
  | ⟨.blockOpen, _, _⟩ :: _ => .unexpectedIndentation
  | ⟨.blockClose, _, _⟩ :: _ => .unexpectedBlockEnd
  | token :: _ => .unexpectedToken token.text

/-- Fails at a token that no rule takes. -/
def unexpected {α : Type} (tokens : List Token) : Except Failure α :=
  fail (Fault.unexpected tokens) tokens

namespace Parsed

variable {α β : Type}

/-- What is left after one token. -/
def afterOne (value : α) {token : Token} (rest : List Token) : Parsed α (token :: rest) :=
  ⟨value, rest, by simp⟩

/-- The same reading of a longer list of tokens. -/
def widen {part tokens : List Token} (parsed : Parsed α part)
    (shorter : part.length ≤ tokens.length) : Parsed α tokens :=
  ⟨parsed.value, parsed.rest, Nat.lt_of_lt_of_le parsed.shorter shorter⟩

def map (f : α → β) {tokens : List Token} (parsed : Parsed α tokens) : Parsed β tokens :=
  ⟨f parsed.value, parsed.rest, parsed.shorter⟩

end Parsed

/-! ## Tokens and names -/

/-- Takes the marker that opens a block. -/
def blockOpen : (tokens : List Token) → Step Unit tokens
  | ⟨.blockOpen, _, _⟩ :: rest => .ok ⟨(), rest, by simp⟩
  | tokens => unexpected tokens

/-- Takes the empty block at the end of a line. -/
def lineEnd (tokens : List Token) : Step Unit tokens := do
  let ⟨_, rest, shorter⟩ ← blockOpen tokens
  match rest, shorter with
  | ⟨.blockClose, _, _⟩ :: after, shorter => return ⟨(), after, by simp at shorter; omega⟩
  | [], _ => unexpected []
  | rest, _ => fail .unexpectedIndentation rest

def closing (closer : Mark) : (tokens : List Token) → Step Unit tokens
  | [] => fail (.noCloser closer) []
  | token :: rest =>
    if token.isMark closer then .ok ⟨(), rest, by simp⟩ else fail (.noCloser closer) (token :: rest)

/-- Takes one or more names with commas between them. -/
def names : (tokens : List Token) → Step (List Token) tokens
  | ⟨.name, text, location⟩ :: ⟨.mark .comma, _, _⟩ :: rest => do
    let ⟨more, after, shorter⟩ ← names rest
    return ⟨⟨.name, text, location⟩ :: more, after, by simp; omega⟩
  | ⟨.name, text, location⟩ :: rest => return ⟨[⟨.name, text, location⟩], rest, by simp⟩
  | tokens => fail .noName tokens

/-- Takes names up to a closing mark. There may be none. -/
def nameList (closer : Mark) (tokens : List Token) : Step (List Token) tokens :=
  match closing closer tokens with
  | .ok closed => .ok (closed.map fun _ => [])
  | .error _ => do
    let ⟨found, rest, shorter⟩ ← names tokens
    let ⟨_, after, shorter'⟩ ← closing closer rest
    return ⟨found, after, by omega⟩

/-- Takes the parameters in parentheses that may follow a name and its subscript. -/
def appliedTo (name : Token) (sub : Option (List Token)) (tokens rest : List Token)
    (shorter : rest.length < tokens.length) : Step Target tokens :=
  match rest with
  | ⟨.mark .leftParen, _, _⟩ :: inner => do
    let ⟨params, after, shorter'⟩ ← nameList .rightParen inner
    return ⟨.applied name sub (some params), after, by simp at shorter; omega⟩
  | rest => return ⟨.applied name sub none, rest, shorter⟩

/-- Takes the subscript in braces that follows an underscore, and then the parameters. -/
def subscripted (name : Token) : (tokens : List Token) → Step Target tokens
  | ⟨.mark .leftCurly, _, _⟩ :: inner => do
    let ⟨sub, rest, shorter⟩ ← nameList .rightCurly inner
    appliedTo name (some sub) _ rest (by simp; omega)
  | tokens => fail .noOpeningBrace tokens

/-! ## Targets -/

mutual

def target : (tokens : List Token) → Step Target tokens
  | [] => fail .noArgument []
  | token :: rest =>
    match token.kind with
    | .mark .leftParen =>
      match closing .rightParen rest with
      | .ok closed => .ok ((closed.map fun _ => .tuple [] token.location).widen (by simp))
      | .error _ => do
        let ⟨items, inner, shorter⟩ ← targets rest
        let ⟨_, after, shorter'⟩ ← closing .rightParen inner
        return ⟨.tuple items token.location, after, by simp; omega⟩
    | .mark .leftCurly => do
      let ⟨params, after, shorter⟩ ← nameList .rightCurly rest
      return ⟨.enclosed params token.location, after, by simp; omega⟩
    | .name =>
      match rest with
      | ⟨.mark .colonEquals, _, _⟩ :: inner => do
        let ⟨value, after, shorter⟩ ← target inner
        return ⟨.assignment token value, after, by simp; omega⟩
      | ⟨.mark .underscore, _, _⟩ :: inner => do
        let ⟨value, after, shorter⟩ ← subscripted token inner
        return ⟨value, after, by simp; omega⟩
      | ⟨.mark .leftParen, text, location⟩ :: inner =>
        appliedTo token none _ (⟨.mark .leftParen, text, location⟩ :: inner) (by simp)
      | rest => return .afterOne (.single token) rest
    | .operator | .literal .string | .literal .statement | .literal .id =>
      return .afterOne (.single token) rest
    | _ => fail .noArgument (token :: rest)
termination_by tokens => 2 * tokens.length

/-- Takes one or more targets with commas between them. -/
def targets (tokens : List Token) : Step (List Target) tokens := do
  let ⟨first, rest, shorter⟩ ← target tokens
  match rest, shorter with
  | ⟨.mark .comma, _, _⟩ :: inner, shorter =>
    let ⟨more, after, shorter'⟩ ← targets inner
    return ⟨first :: more, after, by simp at shorter; omega⟩
  | rest, shorter => return ⟨[first], rest, shorter⟩
termination_by 2 * tokens.length + 1
decreasing_by
  · omega
  · simp at shorter; omega

end

/-! ## Groups -/

/-- Whether a section begins here: with a name and a colon. -/
def atSection : List Token → Bool
  | ⟨.name, _, _⟩ :: ⟨.mark .colon, _, _⟩ :: _ => true
  | _ => false

/-- Whether a group begins here: with an id, or with its first section. -/
def atGroup : List Token → Bool
  | ⟨.literal .id, _, _⟩ :: _ => true
  | tokens => atSection tokens

/-- Takes the targets that follow the colon of a section on its line, and opens the block. -/
def sectionLine : (tokens : List Token) → Step (List Target) tokens
  | [] => unexpected []
  | ⟨.blockOpen, _, _⟩ :: rest => return ⟨[], rest, by simp⟩
  | tokens => do
    let ⟨inline, rest, shorter⟩ ← targets tokens
    let ⟨_, after, shorter'⟩ ← blockOpen rest
    return ⟨inline, after, by omega⟩

/-- Takes the targets of an argument line. -/
def targetLine (tokens : List Token) : Step (List Argument) tokens := do
  let ⟨found, rest, shorter⟩ ← targets tokens
  let ⟨_, after, shorter'⟩ ← lineEnd rest
  return ⟨found.map .target, after, by omega⟩

mutual

def group : (tokens : List Token) → Step Group tokens
  | ⟨.literal .id, text, location⟩ :: rest => do
    let ⟨_, body, shorter⟩ ← lineEnd rest
    let ⟨sections, after, shorter'⟩ ← sections body
    return ⟨.mk (some ⟨.literal .id, text, location⟩) sections, after, by simp; omega⟩
  | tokens => do
    let ⟨sections, after, shorter⟩ ← sections tokens
    return ⟨.mk none sections, after, shorter⟩
termination_by tokens => 3 * tokens.length + 1

def sections : (tokens : List Token) → Step (List Section) tokens
  | ⟨.name, text, location⟩ :: ⟨.mark .colon, _, _⟩ :: rest => do
    let ⟨inline, body, shorter⟩ ← sectionLine rest
    let ⟨dotted, after, shorter'⟩ ← dottedArguments body
    let found := Section.mk ⟨.name, text, location⟩ (inline.map .target ++ dotted)
    if atSection after then
      let ⟨more, last, shorter''⟩ ← sections after
      return ⟨found :: more, last, by simp; omega⟩
    else
      return ⟨[found], after, by simp; omega⟩
  | tokens => fail .noSectionName tokens
termination_by tokens => 3 * tokens.length

/-- Takes the arguments of a section, each after a dot, and closes the block. -/
def dottedArguments : (tokens : List Token) → Step (List Argument) tokens
  | ⟨.mark .dotSpace, _, _⟩ :: rest => do
    let ⟨first, body, shorter⟩ ← argument rest
    let ⟨more, after, shorter'⟩ ← dottedArguments body
    return ⟨first ++ more, after, by simp; omega⟩
  | ⟨.blockClose, _, _⟩ :: rest => return ⟨[], rest, by simp⟩
  | tokens => unexpected tokens
termination_by tokens => 3 * tokens.length

/-- Takes what follows the dot of an argument. -/
def argument (tokens : List Token) : Step (List Argument) tokens :=
  if atGroup tokens then do
    let ⟨found, after, shorter⟩ ← group tokens
    return ⟨[.group found], after, shorter⟩
  else targetLine tokens
termination_by 3 * tokens.length + 2

end

/-! ## Outlines -/

/-- The tokens from the next line break on. -/
def skip (tokens : List Token) : List Token :=
  tokens.dropWhile fun token => token.kind != .lineBreak

/-- Whether a group at the outermost level may end here. -/
def atBoundary : List Token → Bool
  | [] => true
  | token :: _ => token.kind == .lineBreak || token.kind == .literal .blockComment

theorem length_skip (tokens : List Token) : (skip tokens).length ≤ tokens.length :=
  (List.dropWhile_sublist _).length_le

/-- Reads the items of an outline. `last` is the place of problems at the end of the tokens. -/
def items (last : Location) : List Token → Review Fault (List Item)
  | [] => pure []
  | token :: rest =>
    if token.kind = .lineBreak then items last rest
    else if token.kind = .literal .blockComment then do
      let more ← items last rest
      return .comment token :: more
    else
      match group (token :: rest) with
      | .error failure => do
        Review.report ((failure.token?.map Token.location).getD last) failure.fault
        items last (skip rest)
      | .ok ⟨found, after, _⟩ =>
        if atBoundary after then do
          let more ← items last after
          return .group found :: more
        else do
          Review.report ((after.head?.map Token.location).getD last) (Fault.unexpected after)
          let more ← items last (skip after)
          return .group found :: more
termination_by tokens => tokens.length
decreasing_by
  · simp
  · simp
  · have := length_skip rest; simp; omega
  · simp_all
  · have := length_skip after; simp_all; omega

/-- Reads tokens as an outline. The problems are in the order they are met. -/
def read (tokens : List Token) : Review Fault (List Item) :=
  items ((tokens.getLast?.map Token.location).getD .start) tokens

end Treatise.Outline
