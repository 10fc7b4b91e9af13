import Treatise.Review
import Treatise.Statement.Token

/-!
# Bracketing

The tokens of a statement are grouped by their brackets. A closing bracket closes the innermost
open bracket of its kind, and the brackets opened in between stay without a closing one; a closing
bracket that no open bracket waits for is left out.
-/

namespace Treatise.Statement

/-- A token, or all that stands between an opening bracket and its closing one. -/
inductive TokenTree where
  | leaf (token : Token)
  | group (bracket : Bracket) (opener : Token) (items : List TokenTree) (closer : Option Token)
  deriving Repr

/-- A bracket that is open, and what has been read inside it. -/
structure OpenGroup where
  bracket : Bracket
  opener : Token
  items : List TokenTree
  deriving Repr

/-- The tree of a group that ends, with or without a closing bracket. -/
def OpenGroup.close (group : OpenGroup) (closer : Option Token) : TokenTree :=
  .group group.bracket group.opener group.items closer

/-- What has been read: the trees outside all brackets, and the open groups, the innermost first. -/
structure Bracketing where
  outside : List TokenTree
  groups : List OpenGroup
  deriving Repr

namespace Bracketing

/-- Adds a tree to the innermost open group, or outside all brackets. -/
def push (tree : TokenTree) : Bracketing → Bracketing
  | ⟨outside, []⟩ => ⟨outside ++ [tree], []⟩
  | ⟨outside, group :: outer⟩ => ⟨outside, { group with items := group.items ++ [tree] } :: outer⟩

/-- Closes the innermost open group of the kind `bracket` by `closer`, where `outside` and the
groups are given apart. The groups inside it end without a closing bracket. -/
def closeThrough (bracket : Bracket) (closer : Token) (outside : List TokenTree) :
    Option TokenTree → List OpenGroup → Review Fault Bracketing
  | unclosed, [] =>
    pure (match unclosed with
      | some tree => push tree ⟨outside, []⟩
      | none => ⟨outside, []⟩)
  | unclosed, group :: outer =>
    let group := { group with items := group.items ++ unclosed.toList }
    if group.bracket = bracket then
      pure (push (group.close (some closer)) ⟨outside, outer⟩)
    else do
      Review.report group.opener.location .unclosedBracket
      closeThrough bracket closer outside (some (group.close none)) outer

/-- Ends all open groups at the end of the tokens. -/
def finish (outside : List TokenTree) :
    Option TokenTree → List OpenGroup → Review Fault (List TokenTree)
  | unclosed, [] => pure (outside ++ unclosed.toList)
  | unclosed, group :: outer => do
    let group := { group with items := group.items ++ unclosed.toList }
    Review.report group.opener.location .unclosedBracket
    finish outside (some (group.close none)) outer

def step (state : Bracketing) (token : Token) : Review Fault Bracketing :=
  match token.kind with
  | .opening bracket => pure { state with groups := ⟨bracket, token, []⟩ :: state.groups }
  | .closing bracket =>
    if state.groups.any fun group => group.bracket == bracket then
      closeThrough bracket token state.outside none state.groups
    else do
      Review.report token.location (.unexpectedCloser token.text)
      return state
  | _ => pure (state.push (.leaf token))

/-- Reads tokens on from a state. -/
def run (state : Bracketing) : List Token → Review Fault (List TokenTree)
  | [] => finish state.outside none state.groups
  | token :: rest => do
    let next ← state.step token
    next.run rest

end Bracketing

def bracket (tokens : List Token) : Review Fault (List TokenTree) :=
  Bracketing.run ⟨[], []⟩ tokens

end Treatise.Statement
