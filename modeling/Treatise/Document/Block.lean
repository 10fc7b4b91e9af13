import Treatise.Markup
import Treatise.Outline.Tree
import Treatise.Document.Leaf

/-!
# Blocks

A block is what an entry looks like on the page: an id, and sections whose arguments stand on the
line of the section or each on a line of its own behind a dot. A group inside a block is a block
again, one level deeper, and the dot stands on its first line.
-/

namespace Treatise.Document

open Markup (Piece)

/-- A leaf on the page. -/
inductive Leaf where
  | formula (formula : Formula)
  | text (text : Text)
  | target (target : Outline.Target)
  deriving Repr

mutual

/-- An id and sections. -/
inductive Block where
  | mk (id : Option Formula) (sections : List Row)
  deriving Repr

/-- A section: its name, the leaves on its line, and the arguments below it. -/
inductive Row where
  | mk (name : String) (inline : List Leaf) (arguments : List Item)
  deriving Repr

/-- An argument on a line of its own, or a group. -/
inductive Item where
  | leaf (leaf : Leaf)
  | block (block : Block)
  deriving Repr

end

/-- Two blanks for each level. -/
def indentation (depth : Nat) : String :=
  String.join (List.replicate depth "  ")

/-- The dot of an argument at a level. -/
def bullet (depth : Nat) : Piece :=
  .plain (indentation depth ++ ". ")

/-- The beginning of a line at a level. -/
def margin (depth : Nat) : Piece :=
  .plain (indentation depth)

def newline : Piece :=
  .plain "\n"

/-- A leaf as it is printed. `show_` says what is printed between the quotes of a formula. -/
def Leaf.piece (show_ : Formula → String) : Leaf → Piece
  | formula found => .tagged .statement ("'" ++ show_ found ++ "'")
  | text found => .tagged .text ("\"" ++ found.text ++ "\"")
  | target found => .plain found.code

/-- The leaves on the line of a section: a blank before the first, a comma before the others. -/
def inlinePieces (show_ : Formula → String) : List Leaf → List Piece
  | [] => []
  | first :: rest =>
    .plain " " :: first.piece show_ :: rest.flatMap fun leaf => [.plain ", ", leaf.piece show_]

mutual

/-- A block as it is printed. Its first line begins with `lead`, the others stand at `depth`. -/
def blockPieces (show_ : Formula → String) (lead : Piece) (depth : Nat) : Block → List Piece
  | .mk none rows => rowPieces show_ lead depth rows
  | .mk (some id) rows =>
    lead :: .tagged .id ("[" ++ id.text ++ "]") :: newline
      :: rowPieces show_ (margin depth) depth rows

/-- Sections as they are printed. -/
def rowPieces (show_ : Formula → String) (lead : Piece) (depth : Nat) : List Row → List Piece
  | [] => []
  | .mk name inline arguments :: rest =>
    lead :: .tagged .header (name ++ ":") :: inlinePieces show_ inline
      ++ newline :: itemPieces show_ depth arguments
      ++ rowPieces show_ (margin depth) depth rest

/-- Arguments as they are printed. -/
def itemPieces (show_ : Formula → String) (depth : Nat) : List Item → List Piece
  | [] => []
  | .leaf leaf :: rest =>
    bullet depth :: leaf.piece show_ :: newline :: itemPieces show_ depth rest
  | .block block :: rest =>
    blockPieces show_ (bullet depth) (depth + 1) block ++ itemPieces show_ depth rest

end

/-- A block at the outermost level as it is printed. -/
def Block.pieces (show_ : Formula → String) (block : Block) : List Piece :=
  blockPieces show_ (margin 0) 0 block

end Treatise.Document
