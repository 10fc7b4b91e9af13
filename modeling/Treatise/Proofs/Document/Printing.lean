import Treatise.Document.Locations
import Treatise.Document.Printer
import Treatise.Proofs.Outline.Relocation

/-!
# Printing without places

What is printed of a document does not depend on its places: when every place in an entry changes,
the same places change in its block, and a block is printed without them.
-/

namespace Treatise.Outline

open Layout (Token)

variable (f : Location → Location)

@[simp]
theorem listed_mapLocation (names : List Token) :
    Target.listed (names.map (·.mapLocation f)) = Target.listed names := by
  rw [Target.listed, List.map_map, Target.listed]
  rfl

mutual

/-- The written form of a target does not depend on places. -/
@[simp]
theorem Target.code_mapLocations (target : Target) :
    (target.mapLocations f).code = target.code := by
  match target with
  | .single _ => rfl
  | .enclosed _ _ => simp [Target.mapLocations, Target.code]
  | .applied _ sub params =>
    cases sub <;> cases params <;> simp [Target.mapLocations, Target.code]
  | .assignment _ value =>
    simp [Target.mapLocations, Target.code, value.code_mapLocations]
  | .tuple items _ => simp [Target.mapLocations, Target.code, codes_mapLocationsOf items]

theorem codes_mapLocationsOf (targets : List Target) :
    Target.codes (Target.mapLocationsOf f targets) = Target.codes targets := by
  match targets with
  | [] => rfl
  | target :: rest =>
    simp [Target.mapLocationsOf, Target.codes, target.code_mapLocations, codes_mapLocationsOf rest]

end

end Treatise.Outline

namespace Treatise.Document

variable (f : Location → Location)

/-! ## Blocks -/

/-- Changes every place in a leaf. -/
def Leaf.mapLocations : Leaf → Leaf
  | formula found => .formula (found.mapLocations f)
  | text found => .text (found.mapLocations f)
  | target found => .target (found.mapLocations f)

mutual

def Block.mapLocations : Block → Block
  | .mk id rows => .mk (id.map (·.mapLocations f)) (mapRows rows)

def mapRows : List Row → List Row
  | [] => []
  | row :: rest => row.mapLocations :: mapRows rest

def Row.mapLocations : Row → Row
  | .mk name inline arguments => .mk name (inline.map (Leaf.mapLocations f)) (mapItems arguments)

def mapItems : List Item → List Item
  | [] => []
  | item :: rest => item.mapLocations :: mapItems rest

def Item.mapLocations : Item → Item
  | .leaf leaf => .leaf (leaf.mapLocations f)
  | .block block => .block block.mapLocations

end

theorem mapRows_eq (rows : List Row) : mapRows f rows = rows.map (Row.mapLocations f) := by
  induction rows with
  | nil => rfl
  | cons row rest ih => rw [mapRows, ih, List.map_cons]

theorem mapItems_eq (items : List Item) : mapItems f items = items.map (Item.mapLocations f) := by
  induction items with
  | nil => rfl
  | cons item rest ih => rw [mapItems, ih, List.map_cons]

@[simp]
theorem piece_mapLocations (leaf : Leaf) :
    (leaf.mapLocations f).piece Formula.text = leaf.piece Formula.text := by
  cases leaf with
  | formula found => rfl
  | text found => rfl
  | target found => simp [Leaf.mapLocations, Leaf.piece]

@[simp]
theorem inlinePieces_mapLocations (leaves : List Leaf) :
    inlinePieces Formula.text (leaves.map (Leaf.mapLocations f))
      = inlinePieces Formula.text leaves := by
  cases leaves with
  | nil => rfl
  | cons first rest => simp [inlinePieces, List.flatMap_map]

mutual

/-- A block is printed without its places. -/
@[simp]
theorem blockPieces_mapLocations (lead : Markup.Piece) (depth : Nat) (block : Block) :
    blockPieces Formula.text lead depth (block.mapLocations f)
      = blockPieces Formula.text lead depth block := by
  match block with
  | .mk none rows => simp [Block.mapLocations, blockPieces, rowPieces_mapRows lead depth rows]
  | .mk (some id) rows =>
    simp [Block.mapLocations, blockPieces, rowPieces_mapRows (margin depth) depth rows,
      Formula.mapLocations]

theorem rowPieces_mapRows (lead : Markup.Piece) (depth : Nat) (rows : List Row) :
    rowPieces Formula.text lead depth (mapRows f rows)
      = rowPieces Formula.text lead depth rows := by
  match rows with
  | [] => rfl
  | .mk name inline arguments :: rest =>
    simp [mapRows, Row.mapLocations, rowPieces, itemPieces_mapItems depth arguments,
      rowPieces_mapRows (margin depth) depth rest]

theorem itemPieces_mapItems (depth : Nat) (items : List Item) :
    itemPieces Formula.text depth (mapItems f items) = itemPieces Formula.text depth items := by
  match items with
  | [] => rfl
  | .leaf leaf :: rest =>
    simp [mapItems, Item.mapLocations, itemPieces, itemPieces_mapItems depth rest]
  | .block block :: rest =>
    simp [mapItems, Item.mapLocations, itemPieces, itemPieces_mapItems depth rest,
      blockPieces_mapLocations (bullet depth) (depth + 1) block]

end

/-! ## The blocks of clauses -/

theorem row_targets (name : String) (found : Targets) :
    Row.targets name (found.mapLocations f) = (Row.targets name found).mapLocations f := by
  simp [Row.targets, Targets.mapLocations, Row.mapLocations, mapItems, Leaf.mapLocations,
    Function.comp_def]

theorem row_texts (name : String) (found : Texts) :
    Row.texts name (found.mapLocations f) = (Row.texts name found).mapLocations f := by
  simp [Row.texts, Texts.mapLocations, Row.mapLocations, mapItems, Leaf.mapLocations,
    Function.comp_def]

theorem row_bare (name : String) : (Row.bare name).mapLocations f = Row.bare name := rfl

mutual

/-- The item of a clause has the places of the clause. -/
theorem Clause.item_mapLocations (clause : Clause) :
    (clause.mapLocations f).item = clause.item.mapLocations f := by
  match clause with
  | .formula _ | .text _ => rfl
  | .implication conditions conclusions _ | .equivalence conditions conclusions _ =>
    simp [Clause.mapLocations, Clause.item, Item.mapLocations, Block.mapLocations, mapRows,
      conditions.row_mapLocations, conclusions.row_mapLocations]
  | .forAll _ suchThat conclusions _ =>
    simp [Clause.mapLocations, Clause.item, Item.mapLocations, Block.mapLocations, mapRows_eq,
      row_targets, rowsIn_mapLocationsIn _ suchThat, conclusions.row_mapLocations]
  | .thereIs _ _ suchThat _ =>
    simp [Clause.mapLocations, Clause.item, Item.mapLocations, Block.mapLocations, mapRows_eq,
      row_targets, rowsIn_mapLocationsIn _ suchThat]
  | .negation clause _ =>
    simp [Clause.mapLocations, Clause.item, Item.mapLocations, Block.mapLocations, mapRows,
      Row.mapLocations, mapItems, clause.item_mapLocations]
  | .disjunction clauses _ | .matching clauses _ =>
    simp [Clause.mapLocations, Clause.item, Item.mapLocations, Block.mapLocations, mapRows,
      clauses.row_mapLocations]
  | .piecewise conditions conclusions otherwise _ =>
    simp [Clause.mapLocations, Clause.item, Item.mapLocations, Block.mapLocations, mapRows_eq,
      row_bare, conditions.row_mapLocations, conclusions.row_mapLocations,
      rowsIn_mapLocationsIn _ otherwise]
  | .generated _ conditions _ =>
    simp [Clause.mapLocations, Clause.item, Item.mapLocations, Block.mapLocations, mapRows_eq,
      row_bare, row_targets, rowsIn_mapLocationsIn _ conditions]

theorem Clauses.row_mapLocations (name : String) (clauses : Clauses) :
    (clauses.mapLocations f).row name = (clauses.row name).mapLocations f := by
  match clauses with
  | .mk items _ =>
    simp [Clauses.mapLocations, Clauses.row, Row.mapLocations, itemsOf_mapLocationsOf items]

theorem itemsOf_mapLocationsOf (clauses : List Clause) :
    itemsOf (mapLocationsOf f clauses) = mapItems f (itemsOf clauses) := by
  match clauses with
  | [] => rfl
  | clause :: rest =>
    simp [mapLocationsOf, itemsOf, mapItems, clause.item_mapLocations, itemsOf_mapLocationsOf rest]

theorem rowsIn_mapLocationsIn (name : String) (found : Option Clauses) :
    rowsIn name (mapLocationsIn f found) = (rowsIn name found).map (Row.mapLocations f) := by
  match found with
  | none => rfl
  | some clauses => simp [mapLocationsIn, rowsIn, clauses.row_mapLocations]

end

/-! ## The blocks of entries -/

theorem map_optional {α : Type} {move : α → α} {row : α → Row}
    (each : ∀ found, row (move found) = (row found).mapLocations f) (found : Option α) :
    Row.optional row (found.map move) = (Row.optional row found).map (Row.mapLocations f) := by
  cases found with
  | none => rfl
  | some found => simp [Row.optional, each]

theorem row_text (name : String) (found : Text) :
    Row.text name (found.mapLocations f) = (Row.text name found).mapLocations f := rfl

theorem row_formula (name : String) (found : Formula) :
    Row.formula name (found.mapLocations f) = (Row.formula name found).mapLocations f := rfl

theorem item_ofRow (row : Row) :
    Item.ofRow (row.mapLocations f) = (Item.ofRow row).mapLocations f := rfl

theorem item_field (field : Field) : (field.mapLocations f).item = field.item.mapLocations f := rfl

theorem item_citation (citation : Citation) :
    (citation.mapLocations f).item = citation.item.mapLocations f := by
  simp [Citation.mapLocations, Citation.item, Item.mapLocations, Block.mapLocations, mapRows_eq,
    row_text, map_optional f (row_text f _)]

theorem item_metadataItem (item : MetadataItem) :
    (item.mapLocations f).item = item.item.mapLocations f := by
  cases item with
  | reference citations _ =>
      simp [MetadataItem.mapLocations, MetadataItem.item, ← item_ofRow, Row.mapLocations,
        mapItems_eq, Function.comp_def, item_citation]
  | tags found => simp [MetadataItem.mapLocations, MetadataItem.item, row_texts, item_ofRow]
  | field found => exact item_field f found

theorem row_metadata (metadata : Metadata) :
    (metadata.mapLocations f).row = metadata.row.mapLocations f := by
  simp [Metadata.mapLocations, Metadata.row, Row.mapLocations, mapItems_eq, Function.comp_def,
    item_metadataItem]

theorem item_provision (provision : Provision) :
    (provision.mapLocations f).item = provision.item.mapLocations f := by
  cases provision with
  | view target via by_ _ =>
      simp [Provision.mapLocations, Provision.item, Item.mapLocations, Block.mapLocations,
        mapRows_eq, row_bare, row_formula, map_optional f (row_formula f _)]
  | member targets means _ =>
      simp [Provision.mapLocations, Provision.item, Item.mapLocations, Block.mapLocations,
        mapRows_eq, row_targets, means.row_mapLocations]

theorem row_provisions (provisions : Provisions) :
    (provisions.mapLocations f).row = provisions.row.mapLocations f := by
  simp [Provisions.mapLocations, Provisions.row, Row.mapLocations, mapItems_eq, Function.comp_def,
    item_provision]

theorem block_definition (definition : Definition) :
    (definition.mapLocations f).block = definition.block.mapLocations f := by
  cases definition with
  | defines found =>
      simp [Definition.mapLocations, Definition.block, Defines.mapLocations, Defines.block,
        Block.mapLocations, mapRows_eq, Row.mapLocations, mapItems, Leaf.mapLocations,
        rowsIn_mapLocationsIn, map_optional f (row_targets f _), map_optional f (row_texts f _),
        map_optional f (row_provisions f), map_optional f (row_metadata f)]
  | states found =>
      simp [Definition.mapLocations, Definition.block, States.mapLocations, States.block,
        Block.mapLocations, mapRows_eq, row_bare, rowsIn_mapLocationsIn, Clauses.row_mapLocations,
        map_optional f (row_targets f _), map_optional f (row_texts f _),
        map_optional f (row_metadata f)]

/-- The block of an entry has the places of the entry. -/
theorem block_entry (entry : Entry) :
    (entry.mapLocations f).block = entry.block.mapLocations f := by
  cases entry with
  | definition found => exact block_definition f found
  | result found =>
      simp [Entry.mapLocations, Entry.block, Result.mapLocations, Result.block, Block.mapLocations,
        mapRows_eq, row_texts, rowsIn_mapLocationsIn, Clauses.row_mapLocations,
        map_optional f (row_targets f _), map_optional f (row_metadata f)]
  | topic found =>
      simp [Entry.mapLocations, Entry.block, Block.mapLocations, mapRows_eq, row_texts, row_text,
        map_optional f (row_metadata f)]
  | resource found =>
      simp [Entry.mapLocations, Entry.block, Block.mapLocations, mapRows_eq, Row.mapLocations,
        mapItems_eq, Function.comp_def, item_field, map_optional f (row_metadata f)]
  | foundation found metadata _ =>
      simp [Entry.mapLocations, Entry.block, Block.mapLocations, mapRows_eq, Row.mapLocations,
        mapItems, Item.mapLocations, block_definition, map_optional f (row_metadata f)]
  | mutually found metadata _ =>
      simp [Entry.mapLocations, Entry.block, Block.mapLocations, mapRows_eq, Row.mapLocations,
        mapItems_eq, Item.mapLocations, Function.comp_def, block_definition,
        map_optional f (row_metadata f)]

/-- An entry without places is printed as the entry. -/
theorem pieces_normalized (entry : Entry) :
    entry.normalized.pieces Formula.text = entry.pieces Formula.text := by
  rw [Entry.pieces, Entry.normalized, block_entry, Block.pieces, blockPieces_mapLocations]
  rfl

/-- A document without places is printed as the document. -/
theorem code_normalized (document : Document) : document.normalized.code = document.code := by
  rcases document with ⟨entries⟩
  rw [code, pieces, normalized, code, pieces]
  cases entries with
  | nil => rfl
  | cons first rest => simp [entriesPieces, List.flatMap_map, pieces_normalized]

end Treatise.Document
