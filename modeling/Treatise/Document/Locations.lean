import Treatise.Document.Entry

/-!
# Places in documents

The places in a document can be listed and changed. A document in which every place is replaced by
no place at all is normalized: two documents say the same if they are equal once normalized.
-/

namespace Treatise.Document

/-! ## Changing places -/

/-- Changes every place in a field. -/
def Field.mapLocations (f : Location → Location) (field : Field) : Field :=
  ⟨field.key, field.value.mapLocations f, f field.location⟩

def Citation.mapLocations (f : Location → Location) (citation : Citation) : Citation :=
  ⟨citation.source.mapLocations f, citation.page.map (·.mapLocations f),
    citation.offset.map (·.mapLocations f), f citation.location⟩

def MetadataItem.mapLocations (f : Location → Location) : MetadataItem → MetadataItem
  | reference citations location => .reference (citations.map (·.mapLocations f)) (f location)
  | tags found => .tags (found.mapLocations f)
  | field found => .field (found.mapLocations f)

def Metadata.mapLocations (f : Location → Location) (metadata : Metadata) : Metadata :=
  ⟨metadata.items.map (·.mapLocations f), f metadata.location⟩

def Provision.mapLocations (f : Location → Location) : Provision → Provision
  | view target via by_ location =>
    .view (target.mapLocations f) (via.map (·.mapLocations f)) (by_.map (·.mapLocations f))
      (f location)
  | member targets means location =>
    .member (targets.mapLocations f) (means.mapLocations f) (f location)

def Provisions.mapLocations (f : Location → Location) (provisions : Provisions) : Provisions :=
  ⟨provisions.items.map (·.mapLocations f), f provisions.location⟩

def Defines.mapLocations (f : Location → Location) (defines : Defines) : Defines where
  id := defines.id.mapLocations f
  target := defines.target.mapLocations f
  given := defines.given.map (·.mapLocations f)
  when := mapLocationsIn f defines.when
  suchThat := mapLocationsIn f defines.suchThat
  means := mapLocationsIn f defines.means
  satisfying := mapLocationsIn f defines.satisfying
  expressing := mapLocationsIn f defines.expressing
  providing := defines.providing.map (·.mapLocations f)
  aliases := mapLocationsIn f defines.aliases
  written := defines.written.map (·.mapLocations f)
  called := defines.called.map (·.mapLocations f)
  metadata := defines.metadata.map (·.mapLocations f)
  location := f defines.location

def States.mapLocations (f : Location → Location) (states : States) : States where
  id := states.id.mapLocations f
  given := states.given.map (·.mapLocations f)
  when := mapLocationsIn f states.when
  suchThat := mapLocationsIn f states.suchThat
  that := states.that.mapLocations f
  aliases := mapLocationsIn f states.aliases
  written := states.written.map (·.mapLocations f)
  called := states.called.map (·.mapLocations f)
  metadata := states.metadata.map (·.mapLocations f)
  location := f states.location

def Definition.mapLocations (f : Location → Location) : Definition → Definition
  | defines found => .defines (found.mapLocations f)
  | states found => .states (found.mapLocations f)

def Result.mapLocations (f : Location → Location) (result : Result) : Result where
  kind := result.kind
  id := result.id.map (·.mapLocations f)
  names := result.names.mapLocations f
  given := result.given.map (·.mapLocations f)
  setting := mapLocationsIn f result.setting
  hypotheses := mapLocationsIn f result.hypotheses
  equivalents := mapLocationsIn f result.equivalents
  conclusions := result.conclusions.mapLocations f
  aliases := mapLocationsIn f result.aliases
  proof := mapLocationsIn f result.proof
  metadata := result.metadata.map (·.mapLocations f)
  location := f result.location

def Entry.mapLocations (f : Location → Location) : Entry → Entry
  | definition found => .definition (found.mapLocations f)
  | result found => .result (found.mapLocations f)
  | topic found =>
    .topic ⟨found.id.mapLocations f, found.names.mapLocations f, found.content.mapLocations f,
      found.metadata.map (·.mapLocations f), f found.location⟩
  | resource found =>
    .resource ⟨found.id.mapLocations f, found.fields.map (·.mapLocations f),
      found.metadata.map (·.mapLocations f), f found.location⟩
  | foundation found metadata location =>
    .foundation (found.mapLocations f) (metadata.map (·.mapLocations f)) (f location)
  | mutually found metadata location =>
    .mutually (found.map (·.mapLocations f)) (metadata.map (·.mapLocations f)) (f location)

/-- The entry without any places. -/
def Entry.normalized (entry : Entry) : Entry :=
  entry.mapLocations fun _ => .nowhere

/-! ## Listing places -/

/-- The places in something that may be left out. -/
def placesIn {α : Type} (places : α → List Location) (found : Option α) : List Location :=
  (found.map places).getD []

/-- Every place in a field. -/
def Field.locations (field : Field) : List Location :=
  [field.location, field.value.location]

def Citation.locations (citation : Citation) : List Location :=
  [citation.location, citation.source.location]
    ++ citation.page.toList.map Text.location ++ citation.offset.toList.map Text.location

def MetadataItem.locations : MetadataItem → List Location
  | reference citations location => location :: citations.flatMap Citation.locations
  | tags found => found.locations
  | field found => found.locations

def Metadata.locations (metadata : Metadata) : List Location :=
  metadata.location :: metadata.items.flatMap MetadataItem.locations

def Provision.locations : Provision → List Location
  | view target via by_ location =>
    location :: (target.locations ++ placesIn Formula.locations via
      ++ placesIn Formula.locations by_)
  | member targets means location => location :: (targets.locations ++ means.locations)

def Provisions.locations (provisions : Provisions) : List Location :=
  provisions.location :: provisions.items.flatMap Provision.locations

def Defines.locations (defines : Defines) : List Location :=
  defines.location :: (defines.id.locations ++ defines.target.locations
    ++ placesIn Targets.locations defines.given
    ++ [defines.when, defines.suchThat, defines.means, defines.satisfying, defines.expressing,
      defines.aliases].flatMap locationsIn
    ++ placesIn Provisions.locations defines.providing
    ++ placesIn Texts.locations defines.written ++ placesIn Texts.locations defines.called
    ++ placesIn Metadata.locations defines.metadata)

def States.locations (states : States) : List Location :=
  states.location :: (states.id.locations ++ placesIn Targets.locations states.given
    ++ [states.when, states.suchThat, some states.that, states.aliases].flatMap locationsIn
    ++ placesIn Texts.locations states.written ++ placesIn Texts.locations states.called
    ++ placesIn Metadata.locations states.metadata)

def Definition.locations : Definition → List Location
  | defines found => found.locations
  | states found => found.locations

def Result.locations (result : Result) : List Location :=
  result.location :: (placesIn Formula.locations result.id ++ result.names.locations
    ++ placesIn Targets.locations result.given
    ++ [result.setting, result.hypotheses, result.equivalents, result.aliases, result.proof,
      some result.conclusions].flatMap locationsIn
    ++ placesIn Metadata.locations result.metadata)

def Entry.locations : Entry → List Location
  | definition found => found.locations
  | result found => found.locations
  | topic found =>
    found.location :: (found.id.locations ++ found.names.locations ++ [found.content.location]
      ++ placesIn Metadata.locations found.metadata)
  | resource found =>
    found.location :: (found.id.locations ++ found.fields.flatMap Field.locations
      ++ placesIn Metadata.locations found.metadata)
  | foundation found metadata location =>
    location :: (found.locations ++ placesIn Metadata.locations metadata)
  | mutually found metadata location =>
    location :: (found.flatMap Definition.locations ++ placesIn Metadata.locations metadata)

/-- The document without any places. -/
def normalized (document : Document) : Document :=
  ⟨document.entries.map Entry.normalized⟩

def locations (document : Document) : List Location :=
  document.entries.flatMap Entry.locations

end Treatise.Document
