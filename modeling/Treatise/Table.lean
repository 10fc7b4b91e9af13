/-!
# Tables

A table holds values under keys. Its entries are kept in the order of their keys, so that two tables
with the same content are the same table. A list of names in the order of the alphabet is the
special case in which only the keys matter.
-/

namespace Treatise

/-- Values under keys, in the order of the keys. -/
structure Table (α : Type) where
  entries : List (String × α)
  deriving Repr

namespace Table

variable {α : Type}

def empty : Table α := ⟨[]⟩

instance : Inhabited (Table α) := ⟨empty⟩

def find? (table : Table α) (key : String) : Option α :=
  List.lookup key table.entries

/-- Whether there is a value under a key. -/
def contains (table : Table α) (key : String) : Bool :=
  (table.find? key).isSome

/-- Puts a value under a key into entries in the order of their keys. -/
def insertEntry (key : String) (value : α) : List (String × α) → List (String × α)
  | [] => [(key, value)]
  | (other, found) :: rest =>
    if key < other then (key, value) :: (other, found) :: rest
    else if key = other then (key, value) :: rest
    else (other, found) :: insertEntry key value rest

/-- Puts a value under a key, in place of the value that was there. -/
def insert (table : Table α) (key : String) (value : α) : Table α :=
  ⟨insertEntry key value table.entries⟩

/-- Takes away the value under a key. -/
def erase (table : Table α) (key : String) : Table α :=
  ⟨table.entries.filter fun entry => entry.1 ≠ key⟩

def keys (table : Table α) : List String :=
  table.entries.map Prod.fst

/-- The values in the order of their keys. -/
def values (table : Table α) : List α :=
  table.entries.map Prod.snd

def size (table : Table α) : Nat :=
  table.entries.length

end Table

/-- Puts a name into a list of names that rises, unless it is there. -/
def insertName (name : String) : List String → List String
  | [] => [name]
  | other :: rest =>
    if name < other then name :: other :: rest
    else if name = other then other :: rest
    else other :: insertName name rest

/-- The names of a list in rising order, each once. -/
def sortedNames (names : List String) : List String :=
  names.foldr insertName []

end Treatise
