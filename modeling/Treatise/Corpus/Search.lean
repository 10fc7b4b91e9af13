import Treatise.Corpus.PathOrder
import Treatise.Text.Words

/-!
# Search

A search index tells in which files a word occurs. A query finds the files in which all its words
occur, in the natural order of their paths; a query without words finds nothing.
-/

namespace Treatise.Corpus

/-- The paths of the files that hold each word. -/
abbrev SearchIndex := Table (List String)

namespace SearchIndex

/-- The paths of the files that hold a word. -/
def paths (index : SearchIndex) (word : String) : List String :=
  (index.find? word).getD []

/-- Notes that a file holds words. -/
def add (index : SearchIndex) (path : String) (words : List String) : SearchIndex :=
  words.foldl (fun index word => index.insert word (insertName path (paths index word))) index

/-- Forgets a file. A word that no file holds any more is forgotten too. -/
def remove (index : SearchIndex) (path : String) : SearchIndex :=
  ⟨index.entries.filterMap fun (word, paths) =>
    match paths.filter (· ≠ path) with
    | [] => none
    | left => some (word, left)⟩

/-- The files in which all words of a query occur. -/
def search (index : SearchIndex) (query : String) : List String :=
  match Text.words query with
  | [] => []
  | first :: rest =>
    sortByPath id ((paths index first).filter fun path =>
      rest.all fun word => (paths index word).contains path)

end SearchIndex

end Treatise.Corpus
