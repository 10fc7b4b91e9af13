/-!
# Completion

A trie holds words together with how often each was put in. What may follow a prefix is read off
from the node that the prefix leads to. A node is kept only as long as a word ends at it or below
it, and the branches of a node are in the order of their characters, so that a trie depends only on
the words it holds.
-/

namespace Treatise.Corpus

mutual

/-- How often the word that leads here was put in, and the continuations. -/
inductive Trie where
  | node (count : Nat) (branches : Branches)
  deriving Repr

/-- Continuations by their first characters, in rising order. -/
inductive Branches where
  | nil
  | cons (character : Char) (child : Trie) (rest : Branches)
  deriving Repr

end

namespace Trie

/-- The trie that holds no word. -/
def empty : Trie := .node 0 .nil

instance : Inhabited Trie := ⟨empty⟩

/-- Whether no word ends here or below. -/
def isEmpty : Trie → Bool
  | node 0 .nil => true
  | _ => false

/-- The trie that holds one word once. -/
def single : List Char → Trie
  | [] => .node 1 .nil
  | character :: rest => .node 0 (.cons character (single rest) .nil)

mutual

/-- Puts a word in. -/
def insert : Trie → List Char → Trie
  | node count branches, [] => .node (count + 1) branches
  | node count branches, character :: rest => .node count (insertBranch branches character rest)

/-- Puts a word in below the branches of a node. -/
def insertBranch : Branches → Char → List Char → Branches
  | .nil, character, rest => .cons character (single rest) .nil
  | .cons other child branches, character, rest =>
    if character < other then .cons character (single rest) (.cons other child branches)
    else if character = other then .cons other (child.insert rest) branches
    else .cons other child (insertBranch branches character rest)

end

mutual

/-- Takes a word out once. Says whether it was there, and gives the trie that is left. -/
def take : Trie → List Char → Bool × Trie
  | node count branches, [] =>
    if count = 0 then (false, node count branches) else (true, node (count - 1) branches)
  | node count branches, character :: rest =>
    let (found, left) := takeBranch branches character rest
    (found, node count left)

/-- Takes a word out below the branches of a node. The branch that leads to the word goes if it
holds nothing then, also when the word was not there. -/
def takeBranch : Branches → Char → List Char → Bool × Branches
  | .nil, _, _ => (false, .nil)
  | .cons other child branches, character, rest =>
    if character = other then
      let (found, left) := child.take rest
      (found, if left.isEmpty then branches else .cons other left branches)
    else
      let (found, left) := takeBranch branches character rest
      (found, .cons other child left)

end

mutual

def below? : Trie → List Char → Option Trie
  | trie, [] => some trie
  | node _ branches, character :: rest => belowBranch? branches character rest

/-- The trie below a prefix that begins with one of the branches of a node. -/
def belowBranch? : Branches → Char → List Char → Option Trie
  | .nil, _, _ => none
  | .cons other child branches, character, rest =>
    if character = other then child.below? rest else belowBranch? branches character rest

end

mutual

/-- The words of a trie in rising order. -/
def words : Trie → List (List Char)
  | node count branches => (if count = 0 then [] else [[]]) ++ branchWords branches

/-- The words below the branches of a node, each with its first character. -/
def branchWords : Branches → List (List Char)
  | .nil => []
  | .cons character child branches => child.words.map (character :: ·) ++ branchWords branches

end

/-- Puts a word in. -/
def add (trie : Trie) (word : String) : Trie :=
  trie.insert word.toList

def addAll (trie : Trie) (words : List String) : Trie :=
  words.foldl add trie

/-- What is left when a word is taken out once, if it was there. -/
def remove? (trie : Trie) (word : List Char) : Option Trie :=
  let (found, left) := trie.take word
  if found then some left else none

/-- What is left when a word is taken out once. -/
def remove (trie : Trie) (word : String) : Trie :=
  (trie.take word.toList).2

def removeAll (trie : Trie) (words : List String) : Trie :=
  words.foldl remove trie

/-- Whether a word was put in more often than it was taken out. -/
def contains (trie : Trie) (word : String) : Bool :=
  match trie.below? word.toList with
  | some (node count _) => count != 0
  | none => false

/-- What follows a prefix in the words that begin with it, in rising order. -/
def suffixes (trie : Trie) (start : String) : List String :=
  match trie.below? start.toList with
  | some found => found.words.map String.ofList
  | none => []

end Trie

end Treatise.Corpus
