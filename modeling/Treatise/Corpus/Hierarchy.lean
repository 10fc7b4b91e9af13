import Treatise.Document.Entry
import Treatise.Table

/-!
# The hierarchy of types

A definition that means a single `is` gives its signature a parent, and the views that it provides
say what else the thing can be taken for. One signature descends from another if parents lead from
the first to the second. It is viewable as another if views lead from it to that one, or to one that
descends from it.

Parents and views may run in circles. An edge that has been followed once need not be followed
again, so each step of a search leaves fewer edges to follow.
-/

namespace Treatise.Corpus

open Document (Defines Formula)
open Statement (Expr)

/-- The edges of the hierarchy. -/
structure Hierarchy where
  /-- The parent of each signature that has one. -/
  parents : Table String
  /-- The signatures that each signature is viewable as. -/
  views : Table (List String)
  deriving Repr

/-- The first signature in a formula. -/
def firstSignature? (formula : Formula) : Option String :=
  formula.expr?.bind fun expr => expr.signaturesWithin.head?

/-- What a definition says its thing is, if its meaning holds one formula and that is an `is`. -/
def parentOf? (defines : Defines) : Option String := do
  match (← defines.means).formulas with
  | [formula] =>
    match ← formula.expr? with
    | .relation .isA _ right _ => (right.flatMap Expr.signaturesWithin).head?
    | _ => none
  | _ => none

/-- What a definition says its thing can be viewed as. -/
def viewsOf (defines : Defines) : List String :=
  ((defines.providing.map Document.Provisions.views).getD []).filterMap firstSignature?

namespace Hierarchy

def empty : Hierarchy := ⟨.empty, .empty⟩

instance : Inhabited Hierarchy := ⟨empty⟩

def parent? (hierarchy : Hierarchy) (signature : String) : Option String :=
  hierarchy.parents.find? signature

/-- The signatures that a signature is directly viewable as. -/
def viewsFrom (hierarchy : Hierarchy) (signature : String) : List String :=
  (hierarchy.views.find? signature).getD []

/-- Adds the edges that leave the signature of a definition. -/
def add (hierarchy : Hierarchy) (defines : Defines) : Hierarchy :=
  match defines.id.signature? with
  | none => hierarchy
  | some signature =>
    let parents := match parentOf? defines with
      | some parent => hierarchy.parents.insert signature parent
      | none => hierarchy.parents
    let views := match viewsOf defines with
      | [] => hierarchy.views
      | targets => hierarchy.views.insert signature
          (targets.foldl (fun found target => insertName target found)
            (hierarchy.viewsFrom signature))
    ⟨parents, views⟩

/-- Takes away all edges that leave the signature of a definition. -/
def remove (hierarchy : Hierarchy) (defines : Defines) : Hierarchy :=
  match defines.id.signature? with
  | none => hierarchy
  | some signature => ⟨hierarchy.parents.erase signature, hierarchy.views.erase signature⟩

theorem length_erase_lt {α : Type} {table : Table α} {key : String} {value : α}
    (found : table.find? key = some value) :
    (table.erase key).entries.length < table.entries.length := by
  have present : (key, value) ∈ table.entries := by
    have := (List.lookup_eq_some_iff (k := key) (b := value) (l := table.entries)).1 found
    obtain ⟨before, after, split, _⟩ := this
    rw [split]
    simp
  exact List.length_filter_lt_length_iff_exists.2 ⟨_, present, by simp⟩

/-- Whether parents lead from one signature to another, in one step or more. -/
def descends (parents : Table String) (signature ancestor : String) : Bool :=
  match _found : parents.find? signature with
  | none => false
  | some parent => parent == ancestor || descends (parents.erase signature) parent ancestor
termination_by parents.entries.length
decreasing_by exact length_erase_lt _found

/-- Whether a signature descends from another one. -/
def isDescendant (hierarchy : Hierarchy) (signature ancestor : String) : Bool :=
  descends hierarchy.parents signature ancestor

/-- Whether views lead from one of `pending` to a signature that `found` accepts. -/
def reaches (found : String → Bool) (views : Table (List String)) : List String → Bool
  | [] => false
  | signature :: pending =>
    found signature ||
      match _present : views.find? signature with
      | none => reaches found views pending
      | some targets => reaches found (views.erase signature) (pending ++ targets)
termination_by pending => (views.entries.length, pending.length)
decreasing_by
  · simp [Prod.lex_def]
  · simp [Prod.lex_def, length_erase_lt _present]

/-- Whether a signature can be viewed as another one. -/
def isViewable (hierarchy : Hierarchy) (signature target : String) : Bool :=
  reaches (fun found => found == target || hierarchy.isDescendant found target) hierarchy.views
    [signature]

/-- Whether a thing of one signature counts as a thing of another one. -/
def isA (hierarchy : Hierarchy) (signature target : String) : Bool :=
  hierarchy.isDescendant signature target || hierarchy.isViewable signature target

end Hierarchy

end Treatise.Corpus
