import Mathlib.Data.List.Basic
import Mathlib.Data.List.Perm.Subperm

/-!
# Values in a tree

A place in a tree has an address: the numbers of the branches that lead down to it. The order in
which addresses are compared number by number is the order in which the tree is written out, a value
before what lies below it. A list enumerates a tree if it holds the value at each address once and
in this order, and nothing else.

Main statement: a tree that is put together from branches is enumerated by the value at its root and
then by what enumerates the branches, one after the other.
-/

namespace Treatise

variable {α γ : Type}

/-- The number of the branch to take at each level of a tree, from the root down. -/
abbrev Address := List Nat

/-- The addresses at which values stand, in increasing order, and these values. -/
structure Tabulates (found : Address → Option α) (entries : List (Address × α)) : Prop where
  increasing : entries.Pairwise fun first second => first.1 < second.1
  mem_iff : ∀ address value, (address, value) ∈ entries ↔ found address = some value

/-- The values at the addresses of a tree: each of them once, in the order of the addresses. -/
def Enumerates (found : Address → Option α) (values : List α) : Prop :=
  ∃ entries, Tabulates found entries ∧ entries.map Prod.snd = values

/-- A tree that is put together from branches, and that may have a value at its root. -/
def branching (root : Option α) (branches : List (Address → Option α)) : Address → Option α
  | [] => root
  | index :: rest => branches[index]?.bind (· rest)

/-- A tree that consists of its root. -/
def leaf (value : Option α) : Address → Option α :=
  branching value []

theorem branching_bind {β : Type} (root : Option α) (branches : List (Address → Option α))
    (select : α → Option β) (address : Address) : (branching root branches address).bind select
      = branching (root.bind select) (branches.map fun branch rest => (branch rest).bind select)
        address := by
  cases address with
  | nil => rfl
  | cons index rest =>
      simp only [branching, List.getElem?_map]
      cases branches[index]? <;> rfl

/-- The address of a branch if one more branch is put before it. -/
def Address.successor : Address → Address
  | [] => []
  | index :: rest => (index + 1) :: rest

namespace Tabulates

variable {found : Address → Option α} {branches : List (Address → Option α)}
  {entries entries' : List (Address × α)}

theorem ne_nil {address : Address} {value : α}
    (tabulates : Tabulates (branching none branches) entries)
    (member : (address, value) ∈ entries) : ∃ index rest, address = index :: rest := by
  cases address with
  | nil => cases (tabulates.mem_iff _ _).mp member
  | cons index rest => exact ⟨index, rest, rfl⟩

theorem nodup (tabulates : Tabulates found entries) : entries.Nodup := by
  apply tabulates.increasing.imp
  rintro first second before rfl
  exact List.lt_irrefl _ before

theorem cons (first : Tabulates found entries)
    (others : Tabulates (branching none branches) entries') :
    Tabulates (branching none (found :: branches))
      (entries.map (fun entry => (0 :: entry.1, entry.2))
        ++ entries'.map fun entry => (entry.1.successor, entry.2)) where
  increasing := by
    apply List.pairwise_append.mpr
    refine ⟨?_, ?_, ?_⟩
    · apply List.pairwise_map.mpr
      apply first.increasing.imp
      intro entry entry' before
      exact List.cons_lt_cons_iff.mpr (.inr ⟨rfl, before⟩)
    · apply List.pairwise_map.mpr
      apply others.increasing.imp_of_mem
      rintro ⟨address, value⟩ ⟨address', value'⟩ member member' before
      rcases others.ne_nil member with ⟨index, rest, rfl⟩
      rcases others.ne_nil member' with ⟨index', rest', rfl⟩
      rcases List.cons_lt_cons_iff.mp before with less | ⟨rfl, less⟩
      · exact List.cons_lt_cons_iff.mpr (.inl (Nat.succ_lt_succ less))
      · exact List.cons_lt_cons_iff.mpr (.inr ⟨rfl, less⟩)
    · intro entry member entry' member'
      rcases List.mem_map.mp member with ⟨_, _, rfl⟩
      rcases List.mem_map.mp member' with ⟨⟨address, value⟩, origin, rfl⟩
      rcases others.ne_nil origin with ⟨index, rest, rfl⟩
      exact List.cons_lt_cons_iff.mpr (.inl (Nat.succ_pos index))
  mem_iff address value := by
    rw [List.mem_append, List.mem_map, List.mem_map]
    constructor
    · rintro (⟨⟨rest, _⟩, member, same⟩ | ⟨⟨address', _⟩, member, same⟩)
      · cases same
        exact (first.mem_iff _ _).mp member
      · rcases others.ne_nil member with ⟨index, rest, rfl⟩
        cases same
        exact (others.mem_iff _ _).mp member
    · intro stands
      match address with
      | 0 :: rest => exact .inl ⟨(rest, value), (first.mem_iff _ _).mpr stands, rfl⟩
      | (index + 1) :: rest =>
          exact .inr ⟨(index :: rest, value), (others.mem_iff _ _).mpr stands, rfl⟩

theorem rooted (tabulates : Tabulates (branching none branches) entries) (root : Option α) :
    Tabulates (branching root branches) (root.toList.map (([], ·)) ++ entries) where
  increasing := by
    apply List.pairwise_append.mpr
    refine ⟨?_, tabulates.increasing, ?_⟩
    · cases root <;> simp
    · rintro entry member ⟨address, value⟩ member'
      rcases List.mem_map.mp member with ⟨_, _, rfl⟩
      rcases tabulates.ne_nil member' with ⟨index, rest, rfl⟩
      exact List.nil_lt_cons index rest
  mem_iff address value := by
    cases address with
    | nil =>
        have missing : ([], value) ∉ entries := fun member => by
          rcases tabulates.ne_nil member with ⟨_, _, below⟩
          cases below
        simp [missing, branching]
    | cons index rest =>
        have below := tabulates.mem_iff (index :: rest) value
        simpa [branching] using below

end Tabulates

namespace Enumerates

variable {found found' : Address → Option α} {values values' : List α}

/-- A tree is enumerated by its root and then by its branches. -/
theorem of_branches (root : Option α) {branches : List (Address → Option α)} {lists : List (List α)}
    (each : List.Forall₂ Enumerates branches lists) :
    Enumerates (branching root branches) (root.toList ++ lists.flatten) := by
  suffices inner : Enumerates (branching none branches) lists.flatten by
    rcases inner with ⟨entries, tabulates, listed⟩
    refine ⟨_, tabulates.rooted root, ?_⟩
    rw [List.map_append, listed]
    cases root <;> rfl
  induction each with
  | nil =>
      refine ⟨[], ⟨.nil, fun address value => ?_⟩, rfl⟩
      cases address <;> simp [branching]
  | cons here _ ih =>
      rcases here with ⟨entries, tabulates, rfl⟩
      rcases ih with ⟨entries', tabulates', listed⟩
      refine ⟨_, tabulates.cons tabulates', ?_⟩
      simp [← listed, Function.comp_def]

theorem of_children (root : Option α) {children : List γ} {at? : γ → Address → Option α}
    {list : γ → List α} (each : ∀ child ∈ children, Enumerates (at? child) (list child)) :
    Enumerates (branching root (children.map at?)) (root.toList ++ children.flatMap list) := by
  rw [List.flatMap_def]
  apply of_branches root
  apply List.forall₂_map_left_iff.mpr
  apply List.forall₂_map_right_iff.mpr
  exact List.forall₂_same.mpr each

theorem mem_iff {value : α} (enumerates : Enumerates found values) :
    value ∈ values ↔ ∃ address, found address = some value := by
  rcases enumerates with ⟨entries, tabulates, rfl⟩
  rw [List.mem_map]
  constructor
  · rintro ⟨⟨address, _⟩, member, rfl⟩
    exact ⟨address, (tabulates.mem_iff _ _).mp member⟩
  · rintro ⟨address, stands⟩
    exact ⟨(address, value), (tabulates.mem_iff _ _).mpr stands, rfl⟩

/-- A tree is not enumerated by fewer values than another tree whose values it all has. -/
theorem eq_of_le (enumerates : Enumerates found values) (enumerates' : Enumerates found' values)
    (kept : ∀ address value, found' address = some value → found address = some value) :
    found' = found := by
  rcases enumerates with ⟨entries, tabulates, listed⟩
  rcases enumerates' with ⟨entries', tabulates', listed'⟩
  have within : entries' ⊆ entries := by
    rintro ⟨address, value⟩ member
    exact (tabulates.mem_iff _ _).mpr (kept _ _ ((tabulates'.mem_iff _ _).mp member))
  have sameLength : entries.length = entries'.length := by
    simpa using congrArg List.length (listed.trans listed'.symm)
  have all :=
    (List.subperm_of_subset tabulates'.nodup within).perm_of_length_le (Nat.le_of_eq sameLength)
  funext address
  apply Option.ext
  intro value
  rw [← tabulates.mem_iff, ← tabulates'.mem_iff, all.mem_iff]

theorem of_leaf (value : Option α) : Enumerates (leaf value) value.toList := by
  simpa [leaf] using of_branches value .nil

end Enumerates

end Treatise
