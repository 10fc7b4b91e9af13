import Mathlib.Data.List.Sort
import Mathlib.Data.String.Basic
import Treatise.Table

/-!
# Tables as maps

A table is sorted if its keys rise strictly. Every table that the library makes is sorted, and a
sorted table is determined by what is found under each key. So two tables are shown to be equal by
what they hold, whatever the order in which it was put in.

The same goes for lists of names that rise strictly, which are determined by their members.
-/

namespace Treatise

namespace Table

variable {α : Type}

/-- The keys of a table rise strictly. -/
def Sorted (table : Table α) : Prop :=
  table.entries.Pairwise fun first second => first.1 < second.1

theorem sorted_empty : (empty : Table α).Sorted :=
  List.Pairwise.nil

theorem mem_insertEntry {key : String} {value : α} {entries : List (String × α)}
    {entry : String × α} (present : entry ∈ insertEntry key value entries) :
    entry = (key, value) ∨ entry ∈ entries := by
  induction entries with
  | nil => simpa [insertEntry] using present
  | cons head rest ih =>
      rcases head with ⟨other, found⟩
      simp only [insertEntry] at present
      split_ifs at present
      · simpa using present
      · rcases List.mem_cons.mp present with new | old
        · exact Or.inl new
        · exact Or.inr (List.mem_cons_of_mem _ old)
      · rcases List.mem_cons.mp present with same | later
        · exact Or.inr (by simp [same])
        · exact (ih later).imp_right (List.mem_cons_of_mem _)

theorem Sorted.insert {table : Table α} (sorted : table.Sorted) (key : String) (value : α) :
    (table.insert key value).Sorted := by
  rcases table with ⟨entries⟩
  simp only [Sorted, Table.insert] at sorted ⊢
  induction entries with
  | nil => simp [insertEntry]
  | cons head rest ih =>
      rcases head with ⟨other, found⟩
      rcases List.pairwise_cons.mp sorted with ⟨above, sortedRest⟩
      simp only [insertEntry]
      split_ifs with before same
      · refine List.pairwise_cons.mpr ⟨?_, sorted⟩
        intro entry present
        rcases List.mem_cons.mp present with rfl | later
        · exact before
        · exact before.trans (above entry later)
      · subst same
        exact List.pairwise_cons.mpr ⟨above, sortedRest⟩
      · refine List.pairwise_cons.mpr ⟨?_, ih sortedRest⟩
        intro entry present
        rcases mem_insertEntry present with rfl | later
        · exact lt_of_le_of_ne (not_lt.mp before) (Ne.symm same)
        · exact above entry later

theorem Sorted.erase {table : Table α} (sorted : table.Sorted) (key : String) :
    (table.erase key).Sorted :=
  List.Pairwise.filter _ sorted

@[simp]
theorem find?_empty (key : String) : (empty : Table α).find? key = none := rfl

theorem find?_insert (table : Table α) (key other : String) (value : α) :
    (table.insert key value).find? other
      = if other = key then some value else table.find? other := by
  rcases table with ⟨entries⟩
  simp only [Table.insert, find?]
  induction entries with
  | nil => grind [insertEntry]
  | cons head rest ih =>
      rcases head with ⟨name, found⟩
      simp only [insertEntry]
      split_ifs <;> grind

@[simp]
theorem find?_insert_self (table : Table α) (key : String) (value : α) :
    (table.insert key value).find? key = some value := by
  simp [find?_insert]

/-- A new key is put between the entries that are there. -/
theorem exists_entries_insert {table : Table α} {key : String} (absent : table.find? key = none)
    (value : α) : ∃ front back, table.entries = front ++ back
      ∧ (table.insert key value).entries = front ++ (key, value) :: back := by
  rcases table with ⟨entries⟩
  simp only [Table.insert, find?] at absent ⊢
  induction entries with
  | nil => exact ⟨[], [], rfl, rfl⟩
  | cons head rest ih =>
      rcases head with ⟨name, found⟩
      have differs : key ≠ name := by
        rintro rfl
        simp at absent
      simp only [insertEntry, if_neg differs]
      split_ifs
      · exact ⟨[], (name, found) :: rest, rfl, rfl⟩
      · have later : List.lookup key rest = none := by
          simpa only [List.lookup_cons, beq_false_of_ne differs] using absent
        rcases ih later with ⟨front, back, split, put⟩
        exact ⟨(name, found) :: front, back, by rw [split]; rfl, by rw [put]; rfl⟩

theorem find?_erase (table : Table α) (key other : String) :
    (table.erase key).find? other = if other = key then none else table.find? other := by
  rcases table with ⟨entries⟩
  simp only [Table.erase, find?]
  induction entries with
  | nil => simp
  | cons head rest ih =>
      rcases head with ⟨name, found⟩
      by_cases same : name = key <;> grind

theorem find?_eq_some_iff {table : Table α} (sorted : table.Sorted) {key : String} {value : α} :
    table.find? key = some value ↔ (key, value) ∈ table.entries := by
  rcases table with ⟨entries⟩
  simp only [find?, Sorted] at sorted ⊢
  induction entries with
  | nil => simp
  | cons head rest ih =>
      rcases head with ⟨name, found⟩
      rcases List.pairwise_cons.mp sorted with ⟨above, sortedRest⟩
      have absent : ∀ value, (name, value) ∉ rest := fun value present =>
        lt_irrefl _ (above (name, value) present)
      by_cases same : key = name
      · subst same
        simp [absent, eq_comm]
      · have differs : (key == name) = false := by simpa using same
        simp [List.lookup_cons, differs, same, ih sortedRest]

/-- Sorted tables that hold the same under every key are the same. -/
theorem Sorted.ext {first second : Table α} (sortedFirst : first.Sorted)
    (sortedSecond : second.Sorted) (agree : ∀ key, first.find? key = second.find? key) :
    first = second := by
  have sameEntries : first.entries = second.entries := by
    have : Std.Irrefl fun one other : String × α => one.1 < other.1 := ⟨fun _ => lt_irrefl _⟩
    refine List.Pairwise.eq_of_mem_iff sortedFirst sortedSecond ?_
    rintro ⟨key, value⟩
    rw [← find?_eq_some_iff sortedFirst, ← find?_eq_some_iff sortedSecond, agree]
  cases first
  cases second
  exact congrArg Table.mk sameEntries

/-! ## Tables of lists -/

/-- The list under a key, which is empty if there is none. -/
def listAt (table : Table (List α)) (key : String) : List α :=
  (table.find? key).getD []

/-- A sorted table of lists in which no list is empty. -/
structure Filled (table : Table (List α)) : Prop where
  sorted : table.Sorted
  nonempty : ∀ {key found}, table.find? key = some found → found ≠ []

theorem filled_empty : (empty : Table (List α)).Filled :=
  ⟨sorted_empty, by simp⟩

@[simp]
theorem listAt_empty (key : String) : (empty : Table (List α)).listAt key = [] := rfl

theorem listAt_insert (table : Table (List α)) (key other : String) (found : List α) :
    (table.insert key found).listAt other = if other = key then found else table.listAt other := by
  by_cases same : other = key <;> simp [listAt, find?_insert, same]

theorem listAt_erase (table : Table (List α)) (key other : String) :
    (table.erase key).listAt other = if other = key then [] else table.listAt other := by
  by_cases same : other = key <;> simp [listAt, find?_erase, same]

theorem Filled.insert {table : Table (List α)} (filled : table.Filled) (key : String)
    {found : List α} (nonempty : found ≠ []) : (table.insert key found).Filled := by
  refine ⟨filled.sorted.insert key found, ?_⟩
  intro other list present
  rw [find?_insert] at present
  split_ifs at present
  · cases present
    exact nonempty
  · exact filled.nonempty present

theorem Filled.erase {table : Table (List α)} (filled : table.Filled) (key : String) :
    (table.erase key).Filled := by
  refine ⟨filled.sorted.erase key, ?_⟩
  intro other list present
  rw [find?_erase] at present
  split_ifs at present
  exact filled.nonempty present

theorem Filled.entries_eq {table : Table (List α)} (filled : table.Filled) :
    table.entries = table.keys.map fun key => (key, table.listAt key) := by
  have held : ∀ entry ∈ table.entries, (entry.1, table.listAt entry.1) = entry := by
    intro entry present
    rw [listAt, (find?_eq_some_iff filled.sorted).mpr present, Option.getD_some]
  rw [keys, List.map_map]
  exact (List.map_congr_left held).trans (List.map_id _) |>.symm

theorem Filled.mem_keys_iff {table : Table (List α)} (filled : table.Filled) {key : String} :
    key ∈ table.keys ↔ table.listAt key ≠ [] := by
  simp only [keys, List.mem_map, Prod.exists, exists_and_right, exists_eq_right,
    ← find?_eq_some_iff filled.sorted]
  cases found : table.find? key with
  | none => simp [listAt, found]
  | some list => simp [listAt, found, filled.nonempty found]

/-- Filled tables that hold lists under the same keys have the same keys in the same order. -/
theorem Filled.keys_eq {first second : Table (List α)} (filled : first.Filled)
    (filled' : second.Filled) (agree : ∀ key, first.listAt key = [] ↔ second.listAt key = []) :
    first.keys = second.keys := by
  have : Std.Irrefl fun one other : String => one < other := ⟨fun _ => lt_irrefl _⟩
  have rising : ∀ {table : Table (List α)}, table.Sorted → table.keys.Pairwise (· < ·) :=
    fun sorted => List.pairwise_map.mpr sorted
  refine List.Pairwise.eq_of_mem_iff (rising filled.sorted) (rising filled'.sorted) fun key => ?_
  rw [filled.mem_keys_iff, filled'.mem_keys_iff, ne_eq, agree]

/-- Filled tables that hold the same list under every key are the same. -/
theorem Filled.ext {first second : Table (List α)} (filled : first.Filled)
    (filled' : second.Filled) (agree : ∀ key, first.listAt key = second.listAt key) :
    first = second := by
  refine filled.sorted.ext filled'.sorted fun key => ?_
  have same := agree key
  cases found : first.find? key with
  | none =>
      cases found' : second.find? key with
      | none => rfl
      | some list' =>
          have filledList := filled'.nonempty found'
          simp [listAt, found, found', Ne.symm filledList] at same
  | some list =>
      have filledList := filled.nonempty found
      cases found' : second.find? key with
      | none => simp [listAt, found, found', filledList] at same
      | some list' => simpa [listAt, found, found'] using same

end Table

/-! ## Entries under different keys -/

/-- What is found under a key, where no two entries have the same key. -/
theorem lookup_eq_some_iff_mem {α : Type} {entries : List (String × α)} {key : String} {value : α}
    (distinct : (entries.map Prod.fst).Nodup) :
    List.lookup key entries = some value ↔ (key, value) ∈ entries := by
  induction entries with
  | nil => simp
  | cons head rest ih =>
      rcases head with ⟨name, found⟩
      rcases List.nodup_cons.mp distinct with ⟨absent, distinctRest⟩
      by_cases same : key = name
      · subst same
        have unlisted : ∀ value, (key, value) ∉ rest := by
          intro value member
          exact absent (List.mem_map.mpr ⟨(key, value), member, rfl⟩)
        simp [unlisted, eq_comm]
      · simp [List.lookup_cons, beq_false_of_ne same, same, ih distinctRest]

/-- The order of the entries does not matter where no two have the same key. -/
theorem lookup_reverse {α : Type} {entries : List (String × α)}
    (distinct : (entries.map Prod.fst).Nodup) (key : String) :
    List.lookup key entries.reverse = List.lookup key entries := by
  have reversed : (entries.reverse.map Prod.fst).Nodup := by
    rw [List.map_reverse]
    exact List.nodup_reverse.mpr distinct
  apply Option.ext
  intro value
  rw [lookup_eq_some_iff_mem reversed, lookup_eq_some_iff_mem distinct, List.mem_reverse]

/-- A key leads to the value at its own position. -/
theorem lookup_zip {α : Type} {keys : List String} {values : List α} (distinct : keys.Nodup)
    (length : values.length = keys.length) {index : Nat} (bound : index < keys.length) :
    List.lookup keys[index] (keys.zip values) = some values[index] := by
  have same : (keys.zip values).map Prod.fst = keys := List.map_fst_zip length.ge
  apply (lookup_eq_some_iff_mem (same.symm ▸ distinct)).mpr
  apply List.mem_iff_getElem.mpr
  exact ⟨index, by simpa [length] using bound, by simp⟩

theorem lookup_zip_eq_none {α : Type} {keys : List String} {values : List α} {key : String}
    (absent : key ∉ keys) : List.lookup key (keys.zip values) = none := by
  apply List.lookup_eq_none_iff.mpr
  rintro ⟨other, value⟩ member
  apply bne_iff_ne.mpr
  rintro rfl
  exact absent (List.of_mem_zip member).1

/-! ## Lists of names -/

theorem mem_insertName {name other : String} {names : List String} :
    other ∈ insertName name names ↔ other = name ∨ other ∈ names := by
  induction names with
  | nil => simp [insertName]
  | cons head rest ih =>
      simp only [insertName]
      split_ifs with before same
      · simp
      · simp [same]
      · simp only [List.mem_cons, ih]
        tauto

theorem pairwise_insertName {name : String} {names : List String}
    (rising : names.Pairwise (· < ·)) : (insertName name names).Pairwise (· < ·) := by
  induction names with
  | nil => simp [insertName]
  | cons head rest ih =>
      rcases List.pairwise_cons.mp rising with ⟨above, risingRest⟩
      simp only [insertName]
      split_ifs with before same
      · refine List.pairwise_cons.mpr ⟨?_, rising⟩
        intro other present
        rcases List.mem_cons.mp present with rfl | later
        · exact before
        · exact before.trans (above other later)
      · exact rising
      · refine List.pairwise_cons.mpr ⟨?_, ih risingRest⟩
        intro other present
        rcases mem_insertName.mp present with rfl | later
        · exact lt_of_le_of_ne (not_lt.mp before) (Ne.symm same)
        · exact above other later

end Treatise
