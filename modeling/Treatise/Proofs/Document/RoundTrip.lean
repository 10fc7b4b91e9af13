import Treatise.Proofs.Document.Faithful
import Treatise.Proofs.Document.Moving
import Treatise.Proofs.Document.Printing
import Treatise.Proofs.Document.Typeset

/-!
# Printing and reading again

The canonical text of a document is read without a problem. Its outline is that of the text the
document was read from, without the comments and at other places, and it is read as the same
document.
-/

namespace Treatise.Outline

open Layout (Token)

/-- Whether an item is a group. -/
def Item.isGroup : Item → Bool
  | .group _ => true
  | .comment _ => false

def groupsAmong (items : List Item) : List Group :=
  items.filterMap fun item =>
    match item with
    | .group found => some found
    | .comment _ => none

theorem mem_groupsAmong {group : Group} {items : List Item} :
    group ∈ groupsAmong items ↔ .group group ∈ items := by
  induction items with
  | nil => simp [groupsAmong]
  | cons item rest ih =>
      cases item with
      | group found =>
          change group ∈ found :: groupsAmong rest ↔ _
          rw [List.mem_cons, List.mem_cons, ih, Item.group.injEq]
      | comment token =>
          change group ∈ groupsAmong rest ↔ _
          simpa using ih

theorem groupsAmong_map_group (groups : List Group) : groupsAmong (groups.map .group) = groups := by
  rw [groupsAmong, List.filterMap_map]
  exact List.filterMap_some

theorem filter_isGroup (items : List Item) :
    items.filter Item.isGroup = (groupsAmong items).map .group := by
  induction items with
  | nil => rfl
  | cons item rest ih =>
      cases item with
      | group found => exact congrArg (Item.group found :: ·) ih
      | comment token => exact ih

theorem groupsAmong_mapLocations (f : Location → Location) (items : List Item) :
    groupsAmong (items.map (Item.mapLocations f))
      = (groupsAmong items).map (Group.mapLocations f) := by
  induction items with
  | nil => rfl
  | cons item rest ih =>
      cases item with
      | group found => exact congrArg (found.mapLocations f :: ·) ih
      | comment token => exact ih

end Treatise.Outline

namespace Treatise.Document

open Layout (Token Sheet joined breakMark)
open Outline (Group ItemsSpelled groupsAmong)

/-! ## Documents without problems -/

theorem eq_ok_of_toOption {ε α : Type} {found : Except ε α} {value : α}
    (same : found.toOption = some value) : found = .ok value := by
  cases found with
  | error _ => cases same
  | ok _ => exact congrArg Except.ok (Option.some.inj same)

theorem sortByLocation_eq_nil {diagnostics : List Diagnostic} :
    Diagnostic.sortByLocation diagnostics = [] ↔ diagnostics = [] := by
  rw [Diagnostic.sortByLocation, ← List.length_eq_zero_iff, List.length_mergeSort,
    List.length_eq_zero_iff]

/-- A text is read as a document if no part of the reading meets a problem. -/
theorem read_eq_ok_iff {text : String} {document : Document} :
    Document.read text = .ok document
      ↔ (Layout.read text).faults = [] ∧ (Outline.read (Layout.read text).tokens).problems = []
        ∧ (collect entry (groupsAmong (Outline.read (Layout.read text).tokens).value)).problems = []
        ∧ ⟨(collect entry (groupsAmong (Outline.read (Layout.read text).tokens).value)).value⟩
          = document := by
  have unfolded : ofOutline (Outline.read (Layout.read text).tokens).value
      = ⟨⟨(collect entry (groupsAmong (Outline.read (Layout.read text).tokens).value)).value⟩,
        (collect entry (groupsAmong (Outline.read (Layout.read text).tokens).value)).problems
          ++ []⟩ := rfl
  rw [Document.read]
  simp only [unfolded, List.append_nil]
  split
  · next clean =>
    rw [List.isEmpty_iff, sortByLocation_eq_nil] at clean
    simp only [Layout.Reading.diagnostics, List.append_eq_nil_iff, List.map_eq_nil_iff] at clean
    simp [clean.1.1, clean.1.2, clean.2]
  · next faulty =>
    rw [List.isEmpty_iff, sortByLocation_eq_nil] at faulty
    simp only [Layout.Reading.diagnostics, List.append_eq_nil_iff, List.map_eq_nil_iff,
      not_and] at faulty
    simp only [reduceCtorEq, false_iff, not_and]
    exact fun layout outline entries => absurd entries (faulty ⟨layout, outline⟩)

/-! ## The pages of a document -/

/-- The characters of an entry on the page. -/
def sheetChars (entry : Entry) : List Char := chars (entry.pieces Formula.text)

/-- Each group is depicted on a page of its own. -/
theorem exists_sheets {groups : List Group} (clean : (collect entry groups).problems = [])
    (sayable : ∀ group ∈ groups, group.Sayable) :
    ∃ sheets : List (List Char × List Token), (∀ sheet ∈ sheets, Sheet sheet)
      ∧ (collect entry groups).value.map sheetChars = sheets.map Prod.fst
      ∧ List.Forall₂ (fun group sheet => Group.Spelled (group.mapLocations nowhere) sheet.2)
        groups sheets := by
  induction groups with
  | nil => exact ⟨[], by simp, rfl, .nil⟩
  | cons group rest ih =>
      rcases List.forall_mem_cons.mp sayable with ⟨here, others⟩
      simp only [collect, Review.problems_bind, Review.problems_pure, List.append_nil,
        List.append_eq_nil_iff] at clean
      rcases ih clean.2 others with ⟨sheets, whole, text, spelled⟩
      rcases reads_entry group clean.1 with ⟨found, value, depicted⟩
      rcases depicted.exists_page here (lead_margin 0) with ⟨tokens, page, here⟩
      refine ⟨(sheetChars found, tokens) :: sheets, ?_, ?_, .cons here spelled⟩
      · exact List.forall_mem_cons.mpr ⟨⟨page, here.tokens_ne_nil⟩, whole⟩
      · simp [collect, value, text]

theorem chars_entriesPieces {entries : List Entry} {sheets : List (List Char × List Token)}
    (text : entries.map sheetChars = sheets.map Prod.fst) :
    chars (entriesPieces Formula.text entries) = (joined sheets).1 := by
  have more : ∀ {entries : List Entry} {sheets : List (List Char × List Token)},
      entries.map sheetChars = sheets.map Prod.fst →
      chars (entries.flatMap fun entry => newline :: entry.pieces Formula.text)
        = sheets.flatMap fun sheet => '\n' :: sheet.1 := by
    intro entries
    induction entries with
    | nil =>
        intro sheets text
        rcases List.map_eq_nil_iff.mp text.symm with rfl
        rfl
    | cons entry rest ih =>
        intro sheets text
        rcases List.map_eq_cons_iff.mp text.symm with ⟨sheet, others, rfl, here, after⟩
        simp [ih after.symm, here, sheetChars]
  cases entries with
  | nil =>
      rcases List.map_eq_nil_iff.mp text.symm with rfl
      rfl
  | cons entry rest =>
      rcases List.map_eq_cons_iff.mp text.symm with ⟨sheet, others, rfl, here, after⟩
      simp [entriesPieces, joined, more after.symm, here, sheetChars]

/-- Pages that spell groups spell the items of an outline when a line break stands between them. -/
theorem spelled_joined {groups : List Group} {sheets : List (List Char × List Token)}
    (spelled : List.Forall₂ (fun group sheet => Group.Spelled (group.mapLocations nowhere) sheet.2)
      groups sheets) :
    ItemsSpelled ((groups.map (Group.mapLocations nowhere)).map .group) (joined sheets).2 := by
  have more : ∀ {groups : List Group} {sheets : List (List Char × List Token)},
      List.Forall₂ (fun group sheet => Group.Spelled (group.mapLocations nowhere) sheet.2)
        groups sheets →
      ItemsSpelled ((groups.map (Group.mapLocations nowhere)).map .group)
          (sheets.flatMap fun sheet => breakMark :: sheet.2)
        ∧ Outline.atBoundary (sheets.flatMap fun sheet => breakMark :: sheet.2) = true := by
    intro groups sheets spelled
    induction spelled with
    | nil => exact ⟨.none, rfl⟩
    | cons here _ ih => exact ⟨.lineBreak rfl (.group here ih.2 ih.1), rfl⟩
  cases spelled with
  | nil => exact .none
  | cons here rest => exact .group here (more rest).2 (more rest).1

/-! ## The round trip -/

/-- Groups that differ by their places only are read as entries that differ by their places only. -/
theorem normalized_entries {groups others : List Group}
    (same : others.map (Group.mapLocations nowhere) = groups.map (Group.mapLocations nowhere))
    (clean : (collect entry groups).problems = []) :
    (collect entry others).problems = []
      ∧ (collect entry others).value.map Entry.normalized
        = (collect entry groups).value.map Entry.normalized := by
  have follows := follows_collect nowhere (follows_entry nowhere) groups
  have follows' := follows_collect nowhere (follows_entry nowhere) others
  rw [same] at follows'
  have clean' : (collect entry others).problems = [] := follows'.clean.mp (follows.clean.mpr clean)
  refine ⟨clean', ?_⟩
  have moved : (collect entry others).value.map (Entry.relocate nowhere)
      = (collect entry groups).value.map (Entry.relocate nowhere) :=
    (follows'.value clean').symm.trans (follows.value clean)
  have normalized := congrArg (List.map Entry.normalized) moved
  simpa [Function.comp_def, Entry.normalized_relocate] using normalized

/-- The canonical text of a document that was read reads without any diagnostic. Up to places its
outline is the outline that was read before, without the comments, and so is its document. -/
theorem read_code {text : String} {document : Document}
    (reads : Document.read text = .ok document) : (Layout.read document.code).diagnostics = []
      ∧ (Outline.read (Layout.read document.code).tokens).problems = []
      ∧ (Outline.read (Layout.read document.code).tokens).value.map
          (Outline.Item.mapLocations nowhere)
        = ((Outline.read (Layout.read text).tokens).value.filter Outline.Item.isGroup).map
          (Outline.Item.mapLocations nowhere)
      ∧ ∃ again, Document.read document.code = .ok again ∧ again.normalized = document.normalized
        ∧ again.code = document.code := by
  rcases read_eq_ok_iff.mp reads with ⟨faultless, outline, clean, rfl⟩
  generalize items : (Outline.read (Layout.read text).tokens).value = found at clean ⊢
  -- What was read is spelled by written tokens, so the pages of its groups spell it once more.
  have spelled : ItemsSpelled found (Layout.read text).tokens :=
    Outline.read_clean_iff.mp (by rw [← items, ← outline])
  have content : Outline.WrittenContent (Layout.read text).tokens :=
    fun token member => Layout.written_of_mem_read faultless member
  have sayable : ∀ group ∈ groupsAmong found, group.Sayable :=
    fun group member => spelled.sayable content group (Outline.mem_groupsAmong.mp member)
  rcases exists_sheets clean sayable with ⟨sheets, whole, sheetText, depicted⟩
  have printed : Document.code ⟨(collect entry (groupsAmong found)).value⟩
      = String.ofList (joined sheets).1 := by
    rw [← chars_entriesPieces sheetText, chars, String.ofList_toList]
    rfl
  rcases Layout.read_joined whole with ⟨faultless', tokens⟩
  rw [← printed] at faultless' tokens
  -- The tokens of the pages are those of the text at other places.
  rcases (spelled_joined depicted).of_moved (f := nowhere) tokens with ⟨others, moved, spelled'⟩
  have reading := Outline.read_clean_iff.mpr spelled'
  have groups : (groupsAmong others).map (Group.mapLocations nowhere)
      = (groupsAmong found).map (Group.mapLocations nowhere) := by
    rw [← Outline.groupsAmong_mapLocations, moved, Outline.groupsAmong_map_group]
  rcases normalized_entries groups clean with ⟨clean', entries⟩
  have normalized : Document.normalized ⟨(collect entry (groupsAmong others)).value⟩
      = Document.normalized ⟨(collect entry (groupsAmong found)).value⟩ :=
    congrArg Document.mk entries
  refine ⟨by simp [Layout.Reading.diagnostics, faultless'], by rw [reading], ?_,
    ⟨(collect entry (groupsAmong others)).value⟩, read_eq_ok_iff.mpr ?_, normalized, ?_⟩
  · rw [reading, Outline.filter_isGroup]
    simp only [moved, List.map_map]
    rfl
  · rw [reading]
    exact ⟨faultless', rfl, clean', rfl⟩
  · rw [← code_normalized, normalized, code_normalized]

/-- A comment goes, a text moves up to the line of its section, and the document stays the same. -/
theorem broken_lines_read_again :
    ∃ document, Document.read ":: note ::\n\nTheorem:\n. \"named\"\nthen:\n. not:\n  . 'x is y'\n"
        = .ok document
      ∧ document.code = "Theorem: \"named\"\nthen:\n. not:\n  . 'x is y'\n"
      ∧ ∃ again, Document.read document.code = .ok again
        ∧ again.normalized = document.normalized := by
  have printed : (Document.read
      ":: note ::\n\nTheorem:\n. \"named\"\nthen:\n. not:\n  . 'x is y'\n").toOption.map code
        = some "Theorem: \"named\"\nthen:\n. not:\n  . 'x is y'\n" := by decide +kernel
  rcases Option.map_eq_some_iff.mp printed with ⟨document, read, text⟩
  have reads := eq_ok_of_toOption read
  rcases read_code reads with ⟨-, -, -, again, reads', same, -⟩
  exact ⟨document, reads, text, again, reads', same⟩

end Treatise.Document
