import Treatise.Proofs.Document.RoundTrip
import Treatise.Proofs.Outline.Concatenation

/-!
# Documents below each other

A blank line takes a reader back to the beginning. Two texts that are read as documents can be put
below each other with a blank line between them: the entries are those of the first text and then
those of the second one, further down.
-/

namespace Treatise.Document

open Outline (Group ItemsSpelled groupsAmong)

theorem collect_append {α β : Type} (read : α → Review Fault (Option β)) (first second : List α) :
    collect read (first ++ second) = ⟨(collect read first).value ++ (collect read second).value,
      (collect read first).problems ++ (collect read second).problems⟩ := by
  induction first with
  | nil => rfl
  | cons item rest ih =>
      simp only [List.cons_append, collect, bind, pure, Review.bind, Review.pure, ih,
        List.append_assoc, List.append_nil]

/-- The tokens of two texts without problems, one below the other, spell both outlines. -/
theorem spelled_below {first second : String} {found more : List Outline.Item}
    (clean : (Layout.read first).faults = []) (clean' : (Layout.read second).faults = [])
    (spelled : ItemsSpelled found (Layout.read first).tokens)
    (spelled' : ItemsSpelled more (Layout.read second).tokens) :
    (Layout.read (first ++ "\n\n" ++ second)).faults = []
      ∧ ItemsSpelled (found ++ more.map
          (Outline.Item.mapLocations (Location.lower (first.toList.count '\n' + 2))))
        (Layout.read (first ++ "\n\n" ++ second)).tokens := by
  rcases Layout.read_below clean clean' spelled.shut with ⟨faultless, breaks, tokens, ends⟩
  have below := spelled'.moved (Location.lower (first.toList.count '\n' + 2))
  refine ⟨faultless, ?_⟩
  rw [tokens]
  rcases ends with ⟨location, rfl⟩ | ⟨rfl, ends⟩
  · rw [List.append_assoc]
    exact spelled.append (@ItemsSpelled.lineBreak (Layout.Token.lineBreak location) _ _ rfl below)
      (.inl rfl)
  · rw [List.append_nil]
    exact spelled.append below (.inr fun last member => .inl (ends last member))

/-- Let two texts be read as documents. With a blank line between them they are read as one
document: its entries are those of the first text, and those of the second text with every place
lowered by the lines above, except for the places inside formulas, which count from the formula. -/
theorem read_across_blankLine {first second : String} {above below : Document}
    (reads : Document.read first = .ok above) (reads' : Document.read second = .ok below) :
    Document.read (first ++ "\n\n" ++ second) = .ok ⟨above.entries ++ below.entries.map
      (Entry.relocate (Location.lower (first.toList.count '\n' + 2)))⟩ := by
  rcases read_eq_ok_iff.mp reads with ⟨faultless, outline, clean, rfl⟩
  rcases read_eq_ok_iff.mp reads' with ⟨faultless', outline', clean', rfl⟩
  rcases spelled_below faultless faultless' (Outline.spelled_of_items outline)
    (Outline.spelled_of_items outline') with ⟨faultless'', spelled⟩
  have read := Outline.read_clean_iff.mpr spelled
  have follows := follows_collect (Location.lower (first.toList.count '\n' + 2))
    (follows_entry (Location.lower (first.toList.count '\n' + 2)))
    (groupsAmong (Outline.read (Layout.read second).tokens).value)
  have groups : groupsAmong (Outline.read (Layout.read (first ++ "\n\n" ++ second)).tokens).value
      = groupsAmong (Outline.read (Layout.read first).tokens).value
        ++ (groupsAmong (Outline.read (Layout.read second).tokens).value).map
          (Group.mapLocations (Location.lower (first.toList.count '\n' + 2))) := by
    rw [read, ← Outline.groupsAmong_mapLocations]
    exact List.filterMap_append
  refine read_eq_ok_iff.mpr ⟨faultless'', by rw [read], ?_, ?_⟩
  · rw [groups, collect_append, clean, follows.clean.mpr clean']
    rfl
  · rw [groups, collect_append, follows.value clean']

/-- The first text ends with a comment that owns no newline, and a comment begins the second one. -/
theorem comments_across_blankLine :
    ∃ above below, Document.read "Theorem:\nthen: 'x'\n::c::" = .ok above
      ∧ Document.read "-- note\nAxiom:\nthen:\n. not:\n  . 'y'" = .ok below
      ∧ Document.read "Theorem:\nthen: 'x'\n::c::\n\n-- note\nAxiom:\nthen:\n. not:\n  . 'y'"
        = .ok ⟨above.entries ++ below.entries.map (Entry.relocate (Location.lower 4))⟩
      ∧ above.entries.length = 1 ∧ below.entries.length = 1 := by
  have one : (Document.read "Theorem:\nthen: 'x'\n::c::").toOption.map
      (fun document => document.entries.length) = some 1 := by decide +kernel
  have one' : (Document.read "-- note\nAxiom:\nthen:\n. not:\n  . 'y'").toOption.map
      (fun document => document.entries.length) = some 1 := by decide +kernel
  rcases Option.map_eq_some_iff.mp one with ⟨above, read, length⟩
  rcases Option.map_eq_some_iff.mp one' with ⟨below, read', length'⟩
  have reads := read_across_blankLine (eq_ok_of_toOption read) (eq_ok_of_toOption read')
  have joined : "Theorem:\nthen: 'x'\n::c::" ++ "\n\n" ++ "-- note\nAxiom:\nthen:\n. not:\n  . 'y'"
      = "Theorem:\nthen: 'x'\n::c::\n\n-- note\nAxiom:\nthen:\n. not:\n  . 'y'" := by decide
  have rows : "Theorem:\nthen: 'x'\n::c::".toList.count '\n' + 2 = 4 := by decide
  rw [joined, rows] at reads
  exact ⟨above, below, eq_ok_of_toOption read, eq_ok_of_toOption read', reads, length, length'⟩

end Treatise.Document
