import Mathlib.Tactic.Common
import Treatise.Document.Printer

/-!
# Printed HTML

A reader of the HTML form sees what the plain form says: without the tags of the spans, and with the
escaped characters decoded, it is the plain form again. No text that is printed can look like a tag,
since angle brackets are always escaped. The class word stands inside a tag, and must not end it.
-/

namespace Treatise.Markup

/-! ## Reading HTML -/

/-- What follows the end of a tag: a quote and a closing angle bracket. -/
def afterTag : List Char → List Char
  | '\'' :: '>' :: rest => rest
  | _ :: rest => afterTag rest
  | [] => []

theorem length_afterTag_le (text : List Char) : (afterTag text).length ≤ text.length := by
  fun_induction afterTag text with
  | case1 rest => exact Nat.le_add_right rest.length 2
  | case2 _ _ _ ih => exact Nat.le_succ_of_le ih
  | case3 => exact Nat.le_refl 0

/-- How a tag begins that opens a span with a class. -/
def spanOpening : List Char :=
  ['<', 's', 'p', 'a', 'n', ' ', 'c', 'l', 'a', 's', 's', '=', '\'']

/-- The tag that closes a span. -/
def spanClosing : List Char := ['<', '/', 's', 'p', 'a', 'n', '>']

/-- A text without the tags of spans. -/
def untagged : List Char → List Char
  | [] => []
  | first :: rest =>
    if spanOpening <+: first :: rest then
      untagged (afterTag ((first :: rest).drop spanOpening.length))
    else if spanClosing <+: first :: rest then untagged ((first :: rest).drop spanClosing.length)
    else first :: untagged rest
termination_by text => text.length
decreasing_by
  · have shorter := length_afterTag_le ((first :: rest).drop spanOpening.length)
    have opening : spanOpening.length = 13 := rfl
    simp only [opening, List.length_drop, List.length_cons] at shorter ⊢
    omega
  · have closing : spanClosing.length = 7 := rfl
    simp only [closing, List.length_drop, List.length_cons]
    omega
  · simp only [List.length_cons]
    omega

/-- A text with `&lt;`, `&gt;` and `&amp;` read as the characters that they stand for. -/
def decoded : List Char → List Char
  | '&' :: 'l' :: 't' :: ';' :: rest => '<' :: decoded rest
  | '&' :: 'g' :: 't' :: ';' :: rest => '>' :: decoded rest
  | '&' :: 'a' :: 'm' :: 'p' :: ';' :: rest => '&' :: decoded rest
  | first :: rest => first :: decoded rest
  | [] => []

/-! ## Escaped texts -/

/-- No character of an escaped text is an angle bracket. -/
theorem bracketless_escape (text : String) :
    '<' ∉ (escape text).toList ∧ '>' ∉ (escape text).toList := by
  have each : ∀ character, '<' ∉ escapeChar character ∧ '>' ∉ escapeChar character := by
    intro character
    unfold escapeChar
    split_ifs with ampersand opens closes
    · decide
    · decide
    · decide
    · simp [Ne.symm opens, Ne.symm closes]
  simp only [escape, String.toList_ofList, List.mem_flatMap, not_exists, not_and]
  exact ⟨fun character _ => (each character).1, fun character _ => (each character).2⟩

theorem decoded_escapeChar (character : Char) (rest : List Char) :
    decoded (escapeChar character ++ rest) = character :: decoded rest := by
  unfold escapeChar
  split_ifs with ampersand opens closes
  · rw [ampersand]
    rfl
  · rw [opens]
    rfl
  · rw [closes]
    rfl
  · rw [List.singleton_append, decoded]
    all_goals
      intros
      exact ampersand ‹_›

/-- Escaping is undone exactly. -/
theorem decoded_escape (text : String) (rest : List Char) :
    decoded ((escape text).toList ++ rest) = text.toList ++ decoded rest := by
  rw [escape, String.toList_ofList]
  induction text.toList with
  | nil => rfl
  | cons character text ih =>
      rw [List.flatMap_cons, List.append_assoc, decoded_escapeChar, ih, List.cons_append]

/-! ## Tags -/

theorem afterTag_append {word : List Char} (inside : '>' ∉ word) (rest : List Char) :
    afterTag (word ++ '\'' :: '>' :: rest) = rest := by
  induction word with
  | nil => rfl
  | cons first word ih =>
      rw [List.mem_cons, not_or] at inside
      rw [List.cons_append, afterTag]
      · exact ih inside.2
      · intro more _ ends
        cases word with
        | nil => simp at ends
        | cons next word =>
            have bracket : next = '>' := (List.cons.inj ends).1
            exact inside.2 (bracket ▸ List.mem_cons_self)

theorem untagged_opening {word : List Char} (inside : '>' ∉ word) (rest : List Char) :
    untagged (spanOpening ++ (word ++ '\'' :: '>' :: rest)) = untagged rest := by
  have after : (spanOpening ++ (word ++ '\'' :: '>' :: rest)).drop spanOpening.length
      = word ++ '\'' :: '>' :: rest := List.drop_left
  rw [untagged.eq_def]
  split
  · next none => simp [spanOpening] at none
  · next first more whole =>
    rw [← whole, if_pos (List.prefix_append _ _), after, afterTag_append inside]

theorem untagged_closing (rest : List Char) : untagged (spanClosing ++ rest) = untagged rest := by
  have notOpening : ¬ spanOpening <+: spanClosing ++ rest := by
    rintro ⟨more, whole⟩
    cases whole
  rw [untagged.eq_def]
  split
  · next none => simp [spanClosing] at none
  · next first more whole =>
    rw [← whole, if_neg notOpening, if_pos (List.prefix_append _ _), List.drop_left]

/-- Without an opening angle bracket there are no tags. -/
theorem untagged_append {text : List Char} (bracketless : '<' ∉ text) (rest : List Char) :
    untagged (text ++ rest) = text ++ untagged rest := by
  induction text with
  | nil => rfl
  | cons first text ih =>
      rw [List.mem_cons, not_or] at bracketless
      have noTag : ∀ more, ¬ '<' :: more <+: first :: (text ++ rest) := by
        rintro more ⟨after, whole⟩
        exact bracketless.1 (List.cons.inj whole).1
      have notOpening : ¬ spanOpening <+: first :: (text ++ rest) := noTag _
      have notClosing : ¬ spanClosing <+: first :: (text ++ rest) := noTag _
      rw [List.cons_append, untagged, if_neg notOpening, if_neg notClosing, ih bracketless.2,
        List.cons_append]

/-! ## Pieces -/

variable {classWord : String}

theorem html_tagged (tag : Tag) (text : String) : (Piece.tagged tag text).html classWord
    = "<span class='" ++ classWord ++ "-" ++ tag.name ++ "'>" ++ escape text ++ "</span>" := rfl

/-- Without its tag, a piece is its text, escaped. -/
theorem untagged_piece (inside : '>' ∉ classWord.toList) (piece : Piece) (rest : List Char) :
    untagged ((piece.html classWord).toList ++ rest)
      = (escape piece.text).toList ++ untagged rest := by
  cases piece with
  | plain text => exact untagged_append (bracketless_escape text).1 rest
  | tagged tag text =>
      have word : '>' ∉ (classWord ++ "-" ++ tag.name).toList := by
        cases tag <;> simpa [Tag.name] using inside
      have whole : ((Piece.tagged tag text).html classWord).toList ++ rest
          = spanOpening ++ ((classWord ++ "-" ++ tag.name).toList ++ '\'' :: '>'
            :: ((escape text).toList ++ (spanClosing ++ rest))) := by
        have opens : "<span class='".toList = spanOpening := by rfl
        have closes : "</span>".toList = spanClosing := by rfl
        have ends : "'>".toList = ['\'', '>'] := by rfl
        simp only [html_tagged, String.toList_append, opens, closes, ends, List.append_assoc,
          List.cons_append, List.nil_append]
      rw [whole, untagged_opening word, untagged_append (bracketless_escape text).1,
        untagged_closing]
      rfl

/-- The HTML of pieces is their plain text, escaped and tagged. -/
theorem untagged_html (inside : '>' ∉ classWord.toList) (pieces : List Piece) :
    decoded (untagged (html classWord pieces).toList) = (plain pieces).toList
      ∧ '<' ∉ untagged (html classWord pieces).toList
      ∧ '>' ∉ untagged (html classWord pieces).toList := by
  induction pieces with
  | nil => simp [html, plain, untagged, decoded]
  | cons piece pieces ih =>
      have html_cons : (html classWord (piece :: pieces)).toList
          = (piece.html classWord).toList ++ (html classWord pieces).toList := by
        simp [html, String.join_cons]
      have plain_cons : (plain (piece :: pieces)).toList
          = piece.text.toList ++ (plain pieces).toList := by
        simp [plain, String.join_cons]
      have bracketless := bracketless_escape piece.text
      rw [html_cons, plain_cons, untagged_piece inside, decoded_escape, ih.1]
      refine ⟨rfl, ?_, ?_⟩
      · rw [List.mem_append, not_or]
        exact ⟨bracketless.1, ih.2.1⟩
      · rw [List.mem_append, not_or]
        exact ⟨bracketless.2, ih.2.2⟩

end Treatise.Markup

namespace Treatise.Document

open Markup (decoded untagged)

/-- Printed as HTML, an entry is its plain form, escaped and tagged: without the tags nothing is
left that looks like one, and decoded it is the plain form, whatever is printed for the formulas. -/
theorem html_pieces {classWord : String} (inside : '>' ∉ classWord.toList)
    (show_ : Formula → String) (entry : Entry) :
    decoded (untagged (Markup.html classWord (entry.pieces show_)).toList)
        = (Markup.plain (entry.pieces show_)).toList
      ∧ '<' ∉ untagged (Markup.html classWord (entry.pieces show_)).toList
      ∧ '>' ∉ untagged (Markup.html classWord (entry.pieces show_)).toList :=
  Markup.untagged_html inside (entry.pieces show_)

/-- What is printed for a formula can look like a tag. -/
theorem html_pieces_of_brackets :
    let entry : Entry := .result ⟨.theorem_, none, ⟨[], .start⟩, none, none, none, none,
      .mk [.formula (.ofText "a < b" .start)] .start, none, none, none, .start⟩
    let printed :=
      (Markup.html "ml" (entry.pieces fun found => "</span>" ++ found.text ++ "&lt;")).toList
    decoded (untagged printed) = "Theorem:\nthen:\n. '</span>a < b&lt;'\n".toList
      ∧ '<' ∉ untagged printed ∧ '>' ∉ untagged printed := by
  intro entry printed
  have every := html_pieces (show '>' ∉ "ml".toList by decide)
    (fun found => "</span>" ++ found.text ++ "&lt;") entry
  have plain : Markup.plain (entry.pieces fun found => "</span>" ++ found.text ++ "&lt;")
      = "Theorem:\nthen:\n. '</span>a < b&lt;'\n" := by rfl
  rw [plain] at every
  exact every

end Treatise.Document
