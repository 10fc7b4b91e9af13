import Mathlib.Data.List.Chain
import Mathlib.Data.List.Forall2
import Treatise.Expansion.Template
import Treatise.Proofs.Statement.Printing

/-!
# Holes within a text that is filled again

A name marked by a question mark is a hole of the text in which it ends up. What stands around a
mark decides whether it is still that hole: letters before it become part of its name. A text with
marks *becomes* a plain text if filling its marks leads to the plain text. Such texts may be put one
after the other if the second *stands apart*, that is, if it does not turn letters in front of it
into the name of a hole.

Main statement: a template that is filled with texts with marks becomes what it is when it is filled
with the plain texts. None of its holes may stand right before another hole or a question mark, and
the holes that are left open may not have the name of a mark.
-/

namespace Treatise.Expansion

open Statement (commaSeparated commaSeparated_cons_cons commaSeparated_singleton)

/-- Whether letters in front of a text do not become the name of a hole by it. -/
def standsApart : List Char → Bool
  | [] => true
  | character :: rest => if character.isAlphanum then standsApart rest else character != '?'

/-- What a part is when `content` says what stands in the holes. -/
def Part.filled (content : String → List Char) : Part → List Char
  | .text shown => shown
  | .hole name => content name

/-- A text with its holes filled. `run` is what may be the beginning of a name, reversed. -/
def filledFrom (content : String → List Char) (run text : List Char) : List Char :=
  (partsFrom run text).flatMap (Part.filled content)

/-- A text with its holes filled. -/
def filled (content : String → List Char) (text : List Char) : List Char :=
  filledFrom content [] text

/-- A text is scanned by letters, by the ends of holes and by what belongs to no hole. -/
@[elab_as_elim]
theorem scan_induction {motive : List Char → List Char → Prop} (nil : ∀ run, motive run [])
    (letter : ∀ run character rest, character.isAlphanum = true → motive (character :: run) rest →
      motive run (character :: rest))
    (hole : ∀ run rest, run ≠ [] → motive [] rest → motive run ('?' :: rest))
    (other : ∀ run character rest, character.isAlphanum = false → (character ≠ '?' ∨ run = []) →
      motive [] rest → motive run (character :: rest))
    (run text : List Char) : motive run text := by
  fun_induction partsFrom run text with
  | case1 run => exact nil run
  | case2 run character rest isLetter ih => exact letter run character rest isLetter ih
  | case3 run character rest _ isHole ih =>
      simp only [Bool.and_eq_true, decide_eq_true_eq, Bool.not_eq_true', List.isEmpty_eq_false_iff]
        at isHole
      rcases isHole with ⟨rfl, some⟩
      exact hole run rest some ih
  | case4 run character rest notLetter notHole ih =>
      apply other run character rest (by simpa using notLetter) _ ih
      simpa [imp_iff_not_or] using notHole

section Scanning

variable {content : String → List Char} {character : Char} {run text rest word : List Char}

@[simp]
theorem flatMap_ofRun : (Part.ofRun run).flatMap (Part.filled content) = run := by
  cases run <;> simp [Part.ofRun, Part.filled]

@[simp]
theorem filled_nil : filled content [] = [] := rfl

theorem partsFrom_letter (letter : character.isAlphanum = true) :
    partsFrom run (character :: rest) = partsFrom (character :: run) rest := by
  rw [partsFrom, if_pos letter]

theorem partsFrom_other (other : character.isAlphanum = false)
    (plain : character ≠ '?' ∨ run = []) :
    partsFrom run (character :: rest)
      = Part.ofRun run.reverse ++ .text [character] :: partsFrom [] rest := by
  rw [partsFrom, if_neg (by simp [other]), if_neg]
  rcases plain with plain | rfl <;> simp_all

theorem partsFrom_hole (some : run ≠ []) :
    partsFrom run ('?' :: rest) = .hole (String.ofList run.reverse) :: partsFrom [] rest := by
  rw [partsFrom, if_neg (by decide), if_pos (by simp [some])]

theorem filledFrom_other (other : character.isAlphanum = false)
    (plain : character ≠ '?' ∨ run = []) :
    filledFrom content run (character :: rest)
      = run.reverse ++ character :: filled content rest := by
  rw [filledFrom, partsFrom_other other plain, List.flatMap_append, List.flatMap_cons,
    flatMap_ofRun]
  rfl

/-- Letters that do not become the name of a hole stay. -/
theorem filledFrom_of_standsApart (apart : standsApart rest = true) :
    filledFrom content run rest = run.reverse ++ filled content rest := by
  induction rest generalizing run with
  | nil => simp [filledFrom, partsFrom]
  | cons character rest ih =>
      cases letter : character.isAlphanum with
      | true =>
          rw [standsApart, if_pos letter] at apart
          have one : filled content (character :: rest) = character :: filled content rest := by
            rw [filled, filledFrom, partsFrom_letter letter]
            exact ih apart
          rw [one, filledFrom, partsFrom_letter letter]
          exact (ih apart).trans (by simp)
      | false =>
          rw [standsApart, if_neg (by simp [letter]), bne_iff_ne] at apart
          rw [filledFrom_other letter (.inl apart), filled.eq_1 content (_ :: _),
            filledFrom_other letter (.inl apart)]
          rfl

theorem partsFrom_letters (letters : ∀ letter ∈ word, letter.isAlphanum = true) :
    partsFrom run (word ++ rest) = partsFrom (word.reverse ++ run) rest := by
  induction word generalizing run with
  | nil => rfl
  | cons letter others ih =>
      rw [List.forall_mem_cons] at letters
      rw [List.cons_append, partsFrom_letter letters.1, ih letters.2]
      simp

theorem standsApart_append (unmarked : '?' ∉ text) (apart : standsApart rest = true) :
    standsApart (text ++ rest) = true := by
  induction text with
  | nil => exact apart
  | cons character text ih =>
      rw [List.mem_cons, not_or] at unmarked
      rw [List.cons_append, standsApart]
      split
      · exact ih unmarked.2
      · exact bne_iff_ne.mpr (Ne.symm unmarked.1)

/-- A text and what stands apart behind it are filled one after the other. -/
theorem filledFrom_append (apart : standsApart rest = true) :
    filledFrom content run (text ++ rest) = filledFrom content run text ++ filled content rest := by
  induction run, text using scan_induction with
  | nil run =>
      rw [List.nil_append, filledFrom_of_standsApart apart, filledFrom, partsFrom, flatMap_ofRun]
  | letter run letter text isLetter ih =>
      rw [List.cons_append, filledFrom, partsFrom_letter isLetter, filledFrom,
        partsFrom_letter isLetter]
      exact ih
  | hole run text some ih =>
      rw [List.cons_append, filledFrom, partsFrom_hole some, filledFrom, partsFrom_hole some,
        List.flatMap_cons, List.flatMap_cons, List.append_assoc]
      exact congrArg _ ih
  | other run letter text notLetter notMark ih =>
      rw [List.cons_append, filledFrom_other notLetter notMark, filledFrom_other notLetter notMark,
        List.append_assoc, List.cons_append]
      exact congrArg (run.reverse ++ letter :: ·) ih

theorem filled_append (apart : standsApart rest = true) :
    filled content (text ++ rest) = filled content text ++ filled content rest :=
  filledFrom_append apart

/-- A text whose holes stay holes stays. -/
theorem filledFrom_of_open
    (opened : ∀ name, .hole name ∈ partsFrom run text → content name = name.toList ++ ['?']) :
    filledFrom content run text = run.reverse ++ text := by
  induction run, text using scan_induction with
  | nil run => simp [filledFrom, partsFrom]
  | letter run letter text isLetter ih =>
      rw [partsFrom_letter isLetter] at opened
      rw [filledFrom, partsFrom_letter isLetter]
      exact (ih opened).trans (by simp)
  | hole run text some ih =>
      rw [partsFrom_hole some] at opened
      have rest := ih fun name member => opened name (List.mem_cons_of_mem _ member)
      rw [filledFrom, List.reverse_nil, List.nil_append] at rest
      rw [filledFrom, partsFrom_hole some, List.flatMap_cons, Part.filled,
        opened _ List.mem_cons_self, rest]
      simp
  | other run letter text notLetter notMark ih =>
      rw [filledFrom_other notLetter notMark, filled, ih]
      · rfl
      · intro name member
        apply opened name
        rw [partsFrom_other notLetter notMark]
        exact List.mem_append_right _ (List.mem_cons_of_mem _ member)

theorem hole_not_mem_ofRun {name : String} : .hole name ∉ Part.ofRun run := by
  cases run <;> simp [Part.ofRun]

/-- A hole ends with a question mark. -/
theorem mark_mem_of_hole {name : String} (member : .hole name ∈ partsFrom run text) :
    '?' ∈ text := by
  induction run, text using scan_induction with
  | nil run => exact absurd member hole_not_mem_ofRun
  | letter run letter text isLetter ih =>
      rw [partsFrom_letter isLetter] at member
      exact List.mem_cons_of_mem _ (ih member)
  | hole run text some _ => exact List.mem_cons_self
  | other run letter text notLetter notMark ih =>
      rw [partsFrom_other notLetter notMark, List.mem_append, List.mem_cons] at member
      rcases member with inRun | same | later
      · exact absurd inRun hole_not_mem_ofRun
      · cases same
      · exact List.mem_cons_of_mem _ (ih later)

/-- The name of a hole is a word. -/
theorem word_of_hole {name : String} (letters : ∀ letter ∈ run, letter.isAlphanum = true)
    (member : .hole name ∈ partsFrom run text) :
    name.toList ≠ [] ∧ ∀ letter ∈ name.toList, letter.isAlphanum = true := by
  induction run, text using scan_induction with
  | nil run => exact absurd member hole_not_mem_ofRun
  | letter run letter text isLetter ih =>
      rw [partsFrom_letter isLetter] at member
      exact ih (List.forall_mem_cons.mpr ⟨isLetter, letters⟩) member
  | hole run text some ih =>
      rw [partsFrom_hole some, List.mem_cons] at member
      rcases member with same | later
      · cases same
        exact ⟨by simpa using some, by simpa using letters⟩
      · exact ih nofun later
  | other run letter text notLetter notMark ih =>
      rw [partsFrom_other notLetter notMark, List.mem_append, List.mem_cons] at member
      rcases member with inRun | same | later
      · exact absurd inRun hole_not_mem_ofRun
      · cases same
      · exact ih nofun later

end Scanning

theorem ne_mark_of_letters {word : List Char}
    (letters : ∀ letter ∈ word, letter.isAlphanum = true) :
    '?' ∉ word := by
  intro member
  exact absurd (letters _ member) (by decide)

/-! ## Texts with marks -/

/-- Whether a character belongs to no hole. -/
def Separates (separator : Char) : Prop :=
  separator.isAlphanum = false ∧ separator ≠ '?'

instance (separator : Char) : Decidable (Separates separator) :=
  inferInstanceAs (Decidable (_ ∧ _))

theorem Separates.standsApart {separator : Char} (separates : Separates separator)
    (rest : List Char) :
    standsApart (separator :: rest) = true := by
  rw [Expansion.standsApart, if_neg (by simp [separates.1])]
  exact bne_iff_ne.mpr separates.2

/-- Filling the marks of a text leads to the plain text. -/
def Becomes (content : String → List Char) (marked plain : List Char) : Prop :=
  filled content marked = plain

namespace Becomes

variable {content : String → List Char} {marked plain marked' plain' : List Char}

theorem nil : Becomes content [] [] := rfl

/-- A text stays if none of its holes is filled. -/
theorem opened {text : List Char}
    (stays : ∀ name, .hole name ∈ partsFrom [] text → content name = name.toList ++ ['?']) :
    Becomes content text text :=
  filledFrom_of_open stays

theorem kept {text : List Char} (unmarked : '?' ∉ text) : Becomes content text text := by
  apply opened
  intro name member
  exact absurd (mark_mem_of_hole member) unmarked

/-- A mark becomes what its hole is filled with. -/
theorem mark {name : String} (some : name.toList ≠ [])
    (letters : ∀ letter ∈ name.toList, letter.isAlphanum = true) :
    Becomes content (name.toList ++ ['?']) (content name) := by
  rw [Becomes, filled, filledFrom, partsFrom_letters letters, List.append_nil,
    partsFrom_hole (by simpa using some), List.reverse_reverse, String.ofList_toList]
  exact List.append_nil _

theorem append (first : Becomes content marked plain) (second : Becomes content marked' plain')
    (apart : standsApart marked' = true) :
    Becomes content (marked ++ marked') (plain ++ plain') := by
  rw [Becomes, filled_append apart, first, second]

/-- What begins with a character that belongs to no hole stands apart. -/
theorem join (separator : Char) (separates : Separates separator)
    (first : Becomes content marked plain) (second : Becomes content marked' plain') :
    Becomes content (marked ++ separator :: marked') (plain ++ separator :: plain') := by
  have behind : Becomes content (separator :: marked') (separator :: plain') := by
    rw [Becomes, filled, filledFrom_other separates.1 (.inl separates.2), second]
    rfl
  exact first.append behind (separates.standsApart marked')

/-- A question mark behind no name stays. -/
theorem question (becomes : Becomes content marked plain) :
    Becomes content ('?' :: marked) ('?' :: plain) := by
  rw [Becomes, filled, filledFrom_other rfl (.inr rfl), becomes]
  rfl

end Becomes

/-! ## Templates -/

/-- Two parts that do not run together: a hole, and neither a hole nor a question mark after it. -/
def Part.Apart : Part → Part → Prop
  | .hole _, .hole _ => False
  | .hole _, .text shown => shown ≠ ['?']
  | .text _, _ => True

instance : DecidableRel Part.Apart
  | .hole _, .hole _ => inferInstanceAs (Decidable False)
  | .hole _, .text shown => inferInstanceAs (Decidable (shown ≠ ['?']))
  | .text _, _ => inferInstanceAs (Decidable True)

/-- What follows a hole stands apart, however its own holes are filled. -/
theorem standsApart_filledFrom {content : String → List Char} {name : String} {run text : List Char}
    (letters : ∀ letter ∈ run, letter.isAlphanum = true)
    (apart : ∀ part ∈ (partsFrom run text).head?, Part.Apart (.hole name) part) :
    standsApart (filledFrom content run text) = true := by
  induction run, text using scan_induction with
  | nil run =>
      rw [filledFrom, partsFrom, flatMap_ofRun, ← List.append_nil run.reverse]
      exact standsApart_append (ne_mark_of_letters (by simpa using letters)) rfl
  | letter run letter text isLetter ih =>
      rw [partsFrom_letter isLetter] at apart
      rw [filledFrom, partsFrom_letter isLetter]
      exact ih (List.forall_mem_cons.mpr ⟨isLetter, letters⟩) apart
  | hole run text some _ =>
      rw [partsFrom_hole some] at apart
      exact (apart _ rfl).elim
  | other run letter text notLetter plain _ =>
      rw [partsFrom_other notLetter plain] at apart
      have notMark : letter ≠ '?' := by
        rcases plain with plain | rfl
        · exact plain
        · rintro rfl
          exact apart _ rfl rfl
      rw [filledFrom_other notLetter plain]
      apply standsApart_append
      · exact ne_mark_of_letters (by simpa using letters)
      · exact Separates.standsApart ⟨notLetter, notMark⟩ _

/-- Filling holes with texts with marks or with the plain texts leads to the same. -/
theorem becomes_filledFrom {content marks texts : String → List Char} {run text : List Char}
    (letters : ∀ letter ∈ run, letter.isAlphanum = true)
    (apart : (partsFrom run text).IsChain Part.Apart)
    (holes : ∀ name, .hole name ∈ partsFrom run text → Becomes content (marks name) (texts name)) :
    Becomes content (filledFrom marks run text) (filledFrom texts run text) := by
  induction run, text using scan_induction with
  | nil run =>
      rw [filledFrom, partsFrom, filledFrom, partsFrom, flatMap_ofRun, flatMap_ofRun]
      exact .kept (ne_mark_of_letters (by simpa using letters))
  | letter run letter text isLetter ih =>
      rw [partsFrom_letter isLetter] at apart holes
      rw [filledFrom, filledFrom, partsFrom_letter isLetter]
      exact ih (List.forall_mem_cons.mpr ⟨isLetter, letters⟩) apart holes
  | hole run text some ih =>
      rw [partsFrom_hole some] at apart holes
      rw [List.isChain_cons] at apart
      rw [filledFrom, filledFrom, partsFrom_hole some]
      apply Becomes.append (holes _ List.mem_cons_self)
      · exact ih nofun apart.2 fun name member => holes name (List.mem_cons_of_mem _ member)
      · exact standsApart_filledFrom (List.forall_mem_nil _) apart.1
  | other run letter text notLetter plain ih =>
      rw [partsFrom_other notLetter plain] at apart holes
      have chain := apart.right_of_append
      rw [List.isChain_cons] at chain
      have later := ih nofun chain.2 fun name member =>
        holes name (List.mem_append_right _ (List.mem_cons_of_mem _ member))
      rw [filledFrom_other notLetter plain, filledFrom_other notLetter plain]
      by_cases isMark : letter = '?'
      · rcases plain with plain | rfl
        · exact absurd isMark plain
        · rw [isMark]
          exact later.question
      · apply Becomes.join letter ⟨notLetter, isMark⟩ _ later
        exact .kept (ne_mark_of_letters (by simpa using letters))

/-- Filling the marks of a text leads to the plain text. -/
def BecomesText (content : String → List Char) (marked plain : String) : Prop :=
  Becomes content marked.toList plain.toList

/-- Bindings of the same names, to texts with marks and to the plain texts. -/
def BoundAlike (content : String → List Char) (marked plain : String × String) : Prop :=
  marked.1 = plain.1 ∧ BecomesText content marked.2 plain.2

/-- Where the second gives something, the first gives something that is related to it. -/
def Yields {α β : Type} (related : α → β → Prop) (first : Except Error α)
    (second : Except Error β) :
    Prop :=
  ∀ value, second = .ok value → ∃ other, first = .ok other ∧ related other value

/-- A template keeps marks with some names: none of its holes stands right before another hole or a
question mark, and it fills the holes that have such a name. -/
structure Template.KeepsMarks (template : Template) (names : List String) : Prop where
  apart : template.parts.IsChain Part.Apart
  own : ∀ name ∈ template.holes, name ∈ names →
    template.target = some name ∨ ∃ param ∈ template.params, param.name = name

/-- What stands in the holes of a template. -/
def Template.inHole (template : Template) (target : Option String) (bound : List (String × String))
    (name : String) : List Char :=
  template.fillPart target bound (.hole name)

section Templates

variable {content : String → List Char} {template : Template} {marks texts : List String}

theorem becomes_commaSeparated (becomes : List.Forall₂ (BecomesText content) marks texts) :
    BecomesText content (commaSeparated marks) (commaSeparated texts) := by
  induction becomes with
  | nil => exact .nil
  | cons here rest ih =>
      cases rest with
      | nil => simpa only [commaSeparated_singleton] using here
      | cons =>
          have joined := here.join ',' (by decide) (Becomes.nil.join ' ' (by decide) ih)
          simpa [BecomesText, commaSeparated_cons_cons] using joined

theorem boundAlike_zip {names : List String}
    (becomes : List.Forall₂ (BecomesText content) marks texts) :
    List.Forall₂ (BoundAlike content) (names.zip marks) (names.zip texts) := by
  induction becomes generalizing names with
  | nil => simp
  | cons here _ ih =>
      cases names with
      | nil => exact .nil
      | cons name names => exact .cons ⟨rfl, here⟩ ih

theorem boundAlike_bindings (becomes : List.Forall₂ (BecomesText content) marks texts) :
    List.Forall₂ (BoundAlike content) (template.bindings marks) (template.bindings texts) := by
  have single : List.Forall₂ (BoundAlike content) ((template.params.map Param.name).zip marks)
      ((template.params.map Param.name).zip texts) := boundAlike_zip becomes
  unfold Template.bindings
  cases becomes with
  | nil => exact .nil
  | cons here rest =>
      simp only [List.isEmpty_cons, Bool.false_eq_true, if_false]
      split
      · apply List.Forall₂.cons _ (List.rel_reverse single)
        exact ⟨rfl, becomes_commaSeparated (List.forall₂_drop _ (.cons here rest))⟩
      · exact List.rel_reverse single

theorem rel_lookup {bound bound' : List (String × String)}
    (alike : List.Forall₂ (BoundAlike content) bound bound') (name : String) :
    Option.Rel (BecomesText content) (bound.lookup name) (bound'.lookup name) := by
  induction alike with
  | nil => exact .none
  | @cons entry entry' _ _ here _ ih =>
      rw [List.lookup_cons, List.lookup_cons, here.1]
      split
      · exact .some here.2
      · exact ih

theorem mem_bindings_of_mem_zip {entry : String × String} (given : texts ≠ [])
    (member : entry ∈ (template.params.map Param.name).zip texts) :
    entry ∈ template.bindings texts := by
  rw [Template.bindings, if_neg (by simpa using given)]
  dsimp only
  split
  · exact List.mem_cons_of_mem _ (List.mem_reverse.mpr member)
  · exact List.mem_reverse.mpr member

theorem exists_mem_bindings_of_last {param : Param} (given : texts ≠ [])
    (last : template.params.getLast? = some param) (variadic : param.isVariadic = true) :
    ∃ text, (param.name, text) ∈ template.bindings texts := by
  rcases param with ⟨name, isVariadic⟩
  cases variadic
  rw [Template.bindings, if_neg (by simpa using given), last]
  exact ⟨_, List.mem_cons_self⟩

/-- A hole for a parameter is filled if the template takes the arguments. -/
theorem exists_mem_bindings (admitted : template.admits texts.length = true) {param : Param}
    (declared : param ∈ template.params) (asked : param.name ∈ template.holes) :
    ∃ text, (param.name, text) ∈ template.bindings texts := by
  have used : template.usesParams = true := by
    apply List.any_eq_true.mpr
    exact ⟨param.name, asked, List.any_eq_true.mpr ⟨param, declared, beq_self_eq_true _⟩⟩
  have given : texts ≠ [] := by
    rintro rfl
    simp [Template.admits, used] at admitted
  rw [Template.admits, if_neg (by simpa using given)] at admitted
  rcases List.getElem_of_mem declared with ⟨index, bound, rfl⟩
  by_cases own : index < texts.length
  · refine ⟨texts[index], mem_bindings_of_mem_zip given ?_⟩
    apply List.mem_iff_getElem.mpr
    exact ⟨index, by simpa [Nat.lt_min] using ⟨bound, own⟩, by simp⟩
  · -- A parameter without an argument of its own is variadic and the last one.
    cases variadic : template.isVariadic with
    | false =>
        rw [variadic] at admitted
        simp only [Bool.false_eq_true, if_false, decide_eq_true_eq] at admitted
        omega
    | true =>
        rw [variadic, if_pos rfl, decide_eq_true_eq] at admitted
        have last : template.params.getLast? = some template.params[index] := by
          rw [List.getLast?_eq_getElem?, show template.params.length - 1 = index by omega]
          exact List.getElem?_eq_getElem bound
        apply exists_mem_bindings_of_last given last
        simpa [Template.isVariadic, last] using variadic

theorem Template.flatMap_fillPart (target : Option String) (bound : List (String × String)) :
    template.parts.flatMap (template.fillPart target bound)
      = filled (template.inHole target bound) template.text.toList := by
  apply List.flatMap_congr
  intro part _
  cases part <;> rfl

/-- A hole that is left open does not have the name of a mark. -/
theorem Template.KeepsMarks.not_mem_of_unbound {names : List String}
    (keeps : template.KeepsMarks names) (admitted : template.admits texts.length = true)
    {name : String} (hole : name ∈ template.holes) (notTarget : template.target ≠ some name)
    (unbound : (template.bindings texts).lookup name = none) : name ∉ names := by
  intro member
  rcases keeps.own name hole member with target | ⟨param, declared, rfl⟩
  · exact notTarget target
  · rcases exists_mem_bindings admitted declared hole with ⟨text, bound⟩
    have differs := List.lookup_eq_none_iff.mp unbound _ bound
    simp at differs

/-- What stands in a hole with marks becomes what stands in it with the plain texts. -/
theorem becomes_content {names : List String}
    (opened : ∀ name, name ∉ names → content name = name.toList ++ ['?'])
    (keeps : template.KeepsMarks names) (becomes : List.Forall₂ (BecomesText content) marks texts)
    {target target' : Option String} (targets : Option.Rel (BecomesText content) target target')
    (admitted : template.admits texts.length = true) {name : String}
    (hole : name ∈ template.holes) :
    Becomes content (template.inHole target (template.bindings marks) name)
      (template.inHole target' (template.bindings texts) name) := by
  have isHole : .hole name ∈ partsFrom [] template.text.toList := by
    rcases List.mem_filterMap.mp hole with ⟨part, member, same⟩
    cases part with
    | text => cases same
    | hole other =>
        cases same
        exact member
  rcases word_of_hole (List.forall_mem_nil _) isHole with ⟨some, letters⟩
  have alike : Option.Rel (BecomesText content) ((template.bindings marks).lookup name)
      ((template.bindings texts).lookup name) := rel_lookup (boundAlike_bindings becomes) name
  rw [Template.inHole, Template.inHole, Template.fillPart, Template.fillPart]
  split_ifs with isTarget
  · cases targets with
    | some here => exact here
    | none =>
        generalize (template.bindings marks).lookup name = mark at alike ⊢
        generalize (template.bindings texts).lookup name = text at alike ⊢
        cases alike with
        | some here => exact here
        | none => exact .kept (ne_mark_of_letters letters)
  · generalize (template.bindings marks).lookup name = mark at alike ⊢
    generalize bound : (template.bindings texts).lookup name = text at alike ⊢
    cases alike with
    | some here => exact here
    | none =>
        have stays : Becomes content (name.toList ++ ['?']) (content name) := .mark some letters
        rw [opened name (keeps.not_mem_of_unbound admitted hole isTarget bound)] at stays
        exact stays

/-- Filling a template with texts with marks leads to what filling it with the plain texts does. -/
theorem yields_fill {names : List String}
    (opened : ∀ name, name ∉ names → content name = name.toList ++ ['?'])
    (keeps : template.KeepsMarks names) (becomes : List.Forall₂ (BecomesText content) marks texts)
    {target target' : Option String} (targets : Option.Rel (BecomesText content) target target') :
    Yields (BecomesText content) (template.fill target marks) (template.fill target' texts) := by
  intro text written
  rw [Template.fill] at written
  split at written
  · next admitted =>
    cases written
    rw [Template.fill, becomes.length_eq, if_pos admitted]
    refine ⟨_, rfl, ?_⟩
    rw [BecomesText, String.toList_ofList, String.toList_ofList, Template.flatMap_fillPart,
      Template.flatMap_fillPart]
    apply becomes_filledFrom (List.forall_mem_nil _) keeps.apart
    intro name member
    apply becomes_content opened keeps becomes targets admitted
    exact List.mem_filterMap.mpr ⟨.hole name, member, rfl⟩
  · cases written

end Templates

end Treatise.Expansion
