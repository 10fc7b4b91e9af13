import Treatise.Proofs.Layout.Writing
import Treatise.Proofs.Outline.Relocation

/-!
# The written form of targets

A target that is spelled by written tokens has a written form that yields these tokens again. The
form puts blanks after commas and around the sign of an assignment, and these yield nothing.
-/

namespace Treatise.Outline

open Layout (Token TokenKind Mark Yields Written written_cons written_append unplaced unplaced_nil
  unplaced_cons unplaced_append)
open Layout.Lexeme (EndsName EndsOperator)

variable {first : Token} {rest tokens others : List Token} {following : List Char}

/-! ## Lists of targets -/

theorem codes_eq (targets : List Target) : Target.codes targets = targets.map Target.code := by
  induction targets with
  | nil => rfl
  | cons target rest ih => rw [Target.codes, ih, List.map_cons]

/-- The written form of targets in a list. -/
def listedCode (targets : List Target) : String :=
  ", ".intercalate (targets.map Target.code)

theorem listedCode_cons {target : Target} {targets : List Target} (some : targets ≠ []) :
    listedCode (target :: targets) = target.code ++ ", " ++ listedCode targets := by
  rw [listedCode, List.map_cons, String.intercalate_cons_of_ne_nil (by simpa using some)]
  rfl

theorem code_tuple (items : List Target) (location : Location) :
    (Target.tuple items location).code
      = Mark.leftParen.text ++ listedCode items ++ Mark.rightParen.text := by
  rw [Target.code, codes_eq]
  rfl

/-! ## Marks -/

/-- The marks of one character that nothing continues. -/
theorem yields_mark (mark : Mark)
    (plain : mark ∈ [.comma, .leftParen, .rightParen, .leftCurly, .rightCurly, .underscore]) :
    Yields mark.text.toList following [mark.token] := by
  refine Mark.yields ?_
  simp only [List.mem_cons, List.not_mem_nil, or_false] at plain
  rcases plain with rfl | rfl | rfl | rfl | rfl | rfl
  all_goals exact ⟨_, [], rfl, rfl⟩

/-- A comma and a blank in front of something that is no blank. -/
theorem yields_comma (apart : following.head? ≠ some ' ') :
    Yields ", ".toList following [Mark.comma.token] :=
  (yields_mark .comma (by simp)).append (Yields.space apart)

/-- The sign of an assignment between blanks. -/
theorem yields_colonEquals (apart : following.head? ≠ some ' ') :
    Yields " := ".toList following [Mark.colonEquals.token] :=
  (Yields.space (by change some ':' ≠ some ' '; decide)).append
    ((Mark.yields ⟨':', ['='], rfl, rfl⟩).append (Yields.space apart))

/-! ## Names -/

theorem NamesSpelled.ne_nil {names : List Token} (spelled : NamesSpelled names tokens) :
    names ≠ [] := by
  cases spelled <;> simp

theorem listed_cons {names : List Token} (some : names ≠ []) :
    Target.listed (first :: names) = first.text ++ ", " ++ Target.listed names := by
  rw [Target.listed, List.map_cons, String.intercalate_cons_of_ne_nil (by simpa using some)]
  rfl

theorem NamesSpelled.begins {names : List Token} (spelled : NamesSpelled names tokens)
    (written : Written tokens) (following : List Char) :
    ((Target.listed names).toList ++ following).head? ≠ some ' ' := by
  cases spelled with
  | one isName =>
      rcases (written_cons.mp written).1.head_ne_space (by simp [isName]) with
        ⟨character, more, text, apart⟩
      simpa [Target.listed, text] using apart
  | more isName _ spelled =>
      rcases (written_cons.mp written).1.head_ne_space (by simp [isName]) with
        ⟨character, more, text, apart⟩
      simpa [listed_cons spelled.ne_nil, text] using apart

/-- Names in a list yield the tokens that spell them. -/
theorem NamesSpelled.yields {names : List Token} (spelled : NamesSpelled names tokens)
    (written : Written tokens) (ends : EndsName following) :
    Yields (Target.listed names).toList following (unplaced tokens) := by
  induction spelled with
  | one isName =>
      rw [Target.listed, List.map_singleton, String.intercalate_singleton]
      exact (written_cons.mp written).1.yields_name isName ends
  | more isName isComma spelled ih =>
      simp only [written_cons] at written
      rcases written with ⟨writtenName, writtenComma, writtenMore⟩
      rw [listed_cons spelled.ne_nil, String.toList_append, String.toList_append, List.append_assoc,
        unplaced_cons, unplaced_cons, writtenComma.unplaced_mark isComma]
      exact (writtenName.yields_name isName (by simp [EndsName])).append
        ((yields_comma (spelled.begins writtenMore following)).append (ih writtenMore))

/-- Names between two marks yield the tokens that spell them. -/
theorem Enclosed.yields {opener closer : Mark} {names : List Token}
    (spelled : Enclosed opener closer names tokens) (written : Written tokens)
    (opens : opener ∈ [.leftParen, .leftCurly]) (closes : closer ∈ [.rightParen, .rightCurly])
    (following : List Char) :
    Yields (opener.text ++ Target.listed names ++ closer.text).toList following
      (unplaced tokens) := by
  have opening : ∀ {following}, Yields opener.text.toList following [opener.token] :=
    yields_mark _ (by
      simp only [List.mem_cons, List.not_mem_nil, or_false] at opens
      rcases opens with rfl | rfl <;> simp)
  have closing : ∀ {following}, Yields closer.text.toList following [closer.token] :=
    yields_mark _ (by
      simp only [List.mem_cons, List.not_mem_nil, or_false] at closes
      rcases closes with rfl | rfl <;> simp)
  have ends : ∀ {following}, EndsName (closer.text.toList ++ following) := by
    simp only [List.mem_cons, List.not_mem_nil, or_false] at closes
    rcases closes with rfl | rfl <;> simp [EndsName, Mark.text]
  rw [String.toList_append, String.toList_append, List.append_assoc]
  cases spelled with
  | empty isOpener isCloser =>
      simp only [written_cons] at written
      simp only [unplaced_cons, unplaced_nil, written.1.unplaced_mark isOpener,
        written.2.1.unplaced_mark isCloser]
      exact opening.append (Yields.nil.append closing)
  | names isOpener spelled isCloser =>
      simp only [written_append, written_cons] at written
      rcases written with ⟨⟨writtenOpener, writtenNames⟩, writtenCloser, -⟩
      simp only [unplaced_append, unplaced_cons, unplaced_nil, List.cons_append,
        writtenOpener.unplaced_mark isOpener, writtenCloser.unplaced_mark isCloser]
      exact opening.append ((spelled.yields writtenNames ends).append closing)

/-! ## Targets -/

theorem Single.yields (alone : Single first) (written : first.Written)
    (ends : EndsOperator following) : Yields first.text.toList following [first.unplaced] := by
  rcases alone with kind | kind | kind | kind | kind
  · exact written.yields_name kind ends.endsName
  · exact written.yields_operator kind ends
  all_goals exact written.yields_literal kind (by decide) following

theorem Target.Spelled.begins {found : Target} (spelled : Target.Spelled found tokens)
    (written : Written tokens) (following : List Char) :
    (found.code.toList ++ following).head? ≠ some ' ' := by
  cases spelled with
  | single alone =>
      have notComment : ∀ {token : Token}, Single token → token.kind ≠ .literal .blockComment := by
        rintro token (kind | kind | kind | kind | kind) <;> simp [kind]
      rcases (written_cons.mp written).1.head_ne_space (notComment alone) with
        ⟨character, others, text, apart⟩
      simpa [Target.code, text] using apart
  | enclosed _ => simp [Target.code]
  | assignment isName _ _ | applied isName _ | subscripted isName _ _ =>
      rcases (written_cons.mp written).1.head_ne_space (by simp [isName]) with
        ⟨character, others, text, apart⟩
      simpa [Target.code, text] using apart
  | subscriptedApplied isName _ _ _ =>
      rw [List.cons_append] at written
      rcases (written_cons.mp written).1.head_ne_space (by simp [isName]) with
        ⟨character, others, text, apart⟩
      simpa [Target.code, text] using apart
  | emptyTuple _ _ | tuple _ _ _ => simp [Target.code]

theorem TargetsSpelled.ne_nil {found : List Target} (spelled : TargetsSpelled found tokens) :
    found ≠ [] := by
  cases spelled <;> simp

theorem code_applied (name : Token) (params : List Token) :
    (Target.applied name none (some params)).code
      = name.text ++ (Mark.leftParen.text ++ Target.listed params ++ Mark.rightParen.text) := by
  simp [Target.code, Mark.text]

theorem code_subscripted (name : Token) (sub : List Token) :
    (Target.applied name (some sub) none).code
      = name.text ++ (Mark.underscore.text
        ++ (Mark.leftCurly.text ++ Target.listed sub ++ Mark.rightCurly.text)) := by
  simp [Target.code, Mark.text, ← String.append_assoc]

theorem code_subscripted_applied (name : Token) (sub params : List Token) :
    (Target.applied name (some sub) (some params)).code
      = name.text ++ (Mark.underscore.text
        ++ (Mark.leftCurly.text ++ Target.listed sub ++ Mark.rightCurly.text
        ++ (Mark.leftParen.text ++ Target.listed params ++ Mark.rightParen.text))) := by
  simp [Target.code, Mark.text, ← String.append_assoc]

theorem TargetsSpelled.begins {found : List Target} (spelled : TargetsSpelled found tokens)
    (written : Written tokens) (following : List Char) :
    ((listedCode found).toList ++ following).head? ≠ some ' ' := by
  cases spelled with
  | one spelled =>
      rw [listedCode, List.map_singleton, String.intercalate_singleton]
      exact spelled.begins written following
  | more spelled _ more =>
      rw [listedCode_cons more.ne_nil, String.append_assoc, String.toList_append, List.append_assoc]
      exact spelled.begins (written_append.mp written).1 _

mutual

/-- The written form of a target yields the tokens that spell it. -/
theorem Target.Spelled.yields {found : Target} {tokens : List Token} {following : List Char}
    (spelled : Target.Spelled found tokens) (written : Written tokens)
    (ends : EndsOperator following) : Yields found.code.toList following (unplaced tokens) := by
  match spelled with
  | .single alone => exact alone.yields (written_cons.mp written).1 ends
  | .enclosed spelled =>
    have whole := spelled.yields written (by simp) (by simp) following
    exact whole
  | .assignment isName isEquals spelled =>
    simp only [written_cons] at written
    rcases written with ⟨writtenName, writtenEquals, writtenValue⟩
    rw [Target.code, String.toList_append, String.toList_append, List.append_assoc, unplaced_cons,
      unplaced_cons, writtenEquals.unplaced_mark isEquals]
    exact (writtenName.yields_name isName (by simp [EndsName])).append
      ((yields_colonEquals (spelled.begins writtenValue following)).append
        (spelled.yields writtenValue ends))
  | .applied isName spelled =>
    rcases written_cons.mp written with ⟨writtenName, writtenParams⟩
    have params := spelled.yields writtenParams (by simp) (by simp) following
    rw [code_applied, String.toList_append, unplaced_cons]
    exact (writtenName.yields_name isName (by simp [EndsName, Mark.text])).append params
  | .subscripted isName isUnderscore spelled =>
    simp only [written_cons] at written
    rcases written with ⟨writtenName, writtenUnderscore, writtenSub⟩
    have sub := spelled.yields writtenSub (by simp) (by simp) following
    rw [code_subscripted, String.toList_append, String.toList_append, unplaced_cons, unplaced_cons,
      writtenUnderscore.unplaced_mark isUnderscore]
    exact (writtenName.yields_name isName (by simp [EndsName, Mark.text])).append
      ((yields_mark _ (by simp)).append sub)
  | @Target.Spelled.subscriptedApplied _ _ _ names _ _ isName isUnderscore spelled applied =>
    simp only [List.cons_append, written_cons, written_append] at written
    rcases written with ⟨writtenName, writtenUnderscore, writtenSub, writtenParams⟩
    have params := applied.yields writtenParams (by simp) (by simp) following
    have sub := spelled.yields writtenSub (by simp) (by simp)
      ((Mark.leftParen.text ++ Target.listed names ++ Mark.rightParen.text).toList ++ following)
    rw [code_subscripted_applied, String.toList_append, String.toList_append, String.toList_append,
      List.cons_append, List.cons_append, unplaced_cons, unplaced_cons, unplaced_append,
      writtenUnderscore.unplaced_mark isUnderscore]
    exact (writtenName.yields_name isName (by simp [EndsName, Mark.text])).append
      ((yields_mark _ (by simp)).append (sub.append params))
  | .emptyTuple opens closes =>
    simp only [written_cons] at written
    rcases written with ⟨writtenOpening, writtenClosing, -⟩
    rw [code_tuple, String.toList_append, String.toList_append, List.append_assoc, unplaced_cons,
      unplaced_cons, writtenOpening.unplaced_mark opens, writtenClosing.unplaced_mark closes]
    exact (yields_mark _ (by simp)).append (Yields.nil.append (yields_mark _ (by simp)))
  | .tuple opens spelled closes =>
    simp only [List.cons_append, written_cons, written_append] at written
    rcases written with ⟨writtenOpening, writtenItems, writtenClosing, -⟩
    have closed : EndsOperator (Mark.rightParen.text.toList ++ following) := by
      simp [EndsOperator, Mark.text]
    have items := spelled.yields writtenItems closed
    rw [code_tuple, String.toList_append, String.toList_append, List.append_assoc, List.cons_append,
      unplaced_cons, unplaced_append, unplaced_cons, writtenOpening.unplaced_mark opens,
      writtenClosing.unplaced_mark closes]
    exact (yields_mark _ (by simp)).append
      (items.append (yields_mark _ (by simp)))

/-- The written form of targets in a list yields the tokens that spell them. -/
theorem TargetsSpelled.yields {found : List Target} {tokens : List Token} {following : List Char}
    (spelled : TargetsSpelled found tokens) (written : Written tokens)
    (ends : EndsOperator following) :
    Yields (listedCode found).toList following (unplaced tokens) := by
  match spelled with
  | .one spelled =>
    rw [listedCode, List.map_singleton, String.intercalate_singleton]
    exact spelled.yields written ends
  | .more spelled isComma more =>
    simp only [written_append, written_cons] at written
    rcases written with ⟨writtenFirst, writtenComma, writtenMore⟩
    rw [listedCode_cons more.ne_nil, String.toList_append, String.toList_append, List.append_assoc,
      unplaced_append, unplaced_cons, writtenComma.unplaced_mark isComma]
    exact (spelled.yields writtenFirst (by simp [EndsOperator])).append
      ((yields_comma (more.begins writtenMore following)).append (more.yields writtenMore ends))

end

end Treatise.Outline
