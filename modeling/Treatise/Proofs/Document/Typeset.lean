import Treatise.Proofs.Document.Depiction
import Treatise.Proofs.Document.Relocation
import Treatise.Proofs.Layout.Page
import Treatise.Proofs.Outline.Sayable

/-!
# Blocks on the page

A block that depicts a group of written tokens is a page, and the tokens of the page spell the group
at no place. The dots and the indentation of the page open and close the blocks of the grammar: the
induction goes through the block with the level of its lines, and with what stands before its first
line.
-/

namespace Treatise.Document

open Layout (Token Mark Literal Page Lead Yields Written indents unplaced openMark closeMark
  written_cons written_append)
open Layout.Lexeme (EndsName EndsOperator)
open Markup (Piece)
open Outline (Argument Group Section Target TargetsSpelled InlineSpelled SectionsSpelled
  ArgumentsSpelled SectionsSayable ArgumentsSayable listedCode mapSections mapArguments)

/-! ## Pieces as characters -/

def chars (pieces : List Piece) : List Char := (Markup.plain pieces).toList

@[simp]
theorem chars_nil : chars [] = [] := rfl

@[simp]
theorem chars_cons (piece : Piece) (rest : List Piece) :
    chars (piece :: rest) = piece.text.toList ++ chars rest := by
  simp [chars, Markup.plain, String.join_cons]

@[simp]
theorem chars_append (first second : List Piece) :
    chars (first ++ second) = chars first ++ chars second := by
  simp [chars, Markup.plain, String.join_append]

@[simp]
theorem text_plain (text : String) : (Piece.plain text).text = text := rfl

@[simp]
theorem text_tagged (tag : Markup.Tag) (text : String) : (Piece.tagged tag text).text = text := rfl

@[simp]
theorem toList_newline : newline.text.toList = ['\n'] := rfl

theorem rowPieces_cons (show_ : Formula → String) (lead : Piece) (depth : Nat) (row : Row)
    (rest : List Row) : rowPieces show_ lead depth (row :: rest)
      = rowPieces show_ lead depth [row] ++ rowPieces show_ (margin depth) depth rest := by
  rcases row with ⟨name, inline, arguments⟩
  simp [rowPieces]

theorem itemPieces_cons (show_ : Formula → String) (depth : Nat) (item : Item) (rest : List Item) :
    itemPieces show_ depth (item :: rest)
      = itemPieces show_ depth [item] ++ itemPieces show_ depth rest := by
  cases item <;> simp [itemPieces]

theorem toList_indentation (depth : Nat) : (indentation depth).toList = indents depth := by
  simp [indentation, indents, String.toList_join, List.flatMap_replicate]

theorem lead_margin (level : Nat) : Lead level (margin level).text.toList [] := by
  rw [margin, text_plain, toList_indentation]
  exact .margin level

theorem lead_bullet (level : Nat) :
    Lead (level + 1) (bullet level).text.toList [Mark.dotSpace.token] := by
  rw [bullet, text_plain, String.toList_append, toList_indentation]
  exact .bullet level

/-! ## Leaves -/

@[simp]
theorem text_ofToken (token : Token) :
    (Formula.ofToken token).text = withoutDelimiters token.text := rfl

/-- What stands between the delimiters of a written literal, with the delimiters put back. -/
theorem delimited_text {token : Token} {literal : Literal} (written : token.Written)
    (isLiteral : token.kind = .literal literal) (notComment : literal ≠ .blockComment) :
    literal.opening ++ withoutDelimiters token.text ++ literal.closing = token.text := by
  rcases written.delimited isLiteral notComment with ⟨body, text⟩
  have between : (withoutDelimiters token.text).toList = body := by
    rw [withoutDelimiters, text]
    cases literal <;> simp_all [Literal.opening, Literal.closing]
  apply String.toList_injective
  rw [String.toList_append, String.toList_append, between, text]

/-- A leaf is printed as the target that it depicts is written. -/
theorem Leaf.Depicts.text_piece {leaf : Leaf} {target : Target} (depicted : leaf.Depicts target)
    (sayable : target.Sayable) : (leaf.piece Formula.text).text = target.code := by
  cases depicted with
  | target => rfl
  | formula isFormula =>
      rcases sayable with ⟨_, ⟨_⟩, written⟩
      exact delimited_text (written_cons.mp written).1 isFormula (by simp)
  | text isText =>
      rcases sayable with ⟨_, ⟨_⟩, written⟩
      exact delimited_text (written_cons.mp written).1 isText (by simp)

/-- Targets that can be written are spelled by written tokens with commas between them. -/
theorem exists_targetsSpelled {targets : List Target} (some : targets ≠ [])
    (sayable : ∀ target ∈ targets, target.Sayable) :
    ∃ tokens, TargetsSpelled targets tokens ∧ Written tokens := by
  induction targets with
  | nil => exact absurd rfl some
  | cons target rest ih =>
      rcases List.forall_mem_cons.mp sayable with ⟨⟨tokens, spelled, written⟩, sayable⟩
      by_cases last : rest = []
      · subst last
        exact ⟨tokens, .one spelled, written⟩
      · rcases ih last sayable with ⟨others, more, writtenMore⟩
        refine ⟨tokens ++ Mark.comma.token :: others, .more spelled rfl more, ?_⟩
        exact written_append.mpr ⟨written, written_cons.mpr ⟨Mark.written_comma, writtenMore⟩⟩

theorem chars_inlinePieces {leaves : List Leaf} {targets : List Target} (some : targets ≠ [])
    (depicted : List.Forall₂ Leaf.Depicts leaves targets)
    (sayable : ∀ target ∈ targets, target.Sayable) :
    chars (inlinePieces Formula.text leaves) = ' ' :: (listedCode targets).toList := by
  have others : ∀ {leaves : List Leaf} {targets : List Target},
      List.Forall₂ Leaf.Depicts leaves targets → (∀ target ∈ targets, target.Sayable) →
      ∀ first : Target, first.code.toList
          ++ chars (leaves.flatMap fun leaf => [.plain ", ", leaf.piece Formula.text])
        = (listedCode (first :: targets)).toList := by
    intro leaves targets depicted sayable
    induction depicted with
    | nil => simp [listedCode]
    | cons here _ ih =>
        rcases List.forall_mem_cons.mp sayable with ⟨first, sayable⟩
        intro target
        rw [List.flatMap_cons, chars_append, Outline.listedCode_cons (by simp),
          String.toList_append, String.toList_append, ← ih sayable, chars_cons, chars_cons,
          here.text_piece first]
        simp
  cases depicted with
  | nil => exact absurd rfl some
  | cons here more =>
      rcases List.forall_mem_cons.mp sayable with ⟨first, sayable⟩
      simp only [inlinePieces, chars_cons, here.text_piece first, others more sayable]
      rfl

/-- The line of a section yields the name, a colon and the targets on the line. -/
theorem exists_line {name : Token} {leaves : List Leaf} {targets : List Target}
    (isName : name.kind = .name) (written : name.Written)
    (depicted : List.Forall₂ Leaf.Depicts leaves targets)
    (sayable : ∀ target ∈ targets, target.Sayable) :
    ∃ tokens, InlineSpelled (targets.map (Target.mapLocations nowhere)) tokens
      ∧ ∀ following, Yields ((name.text ++ ":").toList ++ chars (inlinePieces Formula.text leaves))
        ('\n' :: following) (name.unplaced :: Mark.colon.token :: tokens) := by
  have begins : ∀ {following}, Yields name.text.toList (':' :: following) [name.unplaced] :=
    written.yields_name isName (by simp [EndsName])
  have colon : ∀ {next following}, next = ' ' ∨ next = '\n' →
      Yields Mark.colon.text.toList (next :: following) [Mark.colon.token] := by
    rintro next following (rfl | rfl)
    all_goals exact Mark.yields ⟨':', [], rfl, rfl⟩
  by_cases empty : targets = []
  · subst empty
    cases depicted
    refine ⟨[], .none, fun following => ?_⟩
    rw [String.toList_append, inlinePieces, chars_nil, List.append_nil]
    exact begins.append (colon (.inr rfl))
  · rcases exists_targetsSpelled empty sayable with ⟨tokens, spelled, writtenTokens⟩
    refine ⟨unplaced tokens, .some (spelled.moved nowhere), fun following => ?_⟩
    rw [chars_inlinePieces empty depicted sayable, String.toList_append, List.append_assoc]
    have ended : EndsOperator ('\n' :: following) := by simp [EndsOperator]
    have line := spelled.yields writtenTokens ended
    have blank := Yields.space (spelled.begins writtenTokens ('\n' :: following))
    exact begins.append ((colon (.inl rfl)).append (blank.append line))

/-- A formula or a text on a line of its own, behind a dot. -/
theorem exists_page_leaf {leaf : Leaf} {token : Token} (depicted : leaf.Depicts (.single token))
    (sayable : (Target.single token).Sayable)
    (kind : token.kind = .literal .statement ∨ token.kind = .literal .string) (level : Nat) :
    ∃ tokens, Page (level + 1) (chars (itemPieces Formula.text level [.leaf leaf])) tokens
      ∧ ∀ {arguments others}, ArgumentsSpelled arguments others →
        ArgumentsSpelled ((Argument.target (.single token)).mapLocations nowhere :: arguments)
          (tokens ++ others) := by
  have printed := depicted.text_piece sayable
  rcases sayable with ⟨_, spelled, written⟩
  cases spelled with
  | single alone =>
      have yields : ∀ following, Yields token.text.toList ('\n' :: following) [token.unplaced] :=
        fun following => alone.yields (written_cons.mp written).1 (by simp [EndsOperator])
      have page := Page.line (lead_bullet level) yields
        (by rcases kind with kind | kind <;> simp [Token.unplaced, kind]) (.nil _)
      refine ⟨[Mark.dotSpace.token, token.unplaced, openMark, closeMark], ?_, fun more => ?_⟩
      · simpa [itemPieces, printed, Target.code] using page
      · have moved : Outline.Single token.unplaced := alone
        exact ArgumentsSpelled.targets rfl (.one (.single moved))
          (by rcases kind with kind | kind <;> simp [Token.unplaced, kind]) rfl rfl more

/-! ## Blocks -/

mutual

/-- A block that depicts a group is a page that spells the group. -/
theorem Block.Depicts.exists_page {block : Block} {group : Group} (depicted : block.Depicts group)
    (sayable : group.Sayable) {lead : Piece} {level : Nat} {before : List Token}
    (leads : Lead level lead.text.toList before) :
    ∃ tokens, Page level (chars (blockPieces Formula.text lead level block)) (before ++ tokens)
      ∧ Group.Spelled (group.mapLocations nowhere) tokens := by
  match depicted with
  | .untagged depicted =>
    rcases sayable with ⟨-, some, sayable⟩
    rcases depicted.exists_page some sayable leads with ⟨tokens, page, spelled⟩
    exact ⟨tokens, page, .plain spelled⟩
  | @Block.Depicts.tagged id _ _ depicted =>
    rcases sayable with ⟨tagged, some, sayable⟩
    rcases tagged id rfl with ⟨isId, written⟩
    rcases depicted.exists_page some sayable (lead_margin level) with ⟨tokens, page, spelled⟩
    have line := Page.line leads (fun following => written.yields_literal isId (by simp) _)
      (by rw [Token.unplaced, Outline.kind_mapLocation, isId]; simp) (.nil _)
    refine ⟨id.unplaced :: openMark :: closeMark :: tokens, ?_, .tagged isId rfl rfl spelled⟩
    have whole := line.append page
    rw [← delimited_text written isId (by simp)] at whole
    simpa [blockPieces, Literal.opening, Literal.closing] using whole

theorem RowsDepict.exists_page {rows : List Row} {parts : List Section}
    (depicted : RowsDepict rows parts) (some : parts ≠ []) (sayable : SectionsSayable parts)
    {lead : Piece} {level : Nat} {before : List Token}
    (leads : Lead level lead.text.toList before) :
    ∃ tokens, Page level (chars (rowPieces Formula.text lead level rows)) (before ++ tokens)
      ∧ SectionsSpelled (mapSections nowhere parts) tokens := by
  match depicted with
  | .none => exact absurd rfl some
  | @RowsDepict.some _ _ _ parts depicted more =>
    rcases sayable with ⟨here, after⟩
    rcases depicted.exists_page here leads with ⟨tokens, page, spelled⟩
    by_cases last : parts = []
    · subst last
      cases more
      exact ⟨tokens, page, .one spelled⟩
    · rcases more.exists_page last after (lead_margin level) with ⟨others, page', spelled'⟩
      refine ⟨tokens ++ others, ?_, .more spelled spelled'⟩
      rw [rowPieces_cons, chars_append, ← List.append_assoc]
      exact page.append page'

theorem Row.Depicts.exists_page {row : Row} {part : Section} (depicted : row.Depicts part)
    (sayable : part.Sayable) {lead : Piece} {level : Nat} {before : List Token}
    (leads : Lead level lead.text.toList before) :
    ∃ tokens, Page level (chars (rowPieces Formula.text lead level [row])) (before ++ tokens)
      ∧ Section.Spelled (part.mapLocations nowhere) tokens := by
  match depicted with
  | @Row.Depicts.mk name _ _ _ _ onLine below =>
    rcases sayable with ⟨isName, written, sayable⟩
    rcases Outline.argumentsSayable_targets.mp sayable with ⟨leaves, sayable⟩
    rcases exists_line isName written onLine leaves with ⟨line, inline, yields⟩
    rcases below.exists_page sayable level with ⟨dotted, inner, spelled⟩
    have page := Page.line leads yields (by simp [Token.unplaced, isName]) inner
    refine ⟨name.unplaced :: Mark.colon.token :: line ++ openMark :: dotted ++ [closeMark], ?_, ?_⟩
    · simpa [rowPieces] using page
    · rw [Section.mapLocations, Outline.mapArguments_eq, List.map_append,
        Outline.map_target_mapLocations, ← Outline.mapArguments_eq]
      exact .mk isName rfl inline rfl spelled rfl

theorem ItemsDepict.exists_page {items : List Item} {arguments : List Argument}
    (depicted : ItemsDepict items arguments) (sayable : ArgumentsSayable arguments) (level : Nat) :
    ∃ tokens, Page (level + 1) (chars (itemPieces Formula.text level items)) tokens
      ∧ ArgumentsSpelled (mapArguments nowhere arguments) tokens := by
  match depicted with
  | .none => exact ⟨[], .nil _, .none⟩
  | .some depicted more =>
    rcases sayable with ⟨here, after⟩
    rcases depicted.exists_page here level with ⟨tokens, page, spelled⟩
    rcases more.exists_page after level with ⟨others, page', spelled'⟩
    refine ⟨tokens ++ others, ?_, spelled spelled'⟩
    rw [itemPieces_cons, chars_append]
    exact page.append page'

theorem Item.Depicts.exists_page {item : Item} {argument : Argument}
    (depicted : item.Depicts argument) (sayable : argument.Sayable) (level : Nat) :
    ∃ tokens, Page (level + 1) (chars (itemPieces Formula.text level [item])) tokens
      ∧ ∀ {arguments others}, ArgumentsSpelled arguments others →
        ArgumentsSpelled (argument.mapLocations nowhere :: arguments) (tokens ++ others) := by
  match depicted with
  | .formula isFormula => exact exists_page_leaf (.formula isFormula) sayable (.inl isFormula) level
  | .text isText => exact exists_page_leaf (.text isText) sayable (.inr isText) level
  | .block depicted =>
    rcases depicted.exists_page sayable (lead_bullet level) with ⟨tokens, page, spelled⟩
    refine ⟨Mark.dotSpace.token :: tokens, ?_, fun more => .group rfl spelled more⟩
    simpa [itemPieces] using page

end

end Treatise.Document
