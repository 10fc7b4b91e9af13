import Treatise.Proofs.Statement.Places

/-!
# Expressions whose written form is read back

The written form has no parentheses but those of the tree, and no blanks but those around operators
and relations. Three things are lost in this way, and an expression is `printable` if it has none of
them:

* the symbols of two prefix operators that come one after the other run together into one symbol,
* the name `not` in front of a blank is taken for the beginning of `not in`,
* a group in square brackets with colons is written in parentheses, where a comma separates the
  items of a tuple before it separates the operands of a relation.
-/

namespace Treatise.Statement

/-- Whether words begin with the symbol of an operator. -/
def beginWithSymbol : List Word → Bool
  | .exactly .operator _ :: _ => true
  | _ => false

/-- Whether words end in the name `not`. -/
def endInNot (words : List Word) : Bool :=
  words.getLast? == some (.exactly .name "not")

theorem endInNot_append_of_right {words others : List Word} (ends : endInNot others = true) :
    endInNot (words ++ others) = true := by
  rw [endInNot, beq_iff_eq] at ends ⊢
  rw [List.getLast?_append, ends]
  rfl

theorem beginWithSymbol_of_append {words others : List Word}
    (begins : beginWithSymbol (words ++ others) = false) : beginWithSymbol words = false := by
  rcases words with _ | ⟨⟨kind, _⟩ | _ | _ | _, _⟩
  · rfl
  · cases kind <;> exact begins
  all_goals exact begins

mutual

/-- Whether the written form of an expression is read as the expression again. -/
def Expr.printable : Expr → Bool
  | .name _ _ | .variadic _ _ | .text _ _ | .empty _ => true
  | .command _ groups _ | .call _ _ groups _ => groupsPrintable groups
  | .function _ items _ | .tuple items _ | .set items _ => allPrintable items
  | .grouped inner _ => inner.printable && inner.flat
  | .operation operator left right _ =>
    operatorPrintable operator && left.printable && right.printable && !endInNot left.written
  | .prefixed operator operand _ =>
    operatorPrintable operator && operand.printable && !beginWithSymbol operand.written
  | .relation _ left right _ =>
    allPrintable left && allPrintable right && !endInNot (listWritten left)
  | .assignment left right _ => left.printable && right.printable && !endInNot left.written

def operatorPrintable : Operator → Bool
  | .symbol _ _ => true
  | .command _ groups _ => groupsPrintable groups

def groupsPrintable : List ArgGroup → Bool
  | [] => true
  | .mk _ items :: rest => allPrintable items && groupsPrintable rest

def allPrintable : List Expr → Bool
  | [] => true
  | item :: rest => item.printable && allPrintable rest

end

@[simp]
theorem groupsPrintable_append (groups others : List ArgGroup) :
    groupsPrintable (groups ++ others) = (groupsPrintable groups && groupsPrintable others) := by
  induction groups with
  | nil => rfl
  | cons group rest ih =>
      rcases group with ⟨slot, items⟩
      simp [groupsPrintable, ih, Bool.and_assoc]

theorem printable_applied (word : String) (params : List Expr) (location : Location) :
    (applied word params location).printable = allPrintable params := by
  unfold applied
  dsimp only
  split
  · rw [Expr.printable]
  · rw [Expr.printable, groupsPrintable, groupsPrintable, Bool.and_true]

theorem printable_commandExpr (names : List String) (groups : List ArgGroup) (location : Location) :
    (commandExpr names groups location).printable = groupsPrintable groups := by
  unfold commandExpr
  split <;> rw [Expr.printable]

/-- Whether an operator or an operand is printable. -/
def Factor.printable : Factor → Bool
  | .operand expr => expr.printable
  | .operator symbol => operatorPrintable symbol

theorem printable_of_attach {tree operand : Expr} {operator : Operator}
    (printable : (tree.attach operator operand).printable = true) :
    tree.printable = true ∧ operatorPrintable operator = true ∧ operand.printable = true := by
  fun_induction Expr.attach tree operator operand with
  | case1 outer left right location looser ih =>
      simp only [Expr.printable, Bool.and_eq_true] at printable ⊢
      rcases printable with ⟨⟨⟨outer, left⟩, right⟩, apart⟩
      rcases ih right with ⟨right, operator, operand⟩
      exact ⟨⟨⟨⟨outer, left⟩, right⟩, apart⟩, operator, operand⟩
  | case2 outer left right location tighter =>
      rw [Expr.printable, Bool.and_eq_true, Bool.and_eq_true, Bool.and_eq_true] at printable
      exact ⟨printable.1.1.2, printable.1.1.1, printable.1.2⟩
  | case3 tree other =>
      rw [Expr.printable, Bool.and_eq_true, Bool.and_eq_true, Bool.and_eq_true] at printable
      exact ⟨printable.1.1.2, printable.1.1.1, printable.1.2⟩

theorem printable_of_prefixedBy {operators : List Operator} {operand : Expr}
    (printable : (prefixedBy operators operand).printable = true) :
    (∀ operator ∈ operators, operatorPrintable operator = true) ∧ operand.printable = true := by
  induction operators with
  | nil => exact ⟨nofun, printable⟩
  | cons operator rest ih =>
      rw [prefixedBy, List.foldr_cons, Expr.printable, Bool.and_eq_true,
        Bool.and_eq_true] at printable
      rcases ih printable.1.2 with ⟨others, operand⟩
      exact ⟨List.forall_mem_cons.mpr ⟨printable.1.1, others⟩, operand⟩

theorem printable_of_readFactors {location : Location} {tree : Option Expr}
    {pending : List Operator} {found : List Factor} {expr : Expr}
    (clean : readFactors location tree pending found = ⟨expr, []⟩)
    (printable : expr.printable = true) : (∀ expr ∈ tree, expr.printable = true)
      ∧ (∀ operator ∈ pending, operatorPrintable operator = true)
      ∧ ∀ factor ∈ found, factor.printable = true := by
  fun_induction readFactors location tree pending found with
  | case1 tree pending operator rest ih =>
      rcases ih clean with ⟨tree, pending, found⟩
      rw [List.forall_mem_append] at pending
      exact ⟨tree, pending.1, List.forall_mem_cons.mpr ⟨pending.2 _ (.head _), found⟩⟩
  | case2 => exact absurd clean Review.report_bind_ne_clean
  | case3 operand rest tree operator operators ih =>
      rcases ih clean with ⟨whole, _, found⟩
      rcases printable_of_attach (whole _ rfl) with ⟨tree, operator, right⟩
      rcases printable_of_prefixedBy right with ⟨operators, operand⟩
      exact ⟨by simpa using tree, List.forall_mem_cons.mpr ⟨operator, operators⟩,
        List.forall_mem_cons.mpr ⟨operand, found⟩⟩
  | case4 operand rest operators ih =>
      rcases ih clean with ⟨whole, _, found⟩
      rcases printable_of_prefixedBy (whole _ rfl) with ⟨operators, operand⟩
      exact ⟨by simp, operators, List.forall_mem_cons.mpr ⟨operand, found⟩⟩
  | case5 tree =>
      cases Review.pure_eq_clean_iff.mp clean
      exact ⟨by simpa using printable, by simp, by simp⟩
  | case6 | case7 => exact absurd clean missing_bind_ne_clean

end Treatise.Statement
