import Treatise.Statement.Reading

/-!
# The grammar of statements

Once the contents of its bracket groups have been read, a statement is a flat list of terms. The
grammar says which terms spell which expression, in the levels in which they bind: operators and
operands, three levels of relations, and assignments.

A comma separates operands of the innermost relation around it, so a list whose items are separated
by commas is only spelled by items whose own commas all stand inside brackets. These items are
`flat`.
-/

namespace Treatise.Statement

/-! ## Commas outside brackets -/

mutual

/-- Whether all commas of an expression stand inside brackets. -/
def Expr.flat : Expr → Bool
  | .relation _ left right _ => flatSingle left && flatSingle right
  | .assignment left right _ => left.flat && right.flat
  | _ => true

/-- Whether a list is a single expression whose commas all stand inside brackets. -/
def flatSingle : List Expr → Bool
  | [item] => item.flat
  | _ => false

end

@[simp]
theorem flatSingle_singleton (item : Expr) : flatSingle [item] = item.flat := by
  rw [flatSingle]

/-! ## Commands -/

/-- The further names of a command, each after a dot. -/
inductive DottedSpelled : List String → List Term → Prop
  | none : DottedSpelled [] []
  | more {dot name : Token} {names : List String} {terms : List Term} (isDot : dot.kind = .dot)
      (isName : name.kind = .name) (more : DottedSpelled names terms) :
      DottedSpelled (name.text :: names) (.leaf dot :: .leaf name :: terms)

/-- A bracket group at a slot, whose content is read without a problem. -/
inductive SlotSpelled : Slot → List Expr → List Term → Prop
  | square {opener : Token} {items : List Expr} {whole : Review Fault Expr} :
      SlotSpelled .square items [.group .square opener ⟨items, []⟩ whole]
  | sub {underscore opener : Token} {items : List Expr} {whole : Review Fault Expr}
      (isUnderscore : underscore.kind = .underscore) :
      SlotSpelled .sub items [.leaf underscore, .group .curly opener ⟨items, []⟩ whole]
  | sup {caret opener : Token} {items : List Expr} {whole : Review Fault Expr}
      (isCaret : caret.kind = .caret) :
      SlotSpelled .sup items [.leaf caret, .group .curly opener ⟨items, []⟩ whole]
  | curly {opener : Token} {items : List Expr} {whole : Review Fault Expr} :
      SlotSpelled .curly items [.group .curly opener ⟨items, []⟩ whole]
  | named {colon name opener : Token} {items : List Expr} {whole : Review Fault Expr}
      (isColon : colon.kind = .colon) (isName : name.kind = .name) :
      SlotSpelled (.named name.text) items
        [.leaf colon, .leaf name, .group .curly opener ⟨items, []⟩ whole]
  | paren {opener : Token} {items : List Expr} {whole : Review Fault Expr} :
      SlotSpelled .paren items [.group .paren opener ⟨items, []⟩ whole]

/-- Bracket groups at some of the slots, in their order. -/
inductive SlotsSpelled : List Slot → List ArgGroup → List Term → Prop
  | none : SlotsSpelled [] [] []
  | skip {slot : Slot} {slots : List Slot} {groups : List ArgGroup} {terms : List Term}
      (more : SlotsSpelled slots groups terms) : SlotsSpelled (slot :: slots) groups terms
  | take {slot : Slot} {slots : List Slot} {items : List Expr} {groups : List ArgGroup}
      {terms others : List Term} (spelled : SlotSpelled slot items terms)
      (more : SlotsSpelled slots groups others) :
      SlotsSpelled (slot :: slots) (.mk slot items :: groups) (terms ++ others)

/-- The named groups of a command. -/
inductive NamedSpelled : List ArgGroup → List Term → Prop
  | none : NamedSpelled [] []
  | more {name : String} {items : List Expr} {groups : List ArgGroup} {terms others : List Term}
      (spelled : SlotSpelled (.named name) items terms) (more : NamedSpelled groups others) :
      NamedSpelled (.mk (.named name) items :: groups) (terms ++ others)

/-- The slots in front of the named groups of a command. -/
def frontSlots : List Slot := [.square, .sub, .sup, .curly]

/-- What follows the backslash of a command: its names and its bracket groups. -/
inductive CommandSpelled : List String → List ArgGroup → List Term → Prop
  | mk {name : Token} {names : List String} {front named back : List ArgGroup}
      {dotted frontTerms namedTerms backTerms : List Term} (isName : name.kind = .name)
      (spelledNames : DottedSpelled names dotted)
      (spelledFront : SlotsSpelled frontSlots front frontTerms)
      (spelledNamed : NamedSpelled named namedTerms)
      (spelledBack : SlotsSpelled [.paren] back backTerms) :
      CommandSpelled (name.text :: names) (front ++ named ++ back)
        (.leaf name :: (dotted ++ (frontTerms ++ (namedTerms ++ backTerms))))

/-! ## Operators and operands -/

/-- A symbol, or a command that ends with a slash. -/
inductive OperatorSpelled : Operator → List Term → Prop
  | symbol {token : Token} (isOperator : token.kind = .operator) :
      OperatorSpelled (.symbol token.text token.location) [.leaf token]
  | command {backslash slash : Token} {names : List String} {groups : List ArgGroup}
      {terms : List Term} (isBackslash : backslash.kind = .backslash)
      (spelled : CommandSpelled names groups terms) (isOperator : slash.kind = .operator)
      (isSlash : slash.text = "/") :
      OperatorSpelled (.command names groups backslash.location)
        (.leaf backslash :: (terms ++ [.leaf slash]))

/-- An operand that is no command. -/
inductive OperandSpelled : Expr → List Term → Prop
  | name {name : Token} (isName : name.kind = .name) :
      OperandSpelled (.name name.text name.location) [.leaf name]
  | variadic {name ellipsis : Token} (isName : name.kind = .name)
      (isEllipsis : ellipsis.kind = .ellipsis) :
      OperandSpelled (.variadic name.text name.location) [.leaf name, .leaf ellipsis]
  | subscripted {name : Token} {sub : List Expr} {terms : List Term} (isName : name.kind = .name)
      (spelled : SlotSpelled .sub sub terms) :
      OperandSpelled (.call false name.text [.mk .sub sub] name.location) (.leaf name :: terms)
  | subscriptedApplied {name : Token} {sub params : List Expr} {terms others : List Term}
      (isName : name.kind = .name) (spelled : SlotSpelled .sub sub terms)
      (spelledParams : SlotSpelled .paren params others) :
      OperandSpelled (.call false name.text [.mk .sub sub, .mk .paren params] name.location)
        (.leaf name :: (terms ++ others))
  | applied {name : Token} {params : List Expr} {terms : List Term} (isName : name.kind = .name)
      (spelled : SlotSpelled .paren params terms) :
      OperandSpelled (applied name.text params name.location) (.leaf name :: terms)
  | text {token : Token} (isText : token.kind = .text) :
      OperandSpelled (.text (unquoted token.text) token.location) [.leaf token]
  | grouped {opener : Token} {item : Expr} {whole : Review Fault Expr} :
      OperandSpelled (.grouped item opener.location) [.group .paren opener ⟨[item], []⟩ whole]
  | tuple {opener : Token} {items : List Expr} {whole : Review Fault Expr}
      (several : items.length ≠ 1) :
      OperandSpelled (.tuple items opener.location) [.group .paren opener ⟨items, []⟩ whole]
  | set {opener : Token} {items : List Expr} {whole : Review Fault Expr} :
      OperandSpelled (.set items opener.location) [.group .curly opener ⟨items, []⟩ whole]
  | bracketed {opener : Token} {listed : Review Fault (List Expr)} {inner : Expr} :
      OperandSpelled (.grouped inner opener.location)
        [.group .squareColon opener listed ⟨inner, []⟩]

/-- Whether a factor is a slash. After a command it would make the command an operator. -/
def Factor.isSlash : Factor → Bool
  | .operator (.symbol text _) => text == "/"
  | _ => false

/-- Operators and operands in any order. -/
inductive FactorsSpelled : List Factor → List Term → Prop
  | none : FactorsSpelled [] []
  | operator {operator : Operator} {terms others : List Term} {rest : List Factor}
      (spelled : OperatorSpelled operator terms) (more : FactorsSpelled rest others) :
      FactorsSpelled (.operator operator :: rest) (terms ++ others)
  | operand {operand : Expr} {terms others : List Term} {rest : List Factor}
      (spelled : OperandSpelled operand terms) (more : FactorsSpelled rest others) :
      FactorsSpelled (.operand operand :: rest) (terms ++ others)
  | command {backslash : Token} {names : List String} {groups : List ArgGroup}
      {terms others : List Term} {rest : List Factor} (isBackslash : backslash.kind = .backslash)
      (spelled : CommandSpelled names groups terms)
      (apart : ∀ next ∈ rest.head?, next.isSlash = false)
      (more : FactorsSpelled rest others) :
      FactorsSpelled (.operand (commandExpr names groups backslash.location) :: rest)
        (.leaf backslash :: (terms ++ others))

/-- Operators and operands that can be put together to an expression. -/
def OperationSpelled (expr : Expr) (terms : List Term) : Prop :=
  ∃ factors, FactorsSpelled factors terms
    ∧ ∀ location, readFactors location none [] factors = ⟨expr, []⟩

/-! ## Relations and assignments -/

section Levels

variable (next : Expr → List Term → Prop)

/-- One or more flat items with commas between them. -/
inductive SegmentsSpelled : List Expr → List Term → Prop
  | one {item : Expr} {terms : List Term} (spelled : next item terms) (flat : item.flat = true) :
      SegmentsSpelled [item] terms
  | more {item : Expr} {comma : Token} {items : List Expr} {terms others : List Term}
      (spelled : next item terms) (flat : item.flat = true) (isComma : comma.kind = .comma)
      (more : SegmentsSpelled items others) :
      SegmentsSpelled (item :: items) (terms ++ .leaf comma :: others)

/-- A chain of relations of one level between lists of operands. -/
inductive RelationSpelled (kinds : List RelationKind) : Expr → List Term → Prop
  | one {kind : RelationKind} {relation : Token} {first : Expr} {left right : List Expr}
      {terms others : List Term} (spelledLeft : SegmentsSpelled next (first :: left) terms)
      (isRelation : relation.kind = .relation kind) (within : kind ∈ kinds)
      (spelledRight : SegmentsSpelled next right others) :
      RelationSpelled kinds (.relation kind (first :: left) right first.location)
        (terms ++ .leaf relation :: others)
  | more {kind : RelationKind} {relation : Token} {first right : Expr} {left : List Expr}
      {terms others : List Term} (spelledLeft : SegmentsSpelled next (first :: left) terms)
      (isRelation : relation.kind = .relation kind) (within : kind ∈ kinds)
      (spelledRight : RelationSpelled kinds right others) :
      RelationSpelled kinds (.relation kind (first :: left) [right] first.location)
        (terms ++ .leaf relation :: others)

/-- An expression of the next level, or a chain of relations of this one. -/
def RelatedSpelled (kinds : List RelationKind) (expr : Expr) (terms : List Term) : Prop :=
  next expr terms ∨ RelationSpelled next kinds expr terms

/-- A chain of assignments. -/
inductive AssignmentSpelled : Expr → List Term → Prop
  | one {expr : Expr} {terms : List Term} (spelled : next expr terms) : AssignmentSpelled expr terms
  | more {left right : Expr} {assign : Token} {terms others : List Term} (spelled : next left terms)
      (isAssign : assign.kind = .assign) (more : AssignmentSpelled right others) :
      AssignmentSpelled (.assignment left right left.location) (terms ++ .leaf assign :: others)

end Levels

/-- The tightest level of relations, between operations. -/
def ViewSpelled : Expr → List Term → Prop :=
  RelatedSpelled OperationSpelled [.viewedAs]

def EqualitySpelled : Expr → List Term → Prop :=
  RelatedSpelled ViewSpelled [.equal, .notEqual]

/-- The loosest level of relations. -/
def MembershipSpelled : Expr → List Term → Prop :=
  RelatedSpelled EqualitySpelled [.isA, .isIn, .notIn]

/-- The terms that spell an expression. -/
def ExprSpelled : Expr → List Term → Prop :=
  AssignmentSpelled MembershipSpelled

/-- The terms that spell a list of arguments, which may be empty. -/
def ArgumentsSpelled (items : List Expr) (terms : List Term) : Prop :=
  items = [] ∧ terms = [] ∨ SegmentsSpelled ExprSpelled items terms

end Treatise.Statement
