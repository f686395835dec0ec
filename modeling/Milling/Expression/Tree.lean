import Milling.Expression.Lexeme

/-!
# Expression trees

Lexemes are added to a tree one by one.  A new operator takes over the last
operand of the operator that it binds tighter than, and sequences stay open
until their parenthesis closes.
-/

namespace Milling.Expression

/-- What a node of a tree does with its operands. -/
inductive Operator where
  /-- A pair of parentheses, or the whole expression. -/
  | group
  | add
  | subtract
  | negate
  | multiply
  | divide
  | remainder
  | power
  | equal
  | notEqual
  | greater
  | less
  | greaterOrEqual
  | lessOrEqual
  | both
  | either
  | not
  | assign
  | assignWith
  | tuple
  | chain
  | constant (content : Value)
  | variableNamed (name : String)
  | target (name : String)
  | function (name : String)

namespace Operator

def precedence : Operator → Nat
  | .group => 200
  | .constant _ => 200
  | .variableNamed _ => 200
  | .target _ => 200
  | .function _ => 190
  | .power => 120
  | .negate => 110
  | .not => 110
  | .multiply => 100
  | .divide => 100
  | .remainder => 100
  | .add => 95
  | .subtract => 95
  | .equal => 80
  | .notEqual => 80
  | .greater => 80
  | .less => 80
  | .greaterOrEqual => 80
  | .lessOrEqual => 80
  | .both => 75
  | .either => 70
  | .assign => 50
  | .assignWith => 50
  | .tuple => 40
  | .chain => 0

def groupsRight : Operator → Bool
  | .assign => true
  | .function _ => true
  | _ => false

/-- The most operands an operator takes; `none` for any number. -/
def capacity : Operator → Option Nat
  | .tuple => none
  | .chain => none
  | .constant _ => some 0
  | .variableNamed _ => some 0
  | .target _ => some 0
  | .group => some 1
  | .negate => some 1
  | .not => some 1
  | .function _ => some 1
  | _ => some 2

def isLeaf (operator : Operator) : Bool := operator.capacity == some 0

def isGroup : Operator → Bool
  | .group => true
  | _ => false

def isSequence : Operator → Bool
  | .tuple => true
  | .chain => true
  | _ => false

def sameSequence : Operator → Operator → Bool
  | .tuple, .tuple => true
  | .chain, .chain => true
  | _, _ => false

def isUnary (operator : Operator) : Bool := operator.capacity == some 1 && !operator.isGroup

/-- A later operator goes inside an earlier one if it binds tighter, stands before
its operand, or groups from the right with it. -/
def yieldsTo (outer inner : Operator) : Bool :=
  decide (outer.precedence < inner.precedence) || inner.isUnary ||
    (outer.precedence == inner.precedence && outer.groupsRight && inner.groupsRight)

end Operator

/-- An operator with its operands, the latest first. -/
inductive Node where
  | node (operator : Operator) (operands : List Node)

namespace Node

def operator : Node → Operator
  | .node operator _ => operator

def bare (operator : Operator) : Node := .node operator []

def append (node operand : Node) : Node :=
  match node with
  | .node operator operands => .node operator (operand :: operands)

def takeOver (outer : Operator) (added last : Node) : Except ExpressionError Node :=
  match added with
  | .node operator operands =>
      if operator.isLeaf then .error .appendedToLeaf
      else if operator.isGroup &&
          (outer.isGroup || !operands.isEmpty || last.operator.isGroup) then
        .error .missingOperator
      else .ok (.node operator (last :: operands))

/-- Adds a node at the end of a tree; the root of the tree takes any node. -/
def insert (tree : Node) (isRoot : Bool) (added : Node) : Except ExpressionError Node :=
  match tree with
  | .node operator operands =>
      if !(isRoot || operator.yieldsTo added.operator) then .error .precedenceViolation
      else if operator.isLeaf then .error .appendedToLeaf
      else if operator.capacity == some operands.length then
        match operands with
        | [] => .error .appendedToLeaf
        | last :: earlier =>
            if last.operator.yieldsTo added.operator then do
              let grown ← last.insert false added
              .ok (.node operator (grown :: earlier))
            else do
              let rotated ← takeOver operator added last
              .ok (.node operator (rotated :: earlier))
      else .ok (.node operator (added :: operands))

end Node

/-- Open groups and sequences, the innermost first. -/
abbrev OpenNodes := List Node

namespace OpenNodes

def closeSequences : OpenNodes → Except ExpressionError OpenNodes
  | [] => .error .unmatchedClosing
  | top :: rest =>
      if top.operator.isSequence then
        match rest with
        | [] => .error .unmatchedClosing
        | below :: deeper => closeSequences (below.append top :: deeper)
      else .ok (top :: rest)
termination_by nodes => nodes.length

def closeTighter (sequence : Operator) (inner : Node) :
    OpenNodes → Except ExpressionError (Node × OpenNodes)
  | [] => .error .unmatchedClosing
  | top :: rest =>
      if sequence.precedence < top.operator.precedence then
        closeTighter sequence (top.append inner) rest
      else .ok (inner, top :: rest)

def addSequence (sequence : Operator) (top : Node) (rest : OpenNodes) :
    Except ExpressionError OpenNodes :=
  let group := Node.bare .group
  if top.operator.sameSequence sequence then .ok (top.append group :: rest)
  else if top.operator.isGroup then
    .ok (.node sequence [group, top] :: group :: rest)
  else
    match top with
    | .node operator operands =>
        if operator.precedence < sequence.precedence then
          match operands with
          | last :: earlier =>
              .ok (.node sequence [group, last] :: .node operator earlier :: rest)
          | [] => .error .unmatchedClosing
        else do
          let (inner, remaining) ← closeTighter sequence top rest
          .ok (.node sequence [inner] :: remaining)

def add (added : Node) : OpenNodes → Except ExpressionError OpenNodes
  | [] => .error .unmatchedClosing
  | top :: rest =>
      if added.operator.isSequence then addSequence added.operator top rest
      else
        match top with
        | .node operator (last :: earlier) =>
            if operator.isSequence then do
              let grown ← last.insert true added
              .ok (.node operator (grown :: earlier) :: rest)
            else do
              let grown ← top.insert true added
              .ok (grown :: rest)
        | _ => do
            let grown ← top.insert true added
            .ok (grown :: rest)

def closeGroup (nodes : OpenNodes) : Except ExpressionError OpenNodes :=
  if nodes.length ≤ 1 then .error .unmatchedClosing
  else do
    match ← closeSequences nodes with
    | closed :: rest => add closed rest
    | [] => .error .unmatchedClosing

end OpenNodes

namespace Lexeme

/-- The operator of a name, by the lexeme behind it. -/
def nameOperator (text : String) : Option Lexeme → Operator
  | some next =>
      if next.assigns then .target text
      else if next.startsValue then .function text
      else .variableNamed text
  | none => .variableNamed text

def operator? (afterValue : Bool) (following : Option Lexeme) : Lexeme → Option Operator
  | .plus => some .add
  | .minus => some (if afterValue then .subtract else .negate)
  | .star => some .multiply
  | .slash => some .divide
  | .percent => some .remainder
  | .hat => some .power
  | .equal => some .equal
  | .notEqual => some .notEqual
  | .greater => some .greater
  | .less => some .less
  | .greaterOrEqual => some .greaterOrEqual
  | .lessOrEqual => some .lessOrEqual
  | .both => some .both
  | .either => some .either
  | .not => some .not
  | .assign => some .assign
  | .assignWith => some .assignWith
  | .comma => some .tuple
  | .semicolon => some .chain
  | .name text => some (nameOperator text following)
  | .value content => some (.constant content)
  | .opening => none
  | .closing => none

end Lexeme

namespace Node

/-- Adds lexemes to the open nodes; `afterValue` says that the lexeme before
ended a value. -/
def addLexemes (afterValue : Bool) (nodes : OpenNodes) :
    List Lexeme → Except ExpressionError OpenNodes
  | [] => .ok nodes
  | lexeme :: rest => do
      let grown ← match lexeme with
        | .opening => .ok (bare .group :: nodes)
        | .closing => nodes.closeGroup
        | _ =>
            match lexeme.operator? afterValue rest.head? with
            | some operator => nodes.add (bare operator)
            | none => .ok nodes
      addLexemes lexeme.endsValue grown rest

def ofLexemes (lexemes : List Lexeme) : Except ExpressionError Node := do
  let nodes ← addLexemes false [bare .group] lexemes
  match ← nodes.closeSequences with
  | [root] => .ok root
  | [] => .error .unmatchedClosing
  | _ => .error .unmatchedOpening

end Node

end Milling.Expression
