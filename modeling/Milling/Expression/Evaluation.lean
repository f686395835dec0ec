import Milling.Expression.Function
import Milling.Expression.Tree

/-!
# Evaluating expressions

Operands are evaluated from the left before their operator.  Whole numbers
stay whole and must not overflow; mixed with floats they become floats.
-/

namespace Milling.Expression

def fits (value : Int) : Bool := decide (-wholeBound ≤ value) && decide (value < wholeBound)

def checked (operation : WholeOperation) (operands : List Int) (result : Int) :
    Except ExpressionError Value :=
  if fits result then .ok (.integer result) else .error (.overflow operation operands)

/-- An operation on two numbers: whole numbers stay whole. -/
def arithmetic (whole : Int → Int → Except ExpressionError Value)
    (float : Float → Float → Float) (left right : Value) : Except ExpressionError Value := do
  let leftNumber ← left.number
  let rightNumber ← right.number
  match left, right with
  | .integer first, .integer second => whole first second
  | _, _ => .ok (.float (float leftNumber rightNumber))

def expectNumberOrText : Value → Except ExpressionError Unit
  | .text _ => .ok ()
  | .float _ => .ok ()
  | .integer _ => .ok ()
  | other => .error (.unexpected .numberOrText other)

def sum (left right : Value) : Except ExpressionError Value := do
  expectNumberOrText left
  expectNumberOrText right
  match left, right with
  | .text first, .text second => .ok (.text (first ++ second))
  | .text _, other => .error (.mixedSum .text other.kind)
  | other, .text _ => .error (.mixedSum other.kind .text)
  | _, _ =>
      arithmetic (fun first second => checked .addition [first, second] (first + second))
        (· + ·) left right

def compare (texts : String → String → Bool) (wholes : Int → Int → Bool)
    (floats : Float → Float → Bool) (left right : Value) : Except ExpressionError Value := do
  expectNumberOrText left
  expectNumberOrText right
  match left, right with
  | .text first, .text second => .ok (.boolean (texts first second))
  | .integer first, .integer second => .ok (.boolean (wholes first second))
  | _, _ => do
      let first ← left.number
      let second ← right.number
      .ok (.boolean (floats first second))

def logical (apply : Bool → Bool → Bool) (left right : Value) :
    Except ExpressionError Value := do
  let first ← left.truth
  let second ← right.truth
  .ok (.boolean (apply first second))

/-- A whole quotient, rounded toward zero. -/
def wholeQuotient (first second : Int) : Except ExpressionError Value :=
  if second = 0 then .error (.overflow .division [first, second])
  else checked .division [first, second] (first.tdiv second)

def wholeRemainder (first second : Int) : Except ExpressionError Value :=
  if second = 0 ∨ !fits (first.tdiv second) then
    .error (.overflow .remainder [first, second])
  else .ok (.integer (first.tmod second))

def binary (apply : Value → Value → Except ExpressionError Value) :
    List Value → Except ExpressionError Value
  | [left, right] => apply left right
  | operands => .error (.argumentCount 2 operands.length)

def unary (apply : Value → Except ExpressionError Value) :
    List Value → Except ExpressionError Value
  | [operand] => apply operand
  | operands => .error (.argumentCount 1 operands.length)

def nullary (value : Except ExpressionError Value) :
    List Value → Except ExpressionError Value
  | [] => value
  | operands => .error (.argumentCount 0 operands.length)

def negation : Value → Except ExpressionError Value
  | .integer number => checked .negation [number] (-number)
  | other => do .ok (.float (-(← other.number)))

def constants : List (String × Float) := [("PI", 3.141592653589793)]

def Operator.apply : Operator → List Value → Except ExpressionError Value
  | .group => fun operands => .ok (operands.headD .empty)
  | .add => binary sum
  | .subtract => binary (arithmetic
      (fun first second => checked .subtraction [first, second] (first - second)) (· - ·))
  | .negate => unary negation
  | .multiply => binary (arithmetic
      (fun first second => checked .multiplication [first, second] (first * second)) (· * ·))
  | .divide => binary (arithmetic wholeQuotient (· / ·))
  | .remainder => binary (arithmetic wholeRemainder floatRemainder)
  | .power => binary fun left right => do
      let base ← left.number
      let exponent ← right.number
      .ok (.float (Float.pow base exponent))
  | .equal => binary fun left right => .ok (.boolean (left.same right))
  | .notEqual => binary fun left right => .ok (.boolean (!left.same right))
  | .greater => binary (compare (fun left right => decide (right < left))
      (fun left right => decide (right < left)) (fun left right => decide (right < left)))
  | .less => binary (compare (fun left right => decide (left < right))
      (fun left right => decide (left < right)) (fun left right => decide (left < right)))
  | .greaterOrEqual => binary (compare (fun left right => !decide (left < right))
      (fun left right => decide (right ≤ left)) (fun left right => decide (right ≤ left)))
  | .lessOrEqual => binary (compare (fun left right => !decide (right < left))
      (fun left right => decide (left ≤ right)) (fun left right => decide (left ≤ right)))
  | .both => binary (logical (· && ·))
  | .either => binary (logical (· || ·))
  | .not => unary fun operand => do .ok (.boolean (!(← operand.truth)))
  | .assign => fun _ => .error .assignment
  | .assignWith => fun _ => .error .assignment
  | .tuple => fun operands => .ok (.tuple operands)
  | .chain => fun operands =>
      match operands.getLast? with
      | some last => .ok last
      | none => .error (.argumentCount 1 0)
  | .constant content => nullary (.ok content)
  | .variableNamed name =>
      nullary (match constants.lookup name with
        | some value => .ok (.float value)
        | none => .error (.unknownVariable name))
  | .target name => nullary (.ok (.text name))
  | .function name => unary fun operand =>
      match function? name with
      | some apply => apply operand
      | none => .error (.unknownFunction name)

mutual

def Node.evaluate : Node → Except ExpressionError Value
  | .node operator operands => do
      let values ← Node.evaluateAll operands
      operator.apply values.reverse

/-- The values of operands, the latest first; the earliest is evaluated first. -/
def Node.evaluateAll : List Node → Except ExpressionError (List Value)
  | [] => .ok []
  | latest :: earlier => do
      let values ← Node.evaluateAll earlier
      let value ← latest.evaluate
      .ok (value :: values)

end

def value (text : String) : Except ExpressionError Value := do
  let lexemes ← Lexeme.ofText text.toList
  let tree ← Node.ofLexemes lexemes
  tree.evaluate

/-- The number that an expression evaluates to, or a message that says why it
has none. -/
def number (text : String) : Except String Float :=
  match value text with
  | .ok (.float result) => .ok result
  | .ok (.integer result) => .ok (Float.ofInt result)
  | .ok other => .error ("Expected number, got " ++ other.shown)
  | .error reason => .error reason.message

end Milling.Expression
