import Milling.Scalar.Double
import Milling.Text.Escaped

/-!
# Values of expressions

What an expression can evaluate to, and why it can fail to have a value.
-/

namespace Milling.Expression

def wholeBound : Int := (Nat.pow 2 63 : Nat)

inductive Value where
  | text (content : String)
  | float (number : Float)
  /-- A whole number of 64 bits. -/
  | integer (number : Int)
  | boolean (truth : Bool)
  | tuple (items : List Value)
  | empty

inductive Kind where
  | text
  | float
  | integer
  | boolean
  | tuple
  | empty
deriving Repr, DecidableEq

namespace Kind

def name : Kind → String
  | .text => "String"
  | .float => "Float"
  | .integer => "Int"
  | .boolean => "Boolean"
  | .tuple => "Tuple"
  | .empty => "Empty"

def listText (kinds : List Kind) : String :=
  "[" ++ String.intercalate ", " (kinds.map name) ++ "]"

end Kind

namespace Value

def kind : Value → Kind
  | .text _ => .text
  | .float _ => .float
  | .integer _ => .integer
  | .boolean _ => .boolean
  | .tuple _ => .tuple
  | .empty => .empty

mutual

def shown : Value → String
  | .text content => "String(" ++ Text.escaped content ++ ")"
  | .float number => "Float(" ++ Decimal.Layout.debug.floatText number ++ ")"
  | .integer number => "Int(" ++ toString number ++ ")"
  | .boolean truth => "Boolean(" ++ toString truth ++ ")"
  | .tuple items => "Tuple([" ++ shownItems items ++ "])"
  | .empty => "Empty"

def shownItems : List Value → String
  | [] => ""
  | [item] => shown item
  | item :: rest => shown item ++ ", " ++ shownItems rest

end

mutual

def written : Value → String
  | .text content => "\"" ++ content ++ "\""
  | .float number => Decimal.Layout.plain.floatText number
  | .integer number => toString number
  | .boolean truth => toString truth
  | .tuple items => "(" ++ writtenItems items ++ ")"
  | .empty => "()"

def writtenItems : List Value → String
  | [] => ""
  | [item] => written item
  | item :: rest => written item ++ ", " ++ writtenItems rest

end

mutual

/-- Equality of values; numbers of different kinds differ. -/
def same : Value → Value → Bool
  | .text left, .text right => left == right
  | .float left, .float right => left == right
  | .integer left, .integer right => left == right
  | .boolean left, .boolean right => left == right
  | .tuple left, .tuple right => sameItems left right
  | .empty, .empty => true
  | _, _ => false

def sameItems : List Value → List Value → Bool
  | [], [] => true
  | left :: lefts, right :: rights => same left right && sameItems lefts rights
  | _, _ => false

end

end Value

/-- What a function or an operator asks of a value. -/
inductive Expectation where
  | text
  | integer
  | number
  | numberOrText
  | boolean
  | tuple
  | tupleOf (length : Nat)
  | tupleBetween (least greatest : Nat)
  | empty
deriving Repr, DecidableEq

def Expectation.name : Expectation → String
  | .text => "a Value::String"
  | .integer => "a Value::Int"
  | .number => "a Value::Float or Value::Int"
  | .numberOrText => "a Value::Number or a Value::String"
  | .boolean => "a Value::Boolean"
  | .tuple => "a Value::Tuple"
  | .tupleOf length => "a Value::Tuple of length " ++ toString length
  | .tupleBetween least greatest =>
      "a Value::Tuple of length " ++ toString least ++ " to " ++ toString greatest
  | .empty => "a Value::Empty"

/-- An operation on whole numbers of 64 bits that can overflow. -/
inductive WholeOperation where
  | addition
  | subtraction
  | negation
  | multiplication
  | division
  | remainder
deriving Repr, DecidableEq

/-- Why an expression has no value. -/
inductive ExpressionError where
  | argumentCount (expected actual : Nat)
  | unexpected (expectation : Expectation) (actual : Value)
  | unexpectedKind (expected : List Kind) (actual : Value)
  | mixedSum (left right : Kind)
  | unknownVariable (name : String)
  | unknownFunction (name : String)
  | assignment
  | overflow (operation : WholeOperation) (operands : List Int)
  | invalidIndex
  | unmatchedOpening
  | unmatchedClosing
  | unmatchedQuote
  | unmatchedComment
  | illegalEscape (sequence : String)
  /-- Half of an operator of two characters, with what follows it. -/
  | halfOperator (first : Char) (second : Option String)
  | appendedToLeaf
  | precedenceViolation
  | missingOperator

namespace ExpressionError

def overflowText : WholeOperation → List Int → String
  | .negation, [operand] => "Error negating -" ++ toString operand
  | operation, operands =>
      let (verb, symbol) := match operation with
        | .addition => ("adding", " + ")
        | .subtraction => ("subtracting", " - ")
        | .negation => ("negating", "")
        | .multiplication => ("multiplying", " * ")
        | .division => ("dividing", " / ")
        | .remainder => ("modulating", " % ")
      "Error " ++ verb ++ " " ++ String.intercalate symbol (operands.map toString)

def message : ExpressionError → String
  | .argumentCount expected actual =>
      "An operator expected " ++ toString expected ++ " arguments, but got " ++
        toString actual ++ "."
  | .unexpected expectation actual =>
      "Expected " ++ expectation.name ++ ", but got " ++ actual.shown ++ "."
  | .unexpectedKind expected actual =>
      "Expected one of " ++ Kind.listText expected ++ ", but got " ++ actual.shown ++ "."
  | .mixedSum left right =>
      "The operator Add was called with a wrong combination of types: " ++
        Kind.listText [left, right]
  | .unknownVariable name =>
      "Variable identifier is not bound to anything by context: " ++ Text.escaped name ++ "."
  | .unknownFunction name =>
      "Function identifier is not bound to anything by context: " ++ Text.escaped name ++ "."
  | .assignment => "Cannot manipulate context"
  | .overflow operation operands => overflowText operation operands
  | .invalidIndex => "Tried to access a tuple or string at an invalid index"
  | .unmatchedOpening => "Found an unmatched opening parenthesis '('."
  | .unmatchedClosing => "Found an unmatched closing parenthesis ')'."
  | .unmatchedQuote => "Found an unmatched double quote '\"'"
  | .unmatchedComment => "Error: unmatched inline comment"
  | .illegalEscape sequence => "Illegal escape sequence: " ++ sequence
  | .halfOperator first (some second) =>
      "Found a partial token '" ++ first.toString ++ "' that should not be followed by '" ++
        second ++ "'."
  | .halfOperator first none =>
      "Found a partial token '" ++ first.toString ++
        "' that should be followed by another partial token."
  | .appendedToLeaf => "Tried to append a node to a leaf node."
  | .precedenceViolation =>
      "Tried to append a node to another node with higher precedence."
  | .missingOperator =>
      "Found an opening parenthesis that is preceded by something that does not take any " ++
        "arguments on the right, or found a closing parenthesis that is succeeded by " ++
        "something that does not take any arguments on the left."

end ExpressionError

end Milling.Expression
