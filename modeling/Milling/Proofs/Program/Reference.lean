import Mathlib
import Milling.Program.Reading

/-!
# References in expressions

An expression is read piece by piece: a number sign and the digits behind it refer to a
variable, and every other character stands for itself.  What is calculated, and which
variables turn out to have no value, follows from the pieces and from what the variables
hold.
-/

namespace Milling.Program

/-- A piece of an expression. -/
inductive Piece where
  | other (character : Char)
  /-- A number sign and the digits behind it. -/
  | sign (digits : List Char)
deriving Repr, DecidableEq

namespace Piece

def source : Piece → List Char
  | .other character => [character]
  | .sign digits => '#' :: digits

/-- The variable that a piece refers to; a number sign with no digits, or with too great a
number, refers to none. -/
def number? : Piece → Option Nat
  | .other _ => none
  | .sign digits => Decimal.boundedNatural? greatestVariable digits

end Piece

def pieces : List Char → List Piece
  | [] => []
  | character :: rest =>
      if character = '#' then
        .sign (rest.takeWhile Char.isDigit) :: pieces (rest.dropWhile Char.isDigit)
      else .other character :: pieces rest
termination_by text => text.length
decreasing_by
  · have shorter := (List.dropWhile_sublist Char.isDigit (l := rest)).length_le
    simp only [List.length_cons]
    omega
  · simp

theorem pieces_nil : pieces [] = [] := by rw [pieces]

theorem pieces_sign (rest : List Char) :
    pieces ('#' :: rest) =
      .sign (rest.takeWhile Char.isDigit) :: pieces (rest.dropWhile Char.isDigit) := by
  rw [pieces, if_pos rfl]

theorem pieces_other {character : Char} (plain : character ≠ '#') (rest : List Char) :
    pieces (character :: rest) = .other character :: pieces rest := by
  rw [pieces, if_neg plain]

/-- The pieces are the whole expression, in order. -/
theorem flatMap_source_pieces (text : List Char) : (pieces text).flatMap Piece.source = text := by
  induction text using pieces.induct with
  | case1 => rw [pieces_nil, List.flatMap_nil]
  | case2 rest ih =>
      rw [pieces_sign, List.flatMap_cons, ih, Piece.source, List.cons_append,
        List.takeWhile_append_dropWhile]
  | case3 character rest plain ih =>
      rw [pieces_other plain, List.flatMap_cons, ih, Piece.source, List.singleton_append]

section Apart

variable {back : List Char} (apart : ∀ next ∈ back.head?, next.isDigit = false)

include apart

theorem takeWhile_isDigit_append (front : List Char) :
    (front ++ back).takeWhile Char.isDigit = front.takeWhile Char.isDigit := by
  have stops : back.takeWhile Char.isDigit = [] := by
    cases back with
    | nil => rfl
    | cons next back => exact List.takeWhile_cons_of_neg (by simp [apart next rfl])
  rw [List.takeWhile_append, stops, List.append_nil, ite_eq_right_iff]
  exact fun whole => ((List.takeWhile_prefix _).eq_of_length whole).symm

theorem dropWhile_isDigit_append (front : List Char) :
    (front ++ back).dropWhile Char.isDigit = front.dropWhile Char.isDigit ++ back := by
  have stays : back.dropWhile Char.isDigit = back := by
    cases back with
    | nil => rfl
    | cons next back => exact List.dropWhile_cons_of_neg (by simp [apart next rfl])
  rw [List.dropWhile_append, stays, ite_eq_right_iff]
  intro none
  rw [List.isEmpty_iff.mp none, List.nil_append]

theorem pieces_append (front : List Char) :
    pieces (front ++ back) = pieces front ++ pieces back := by
  induction front using pieces.induct with
  | case1 => rw [pieces_nil, List.nil_append, List.nil_append]
  | case2 rest ih =>
      rw [List.cons_append, pieces_sign, pieces_sign, takeWhile_isDigit_append apart,
        dropWhile_isDigit_append apart, ih, List.cons_append]
  | case3 character rest plain ih =>
      rw [List.cons_append, pieces_other plain, pieces_other plain, ih, List.cons_append]

end Apart

/-- Every piece of a text without number signs is a character. -/
theorem pieces_plain_append {front : List Char} (plain : ∀ character ∈ front, character ≠ '#')
    (rest : List Char) : pieces (front ++ rest) = front.map .other ++ pieces rest := by
  induction front with
  | nil => rfl
  | cons character front ih =>
      rw [List.cons_append, pieces_other (plain character List.mem_cons_self),
        ih fun other isOther => plain other (List.mem_cons_of_mem character isOther),
        List.map_cons, List.cons_append]

theorem pieces_of_plain {text : List Char} (plain : ∀ character ∈ text, character ≠ '#') :
    pieces text = text.map .other := by
  have alone := pieces_plain_append plain []
  rwa [List.append_nil, pieces_nil, List.append_nil] at alone

/-- Brackets are parentheses to whatever calculates an expression. -/
def asParenthesis (character : Char) : Char :=
  if character = '[' then '(' else if character = ']' then ')' else character

/-- The variables that an expression refers to, one entry a reference. -/
def references (text : List Char) : List Nat := (pieces text).filterMap Piece.number?

theorem filterMap_number?_other (text : List Char) :
    (text.map Piece.other).filterMap Piece.number? = [] :=
  List.filterMap_eq_nil_iff.mpr (List.forall_mem_map.mpr fun _ _ => rfl)

/-- The references to variables that hold nothing. -/
def unassigned {α : Type} (held : Nat → Option α) (text : List Char) : List Nat :=
  (references text).filter fun number => (held number).isNone

variable {α : Type} [Scalar α]

/-- What stands for a piece when an expression is calculated: for a reference the value that
its variable holds, or else zero. -/
def Piece.filled (held : Nat → Option α) : Piece → List Char
  | .other character => [asParenthesis character]
  | .sign digits =>
      match Decimal.boundedNatural? greatestVariable digits with
      | some number => '(' :: (Scalar.toText ((held number).getD 0)).toList ++ [')']
      | none => ['#']

/-- An expression with its references filled in. -/
def filled (held : Nat → Option α) (text : List Char) : List Char :=
  (pieces text).flatMap (Piece.filled held)

theorem flatMap_filled_other (held : Nat → Option α) (text : List Char) :
    (text.map Piece.other).flatMap (Piece.filled held) = text.map asParenthesis := by
  rw [List.flatMap_map, List.map_eq_flatMap]
  rfl

theorem substitute_eq (table : Variables α) (text : List Char) :
    table.substitute text = (filled table.get? text, unassigned table.get? text) := by
  induction text using pieces.induct with
  | case1 => rw [Variables.substitute, filled, unassigned, references, pieces_nil]; rfl
  | case2 rest ih =>
      rw [Variables.substitute, if_pos rfl, ih]
      simp only [filled, unassigned, references, pieces_sign, List.flatMap_cons,
        List.filterMap_cons, Piece.filled, Piece.number?]
      cases Decimal.boundedNatural? greatestVariable (rest.takeWhile Char.isDigit) with
      | none => rfl
      | some number =>
          cases held : table.get? number with
          | none => simp [held]
          | some value => simp [held]
  | case3 character rest plain ih =>
      rw [Variables.substitute, if_neg plain, ih]
      simp only [filled, unassigned, references, pieces_other plain, List.flatMap_cons,
        List.filterMap_cons, Piece.filled, Piece.number?, asParenthesis]
      split
      · rfl
      · split <;> rfl

variable (calculate : String → Except String α)

def calculated (held : Nat → Option α) (expression : String) : String :=
  String.ofList (widenIntegers (filled held expression.toList))

/-- The value of an expression; zero if it has none. -/
def valueOf (held : Nat → Option α) (expression : String) : α :=
  match calculate (calculated held expression) with
  | .ok value => value
  | .error _ => 0

/-- The faults of an expression: each reference to a variable that holds nothing, from left
to right, and the failure of the calculation. -/
def expressionFaults (held : Nat → Option α) (line : Nat) (expression : String) :
    List (Fault α) :=
  (unassigned held expression.toList).map
      (fun number => .unresolvedVariable line (toString number)) ++
    match calculate (calculated held expression) with
    | .ok _ => []
    | .error reason => [.expressionFailed line expression reason]

theorem evaluateOn_eq (table : Variables α) (line : Nat) (expression : String) :
    evaluateOn calculate table line expression =
      (valueOf calculate table.get? expression,
        expressionFaults calculate table.get? line expression) := by
  rw [evaluateOn, Variables.evaluate, substitute_eq, valueOf, expressionFaults, calculated]
  dsimp only
  cases calculate (String.ofList (widenIntegers (filled table.get? expression.toList))) <;> rfl

end Milling.Program
