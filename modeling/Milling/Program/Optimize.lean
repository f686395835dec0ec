import Milling.Program.Command

/-!
# Leaving out what repeats

A command that repeats the one kept before it is left out, and so are axis
words that repeat its values.  Under incremental distances a repeated value is
a move of its own, and stays.
-/

namespace Milling.Program

variable {α : Type} [Scalar α]

def repeats (previous : Parameters α) (letter : Char) (value : α) : Bool :=
  match previous.get? letter with
  | some earlier => earlier == value
  | none => false

def withoutRepeats (previous command : Command α) : Command α :=
  if command.modal.isIncremental then command
  else
    { command with
      parameters := command.parameters.filter fun letter value =>
        !(axisLetters.contains letter && repeats previous.parameters letter value) }

/-- What is left of a command after the one kept before it; `none` if it is
left out. -/
def reduce (previous command : Command α) : Option (Command α) :=
  let sameCode := command.code? == previous.code?
  let isModal := command.code?.any fun code => (ModalGroup.of? code).isSome
  if !command.modal.isIncremental && sameCode && isModal &&
      command.parameters == previous.parameters then
    none
  else
    let reduced := withoutRepeats previous command
    if reduced.parameters.entries.isEmpty && sameCode then none else some reduced

def optimizeAfter (previous : Command α) : List (Command α) → List (Command α)
  | [] => []
  | command :: rest =>
      match reduce previous command with
      | some kept => kept :: optimizeAfter kept rest
      | none => optimizeAfter previous rest

/-- Leaves out commands and axis words that repeat what is in force. -/
def optimize : List (Command α) → List (Command α)
  | [] => []
  | first :: rest => first :: optimizeAfter first rest

end Milling.Program
