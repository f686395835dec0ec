import Milling.Shop.Tool

/-!
# Tool libraries

Tools kept under their numbers, in the order of the numbers.
-/

namespace Milling

variable {α : Type}

/-- Tools by key, keys strictly increasing. -/
structure ToolLibrary (α : Type) where
  entries : List (Nat × Tool α) := []
deriving Repr, DecidableEq

namespace ToolLibrary

/-- Entries with one put in its place, in the stead of one with the same key. -/
def insert (key : Nat) (tool : Tool α) : List (Nat × Tool α) → List (Nat × Tool α)
  | [] => [(key, tool)]
  | (other, kept) :: rest =>
      if key < other then (key, tool) :: (other, kept) :: rest
      else if key = other then (key, tool) :: rest
      else (other, kept) :: insert key tool rest

def get? (library : ToolLibrary α) (number : Nat) : Option (Tool α) :=
  library.entries.lookup number

/-- The library with a tool added under its number, and the tool it replaces. -/
def add (library : ToolLibrary α) (tool : Tool α) : ToolLibrary α × Option (Tool α) :=
  ({ entries := insert tool.number tool library.entries }, library.get? tool.number)

/-- The library without the tool under a number, and that tool. -/
def remove (library : ToolLibrary α) (number : Nat) : ToolLibrary α × Option (Tool α) :=
  ({ entries := library.entries.filter fun entry => decide (entry.1 ≠ number) },
    library.get? number)

/-- The library with entries of a data file, a later one in the stead of an
earlier one with the same key. -/
def ofEntries (entries : List (Nat × Tool α)) : ToolLibrary α :=
  { entries := entries.foldl (fun kept (key, tool) => insert key tool kept) [] }

def tools (library : ToolLibrary α) : List (Tool α) := library.entries.map Prod.snd

def ofKind (library : ToolLibrary α) (kind : ToolKind) : List (Tool α) :=
  library.tools.filter fun tool => decide (tool.kind = kind)

def greatestNumber : Nat := Nat.pow 2 32 - 1

/-- The number after the greatest key, one when empty; `none` when no number
is left. -/
def nextNumber? (library : ToolLibrary α) : Option Nat :=
  match library.entries.getLast? with
  | none => some 1
  | some (key, _) => if key < greatestNumber then some (key + 1) else none

variable [Scalar α]

def ofDiameter (library : ToolLibrary α) (least greatest : α) : List (Tool α) :=
  library.tools.filter fun tool =>
    decide (least ≤ tool.diameter) && decide (tool.diameter ≤ greatest)

def standardTools : List (Tool α) := [
  { number := 1, kind := .endMill, diameter := 3.175, flutes := 2, material := .carbide
    surfaceSpeed := 150, feedPerTooth := 0.05, description := "1/8\" 2-Flute End Mill" },
  { number := 2, kind := .endMill, diameter := 6, flutes := 3, material := .carbide
    surfaceSpeed := 120, feedPerTooth := 0.08, description := "6mm 3-Flute End Mill" },
  { number := 3, kind := .endMill, diameter := 10, flutes := 4, material := .carbide
    surfaceSpeed := 100, feedPerTooth := 0.1, description := "10mm 4-Flute End Mill" },
  { number := 4, kind := .ballNose, diameter := 6, flutes := 2, material := .carbide
    surfaceSpeed := 120, feedPerTooth := 0.06, description := "6mm Ball Nose" },
  { number := 5, kind := .drill, diameter := 3, flutes := 1, material := .highSpeedSteel
    surfaceSpeed := 30, feedPerTooth := 0.1, description := "3mm Drill Bit" },
  { number := 6, kind := .drill, diameter := 6, flutes := 1, material := .highSpeedSteel
    surfaceSpeed := 25, feedPerTooth := 0.15, description := "6mm Drill Bit" },
  { number := 7, kind := .faceMill, diameter := 25, flutes := 3, material := .carbide
    surfaceSpeed := 200, feedPerTooth := 0.1, description := "25mm Face Mill" },
  { number := 8, kind := .vBit, diameter := 6, flutes := 1, material := .carbide
    surfaceSpeed := 100, feedPerTooth := 0.05, description := "90 deg V-Bit" }]

def standard : ToolLibrary α :=
  standardTools.foldl (fun library tool => (library.add tool).1) {}

end ToolLibrary

end Milling
