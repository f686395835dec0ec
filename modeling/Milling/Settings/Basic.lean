import Milling.Machining.Operation
import Milling.Posting.Poster
import Milling.Shop.Limits

/-!
# Settings

The machine, the preferred form of programs, and the heights and the helix
that new operations start from.
-/

namespace Milling

/-- How programs are written. -/
structure PostSettings where
  dialect : String := "generic_3axis"
  decimals : Option Nat := none
  units : Units := .millimeters
deriving Repr, DecidableEq

/-- What new operations start from. -/
structure CutDefaults (α : Type) where
  /-- The height between passes. -/
  safeZ : α
  /-- The height of travel between features. -/
  clearanceZ : α
  helix : HelixSettings α
deriving Repr, DecidableEq

/-- The settings of a shop. -/
structure Settings (α : Type) where
  machine : Limits α
  post : PostSettings := {}
  cut : CutDefaults α
deriving Repr, DecidableEq

/-- A setting that cannot be worked with. -/
structure SettingFault where
  key : String
  reason : String
deriving Repr, DecidableEq

def SettingFault.message (fault : SettingFault) : String :=
  "Invalid setting '" ++ fault.key ++ "': " ++ fault.reason

variable {α : Type} [Scalar α]

def CutDefaults.standard : CutDefaults α :=
  { safeZ := CutSettings.standardSafeZ, clearanceZ := CutSettings.standardClearanceZ
    helix := .standard }

namespace Settings

def standard : Settings α := { machine := .standard, cut := .standard }

def greatestDecimals : Nat := 6

def leastSegments : Nat := 3

def fault? (settings : Settings α) : Option SettingFault :=
  let cut := settings.cut
  match settings.machine.invalidFields with
  | field :: _ =>
      some { key := "machine." ++ field, reason := "must be a positive number" }
  | [] =>
      if settings.post.dialect.toList.all Text.isBlank then
        some { key := "post.default_dialect", reason := "must not be empty" }
      else if settings.post.decimals.any (decide <| greatestDecimals < ·) then
        some { key := "post.decimals", reason := "must be at most 6" }
      else if !(Scalar.isFinite cut.safeZ && Scalar.isFinite cut.clearanceZ) then
        some { key := "cam", reason := "heights must be finite" }
      else if cut.clearanceZ < cut.safeZ then
        some { key := "cam.clearance_z", reason := "must not be below safe_z" }
      else if !(Scalar.isFinite cut.helix.pitch && decide (0 < cut.helix.pitch)) then
        some { key := "cam.helix_pitch", reason := "must be > 0" }
      else if cut.helix.segments < leastSegments then
        some { key := "cam.segments_per_revolution", reason := "must be at least 3" }
      else none

def cutting (settings : Settings α) (tool : Tool α) (feed spindle : α) : CutSettings α :=
  { tool, feed, spindle, safeZ := settings.cut.safeZ, clearanceZ := settings.cut.clearanceZ }

def poster (settings : Settings α) : Posting.Poster α :=
  { Posting.Poster.standard with
    units := settings.post.units, decimals := settings.post.decimals }

end Settings

end Milling
