import Milling.Proofs.Archive.Decoding
import Milling.Proofs.Loading.Combined
import Milling.Proofs.Posting.Units
import Milling.Proofs.Program.Comment
import Milling.Proofs.Workplace.Desk

/-!
# Posting a program again

A program that is loaded and posted is written with its coordinates as they are
and with the units of the settings.  It reports the units that it was loaded with
exactly when these are the ones that are set.
-/

namespace Milling

section Loading

/-- The points of an archive have no comments. -/
theorem Archive.comment_of_decodeFile {bytes : List UInt8} {file : Archive.File}
    (decoded : Archive.decodeFile bytes = .ok file) :
    ∀ point ∈ file.toolpaths.flatMap Toolpath.points, point.comment = none := by
  have isRead : ∃ after, Archive.readFile bytes.length (.start bytes) = .ok (file, after) := by
    unfold Archive.decodeFile at decoded
    split at decoded
    · rename_i read after equation
      exact ⟨after, Except.ok.inj decoded ▸ equation⟩
    · cases decoded
  obtain ⟨after, read⟩ := isRead
  obtain ⟨_, ⟨content, _, _, rfl⟩, _⟩ :=
    (Archive.Decodes.file bytes.length (.start bytes) file after).mp read
  intro point member
  obtain ⟨path, isPath, inPath⟩ := List.mem_flatMap.mp member
  obtain ⟨record, _, rfl⟩ := List.mem_map.mp isPath
  simp only [Record.toolpath, Archive.Decodes.points_eq_zipIdx] at inPath
  obtain ⟨entry, _, rfl⟩ := List.mem_map.mp inPath
  split <;> rfl

/-- The comments of a loaded program are on one line each. -/
theorem LoadedProgram.newline_notMem {calculate : String → Except String Float} {path : String}
    {bytes : List UInt8} {program : LoadedProgram}
    (loaded : LoadedProgram.ofBytes path bytes calculate = .ok program) :
    ∀ point ∈ program.combined.points, ∀ comment ∈ point.comment, '\n' ∉ comment.toList := by
  have ofText (text : String) :
      ∀ point ∈ (Archive.readText calculate text).segments.flatMap Toolpath.points,
        ∀ comment ∈ point.comment, '\n' ∉ comment.toList := by
    have joined := (Program.readProgram_partitioned calculate Program.defaultTool text).flat
    rw [Archive.readText, joined]
    exact Program.newline_notMem_readProgram calculate Program.defaultTool text
  unfold LoadedProgram.ofBytes at loaded
  split at loaded
  · split at loaded
    · rename_i file decoded
      obtain rfl := Except.ok.inj loaded
      have content : Archive.decodeFile bytes = .ok file :=
        Archive.decode_eq_archive_iff.mp decoded
      -- An archive has no comments at all.
      intro point member comment isComment
      rw [Archive.comment_of_decodeFile content point member] at isComment
      cases isComment
    · rename_i outcome decoded
      obtain rfl := Except.ok.inj loaded
      obtain ⟨_, rfl, _⟩ := Archive.decode_eq_program_iff.mp decoded
      exact ofText _
    · cases loaded
  · obtain rfl := Except.ok.inj loaded
    exact ofText _

end Loading

namespace Desk

variable {desk after : Desk}

/-- A program that is posted reports the units that are set, and so those of the
program that was loaded exactly when these are the same. -/
theorem units_of_post {calculate : String → Except String Float} {settings : Settings Float}
    {file : String} {dialect out : Option String} (dated : '\n' ∉ desk.clock.date.toList)
    (done : desk.perform calculate settings (.post file dialect out) = (.ok (), after)) :
    ∃ bytes program text, desk.read? file = some bytes ∧
      LoadedProgram.ofBytes file bytes calculate = .ok program ∧
      Delivered desk after out text ∧
      ((Archive.readText calculate text).units = program.units ↔
        settings.post.units = program.units) := by
  obtain ⟨program, loadedDesk, loaded, rest⟩ := bind_eq_ok done
  obtain ⟨bytes, read, isProgram, rfl⟩ := exists_bytes_of_load loaded
  obtain ⟨clock, clockDesk, told, rest⟩ := bind_eq_ok rest
  obtain ⟨isClock, rfl⟩ := Prod.mk.inj told
  obtain rfl := Except.ok.inj isClock
  obtain ⟨text, writtenDesk, posted, delivered⟩ := bind_eq_ok rest
  obtain ⟨reposted, rfl⟩ := ofExcept_eq_ok posted
  refine ⟨bytes, program, text, read, isProgram, delivered_of_deliver delivered, ?_⟩
  have units : (Archive.readText calculate text).units = settings.post.units := by
    have built := Posting.resolve_mem_builtIn (dialect.getD settings.post.dialect)
    exact Posting.units_readProgram_program calculate built dated (by simp)
      (LoadedProgram.newline_notMem isProgram) (mapError_eq_ok reposted) Program.defaultTool
  rw [units]

def inchPart : List UInt8 :=
  "G20\nG0 X1 Y1 Z0.5\nG1 Z-0.1 F20\n".toList.map (UInt8.ofNat ·.toNat)

def inchSettings : Settings Float := { Settings.standard with post := { units := .inches } }

def inchDesk : Desk :=
  .ofFiles { date := "2026-01-31", number := "1", stamp := "" } [("part.nc", inchPart)]

/-- The cut is found by its path from the root, and posted into a folder next to that of the
desk. -/
theorem units_of_post_inches :
    ∃ after, inchDesk.perform Expression.number inchSettings
        (.post "/desk/part.nc" (some "haas") (some "../out/part.nc")) = (.ok (), after) ∧
      ∃ bytes program text, inchDesk.read? "/desk/part.nc" = some bytes ∧
        LoadedProgram.ofBytes "/desk/part.nc" bytes = .ok program ∧
        Delivered inchDesk after (some "../out/part.nc") text ∧
        ((Archive.readText Expression.number text).units = program.units ↔
          inchSettings.post.units = program.units) := by
  generalize performed : inchDesk.perform Expression.number inchSettings
    (.post "/desk/part.nc" (some "haas") (some "../out/part.nc")) = result
  have well : result.1.isOk = true := by
    rw [← performed]
    decide +kernel
  obtain ⟨ended, after⟩ := result
  cases ended with
  | error reason => cases well
  | ok _ => exact ⟨after, rfl, units_of_post (by decide) performed⟩

/-- With the settings where nothing is set the cut in inches is posted as one in
millimeters. -/
theorem units_of_post_unset :
    (LoadedProgram.ofBytes "part.nc" inchPart).toOption.map LoadedProgram.units = some .inches ∧
      (inchDesk.perform Expression.number Settings.standard
          (.post "part.nc" none none)).2.printed.map
        (fun text => (Archive.readText Expression.number text).units) = [.millimeters] := by
  decide +kernel

end Desk

end Milling
