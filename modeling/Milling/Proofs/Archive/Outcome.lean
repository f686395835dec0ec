import Milling.Proofs.Loading.Combined

/-!
# What bytes turn out to be

Bytes show a file, a program or an error, and nothing of the other two.  Text
counts as a program by its segments, which are empty only where the whole path
is, so what is shown of a program always has a point.
-/

namespace Milling.Archive

namespace Outcome

/-- An outcome that shows a file. -/
structure ShowsFile (file : File) (outcome : Outcome) : Prop where
  succeeded : outcome.succeeded = true
  source : outcome.source = .binary
  header : outcome.header? = some file.header
  mesh : outcome.mesh? = some file.mesh
  toolpaths : outcome.toolpaths? = some file.toolpaths
  units : outcome.units? = some file.header.units
  error : outcome.error? = none
  warnings : outcome.warnings = []

/-- An outcome that shows the program in a text. -/
structure ShowsProgram (program : Program.Outcome Float) (outcome : Outcome) : Prop where
  succeeded : outcome.succeeded = true
  source : outcome.source = .text
  header : outcome.header? = none
  mesh : outcome.mesh? = none
  toolpaths : outcome.toolpaths? = some program.segments
  units : outcome.units? = some program.units
  error : outcome.error? = none
  warnings : outcome.warnings = program.warnings
  nonempty : program.segments ≠ []
  filled : ∀ segment ∈ program.segments, segment.points ≠ []
  /-- The toolpaths, one after the other, are the points as they were read. -/
  joined : outcome.combined.points = program.toolpath.points

/-- An outcome that shows why bytes are no archive. -/
structure ShowsError (error : DecodeError) (outcome : Outcome) : Prop where
  succeeded : outcome.succeeded = false
  source : outcome.source = .binary
  header : outcome.header? = none
  mesh : outcome.mesh? = none
  toolpaths : outcome.toolpaths? = none
  units : outcome.units? = none
  error : outcome.error? = some error.message
  warnings : outcome.warnings = []

theorem showsFile (file : File) : (archive file).ShowsFile file :=
  ⟨rfl, rfl, rfl, rfl, rfl, rfl, rfl, rfl⟩

theorem showsError (error : DecodeError) : (failure error).ShowsError error :=
  ⟨rfl, rfl, rfl, rfl, rfl, rfl, rfl, rfl⟩

theorem showsProgram {calculate : String → Except String Float} {text : String}
    (moves : (readText calculate text).toolpath.points ≠ []) :
    (program (readText calculate text)).ShowsProgram (readText calculate text) := by
  have partitioned := Program.readProgram_partitioned calculate Program.defaultTool text
  have flat : (readText calculate text).segments.flatMap Toolpath.points =
      (readText calculate text).toolpath.points := partitioned.flat
  refine ⟨rfl, rfl, rfl, rfl, rfl, rfl, rfl, rfl, ?_, partitioned.nonempty, flat⟩
  intro none
  rw [none] at flat
  exact moves flat.symm

end Outcome

/-- What an outcome can show. -/
inductive Shape where
  | file
  | program
  | failure

variable (calculate : String → Except String Float)

/-- When bytes have a shape, and what an outcome then shows. -/
def Shape.Describes (bytes : List UInt8) (outcome : Outcome) : Shape → Prop
  | .file => ∃ file, decodeFile bytes = .ok file ∧ outcome.ShowsFile file
  | .program =>
      ∃ error, decodeFile bytes = .error error ∧
        (readText calculate (Text.ofBytes bytes)).toolpath.points ≠ [] ∧
        outcome.ShowsProgram (readText calculate (Text.ofBytes bytes))
  | .failure =>
      ∃ error, decodeFile bytes = .error error ∧
        (readText calculate (Text.ofBytes bytes)).toolpath.points = [] ∧ outcome.ShowsError error

/-- No outcome has two shapes. -/
theorem Shape.describes_unique {bytes : List UInt8} {outcome : Outcome} {first second : Shape}
    (isFirst : first.Describes calculate bytes outcome)
    (isSecond : second.Describes calculate bytes outcome) : first = second := by
  have kind : ∀ shape : Shape, shape.Describes calculate bytes outcome →
      shape = match outcome.succeeded, outcome.source with
        | false, _ => .failure
        | true, .text => .program
        | true, .binary => .file := by
    intro shape describes
    cases shape with
    | file =>
        obtain ⟨file, _, shows⟩ := describes
        rw [shows.succeeded, shows.source]
    | program =>
        obtain ⟨error, _, _, shows⟩ := describes
        rw [shows.succeeded, shows.source]
    | failure =>
        obtain ⟨error, _, _, shows⟩ := describes
        rw [shows.succeeded]
  rw [kind first isFirst, kind second isSecond]

/-- All bytes are decoded to exactly one shape: to the file that they hold, else to
the program that their text holds, else to the reason why they are no file. -/
theorem existsUnique_shape_decode (bytes : List UInt8) :
    ∃! shape : Shape, shape.Describes calculate bytes (decode bytes calculate) := by
  have described : ∃ shape : Shape,
      shape.Describes calculate bytes (decode bytes calculate) := by
    cases decoded : decodeFile bytes with
    | ok file =>
        rw [decode_eq_archive_iff.mpr decoded]
        exact ⟨.file, file, decoded, Outcome.showsFile file⟩
    | error error =>
        by_cases still : (readText calculate (Text.ofBytes bytes)).toolpath.points = []
        · rw [decode_eq_failure_iff.mpr ⟨decoded, still⟩]
          exact ⟨.failure, error, decoded, still, Outcome.showsError error⟩
        · rw [decode_eq_program_iff.mpr ⟨⟨error, decoded⟩, rfl, still⟩]
          exact ⟨.program, error, decoded, still, Outcome.showsProgram still⟩
  obtain ⟨shape, describes⟩ := described
  exact ⟨shape, describes, fun other also => Shape.describes_unique calculate also describes⟩

end Milling.Archive
