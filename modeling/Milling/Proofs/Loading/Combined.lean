import Milling.Loading.Program
import Milling.Proofs.Program.Segments

/-!
# Segments joined again

The segments of a program, joined in order, are its points, so a program that
is loaded from a text or found in place of an archive keeps every point.
-/

namespace Milling

namespace Archive

variable {calculate : String → Except String Float}

/-- A text has a segment with a point where it has a point at all. -/
theorem any_segments_readText (text : String) :
    ((readText calculate text).segments.any fun path => !path.points.isEmpty) = true ↔
      (readText calculate text).toolpath.points ≠ [] := by
  have partitioned := Program.readProgram_partitioned calculate Program.defaultTool text
  rw [readText, ← partitioned.flat, List.any_eq_true]
  constructor
  · rintro ⟨segment, isSegment, _⟩ empty
    exact partitioned.nonempty segment isSegment
      (List.flatMap_eq_nil_iff.mp empty segment isSegment)
  · intro moves
    obtain ⟨point, isPoint⟩ := List.exists_mem_of_ne_nil _ moves
    obtain ⟨segment, isSegment, inSegment⟩ := List.mem_flatMap.mp isPoint
    refine ⟨segment, isSegment, ?_⟩
    cases points : segment.points with
    | nil => exact absurd points (partitioned.nonempty segment isSegment)
    | cons first rest => rfl

section Decoded

variable {bytes : List UInt8}

theorem decode_eq_archive_iff {file : File} :
    decode bytes calculate = .archive file ↔ decodeFile bytes = .ok file := by
  cases decoded : decodeFile bytes with
  | ok given => simp [decode, decoded]
  | error error =>
      simp only [decode, decoded, reduceCtorEq, iff_false]
      split <;> simp

/-- Bytes are a program where they are no archive and their text has a point. -/
theorem decode_eq_program_iff {outcome : Program.Outcome Float} :
    decode bytes calculate = .program outcome ↔
      (∃ error, decodeFile bytes = .error error) ∧
        outcome = readText calculate (Text.ofBytes bytes) ∧ outcome.toolpath.points ≠ [] := by
  cases decoded : decodeFile bytes with
  | ok file => simp [decode, decoded]
  | error error =>
      simp only [decode, decoded, any_segments_readText]
      constructor
      · intro found
        split at found
        · rename_i moves
          obtain rfl := Outcome.program.inj found
          exact ⟨⟨error, rfl⟩, rfl, moves⟩
        · cases found
      · rintro ⟨_, rfl, moves⟩
        rw [if_pos moves]

/-- Bytes are nothing where they are no archive and their text has no point. -/
theorem decode_eq_failure_iff {error : DecodeError} :
    decode bytes calculate = .failure error ↔
      decodeFile bytes = .error error ∧
        (readText calculate (Text.ofBytes bytes)).toolpath.points = [] := by
  cases decoded : decodeFile bytes with
  | ok file => simp [decode, decoded]
  | error given =>
      simp only [decode, decoded, any_segments_readText]
      split
      · rename_i moves
        simp [moves]
      · rename_i still
        simp [not_not.mp still]

end Decoded

end Archive

/-- The segments of every program partition its points by tool; joined again,
in a text found in place of an archive or loaded from a file, they give the
points as they were read. -/
theorem segments_partition_points {α : Type} [Scalar α]
    (calculate : String → Except String α) (evaluate : String → Except String Float)
    (tool : Nat) (text : String) (bytes : List UInt8) (path : String) :
    (Program.readProgram calculate tool text).Partitioned tool ∧
      (∀ outcome, Archive.decode bytes evaluate = .program outcome →
        outcome = Archive.readText evaluate (Text.ofBytes bytes) ∧
          (Archive.Outcome.program outcome).combined.points = outcome.toolpath.points) ∧
      (Archive.hasMagic bytes = false →
        ∃ program, LoadedProgram.ofBytes path bytes evaluate = .ok program ∧
          program.source = .text ∧
          program.toolpaths =
            (Archive.readText evaluate (Text.ofBytes bytes)).segments ∧
          program.combined.points =
            (Archive.readText evaluate (Text.ofBytes bytes)).toolpath.points) := by
  have joined :
      (Archive.readText evaluate (Text.ofBytes bytes)).segments.flatMap Toolpath.points =
        (Archive.readText evaluate (Text.ofBytes bytes)).toolpath.points :=
    (Program.readProgram_partitioned evaluate Program.defaultTool (Text.ofBytes bytes)).flat
  refine ⟨Program.readProgram_partitioned calculate tool text, ?_, ?_⟩
  · intro outcome decoded
    obtain ⟨_, rfl, _⟩ := Archive.decode_eq_program_iff.mp decoded
    exact ⟨rfl, joined⟩
  · intro noMagic
    rw [LoadedProgram.ofBytes, noMagic]
    exact ⟨_, rfl, rfl, rfl, joined⟩

/-- A rapid behind the first bytes of an archive is read as a program. -/
def rapidBehindMagic : List UInt8 := "MCAM\nG0 X1".toList.map (UInt8.ofNat ·.toNat)

/-- Cuts with two tools, the first of which comes back at the end. -/
def returningTool : List UInt8 :=
  "T1\nG0 X1\nG1 X2 F60\nT2\nG1 X3\nT1\nG0 X4".toList.map (UInt8.ofNat ·.toNat)

/-- A program behind the first bytes of an archive is found, and one with three segments is
loaded with all its points. -/
theorem segments_partition_points_rapidBehindMagic :
    Archive.hasMagic returningTool = false ∧
      (∃ outcome, Archive.decode rapidBehindMagic = .program outcome ∧
        (Archive.Outcome.program outcome).combined.points = outcome.toolpath.points) ∧
      ∃ program, LoadedProgram.ofBytes "" returningTool = .ok program ∧
        program.toolpaths.map Toolpath.tools = [[1], [2], [1]] ∧
        program.combined.points =
          (Archive.readText Expression.number (Text.ofBytes returningTool)).toolpath.points := by
  have decoded : Archive.decode rapidBehindMagic =
      .program (Archive.readText Expression.number (Text.ofBytes rapidBehindMagic)) :=
    Archive.decode_eq_program_iff.mpr ⟨⟨_, rfl⟩, rfl, by decide +kernel⟩
  have noMagic : Archive.hasMagic returningTool = false := rfl
  have tools : (Archive.readText Expression.number
      (Text.ofBytes returningTool)).segments.map Toolpath.tools = [[1], [2], [1]] := by
    decide +kernel
  obtain ⟨_, fallback, _⟩ :=
    segments_partition_points Expression.number Expression.number 1 "" rapidBehindMagic ""
  obtain ⟨_, _, loaded⟩ :=
    segments_partition_points Expression.number Expression.number 1 "" returningTool ""
  obtain ⟨program, isLoaded, _, segments, points⟩ := loaded noMagic
  exact ⟨noMagic, ⟨_, decoded, (fallback _ decoded).2⟩, program, isLoaded,
    segments ▸ tools, points⟩

end Milling
