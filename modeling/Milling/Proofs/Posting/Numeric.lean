import Milling.Proofs.Posting.Sound

/-!
# Programs of plain numbers

The places, feeds and speeds of a path are checked before it is written; the
numbers of its motions and the height of safety are not.  A program reads
without an invalid parameter exactly when these are finite, too.
-/

namespace Milling.Posting

open Program (IsPlainWord IsWord noted)

variable {α : Type} [Scalar α]

/-- A program that is written is that of a path whose points were let through. -/
theorem program_eq_ok {poster : Poster α} {date : String} {path : Toolpath α}
    {operations : List (Operation α)} {id text : String}
    (written : poster.program date path operations id = .ok text) :
    pointError? path.points = none ∧
      text = String.ofList ((compact (poster.draft date (poster.dialect id) operations
        path.points)).flatMap fun line => line ++ ['\n']) := by
  unfold Poster.program Poster.lines at written
  split at written
  · cases written
  · split at written
    · cases written
    · rename_i passed
      exact ⟨passed, (Except.ok.inj written).symm⟩

/-- A path whose points are let through is written. -/
theorem program_of_checked (poster : Poster α) (date : String) {path : Toolpath α}
    (operations : List (Operation α)) (id : String) (nonempty : path.points ≠ [])
    (checked : ∀ point ∈ path.points, ∀ value ∈ checkedNumbers point,
      Scalar.isFinite value = true) :
    poster.program date path operations id = .ok (String.ofList
      ((compact (poster.draft date (poster.dialect id) operations path.points)).flatMap
        fun line => line ++ ['\n'])) := by
  have hasPoints : path.points.isEmpty = false := by simpa using nonempty
  simp only [Poster.program, Poster.lines, hasPoints, pointError?_eq_none_iff.mpr checked]
  rfl

variable [TextScalar α]

theorem readProgram_spoilt_draft {lines words : List Line} {note : Option Line}
    (dialect : Dialect) (inDraft : noted words note ∈ lines)
    (plain : ∀ word ∈ words, IsPlainWord word)
    (short : ∀ remark ∈ note, IsShortNote remark) {letter : Char} {value : α}
    (isPlain : letter ∈ plainLetters) (isWord : dialect.word letter value ∈ words)
    (unbounded : Scalar.isFinite value = false) (calculate : String → Except String α)
    (tool : Nat) :
    ∃ fault ∈ (Program.readProgram calculate tool (String.ofList
        ((compact lines).flatMap fun line => line ++ ['\n']))).warnings,
      fault.isInvalidParameter = true := by
  obtain ⟨inForce, found⟩ := compactFrom_mem {} inDraft
  obtain ⟨kept, isKept, oneLine, spoilt⟩ :=
    compactLine_spoilt calculate dialect plain isPlain isWord unbounded short inForce
  exact Program.readProgram_spoilt calculate (found kept isKept) oneLine spoilt tool

section Reading

variable {poster : Poster α} {dialect : Dialect} {date : String} {operations : List (Operation α)}
  {points : List (MotionPoint α)} (calculate : String → Except String α) (tool : Nat)

/-- A draft whose numbers are all finite is read without an invalid parameter. -/
theorem readProgram_sound_draft (builtIn :
      dialect.programStart ∈ [[], ["%", "O1000"], ["%", "O1000 (PROGRAM NAME)"]] ∧
      dialect.programEnd ∈ [["M30"], ["M30", "%"]])
    (safe : Scalar.isFinite poster.safeZ = true) (dated : '\n' ∉ date.toList)
    (described : ∀ operation ∈ operations, '\n' ∉ operation.tool.description.toList)
    (legible : ∀ point ∈ points, IsLegiblePoint point) :
    ∀ fault ∈ (Program.readProgram calculate tool (String.ofList
        ((compact (poster.draft date dialect operations points)).flatMap
          fun line => line ++ ['\n']))).warnings,
      fault.isInvalidParameter = false := by
  have compacted : ∀ line ∈ compact (poster.draft date dialect operations points),
      IsCompacted (DraftWords poster.units dialect poster.safeZ points) line :=
    isCompacted_draft builtIn dated described fun point member => (legible point member).oneLine
  exact Program.readProgram_clean calculate (fun line member => (compacted line member).oneLine)
    (fun line member => (compacted line member).isClean calculate
      fun words drafted => drafted.legible safe legible) tool

theorem readProgram_unbounded_height (unbounded : Scalar.isFinite poster.safeZ = false) :
    ∃ fault ∈ (Program.readProgram calculate tool (String.ofList
        ((compact (poster.draft date dialect operations points)).flatMap
          fun line => line ++ ['\n']))).warnings,
      fault.isInvalidParameter = true := by
  have plain : ∀ word ∈ ["G0".toList, dialect.word 'Z' poster.safeZ], IsPlainWord word := by
    simp only [List.forall_mem_cons, List.not_mem_nil, IsEmpty.forall_iff, implies_true,
      and_true]
    have rapid : IsWord "G0".toList := by decide
    exact ⟨rapid.isPlain, dialect.isPlainWord_word (by decide) _⟩
  have inDraft : noted ["G0".toList, dialect.word 'Z' poster.safeZ] none ∈
      poster.draft date dialect operations points := by
    rw [← heightMove_eq]
    simp [Poster.draft]
  exact readProgram_spoilt_draft dialect inDraft plain (by simp)
    (by decide : 'Z' ∈ plainLetters) (by simp) unbounded calculate tool

theorem readProgram_unbounded_motion {point : MotionPoint α} (member : point ∈ points)
    (commented : ∀ comment ∈ point.comment, '\n' ∉ comment.toList) {value : α}
    (isValue : value ∈ point.motion.written) (unbounded : Scalar.isFinite value = false) :
    ∃ fault ∈ (Program.readProgram calculate tool (String.ofList
        ((compact (poster.draft date dialect operations points)).flatMap
          fun line => line ++ ['\n']))).warnings,
      fault.isInvalidParameter = true := by
  obtain ⟨letter, isWritten⟩ := exists_mem_lineEntries isValue
  obtain ⟨ready, inPath⟩ := mem_pathLines dialect member ({} : Emitted α)
  have inDraft : noted (pointWords dialect ready point).1 (noteOf dialect point) ∈
      poster.draft date dialect operations points := by
    simp only [Poster.draft, List.mem_append]
    exact .inl (.inr inPath)
  have isWord : dialect.word letter value ∈ (pointWords dialect ready point).1 := by
    rw [pointWords_eq]
    exact List.mem_cons_of_mem _ (List.mem_append_left _ (List.mem_map.mpr
      ⟨(letter, value), isWritten, rfl⟩))
  exact readProgram_spoilt_draft dialect inDraft (isPlainWord_pointWords dialect ready point)
    (noteOf_short dialect commented) (plainLetter_of_mem_lineEntries point _ isWritten) isWord
    unbounded calculate tool

end Reading

/-- A program has an invalid parameter exactly when the height of safety or a number
of a motion is not finite. -/
theorem exists_invalidParameter_iff (poster : Poster α) {id : String}
    (builtIn : poster.registry.resolve id ∈ Dialect.builtIn) {date : String}
    (dated : '\n' ∉ date.toList) {operations : List (Operation α)}
    (described : ∀ operation ∈ operations, '\n' ∉ operation.tool.description.toList)
    {path : Toolpath α}
    (commented : ∀ point ∈ path.points, ∀ comment ∈ point.comment, '\n' ∉ comment.toList)
    (tools : ∀ point ∈ path.points, AcceptsTool α point.tool) {text : String}
    (written : poster.program date path operations id = .ok text)
    (calculate : String → Except String α) (tool : Nat) :
    (∃ fault ∈ (Program.readProgram calculate tool text).warnings,
        fault.isInvalidParameter = true) ↔
      Scalar.isFinite poster.safeZ = false ∨
        ∃ point ∈ path.points, ∃ value ∈ point.motion.written,
          Scalar.isFinite value = false := by
  obtain ⟨passed, rfl⟩ := program_eq_ok written
  constructor
  · rintro ⟨fault, isFault, invalid⟩
    by_contra finite
    rw [not_or] at finite
    obtain ⟨safe, motions⟩ := finite
    have legible : ∀ point ∈ path.points, IsLegiblePoint point := by
      intro point member
      refine ⟨tools point member, pointError?_eq_none_iff.mp passed point member, ?_,
        commented point member⟩
      intro value isValue
      by_contra unbounded
      exact motions ⟨point, member, value, isValue, by simpa using unbounded⟩
    have valid := readProgram_sound_draft calculate tool (poster.dialect_frame builtIn)
      (by simpa using safe) dated described legible fault isFault
    rw [valid] at invalid
    cases invalid
  · rintro (unbounded | ⟨point, member, value, isValue, unbounded⟩)
    · exact readProgram_unbounded_height calculate tool unbounded
    · exact readProgram_unbounded_motion calculate tool member (commented point member) isValue
        unbounded

/-- An arc around a centre of which one coordinate is given. -/
def sweep (i : Float) : MotionPoint Float :=
  { position := { x := 1, y := 0, z := 0 }
    motion := .arc { rotation := .clockwise, i := some i }
    tool := 1 }

def sweepProgram (i : Float) : Except PostError String :=
  (Poster.standard : Poster Float).program "2026-01-31" { points := [sweep i] } [] "fanuc"

theorem exists_invalidParameter_iff_sweep :
    ∃ text, sweepProgram 3 = .ok text ∧
      ((∃ fault ∈ (Program.readProgram (α := Float) (fun _ => .error "") 1 text).warnings,
          fault.isInvalidParameter = true) ↔
        Scalar.isFinite (Poster.standard : Poster Float).safeZ = false ∨
          ∃ point ∈ [sweep 3], ∃ value ∈ point.motion.written,
            Scalar.isFinite value = false) := by
  have passed : pointError? [sweep 3] = none := by
    decide +kernel
  have written : ∃ text, (Poster.standard : Poster Float).program "2026-01-31"
      { points := [sweep 3] } [] "fanuc" = .ok text := by
    simp only [Poster.program, Poster.lines, passed]
    exact ⟨_, rfl⟩
  have accepted : AcceptsTool Float 1 := by
    unfold AcceptsTool
    decide +kernel
  obtain ⟨text, written⟩ := written
  exact ⟨text, written, exists_invalidParameter_iff Poster.standard (resolve_mem_builtIn "fanuc")
    (by decide) (by simp) (by simp [sweep]) (by simpa [sweep] using accepted) written
    (fun _ => .error "") 1⟩

/-- An arc around a centre that is no number is written, and does not read back. -/
theorem sweepProgram_undefined :
    ∃ text, sweepProgram (0 / 0) = .ok text ∧
      ∃ fault ∈ (Program.readProgram (α := Float) (fun _ => .error "") 1 text).warnings,
        fault.isInvalidParameter = true := by
  have invalid : (sweepProgram (0 / 0)).toOption.any (fun text =>
      (Program.readProgram (α := Float) (fun _ => .error "") 1 text).warnings.any
        Fault.isInvalidParameter) = true := by
    decide +kernel
  cases program : sweepProgram (0 / 0) with
  | error reason => simp [program, Except.toOption] at invalid
  | ok text =>
      rw [program, Except.toOption, Option.any_some, List.any_eq_true] at invalid
      exact ⟨text, rfl, invalid⟩

end Milling.Posting
