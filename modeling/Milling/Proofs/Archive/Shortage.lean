import Milling.Proofs.Archive.Consumption

/-!
# Where archives run out of bytes

The numbers that a file declares say where each of its parts stands.  A file that is
refused for want of bytes, or because it declares too much, is refused at a part: a field of
the front, a number of elements, a tool number or a whole element of an array.
-/

namespace Milling.Archive

section Places

variable (buffer : List UInt8)

/-- The number in some bytes of a buffer. -/
def numberAt (offset width : Nat) : Nat := littleEndian (bytesAt buffer offset width)

def vertexCount : Nat := numberAt buffer 21 4

/-- Where the faces start, with their number. -/
def facesStart : Nat := 25 + vertexCount buffer * 12

def faceCount : Nat := numberAt buffer (facesStart buffer) 4

/-- Where the toolpaths start, with their number. -/
def toolpathsStart : Nat := facesStart buffer + 4 + faceCount buffer * 12

def toolpathCount : Nat := numberAt buffer (toolpathsStart buffer) 2

/-- Where a toolpath starts: each has a tool number, a number of points, and the points. -/
def recordStart : Nat → Nat
  | 0 => toolpathsStart buffer + 2
  | path + 1 => recordStart path + 6 + numberAt buffer (recordStart path + 2) 4 * 16

def pointCount (path : Nat) : Nat := numberAt buffer (recordStart buffer path + 2) 4

end Places

/-- The parts at which the reading of a file can stop. -/
inductive Part where
  | magic
  | version
  | fileSize
  | creation
  | units
  | vertexCount
  | vertex (index : Nat)
  | faceCount
  | face (index : Nat)
  | toolpathCount
  | toolNumber (path : Nat)
  | pointCount (path : Nat)
  | point (path index : Nat)

namespace Part

def name : Part → String
  | magic => "header.magic"
  | version => "header.version"
  | fileSize => "header.file_size"
  | creation => "header.creation_timestamp"
  | units => "header.units"
  | vertexCount => "vertex_count"
  | vertex index => "vertex" ++ "[" ++ toString index ++ "]"
  | faceCount => "face_count"
  | face index => "face" ++ "[" ++ toString index ++ "]"
  | toolpathCount => "toolpath_count"
  | toolNumber path => "toolpath[" ++ toString path ++ "]" ++ ".tool_number"
  | pointCount path => "toolpath[" ++ toString path ++ "]" ++ ".point_count"
  | point path index =>
      "toolpath[" ++ toString path ++ "]" ++ ".point" ++ "[" ++ toString index ++ "]"

def width : Part → Nat
  | magic => 4
  | version => 4
  | fileSize => 4
  | creation => 8
  | units => 1
  | vertexCount => 4
  | vertex _ => 12
  | faceCount => 4
  | face _ => 12
  | toolpathCount => 2
  | toolNumber _ => 2
  | pointCount _ => 4
  | point _ _ => 16

def start (buffer : List UInt8) : Part → Nat
  | magic => 0
  | version => 4
  | fileSize => 8
  | creation => 12
  | units => 20
  | vertexCount => 21
  | vertex index => 25 + index * 12
  | faceCount => facesStart buffer
  | face index => facesStart buffer + 4 + index * 12
  | toolpathCount => toolpathsStart buffer
  | toolNumber path => recordStart buffer path
  | pointCount path => recordStart buffer path + 2
  | point path index => recordStart buffer path + 6 + index * 16

def IsDeclared (buffer : List UInt8) : Part → Prop
  | vertex index => index < Archive.vertexCount buffer
  | face index => index < Archive.faceCount buffer
  | toolNumber path => path < Archive.toolpathCount buffer
  | pointCount path => path < Archive.toolpathCount buffer
  | point path index =>
      path < Archive.toolpathCount buffer ∧ index < Archive.pointCount buffer path
  | _ => True

/-- The greatest number that may be declared. -/
def limit? : Part → Option Nat
  | vertexCount => some mostVertices
  | faceCount => some mostFaces
  | toolpathCount => some mostToolpaths
  | _ => none

/-- A part is cut off by the end of the file, or is a number over its limit. -/
inductive IsRefused (buffer : List UInt8) (part : Part) : Prop where
  | cutOff (reached : part.start buffer ≤ buffer.length)
      (short : buffer.length < part.start buffer + part.width)
  | overLimit {limit : Nat} (limited : part.limit? = some limit)
      (whole : part.start buffer + part.width ≤ buffer.length)
      (above : limit < numberAt buffer (part.start buffer) part.width)

end Part

/-- An error names a declared part at which the reading had to stop. -/
def NamesPart (buffer : List UInt8) (error : DecodeError) : Prop :=
  ∃ part : Part, part.IsDeclared buffer ∧ part.IsRefused buffer ∧
    error.field? = some part.name

/-- From an offset of a buffer a decoder reads a value that satisfies a condition together
with the offset behind it, or it stops; it stops for want of bytes only at a part. -/
structure Reaches {β : Type} (buffer : List UInt8) (start : Nat) (decoder : Decoder β)
    (post : β → Nat → Prop) : Prop where
  reads : ∀ value after, decoder (readerAt buffer start) = .ok (value, after) →
    ∃ stop ≤ buffer.length, after = readerAt buffer stop ∧ post value stop
  stops : ∀ error, decoder (readerAt buffer start) = .error error → error.isBounds = true →
    NamesPart buffer error

namespace Reaches

variable {β γ : Type} {buffer : List UInt8} {start : Nat}

theorem of_ok {decoder : Decoder β} {post : β → Nat → Prop} {value : β} {stop : Nat}
    (read : decoder (readerAt buffer start) = .ok (value, readerAt buffer stop))
    (inside : stop ≤ buffer.length) (holds : post value stop) :
    Reaches buffer start decoder post where
  reads := by
    intro other after given
    rw [read] at given
    cases given
    exact ⟨stop, inside, rfl, holds⟩
  stops := by
    intro error given
    rw [read] at given
    cases given

theorem of_error {decoder : Decoder β} {post : β → Nat → Prop} {error : DecodeError}
    (stopped : decoder (readerAt buffer start) = .error error)
    (names : error.isBounds = true → NamesPart buffer error) :
    Reaches buffer start decoder post where
  reads := by
    intro value after given
    rw [stopped] at given
    cases given
  stops := by
    intro other given
    rw [stopped] at given
    cases given
    exact names

theorem pure {post : β → Nat → Prop} {value : β} (inside : start ≤ buffer.length)
    (holds : post value start) : Reaches buffer start (Pure.pure value) post :=
  of_ok rfl inside holds

theorem refuse {error : DecodeError} (said : error.isBounds = false) {post : β → Nat → Prop} :
    Reaches buffer start (ByteReader.refuse error) post :=
  of_error rfl fun bounds => absurd bounds (by rw [said]; decide)

theorem bind {decoder : Decoder β} {next : β → Decoder γ} {middle : β → Nat → Prop}
    {post : γ → Nat → Prop} (first : Reaches buffer start decoder middle)
    (second : ∀ value stop, stop ≤ buffer.length → middle value stop →
      Reaches buffer stop (next value) post) :
    Reaches buffer start (decoder >>= next) post := by
  cases read : decoder (readerAt buffer start) with
  | error error =>
      exact of_error (by rw [bind_apply, read]) (first.stops error read)
  | ok given =>
      obtain ⟨value, after⟩ := given
      obtain ⟨stop, inside, rfl, holds⟩ := first.reads value after read
      have run : (decoder >>= next) (readerAt buffer start) =
          next value (readerAt buffer stop) := by
        rw [bind_apply, read]
      obtain ⟨reads, stops⟩ := second value stop inside holds
      rw [← run] at reads stops
      exact ⟨reads, stops⟩

theorem map {decoder : Decoder β} {middle : β → Nat → Prop} {post : γ → Nat → Prop}
    (make : β → γ) (reaches : Reaches buffer start decoder middle)
    (holds : ∀ value stop, middle value stop → post (make value) stop) :
    Reaches buffer start (decoder >>= fun value => Pure.pure (make value)) post :=
  reaches.bind fun value stop inside given => pure inside (holds value stop given)

theorem check {condition : Prop} [Decidable condition] {error : DecodeError}
    {later : PUnit → Decoder β} {post : β → Nat → Prop} (said : error.isBounds = false)
    (next : Reaches buffer start (later ⟨⟩) post) :
    Reaches buffer start
      (if condition then ByteReader.refuse error >>= later else later ⟨⟩) post := by
  split
  · exact (refuse said : Reaches buffer start _ fun _ _ => False).bind
      fun _ _ _ impossible => impossible.elim
  · exact next

theorem take (part : Part) (declared : part.IsDeclared buffer)
    (inside : part.start buffer ≤ buffer.length) :
    Reaches buffer (part.start buffer) (ByteReader.take part.name part.width) fun value stop =>
      value = bytesAt buffer (part.start buffer) part.width ∧
        stop = part.start buffer + part.width := by
  rcases attempt_readerAt_cases inside part.name with ⟨fits, equal⟩ | ⟨short, equal⟩
  · exact of_ok (by rw [ByteReader.take, equal]) fits ⟨rfl, rfl⟩
  · exact of_error (by rw [ByteReader.take, equal]) fun _ =>
      ⟨part, declared, .cutOff inside short, rfl⟩

theorem number (part : Part) (declared : part.IsDeclared buffer)
    (inside : part.start buffer ≤ buffer.length) :
    Reaches buffer (part.start buffer) (ByteReader.number part.name part.width)
      fun value stop => value = numberAt buffer (part.start buffer) part.width ∧
        stop = part.start buffer + part.width :=
  (take part declared inside).map littleEndian fun _ _ given =>
    ⟨congrArg littleEndian given.1, given.2⟩

theorem count (part : Part) {limit : Nat} (limited : part.limit? = some limit)
    (declared : part.IsDeclared buffer) (inside : part.start buffer ≤ buffer.length) :
    Reaches buffer (part.start buffer) (readCount part.name part.width limit)
      fun value stop => value = numberAt buffer (part.start buffer) part.width ∧
        stop = part.start buffer + part.width := by
  refine (number part declared inside).bind fun value stop behind given => ?_
  obtain ⟨isNumber, isStop⟩ := given
  split
  · rename_i above
    exact of_error rfl fun _ =>
      ⟨part, declared, .overLimit limited (isStop ▸ behind) (isNumber ▸ above), rfl⟩
  · exact pure behind ⟨isNumber, isStop⟩

/-- The first element that does not fit is one of those that were declared. -/
theorem requireArray {element : String} {count width : Nat} (positive : 0 < width)
    (part : Nat → Part) (declared : ∀ index < count, (part index).IsDeclared buffer)
    (named : ∀ index, (part index).name = element ++ "[" ++ toString index ++ "]")
    (starts : ∀ index, (part index).start buffer = start + index * width)
    (sized : ∀ index, (part index).width = width) (inside : start ≤ buffer.length) :
    Reaches buffer start (ByteReader.requireArray element count width) fun _ stop =>
      stop = start ∧ start + count * width ≤ buffer.length := by
  have run : ByteReader.requireArray element count width (readerAt buffer start) =
      if count * width ≤ buffer.length - start then .ok ((), readerAt buffer start)
      else .error (.shortArray
        (element ++ "[" ++ toString ((buffer.length - start) / width) ++ "]") count width start
        (buffer.length - start)) := by
    rw [ByteReader.requireArray, remaining_readerAt]
    rfl
  by_cases fits : count * width ≤ buffer.length - start
  · rw [if_pos fits] at run
    exact of_ok run inside ⟨rfl, by omega⟩
  · rw [if_neg fits] at run
    refine of_error run fun _ => ?_
    let missing := (buffer.length - start) / width
    have fewer : missing < count :=
      Nat.div_lt_of_lt_mul (by rw [Nat.mul_comm]; exact Nat.lt_of_not_le fits)
    have whole : missing * width ≤ buffer.length - start := Nat.div_mul_le_self _ width
    have cut : buffer.length - start < (missing + 1) * width :=
      (Nat.div_lt_iff_lt_mul positive).mp (Nat.lt_succ_self missing)
    rw [Nat.succ_mul] at cut
    refine ⟨part missing, declared missing fewer, .cutOff ?_ ?_, by rw [named]; rfl⟩
    · rw [starts]
      omega
    · rw [starts, sized]
      omega

theorem of_consumes {decoder : Decoder β} {width : Nat} (consumes : Consumes width decoder)
    (fits : start + width ≤ buffer.length) :
    Reaches buffer start decoder fun _ stop => stop = start + width := by
  have done := consumes (readerAt buffer start) (by
    rw [remaining_readerAt]
    omega)
  cases read : decoder (readerAt buffer start) with
  | error error =>
      simp only [read] at done
      exact of_error read fun bounds => absurd bounds (by rw [done]; decide)
  | ok given =>
      obtain ⟨value, after⟩ := given
      simp only [read, advanced_readerAt] at done
      exact of_ok (read.trans (by rw [done])) fits rfl

theorem header (length : Nat) :
    Reaches buffer 0 (readHeader length) fun _ stop => stop = 21 := by
  refine (take .magic trivial (Nat.zero_le _)).bind fun magic _ inside given => ?_
  obtain ⟨-, rfl⟩ := given
  refine check rfl ((number .version trivial inside).bind fun version _ inside given => ?_)
  obtain ⟨-, rfl⟩ := given
  refine check rfl ((number .fileSize trivial inside).bind fun fileSize _ inside given => ?_)
  obtain ⟨-, rfl⟩ := given
  refine check rfl ((number .creation trivial inside).bind fun ticks _ inside given => ?_)
  obtain ⟨-, rfl⟩ := given
  refine (number .units trivial inside).bind fun flag _ inside given => ?_
  obtain ⟨-, rfl⟩ := given
  split
  · exact pure inside rfl
  · exact refuse rfl

theorem mesh (inside : 21 ≤ buffer.length) :
    Reaches buffer 21 readMesh fun _ stop => stop = toolpathsStart buffer := by
  refine (count .vertexCount rfl trivial inside).bind fun vertices _ inside given => ?_
  obtain ⟨rfl, rfl⟩ := given
  refine (requireArray (by decide) .vertex (fun _ declared => declared) (fun _ => rfl)
    (fun _ => rfl) (fun _ => rfl) inside).bind fun _ _ _ given => ?_
  obtain ⟨rfl, fits⟩ := given
  refine (of_consumes (.elements .corner 0 _) fits).bind fun corners _ inside given => ?_
  subst given
  refine (count .faceCount rfl trivial inside).bind fun faces _ inside given => ?_
  obtain ⟨rfl, rfl⟩ := given
  refine (requireArray (by decide) .face (fun _ declared => declared) (fun _ => rfl)
    (fun _ => rfl) (fun _ => rfl) inside).bind fun _ _ _ given => ?_
  obtain ⟨rfl, fits⟩ := given
  exact (of_consumes (.elements (.face _) 0 _) fits).map _ fun _ _ given => given

theorem record {path : Nat} (declared : path < toolpathCount buffer)
    (inside : recordStart buffer path ≤ buffer.length) :
    Reaches buffer (recordStart buffer path) (readToolpath path) fun _ stop =>
      stop = recordStart buffer (path + 1) := by
  refine (number (.toolNumber path) declared inside).bind fun tool _ inside given => ?_
  obtain ⟨-, rfl⟩ := given
  refine (number (.pointCount path) declared inside).bind fun points _ inside given => ?_
  obtain ⟨rfl, rfl⟩ := given
  refine (requireArray (by decide) (.point path) (fun _ below => ⟨declared, below⟩)
    (fun _ => rfl) (fun _ => rfl) (fun _ => rfl) inside).bind fun _ _ _ given => ?_
  obtain ⟨rfl, fits⟩ := given
  exact (of_consumes (.elements (.point _ _) 0 _) fits).map _ fun _ _ given => given

theorem records {path count : Nat} (declared : path + count ≤ toolpathCount buffer)
    (inside : recordStart buffer path ≤ buffer.length) :
    Reaches buffer (recordStart buffer path) (ByteReader.elements readToolpath path count)
      fun _ _ => True := by
  induction count generalizing path with
  | zero => exact pure inside trivial
  | succ count ih =>
      refine (record (by omega) inside).bind fun toolpath _ inside given => ?_
      subst given
      exact (ih (by omega) inside).map _ fun _ _ _ => trivial

theorem toolpaths (inside : toolpathsStart buffer ≤ buffer.length) :
    Reaches buffer (toolpathsStart buffer) readToolpaths fun _ _ => True := by
  refine (count .toolpathCount rfl trivial inside).bind fun toolpaths _ inside given => ?_
  obtain ⟨rfl, rfl⟩ := given
  exact records (Nat.zero_add _).le inside

theorem file (length : Nat) : Reaches buffer 0 (readFile length) fun _ _ => True := by
  refine (header length).bind fun header _ inside given => ?_
  subst given
  refine (mesh inside).bind fun mesh _ inside given => ?_
  subst given
  exact (toolpaths inside).map _ fun _ _ _ => trivial

end Reaches

section Components

/-- What the single numbers inside an element are called. -/
inductive IsComponent : String → Prop
  | vertex (index : Nat) {axis : String} (isAxis : axis ∈ [".x", ".y", ".z"]) :
      IsComponent ("vertex[" ++ toString index ++ "]" ++ axis)
  | face (index : Nat) {corner : Nat} (isCorner : corner < 3) :
      IsComponent ("face[" ++ toString index ++ "]." ++ toString corner)
  | point (path index : Nat) {axis : String} (isAxis : axis ∈ [".x", ".y", ".z", ".feed"]) :
      IsComponent
        ("toolpath[" ++ toString path ++ "]" ++ ".point[" ++ toString index ++ "]" ++ axis)

/-- A name ends with a letter with which the name of a part ends, or with a bracket. -/
def endsAsPart (name : String) : Bool :=
  name.toList.getLast?.any ['c', 'n', 'e', 'p', 's', 't', 'r', ']'].contains

theorem endsAsPart_append (front back : String) (filled : back.toList ≠ []) :
    endsAsPart (front ++ back) = endsAsPart back := by
  rw [endsAsPart, String.toList_append, List.getLast?_append_of_ne_nil _ filled, endsAsPart]

theorem Part.endsAsPart_name (part : Part) : endsAsPart part.name = true := by
  cases part with
  | vertex index => exact endsAsPart_append _ "]" (by decide)
  | face index => exact endsAsPart_append _ "]" (by decide)
  | toolNumber path => exact endsAsPart_append _ ".tool_number" (by decide)
  | pointCount path => exact endsAsPart_append _ ".point_count" (by decide)
  | point path index => exact endsAsPart_append _ "]" (by decide)
  | _ => decide

theorem IsComponent.endsAsPart_eq_false {name : String} (isComponent : IsComponent name) :
    endsAsPart name = false := by
  cases isComponent with
  | @vertex index axis isAxis =>
      have ends : ∀ axis ∈ [".x", ".y", ".z"], axis.toList ≠ [] ∧ endsAsPart axis = false := by
        decide
      obtain ⟨filled, other⟩ := ends axis isAxis
      rw [endsAsPart_append _ _ filled, other]
  | @face index corner isCorner =>
      have ends : ∀ corner < 3,
          (toString corner).toList ≠ [] ∧ endsAsPart (toString corner) = false := by decide
      obtain ⟨filled, other⟩ := ends corner isCorner
      rw [endsAsPart_append _ _ filled, other]
  | @point path index axis isAxis =>
      have ends : ∀ axis ∈ [".x", ".y", ".z", ".feed"],
          axis.toList ≠ [] ∧ endsAsPart axis = false := by decide
      obtain ⟨filled, other⟩ := ends axis isAxis
      rw [endsAsPart_append _ _ filled, other]

/-- No part is called like a single number inside an element. -/
theorem Part.not_isComponent (part : Part) : ¬IsComponent part.name := by
  intro isComponent
  have ends := part.endsAsPart_name
  rw [isComponent.endsAsPart_eq_false] at ends
  cases ends

end Components

section Arrays

variable {β : Type} {element : String} {width count : Nat} {read : Nat → Decoder β}
  (isArray : IsArray element width read)

include isArray

/-- The bytes of an array can be counted in a machine word. -/
theorem IsArray.requireArray_iff (counted : count < 256 ^ 4) (reader : ByteReader) :
    ByteReader.requireArray element count width reader = .ok ((), reader) ↔
      min (count * width) (2 ^ 64 - 1) ≤ reader.remaining := by
  have narrow := isArray.width_le
  have exact : min (count * width) (2 ^ 64 - 1) = count * width := by
    have bounded : count * width ≤ 256 ^ 4 * 16 := Nat.mul_le_mul counted.le narrow
    exact Nat.min_eq_left (by omega)
  rw [exact, ByteReader.requireArray]
  split <;> simp_all

theorem IsArray.not_isBounds {reader : ByteReader}
    (required : ByteReader.requireArray element count width reader = .ok ((), reader)) :
    ∀ error, ByteReader.elements read 0 count reader = .error error → error.isBounds = false := by
  intro error stopped
  have enough : count * width ≤ reader.remaining := by
    by_contra tooFew
    rw [ByteReader.requireArray, if_neg tooFew] at required
    cases required
  have done := Consumes.elements isArray.consumes 0 count reader enough
  rwa [stopped] at done

end Arrays

/-- A file that is refused for want of bytes, or because it declares too much, is refused at
a field of the front, a number of elements, a tool number or a declared element, the first
one that is cut off or the number that is over its limit.  Inside an array whose bytes are
all there, no number of any element can be cut off. -/
theorem decodeFile_bounds :
    (∀ bytes error, decodeFile bytes = .error error → error.isBounds = true →
      ∃ part : Part, part.IsDeclared bytes ∧ part.IsRefused bytes ∧
        error.field? = some part.name ∧ ¬IsComponent part.name) ∧
      ∀ {β : Type} {element : String} {width : Nat} {read : Nat → Decoder β},
        IsArray element width read → ∀ count < 256 ^ 4, ∀ reader,
          (ByteReader.requireArray element count width reader = .ok ((), reader) ↔
            min (count * width) (2 ^ 64 - 1) ≤ reader.remaining) ∧
          (ByteReader.requireArray element count width reader = .ok ((), reader) →
            ∀ error, ByteReader.elements read 0 count reader = .error error →
              error.isBounds = false) := by
  constructor
  · intro bytes error failed bounds
    have stopped : readFile bytes.length (readerAt bytes 0) = .error error := by
      rw [decodeFile, ByteReader.start] at failed
      rw [readerAt, List.drop_zero]
      split at failed
      · cases failed
      · rename_i other read
        rw [read, Except.error.inj failed]
    obtain ⟨part, declared, refused, named⟩ := (Reaches.file bytes.length).stops error stopped bounds
    exact ⟨part, declared, refused, named, part.not_isComponent⟩
  · intro β element width read isArray count counted reader
    exact ⟨isArray.requireArray_iff counted reader, isArray.not_isBounds⟩

/-- A file with one toolpath of two points, of which the second one is cut off. -/
def cutToolpath : List UInt8 :=
  bytesOf "MCAM" ++ leastFirst 4 1 ++ leastFirst 4 57 ++ leastFirst 8 0 ++ [0] ++
    leastFirst 4 0 ++ leastFirst 4 0 ++ leastFirst 2 1 ++ leastFirst 2 4 ++ leastFirst 4 2 ++
    List.replicate 20 0

theorem decodeFile_bounds_cutToolpath :
    decodeFile cutToolpath = .error (.shortArray "toolpath[0].point[1]" 2 16 37 20) ∧
      (∃ part : Part, part.IsDeclared cutToolpath ∧ part.IsRefused cutToolpath ∧
        part.name = "toolpath[0].point[1]") ∧
      ∃ error, ByteReader.requireArray "face" 2 12 (.start (List.replicate 24 1)) =
          .ok ((), .start (List.replicate 24 1)) ∧
        ByteReader.elements (readFace 1) 0 2 (.start (List.replicate 24 1)) = .error error ∧
          error.isBounds = false := by
  have failed : decodeFile cutToolpath =
      .error (.shortArray "toolpath[0].point[1]" 2 16 37 20) := rfl
  obtain ⟨part, declared, refused, named, -⟩ := decodeFile_bounds.1 _ _ failed rfl
  obtain ⟨checked, reads⟩ := decodeFile_bounds.2 (.faces 1) 2 (by decide)
    (.start (List.replicate 24 1))
  have required := checked.mpr (by decide)
  exact ⟨failed, ⟨part, declared, refused, (Option.some.inj named).symm⟩,
    .face 0 16843009 1, required, rfl, reads required _ rfl⟩

end Milling.Archive
