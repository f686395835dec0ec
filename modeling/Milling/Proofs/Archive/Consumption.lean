import Milling.Proofs.Archive.Reading

/-!
# Elements of a set width

Every element of an array has a width of its own, whatever it holds.  Once an array has
been checked as a whole, its bytes are there for each component of each element.
-/

namespace Milling.Archive

variable {β γ : Type}

/-- With the bytes of a width left a decoder takes these and no others, or it refuses what
they say. -/
def Consumes (width : Nat) (decoder : Decoder β) : Prop :=
  ∀ reader : ByteReader, width ≤ reader.remaining →
    match decoder reader with
    | .ok (_, after) => after = reader.advanced width
    | .error error => error.isBounds = false

theorem remaining_advanced {reader : ByteReader} {width : Nat} :
    (reader.advanced width).remaining = reader.remaining - width :=
  List.length_drop

theorem advanced_advanced {reader : ByteReader} {first second : Nat} :
    (reader.advanced first).advanced second = reader.advanced (first + second) := by
  simp only [ByteReader.advanced, List.drop_drop, Nat.add_assoc]

namespace Consumes

theorem pure (value : β) : Consumes 0 (Pure.pure value) := fun _ _ => rfl

theorem refuse {error : DecodeError} (said : error.isBounds = false) (width : Nat) :
    Consumes width (ByteReader.refuse error : Decoder β) := fun _ _ => said

theorem bind {first second : Nat} {decoder : Decoder β} {next : β → Decoder γ}
    (front : Consumes first decoder) (back : ∀ value, Consumes second (next value)) :
    Consumes (first + second) (decoder >>= next) := by
  intro reader enough
  have here := front reader (by omega)
  rw [bind_apply]
  cases read : decoder reader with
  | error error => simpa only [read] using here
  | ok given =>
      obtain ⟨value, middle⟩ := given
      simp only [read] at here
      have later := back value middle (by
        rw [here, remaining_advanced]
        omega)
      rw [here, advanced_advanced] at later
      rwa [here]

theorem map {width : Nat} {decoder : Decoder β} (consumes : Consumes width decoder)
    (make : β → γ) : Consumes width (decoder >>= fun value => Pure.pure (make value)) :=
  consumes.bind fun value => pure (make value)

theorem take (field : String) (width : Nat) : Consumes width (ByteReader.take field width) := by
  intro reader enough
  rw [ByteReader.take, ByteReader.attempt_of_le enough]

theorem number (field : String) (width : Nat) :
    Consumes width (ByteReader.number field width) :=
  (take field width).map littleEndian

theorem single (field : String) : Consumes 4 (readSingle field) :=
  (number field 4).map fun bits => ({ bits } : Single)

theorem corner (index : Nat) : Consumes 12 (readCorner index) :=
  (single _).bind fun x => (single _).bind fun y => (single _).map fun z =>
    ({ x, y, z } : Corner)

theorem faceCorner (vertexCount index corner : Nat) :
    Consumes 4 (readFaceCorner vertexCount index corner) := by
  refine (number _ 4).bind fun vertex => (?_ : Consumes 0 _)
  split
  · exact refuse rfl 0
  · exact pure vertex

theorem face (vertexCount index : Nat) : Consumes 12 (readFace vertexCount index) :=
  (faceCorner vertexCount index 0).bind fun first =>
    (faceCorner vertexCount index 1).bind fun second =>
      (faceCorner vertexCount index 2).map fun third => ({ first, second, third } : Face)

theorem point (path : String) (tool index : Nat) : Consumes 16 (readPoint path tool index) := by
  refine (single _).bind fun x => (single _).bind fun y => (single _).bind fun z =>
    (single _).bind fun feed => (?_ : Consumes 0 _)
  dsimp only
  split
  · exact pure _
  · exact pure _

theorem elements {width : Nat} {read : Nat → Decoder β}
    (each : ∀ index, Consumes width (read index)) (index count : Nat) :
    Consumes (count * width) (ByteReader.elements read index count) := by
  induction count generalizing index with
  | zero =>
      rw [Nat.zero_mul]
      exact pure []
  | succ count ih =>
      rw [Nat.succ_mul, Nat.add_comm]
      exact (each index).bind fun element => (ih (index + 1)).map (element :: ·)

end Consumes

/-- The arrays of a file: what an element is called, its width and how it is read. -/
inductive IsArray : {β : Type} → String → Nat → (Nat → Decoder β) → Prop
  | vertices : IsArray "vertex" 12 readCorner
  | faces (vertexCount : Nat) : IsArray "face" 12 (readFace vertexCount)
  | points (path : String) (tool : Nat) : IsArray (path ++ ".point") 16 (readPoint path tool)

theorem IsArray.consumes {element : String} {width : Nat} {read : Nat → Decoder β}
    (isArray : IsArray element width read) (index : Nat) : Consumes width (read index) := by
  cases isArray with
  | vertices => exact .corner index
  | faces vertexCount => exact .face vertexCount index
  | points path tool => exact .point path tool index

theorem IsArray.width_le {element : String} {width : Nat} {read : Nat → Decoder β}
    (isArray : IsArray element width read) : width ≤ 16 := by
  cases isArray <;> decide

end Milling.Archive
