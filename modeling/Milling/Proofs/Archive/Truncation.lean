import Milling.Proofs.Archive.Decoding
import Milling.Proofs.Archive.Field

/-!
# Truncated archives

A file that ends too early is refused, and the error names the first field that
is not whole: a field of the front, a number of elements, or an element of an
array by its index.
-/

namespace Milling.Archive

def Front.fields (front : Front) : List Field := [
  { name := "header.magic", bytes := bytesOf front.magic.name },
  { name := "header.version", bytes := bytes32 front.version },
  { name := "header.file_size", bytes := bytes32 front.fileSize },
  { name := "header.creation_timestamp", bytes := bytes64 front.ticks },
  { name := "header.units", bytes := [unitsFlag front.units] }]

/-- The fields of a mesh: both arrays behind their numbers of elements. -/
def Surface.fields (surface : Surface) : List Field :=
  { name := "vertex_count", bytes := leastFirst 4 surface.vertices.length } ::
    (elementFields "vertex" Vertex.bytes 0 surface.vertices ++
      { name := "face_count", bytes := leastFirst 4 surface.triangles.length } ::
        elementFields "face" Triangle.bytes 0 surface.triangles)

def Record.fields (index : Nat) (record : Record) : List Field :=
  let name := "toolpath[" ++ toString index ++ "]"
  { name := name ++ ".tool_number", bytes := bytes16 record.tool } ::
    { name := name ++ ".point_count", bytes := leastFirst 4 record.places.length } ::
      elementFields (name ++ ".point") Place.bytes 0 record.places

def recordFields (records : List Record) : List Field :=
  { name := "toolpath_count", bytes := leastFirst 2 records.length } ::
    records.zipIdx.flatMap fun entry => entry.1.fields entry.2

/-- The fields of a file in the order of its layout. -/
def Content.fields (content : Content) : List Field :=
  content.front.fields ++ (content.surface.fields ++ recordFields content.records)

theorem Front.joined_fields (front : Front) : joinedFields front.fields = front.bytes := by
  simp [Front.fields, Front.bytes]

theorem Surface.joined_fields (surface : Surface) :
    joinedFields surface.fields = surface.bytes := by
  simp [Surface.fields, Surface.bytes]

theorem Record.joined_fields (index : Nat) (record : Record) :
    joinedFields (record.fields index) = record.bytes := by
  simp [Record.fields, Record.bytes]

theorem joinedFields_recordFields (records : List Record) :
    joinedFields (recordFields records) =
      leastFirst 2 records.length ++ records.flatMap Record.bytes := by
  have numbered : ∀ index, joinedFields
      ((records.zipIdx index).flatMap fun entry => entry.1.fields entry.2) =
        records.flatMap Record.bytes := by
    induction records with
    | nil => exact fun _ => rfl
    | cons record records ih =>
        intro index
        rw [List.zipIdx_cons, List.flatMap_cons, joinedFields_append, record.joined_fields, ih,
          List.flatMap_cons]
  rw [recordFields, joinedFields_cons, numbered]

/-- The fields are the layout, with nothing between or behind them. -/
theorem Content.joined_fields (content : Content) :
    joinedFields content.fields = content.bytes := by
  simp [Content.fields, Content.bytes, Front.joined_fields, Surface.joined_fields,
    joinedFields_recordFields]

namespace CutsAt

variable {available : Nat}

theorem count (name : String) {width limit value : Nat} (within : value ≤ limit)
    (bounded : value < 256 ^ width) :
    CutsAt available (readCount name width limit)
      [{ name, bytes := leastFirst width value }] value := by
  have checked : CutsAt available (readCount name width limit)
      ([{ name, bytes := leastFirst width value }] ++ []) value := by
    refine (number name bounded).bind fun _ => ?_
    rw [if_neg (Nat.not_lt_of_le within)]
    exact pure value
  exact checked

/-- The size in the front matters only once it has been read. -/
theorem front {length : Nat} (front : Front)
    (version : 1 ≤ front.version.toNat ∧ front.version.toNat ≤ 3)
    (sized : 12 ≤ available → front.fileSize.toNat = length) :
    CutsAt available (readHeader length) front.fields front.header := by
  have width : (bytesOf front.magic.name).length = 4 := by
    cases front.magic <;> rfl
  have magical : ¬(!hasMagic (bytesOf front.magic.name)) = true := by
    rw [(Decodes.hasMagic_iff _ width).mpr ⟨front.magic, rfl⟩]
    decide
  have known : ¬(front.version.toNat = 0 ∨ greatestVersion < front.version.toNat) := by
    simp only [greatestVersion]
    omega
  have magic := fun available => @take available "header.magic" (bytesOf front.magic.name)
  rw [width] at magic
  refine (magic available).bind fun enoughMagic => check magical ?_
  refine (number _ front.version.toNat_lt).bind fun enoughVersion => check known ?_
  refine (number _ front.fileSize.toNat_lt).bind fun enoughSize => check ?_ ?_
  · have enough : 12 ≤ available := by
      simp [width] at enoughMagic enoughVersion enoughSize
      omega
    simpa using sized enough
  · refine (number _ front.ticks.toNat_lt).bind fun _ => ?_
    have flag := fun available => @number available "header.units" 1 (unitsFlag front.units).toNat
      (unitsFlag front.units).toNat_lt
    have byte : leastFirst 1 (unitsFlag front.units).toNat = [unitsFlag front.units] := by
      simp [leastFirst]
    rw [byte] at flag
    refine (flag _).bind fun _ => ?_
    rw [(Decodes.ofFlag?_iff _ front.units).mpr rfl, Decodes.ofBytes_magic]
    exact pure front.header

theorem mesh {surface : Surface} (valid : surface.Valid) :
    CutsAt available readMesh surface.fields surface.mesh := by
  have fewVertices := valid.vertices
  have fewTriangles := valid.triangles
  refine (count "vertex_count" fewVertices (by omega)).bind fun _ => ?_
  rw [← bind_assoc]
  refine (array "vertex" (by decide) Decodes.length_vertexBytes
    (Decodes.alike Decodes.corner _) ⟨surface.vertices, ⟨rfl, by simp⟩, rfl, rfl⟩).bind fun _ => ?_
  refine (count "face_count" fewTriangles (by omega)).bind fun _ => ?_
  rw [← bind_assoc]
  exact (array "face" (by decide) Decodes.length_triangleBytes
    (Decodes.alike (Decodes.face surface.vertices.length) _)
    ⟨surface.triangles, ⟨rfl, valid.within⟩, rfl, rfl⟩).map fun faces =>
      ({ corners := surface.vertices.map Vertex.corner, faces } : Mesh)

theorem record {record : Record} (counted : record.places.length < 256 ^ 4) (index : Nat) :
    CutsAt available (readToolpath index) (record.fields index) record.toolpath := by
  refine (number _ record.tool.toNat_lt).bind fun _ => ?_
  refine (number _ counted).bind fun _ => ?_
  rw [← bind_assoc, Record.toolpath, Decodes.points_eq_zipIdx]
  exact (array _ (by decide) Decodes.length_placeBytes
    (Decodes.elements (Decodes.point _ record.tool.toNat) 0 _)
    ⟨record.places, ⟨rfl, by simp⟩, rfl, rfl⟩).map fun points =>
      ({ points, tool := some record.tool.toNat } : Toolpath Float)

theorem toolpaths {records : List Record} (few : records.length ≤ 1000)
    (counted : ∀ record ∈ records, record.places.length < 256 ^ 4) :
    CutsAt available readToolpaths (recordFields records) (records.map Record.toolpath) := by
  refine (count "toolpath_count" few (by omega)).bind fun _ => ?_
  exact elements (fun index record member _ => CutsAt.record (counted record member) index) 0

theorem file {length : Nat} {content : Content}
    (version : 1 ≤ content.front.version.toNat ∧ content.front.version.toNat ≤ 3)
    (sized : 12 ≤ available → content.front.fileSize.toNat = length)
    (surface : content.surface.Valid) (few : content.records.length ≤ 1000)
    (counted : ∀ record ∈ content.records, record.places.length < 256 ^ 4) :
    CutsAt available (readFile length) content.fields content.file :=
  (front content.front version sized).bind fun _ => (mesh surface).bind fun _ =>
    (toolpaths few counted).map fun toolpaths =>
      ({ header := content.front.header, mesh := content.surface.mesh, toolpaths } : File)

end CutsAt

section Cut

/-- The front of a file, with the size that it declares made that of what is left,
where the size is still there. -/
def truncated (bytes : List UInt8) (length : Nat) : List UInt8 :=
  if length < 12 then bytes.take length
  else bytes.take 8 ++ leastFirst 4 length ++ (bytes.drop 12).take (length - 12)

def Content.resized (content : Content) (length : Nat) : Content :=
  { content with front := { content.front with fileSize := UInt32.ofNat length } }

theorem firstMissing?_resized (content : Content) (length available : Nat) :
    firstMissing? available (content.resized length).fields =
      firstMissing? available content.fields := by
  have rest : ∀ front back : Front, front.magic = back.magic →
      ∀ fields, firstMissing? available (front.fields ++ fields) =
        firstMissing? available (back.fields ++ fields) := by
    intro front back same fields
    simp [Front.fields, firstMissing?, bytes32, bytes64, same]
  exact rest _ _ rfl _

theorem Content.toNat_resized {content : Content} {length : Nat} (bounded : length < 2 ^ 32) :
    (content.resized length).front.fileSize.toNat = length :=
  Nat.mod_eq_of_lt bounded

/-- The declared size stands between eight bytes and the rest. -/
theorem Content.exists_beside_size (content : Content) :
    ∃ start behind, start.length = 8 ∧
      content.bytes = start ++ (bytes32 content.front.fileSize ++ behind) ∧
      ∀ length, (content.resized length).bytes =
        start ++ (bytes32 (content.resized length).front.fileSize ++ behind) := by
  refine ⟨bytesOf content.front.magic.name ++ bytes32 content.front.version,
    bytes64 content.front.ticks ++ [unitsFlag content.front.units] ++ content.surface.bytes ++
      leastFirst 2 content.records.length ++ content.records.flatMap Record.bytes, ?_, ?_, ?_⟩
  · cases content.front.magic <;> simp [bytes32] <;> rfl
  · simp [Content.bytes, Front.bytes]
  · simp [Content.resized, Content.bytes, Front.bytes]

/-- Cutting a file and declaring what is left is cutting a file that declares it. -/
theorem truncated_bytes {content : Content} {length : Nat} (sized : ¬length < 12)
    (bounded : length < 2 ^ 32) :
    truncated content.bytes length = (content.resized length).bytes.take length := by
  obtain ⟨start, behind, eight, given, resized⟩ := content.exists_beside_size
  have twelve (size : Nat) : (start ++ leastFirst 4 size).length = 12 := by
    rw [List.length_append, eight, length_leastFirst]
  have taken : content.bytes.take 8 = start := by
    rw [given, ← eight, List.take_left]
  have dropped : content.bytes.drop 12 = behind := by
    rw [given, ← List.append_assoc, ← twelve content.front.fileSize.toNat]
    exact List.drop_left
  rw [truncated, if_neg sized, taken, dropped, resized, bytes32, Content.toNat_resized bounded,
    ← List.append_assoc, CutsAt.take_of_le (by rw [twelve]; omega), twelve]

theorem length_truncated {bytes : List UInt8} {length : Nat} (short : length < bytes.length) :
    (truncated bytes length).length = length := by
  unfold truncated
  split
  · exact List.length_take_of_le (Nat.le_of_lt short)
  · simp only [List.length_append, List.length_take, List.length_drop, length_leastFirst]
    omega

/-- A valid file that is cut off anywhere is refused because its bytes run out, and
the error names the first field of the layout that is not whole. -/
theorem decodeFile_truncated {content : Content} (valid : content.Valid content.bytes.length)
    {length : Nat} (short : length < content.bytes.length) :
    ∃ error name, decodeFile (truncated content.bytes length) = .error error ∧
      error.isBounds = true ∧ error.field? = some name ∧
      firstMissing? length content.fields = some name := by
  have bounded : length < 2 ^ 32 := by
    have declared := content.front.fileSize.toNat_lt
    rw [valid.front.fileSize] at declared
    omega
  have counted : ∀ record ∈ content.records, record.places.length < 256 ^ 4 :=
    @counted_of_valid content [] (by rwa [List.append_nil])
  have given := length_truncated short
  -- The content whose front is left, with the size that is declared for it.
  have left : ∃ part : Content, part.bytes.take length = truncated content.bytes length ∧
      CutsAt length (readFile length) part.fields part.file ∧
      part.bytes.length = content.bytes.length ∧
      firstMissing? length part.fields = firstMissing? length content.fields := by
    by_cases sized : length < 12
    · refine ⟨content, ?_, ?_, rfl, rfl⟩
      · rw [truncated, if_pos sized]
      · exact CutsAt.file valid.front.version (fun enough => by omega) valid.surface
          valid.records counted
    · refine ⟨content.resized length, (truncated_bytes sized bounded).symm, ?_, ?_,
        firstMissing?_resized content length length⟩
      · exact CutsAt.file valid.front.version (fun _ => Content.toNat_resized bounded)
          valid.surface valid.records counted
      · obtain ⟨start, behind, -, given, resized⟩ := content.exists_beside_size
        rw [given, resized]
        simp [bytes32]
  obtain ⟨part, isLeft, cuts, same, missing⟩ := left
  rw [← same, ← part.joined_fields] at short
  obtain ⟨error, name, stopped, named, isMissing⟩ := cuts.stops short 0 []
  rw [List.append_nil, part.joined_fields, isLeft] at stopped
  refine ⟨error, name, ?_, ?_, named, missing ▸ isMissing⟩
  · rw [decodeFile, given, ByteReader.start, stopped]
  · rw [DecodeError.isBounds, named]
    rfl

/-- A mesh of one face with a toolpath of two points. -/
def smallPart : Content where
  front := { magic := .mcam, version := 2, fileSize := 93, ticks := 0, units := .millimeters }
  surface := {
    vertices := [{ x := 0, y := 0, z := 0 }]
    triangles := [{ first := 0, second := 0, third := 0 }] }
  records := [
    { tool := 4, places := [{ x := 0, y := 0, z := 0, feed := 0 },
        { x := 1, y := 0, z := 0, feed := 0 }] }]

theorem decodeFile_truncated_secondPoint :
    smallPart.Valid smallPart.bytes.length ∧ 80 < smallPart.bytes.length ∧
      ∃ error, decodeFile (truncated smallPart.bytes 80) = .error error ∧
        error.isBounds = true ∧ error.field? = some "toolpath[0].point[1]" := by
  have valid : smallPart.Valid smallPart.bytes.length := {
    front := ⟨by decide, by decide⟩
    surface := ⟨by decide, by decide, by
      intro triangle member
      rw [List.mem_singleton.mp member]
      exact ⟨by decide, by decide, by decide⟩⟩
    records := by decide }
  have short : 80 < smallPart.bytes.length := by decide
  obtain ⟨error, name, refused, bounds, named, missing⟩ := decodeFile_truncated valid short
  have second : firstMissing? 80 smallPart.fields = some "toolpath[0].point[1]" := by
    decide +kernel
  exact ⟨valid, short, error, refused, bounds, by rw [named, ← missing, second]⟩

end Cut

end Milling.Archive
