import Milling.Proofs.Archive.Content

/-!
# Decoding archives

The decoder accepts a buffer exactly when it starts with the layout of a valid
content, and then gives the file that this content stands for.
-/

namespace Milling.Archive

namespace Decodes

theorem word16 (field : String) : Decodes (ByteReader.number field 2)
    (Coded (fun _ => True) bytes16 UInt16.toNat) :=
  word UInt16.toNat UInt16.toNat_lt
    (fun value bounded => ⟨UInt16.ofNat value, Nat.mod_eq_of_lt bounded⟩) field

theorem word32 (field : String) : Decodes (ByteReader.number field 4)
    (Coded (fun _ => True) bytes32 UInt32.toNat) :=
  word UInt32.toNat UInt32.toNat_lt
    (fun value bounded => ⟨UInt32.ofNat value, Nat.mod_eq_of_lt bounded⟩) field

theorem word64 (field : String) : Decodes (ByteReader.number field 8)
    (Coded (fun _ => True) bytes64 UInt64.toNat) :=
  word UInt64.toNat UInt64.toNat_lt
    (fun value bounded => ⟨UInt64.ofNat value, Nat.mod_eq_of_lt bounded⟩) field

theorem word8 (field : String) : Decodes (ByteReader.number field 1)
    (Coded (fun _ => True) (fun byte : UInt8 => [byte]) UInt8.toNat) := by
  have one : ∀ byte : UInt8, leastFirst 1 byte.toNat = [byte] := by
    intro byte
    simp [leastFirst]
  have onto : ∀ value < 256 ^ 1, ∃ byte : UInt8, byte.toNat = value :=
    fun value bounded => ⟨UInt8.ofNat value, Nat.mod_eq_of_lt bounded⟩
  have decodes := word UInt8.toNat UInt8.toNat_lt onto field
  simpa only [one] using decodes

theorem single (field : String) : Decodes (readSingle field)
    (Coded (fun _ => True) bytes32 singleOf) := by
  refine ((word32 field).bind fun bits => pure ({ bits } : Single)).congr ?_
  intro bytes value
  constructor
  · rintro ⟨_, left, _, rfl, ⟨word, _, rfl, rfl⟩, rfl, rfl⟩
    exact ⟨word, trivial, List.append_nil _, rfl⟩
  · rintro ⟨word, _, rfl, rfl⟩
    exact ⟨word.toNat, bytes32 word, [], (List.append_nil _).symm, ⟨word, trivial, rfl, rfl⟩,
      rfl, rfl⟩

theorem corner (index : Nat) : Decodes (readCorner index)
    (Coded (fun _ => True) Vertex.bytes Vertex.corner) := by
  refine ((single _).bind fun x => (single _).bind fun y => (single _).bind fun z =>
    pure ({ x, y, z } : Corner)).congr ?_
  intro bytes value
  constructor
  · rintro ⟨_, _, _, rfl, ⟨x, _, rfl, rfl⟩, _, _, _, rfl, ⟨y, _, rfl, rfl⟩, _, _, _, rfl,
      ⟨z, _, rfl, rfl⟩, rfl, rfl⟩
    exact ⟨{ x, y, z }, trivial, by simp [Vertex.bytes], rfl⟩
  · rintro ⟨vertex, _, rfl, rfl⟩
    exact ⟨_, _, _, by rw [Vertex.bytes, List.append_assoc], ⟨vertex.x, trivial, rfl, rfl⟩,
      _, _, _, rfl, ⟨vertex.y, trivial, rfl, rfl⟩,
      _, _, [], (List.append_nil _).symm, ⟨vertex.z, trivial, rfl, rfl⟩, rfl, rfl⟩

theorem faceCorner (vertexCount index corner : Nat) :
    Decodes (readFaceCorner vertexCount index corner)
      (Coded (fun word : UInt32 => word.toNat < vertexCount) bytes32 UInt32.toNat) := by
  refine ((word32 _).bind fun vertex => ite (refuse _) (pure vertex)).congr ?_
  intro bytes value
  constructor
  · rintro ⟨_, left, right, rfl, ⟨word, _, rfl, rfl⟩, checked⟩
    by_cases outside : vertexCount ≤ word.toNat
    · rw [if_pos outside] at checked
      exact checked.elim
    · rw [if_neg outside] at checked
      obtain ⟨rfl, rfl⟩ := checked
      exact ⟨word, Nat.lt_of_not_le outside, List.append_nil _, rfl⟩
  · rintro ⟨word, inside, rfl, rfl⟩
    refine ⟨word.toNat, bytes32 word, [], (List.append_nil _).symm, ⟨word, trivial, rfl, rfl⟩, ?_⟩
    rw [if_neg (Nat.not_le_of_lt inside)]
    exact ⟨rfl, rfl⟩

theorem face (vertexCount index : Nat) : Decodes (readFace vertexCount index)
    (Coded (Triangle.Within vertexCount) Triangle.bytes Triangle.face) := by
  refine ((faceCorner vertexCount index 0).bind fun first =>
    (faceCorner vertexCount index 1).bind fun second =>
    (faceCorner vertexCount index 2).bind fun third =>
    pure ({ first, second, third } : Face)).congr ?_
  intro bytes value
  constructor
  · rintro ⟨_, _, _, rfl, ⟨first, inFirst, rfl, rfl⟩, _, _, _, rfl,
      ⟨second, inSecond, rfl, rfl⟩, _, _, _, rfl, ⟨third, inThird, rfl, rfl⟩, rfl, rfl⟩
    exact ⟨{ first, second, third }, ⟨inFirst, inSecond, inThird⟩,
      by simp [Triangle.bytes], rfl⟩
  · rintro ⟨triangle, ⟨inFirst, inSecond, inThird⟩, rfl, rfl⟩
    exact ⟨_, _, _, by rw [Triangle.bytes, List.append_assoc],
      ⟨triangle.first, inFirst, rfl, rfl⟩, _, _, _, rfl, ⟨triangle.second, inSecond, rfl, rfl⟩,
      _, _, [], (List.append_nil _).symm, ⟨triangle.third, inThird, rfl, rfl⟩, rfl, rfl⟩

/-- Four floats, whatever is made of them. -/
theorem place {next : Single → Single → Single → Single → Decoder β}
    (make : Single → Single → Single → Single → β)
    (makes : ∀ x y z feed, next x y z feed = Pure.pure (make x y z feed))
    (fieldX fieldY fieldZ fieldF : String) :
    Decodes (readSingle fieldX >>= fun x => readSingle fieldY >>= fun y =>
        readSingle fieldZ >>= fun z => readSingle fieldF >>= fun feed => next x y z feed)
      (Coded (fun _ => True) Place.bytes fun place =>
        make (singleOf place.x) (singleOf place.y) (singleOf place.z) (singleOf place.feed)) := by
  simp only [makes]
  refine ((single fieldX).bind fun x => (single fieldY).bind fun y =>
    (single fieldZ).bind fun z => (single fieldF).bind fun feed =>
    pure (make x y z feed)).congr ?_
  intro bytes value
  constructor
  · rintro ⟨_, _, _, rfl, ⟨x, _, rfl, rfl⟩, _, _, _, rfl, ⟨y, _, rfl, rfl⟩, _, _, _, rfl,
      ⟨z, _, rfl, rfl⟩, _, _, _, rfl, ⟨feed, _, rfl, rfl⟩, rfl, rfl⟩
    exact ⟨{ x, y, z, feed }, trivial, by simp [Place.bytes], rfl⟩
  · rintro ⟨place, _, rfl, rfl⟩
    exact ⟨_, _, _, by rw [Place.bytes, List.append_assoc, List.append_assoc],
      ⟨place.x, trivial, rfl, rfl⟩, _, _, _, rfl, ⟨place.y, trivial, rfl, rfl⟩,
      _, _, _, rfl, ⟨place.z, trivial, rfl, rfl⟩,
      _, _, [], (List.append_nil _).symm, ⟨place.feed, trivial, rfl, rfl⟩, rfl, rfl⟩

theorem point (path : String) (tool index : Nat) : Decodes (readPoint path tool index)
    (Coded (fun _ => True) Place.bytes fun place =>
      if index = 0 then place.rapid tool else place.linear tool) := by
  let make (x y z feed : Single) : MotionPoint Float :=
    let position : Position Float := { x := x.widened, y := y.widened, z := z.widened }
    if index = 0 then { position, motion := .rapid, tool }
    else { position, motion := .linear, feed := some feed.widened, tool }
  unfold readPoint
  refine place make ?_ _ _ _ _
  intro x y z feed
  dsimp only [make]
  split <;> rfl

theorem count (field : String) (width limit : Nat) : Decodes (readCount field width limit)
    fun bytes value => (value ≤ limit ∧ value < 256 ^ width) ∧ bytes = leastFirst width value := by
  refine ((number field width).bind fun value => ite (refuse _) (pure value)).congr ?_
  intro bytes value
  constructor
  · rintro ⟨given, left, right, rfl, ⟨bounded, rfl⟩, checked⟩
    by_cases above : limit < given
    · rw [if_pos above] at checked
      exact checked.elim
    · rw [if_neg above] at checked
      obtain ⟨rfl, rfl⟩ := checked
      exact ⟨⟨Nat.le_of_not_lt above, bounded⟩, List.append_nil _⟩
  · rintro ⟨⟨within, bounded⟩, rfl⟩
    refine ⟨value, _, [], (List.append_nil _).symm, ⟨bounded, rfl⟩, ?_⟩
    rw [if_neg (Nat.not_lt_of_le within)]
    exact ⟨rfl, rfl⟩

theorem points_eq_zipIdx (record : Record) :
    record.points = record.places.zipIdx.map fun entry =>
      if entry.2 = 0 then entry.1.rapid record.tool.toNat
      else entry.1.linear record.tool.toNat := by
  unfold Record.points
  cases record.places with
  | nil => rfl
  | cons first others =>
      have later : ∀ index, (others.zipIdx (index + 1)).map (fun entry =>
          if entry.2 = 0 then entry.1.rapid record.tool.toNat
          else entry.1.linear record.tool.toNat) =
            others.map (Place.linear record.tool.toNat) := by
        induction others with
        | nil => simp
        | cons place others ih =>
            intro index
            simp [ih (index + 1)]
      have tail := later 0
      simp [tail]

theorem length_placeBytes (place : Place) : place.bytes.length = 16 := by
  simp [Place.bytes, bytes32]

theorem length_vertexBytes (vertex : Vertex) : vertex.bytes.length = 12 := by
  simp [Vertex.bytes, bytes32]

theorem length_triangleBytes (triangle : Triangle) : triangle.bytes.length = 12 := by
  simp [Triangle.bytes, bytes32]

theorem toolpath (index : Nat) : Decodes (readToolpath index)
    (Coded (fun record => record.places.length < 256 ^ 4) Record.bytes Record.toolpath) := by
  refine ((word16 _).bind fun tool => (number _ 4).bind fun count =>
    ((elements (point _ tool) 0 count).bind fun points =>
      pure ({ points, tool := some tool } : Toolpath Float)).requireArray ?_).congr ?_
  · rintro bytes path ⟨_, front, _, rfl, ⟨places, ⟨length, _⟩, rfl, rfl⟩, rfl, rfl⟩
    refine Nat.le_of_eq ?_
    rw [List.append_nil, length_flatMap_of_width length_placeBytes, length]
  · intro bytes path
    constructor
    · rintro ⟨_, _, _, rfl, ⟨tool, _, rfl, rfl⟩, count, _, _, rfl, ⟨bounded, rfl⟩, _, _, _, rfl,
        ⟨places, ⟨rfl, _⟩, rfl, rfl⟩, rfl, rfl⟩
      refine ⟨{ tool, places }, bounded, by simp [Record.bytes], ?_⟩
      rw [Record.toolpath, points_eq_zipIdx]
    · rintro ⟨record, bounded, rfl, rfl⟩
      refine ⟨record.tool.toNat, bytes16 record.tool, _, ?_, ⟨record.tool, trivial, rfl, rfl⟩,
        record.places.length, leastFirst 4 record.places.length, _, rfl, ⟨bounded, rfl⟩,
        record.points, record.places.flatMap Place.bytes, [], (List.append_nil _).symm,
        ⟨record.places, ⟨rfl, by simp⟩, rfl, points_eq_zipIdx record⟩, rfl, rfl⟩
      rw [Record.bytes, List.append_assoc]

theorem hasMagic_iff (bytes : List UInt8) (length : bytes.length = 4) :
    hasMagic bytes = true ↔ ∃ magic : Magic, bytes = bytesOf magic.name := by
  have whole : bytes.take 4 = bytes := List.take_of_length_le (Nat.le_of_eq length)
  simp only [hasMagic, magics, whole, List.any_cons, List.any_nil, Bool.or_false,
    Bool.or_eq_true, beq_iff_eq]
  constructor
  · rintro (same | same)
    · exact ⟨.mcam, same⟩
    · exact ⟨.mmc2, same⟩
  · rintro ⟨magic, same⟩
    cases magic with
    | mcam => exact .inl same
    | mmc2 => exact .inr same

theorem ofFlag?_iff (flag : UInt8) (units : Units) :
    Units.ofFlag? flag.toNat = some units ↔ flag = unitsFlag units := by
  have bytes : (0 : UInt8).toNat = 0 ∧ (1 : UInt8).toNat = 1 := by decide
  constructor
  · intro isFlag
    apply UInt8.toNat_inj.mp
    unfold Units.ofFlag? at isFlag
    split at isFlag
    · cases isFlag
      assumption
    · cases isFlag
      assumption
    · cases isFlag
  · rintro rfl
    cases units <;> rfl

theorem units (field : String) (make : Units → Header) :
    Decodes (ByteReader.number field 1 >>= fun flag =>
        match Units.ofFlag? flag with
        | some units => Pure.pure (make units)
        | none => ByteReader.refuse (.unitsFlag flag))
      (Coded (fun _ => True) (fun units => [unitsFlag units]) make) := by
  have chosen : ∀ flag, Decodes
      (match Units.ofFlag? flag with
        | some units => Pure.pure (make units)
        | none => ByteReader.refuse (.unitsFlag flag))
      fun bytes header =>
        ∃ units, Units.ofFlag? flag = some units ∧ bytes = [] ∧ header = make units := by
    intro flag
    cases known : Units.ofFlag? flag with
    | none => exact (refuse _).congr (by simp)
    | some units => exact (pure (make units)).congr (by simp)
  refine ((word8 field).bind chosen).congr ?_
  intro bytes header
  constructor
  · rintro ⟨_, _, _, rfl, ⟨flag, _, rfl, rfl⟩, units, isFlag, rfl, rfl⟩
    refine ⟨units, trivial, ?_, rfl⟩
    rw [(ofFlag?_iff flag units).mp isFlag, List.append_nil]
  · rintro ⟨units, _, rfl, rfl⟩
    exact ⟨(unitsFlag units).toNat, [unitsFlag units], [], (List.append_nil _).symm,
      ⟨unitsFlag units, trivial, rfl, rfl⟩, units, (ofFlag?_iff _ units).mpr rfl, rfl, rfl⟩

theorem ofBytes_magic (magic : Magic) : Text.ofBytes (bytesOf magic.name) = magic.name := by
  cases magic <;> decide

theorem header (length : Nat) : Decodes (readHeader length)
    (Coded (Front.Valid length) Front.bytes Front.header) := by
  refine ((take _ 4).bind fun magic => check ((word32 _).bind fun version =>
    check ((word32 _).bind fun fileSize => check ((word64 _).bind fun ticks =>
      units _ fun units =>
        { magic := Text.ofBytes magic, version, fileSize, ticks, units })))).congr ?_
  intro bytes value
  constructor
  · rintro ⟨start, _, _, rfl, ⟨width, rfl⟩, hasMagic, _, _, _, rfl, ⟨version, _, rfl, rfl⟩,
      known, _, _, _, rfl, ⟨fileSize, _, rfl, rfl⟩, sized, _, _, _, rfl, ⟨ticks, _, rfl, rfl⟩,
      units, _, rfl, rfl⟩
    obtain ⟨magic, rfl⟩ := (hasMagic_iff start width).mp (by simpa using hasMagic)
    have versions : 1 ≤ version.toNat ∧ version.toNat ≤ 3 := by
      simp only [greatestVersion, not_or, Nat.not_lt] at known
      omega
    refine ⟨{ magic, version, fileSize, ticks, units }, ⟨versions, ?_⟩, ?_, ?_⟩
    · simpa using sized
    · simp [Front.bytes]
    · rw [Front.header, ofBytes_magic]
  · rintro ⟨front, valid, rfl, rfl⟩
    have width : (bytesOf front.magic.name).length = 4 := by
      cases front.magic <;> rfl
    have versions := valid.version
    have known : ¬(front.version.toNat = 0 ∨ greatestVersion < front.version.toNat) := by
      simp only [greatestVersion]
      omega
    have magical : ¬(!hasMagic (bytesOf front.magic.name)) = true := by
      rw [(hasMagic_iff _ width).mpr ⟨front.magic, rfl⟩]
      decide
    exact ⟨bytesOf front.magic.name, _, _, by simp only [Front.bytes, List.append_assoc],
      ⟨width, rfl⟩, magical, _, _, _, rfl, ⟨front.version, trivial, rfl, rfl⟩, known,
      _, _, _, rfl, ⟨front.fileSize, trivial, rfl, rfl⟩, by simpa using valid.fileSize,
      _, _, _, rfl, ⟨front.ticks, trivial, rfl, rfl⟩, front.units, trivial, rfl,
      by rw [Front.header, ofBytes_magic]⟩

/-- The vertices and the faces, each behind their number. -/
theorem mesh : Decodes readMesh (Coded Surface.Valid Surface.bytes Surface.mesh) := by
  refine ((count _ 4 _).bind fun vertexCount =>
    requireArray ((alike corner vertexCount).bind fun corners =>
      (count _ 4 _).bind fun faceCount =>
        requireArray ((alike (face vertexCount) faceCount).bind fun faces =>
          pure ({ corners, faces } : Mesh)) ?_) ?_).congr ?_
  · rintro bytes value ⟨_, _, _, rfl, ⟨triangles, ⟨rfl, _⟩, rfl, rfl⟩, rfl, rfl⟩
    refine Nat.le_of_eq ?_
    rw [List.append_nil, length_flatMap_of_width length_triangleBytes]
  · rintro bytes value ⟨_, _, _, rfl, ⟨vertices, ⟨rfl, _⟩, rfl, rfl⟩, _⟩
    rw [List.length_append, length_flatMap_of_width length_vertexBytes]
    exact Nat.le_add_right _ _
  · intro bytes value
    constructor
    · rintro ⟨_, _, _, rfl, ⟨⟨fewVertices, _⟩, rfl⟩, _, _, _, rfl,
        ⟨vertices, ⟨rfl, _⟩, rfl, rfl⟩, _, _, _, rfl, ⟨⟨fewFaces, _⟩, rfl⟩, _, _, _, rfl,
        ⟨triangles, ⟨rfl, within⟩, rfl, rfl⟩, rfl, rfl⟩
      exact ⟨{ vertices, triangles }, ⟨fewVertices, fewFaces, within⟩,
        by simp [Surface.bytes], rfl⟩
    · rintro ⟨surface, valid, rfl, rfl⟩
      have fewVertices := valid.vertices
      have fewFaces := valid.triangles
      exact ⟨surface.vertices.length, _, _, by simp only [Surface.bytes, List.append_assoc],
        ⟨⟨fewVertices, by omega⟩, rfl⟩, _, _, _, rfl,
        ⟨surface.vertices, ⟨rfl, by simp⟩, rfl, rfl⟩, surface.triangles.length, _, _, rfl,
        ⟨⟨fewFaces, by omega⟩, rfl⟩, _, _, [], (List.append_nil _).symm,
        ⟨surface.triangles, ⟨rfl, valid.within⟩, rfl, rfl⟩, rfl, rfl⟩

theorem toolpaths : Decodes readToolpaths
    (Coded
      (fun records : List Record => records.length ≤ 1000 ∧
        ∀ record ∈ records, record.places.length < 256 ^ 4)
      (fun records => leastFirst 2 records.length ++ records.flatMap Record.bytes)
      fun records => records.map Record.toolpath) := by
  refine ((count _ 2 _).bind fun count => alike toolpath count).congr ?_
  intro bytes value
  constructor
  · rintro ⟨_, _, _, rfl, ⟨⟨few, _⟩, rfl⟩, records, ⟨rfl, counted⟩, rfl, rfl⟩
    exact ⟨records, ⟨few, counted⟩, rfl, rfl⟩
  · rintro ⟨records, ⟨few, counted⟩, rfl, rfl⟩
    exact ⟨records.length, _, _, rfl, ⟨⟨few, by omega⟩, rfl⟩, records, ⟨rfl, counted⟩, rfl,
      rfl⟩


theorem file (length : Nat) : Decodes (readFile length)
    (Coded
      (fun content : Content => content.Valid length ∧
        ∀ record ∈ content.records, record.places.length < 256 ^ 4)
      Content.bytes Content.file) := by
  refine ((header length).bind fun header => mesh.bind fun mesh =>
    toolpaths.bind fun toolpaths => pure ({ header, mesh, toolpaths } : File)).congr ?_
  intro bytes value
  constructor
  · rintro ⟨_, _, _, rfl, ⟨front, validFront, rfl, rfl⟩, _, _, _, rfl,
      ⟨surface, validSurface, rfl, rfl⟩, _, _, _, rfl, ⟨records, ⟨few, counted⟩, rfl, rfl⟩,
      rfl, rfl⟩
    exact ⟨{ front, surface, records }, ⟨⟨validFront, validSurface, few⟩, counted⟩,
      by simp [Content.bytes], rfl⟩
  · rintro ⟨content, ⟨valid, counted⟩, rfl, rfl⟩
    exact ⟨content.front.header, content.front.bytes, _,
      by simp only [Content.bytes, List.append_assoc],
      ⟨content.front, valid.front, rfl, rfl⟩, content.surface.mesh, content.surface.bytes, _, rfl,
      ⟨content.surface, valid.surface, rfl, rfl⟩, content.records.map Record.toolpath, _, [],
      (List.append_nil _).symm, ⟨content.records, ⟨valid.records, counted⟩, rfl, rfl⟩, rfl, rfl⟩

end Decodes

/-- A file that knows its size has no more points than fit into their count. -/
theorem counted_of_valid {content : Content} {trailing : List UInt8}
    (valid : content.Valid (content.bytes ++ trailing).length) :
    ∀ record ∈ content.records, record.places.length < 256 ^ 4 := by
  intro record member
  have size := content.front.fileSize.toNat_lt
  rw [valid.front.fileSize, List.length_append] at size
  have inRecords : record.bytes.length ≤ (content.records.flatMap Record.bytes).length :=
    length_le_length_flatMap member
  have inContent : (content.records.flatMap Record.bytes).length ≤ content.bytes.length := by
    rw [Content.bytes, List.length_append]
    exact Nat.le_add_left _ _
  have points : record.places.length * 16 ≤ record.bytes.length := by
    rw [Record.bytes, List.length_append,
      length_flatMap_of_width Decodes.length_placeBytes]
    exact Nat.le_add_left _ _
  omega

/-- Decoding accepts the layouts of valid contents, with anything behind them,
and gives the file of the content. -/
theorem decodeFile_eq_ok_iff (bytes : List UInt8) (file : File) :
    decodeFile bytes = .ok file ↔
      ∃ (content : Content) (trailing : List UInt8),
        bytes = content.bytes ++ trailing ∧ content.Valid bytes.length ∧
          file = content.file := by
  have accepted : decodeFile bytes = .ok file ↔
      ∃ after, readFile bytes.length (.start bytes) = .ok (file, after) := by
    unfold decodeFile
    cases read : readFile bytes.length (.start bytes) with
    | error error => simp
    | ok pair =>
        obtain ⟨given, after⟩ := pair
        constructor
        · intro equal
          cases equal
          exact ⟨after, rfl⟩
        · rintro ⟨_, equal⟩
          cases equal
          rfl
  rw [accepted]
  constructor
  · rintro ⟨after, read⟩
    obtain ⟨_, ⟨content, ⟨valid, _⟩, rfl, same⟩, rest, _⟩ :=
      (Decodes.file bytes.length (.start bytes) file after).mp read
    exact ⟨content, after.rest, rest, valid, same⟩
  · rintro ⟨content, trailing, rfl, valid, rfl⟩
    let after : ByteReader := { offset := content.bytes.length, rest := trailing }
    refine ⟨after, (Decodes.file _ _ _ after).mpr ⟨content.bytes, ?_, rfl, ?_⟩⟩
    · exact ⟨content, ⟨valid, counted_of_valid valid⟩, rfl, rfl⟩
    · exact (Nat.zero_add _).symm

end Milling.Archive
