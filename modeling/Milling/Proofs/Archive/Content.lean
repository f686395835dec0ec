import Milling.Archive.Decode
import Milling.Proofs.Archive.Layout

/-!
# The content of an archive

What a file can hold, as fields of a set width, with the bytes that it is
written as and the file that it stands for.
-/

namespace Milling.Archive

section Fields

def bytes16 (number : UInt16) : List UInt8 := leastFirst 2 number.toNat

def bytes32 (number : UInt32) : List UInt8 := leastFirst 4 number.toNat

def bytes64 (number : UInt64) : List UInt8 := leastFirst 8 number.toNat

/-- The float with given bits. -/
def singleOf (bits : UInt32) : Single := { bits := bits.toNat }

/-- How files start. -/
inductive Magic where
  | mcam
  | mmc2

def Magic.name : Magic → String
  | .mcam => "MCAM"
  | .mmc2 => "MMC2"

def unitsFlag : Units → UInt8
  | .millimeters => 0
  | .inches => 1

end Fields

/-- A vertex by the bits of its coordinates. -/
structure Vertex where
  x : UInt32
  y : UInt32
  z : UInt32

def Vertex.bytes (vertex : Vertex) : List UInt8 :=
  bytes32 vertex.x ++ bytes32 vertex.y ++ bytes32 vertex.z

def Vertex.corner (vertex : Vertex) : Corner :=
  { x := singleOf vertex.x, y := singleOf vertex.y, z := singleOf vertex.z }

/-- A face by the indices of its vertices. -/
structure Triangle where
  first : UInt32
  second : UInt32
  third : UInt32

def Triangle.bytes (triangle : Triangle) : List UInt8 :=
  bytes32 triangle.first ++ bytes32 triangle.second ++ bytes32 triangle.third

def Triangle.face (triangle : Triangle) : Face :=
  { first := triangle.first.toNat
    second := triangle.second.toNat
    third := triangle.third.toNat }

/-- The indices of a face are those of vertices. -/
def Triangle.Within (vertexCount : Nat) (triangle : Triangle) : Prop :=
  triangle.first.toNat < vertexCount ∧ triangle.second.toNat < vertexCount ∧
    triangle.third.toNat < vertexCount

/-- A point of a toolpath by the bits of its coordinates and its feed. -/
structure Place where
  x : UInt32
  y : UInt32
  z : UInt32
  feed : UInt32

namespace Place

def bytes (place : Place) : List UInt8 :=
  bytes32 place.x ++ bytes32 place.y ++ bytes32 place.z ++ bytes32 place.feed

def position (place : Place) : Position Float :=
  { x := (singleOf place.x).widened
    y := (singleOf place.y).widened
    z := (singleOf place.z).widened }

/-- The first point of a toolpath is reached by a rapid, and its feed is not
kept. -/
def rapid (tool : Nat) (place : Place) : MotionPoint Float :=
  { position := place.position, motion := .rapid, tool }

/-- The other points are reached by cuts at their feed. -/
def linear (tool : Nat) (place : Place) : MotionPoint Float :=
  { position := place.position
    motion := .linear
    feed := some (singleOf place.feed).widened
    tool }

end Place

/-- A toolpath with its tool number. -/
structure Record where
  tool : UInt16
  places : List Place

namespace Record

def bytes (record : Record) : List UInt8 :=
  bytes16 record.tool ++ leastFirst 4 record.places.length ++
    record.places.flatMap Place.bytes

def points (record : Record) : List (MotionPoint Float) :=
  match record.places with
  | [] => []
  | first :: others =>
      first.rapid record.tool.toNat :: others.map (Place.linear record.tool.toNat)

def toolpath (record : Record) : Toolpath Float :=
  { points := record.points, tool := some record.tool.toNat }

end Record

/-- What stands in front of everything else. -/
structure Front where
  magic : Magic
  version : UInt32
  fileSize : UInt32
  ticks : UInt64
  units : Units

namespace Front

def bytes (front : Front) : List UInt8 :=
  bytesOf front.magic.name ++ bytes32 front.version ++ bytes32 front.fileSize ++
    bytes64 front.ticks ++ [unitsFlag front.units]

def header (front : Front) : Header :=
  { magic := front.magic.name
    version := front.version.toNat
    fileSize := front.fileSize.toNat
    ticks := front.ticks.toNat
    units := front.units }

/-- The version is known, and the size is that of the file. -/
structure Valid (length : Nat) (front : Front) : Prop where
  version : 1 ≤ front.version.toNat ∧ front.version.toNat ≤ 3
  fileSize : front.fileSize.toNat = length

end Front

/-- A mesh by its vertices and faces. -/
structure Surface where
  vertices : List Vertex
  triangles : List Triangle

namespace Surface

def bytes (surface : Surface) : List UInt8 :=
  leastFirst 4 surface.vertices.length ++ surface.vertices.flatMap Vertex.bytes ++
    leastFirst 4 surface.triangles.length ++ surface.triangles.flatMap Triangle.bytes

def mesh (surface : Surface) : Mesh :=
  { corners := surface.vertices.map Vertex.corner
    faces := surface.triangles.map Triangle.face }

/-- There are not too many vertices and faces, and faces have vertices. -/
structure Valid (surface : Surface) : Prop where
  vertices : surface.vertices.length ≤ 1000000
  triangles : surface.triangles.length ≤ 2000000
  within : ∀ triangle ∈ surface.triangles, triangle.Within surface.vertices.length

end Surface

/-- What a file holds. -/
structure Content where
  front : Front
  surface : Surface
  records : List Record

namespace Content

/-- The layout of a file. -/
def bytes (content : Content) : List UInt8 :=
  content.front.bytes ++ content.surface.bytes ++
    leastFirst 2 content.records.length ++ content.records.flatMap Record.bytes

def file (content : Content) : File :=
  { header := content.front.header
    mesh := content.surface.mesh
    toolpaths := content.records.map Record.toolpath }

/-- What a file of a length may hold. -/
structure Valid (length : Nat) (content : Content) : Prop where
  front : content.front.Valid length
  surface : content.surface.Valid
  records : content.records.length ≤ 1000

end Content

end Milling.Archive
