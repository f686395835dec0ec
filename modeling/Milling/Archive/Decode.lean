import Milling.Archive.Bytes
import Milling.Archive.Instant
import Milling.Shop.Units
import Milling.Text.Escaped
import Milling.Text.Utf8
import Milling.Toolpath.Basic

/-!
# Files of toolpaths
-/

/-!
## Single-precision floats

The bits of a 32-bit float, and its value in double precision.
-/

namespace Milling.Archive

/-- A 32-bit float by its bits. -/
structure Single where
  bits : Nat
deriving Repr, DecidableEq

namespace Single

/-- The same value in double precision, which holds it exactly. -/
def widened (single : Single) : Float :=
  let biased : Nat := single.bits / Nat.pow 2 23 % Nat.pow 2 8
  let fraction : Nat := single.bits % Nat.pow 2 23
  let magnitude : Float :=
    if biased = 255 then (if fraction = 0 then 1.0 / 0.0 else 0.0 / 0.0)
    else if biased = 0 then Float.scaleB (Float.ofNat fraction) (-149)
    else Float.scaleB (Float.ofNat (Nat.pow 2 23 + fraction)) ((biased : Int) - 150)
  if Nat.pow 2 31 ≤ single.bits then -magnitude else magnitude

end Single

end Milling.Archive

/-!
## Archives

Binary files of toolpaths, with a mesh beside them.  All numbers have their
least significant byte first: a magic, the version, the size of the file, the
time it was made, the units, vertices, faces and toolpaths.
-/

namespace Milling.Archive

/-- What stands at the front of a file. -/
structure Header where
  magic : String
  version : Nat
  fileSize : Nat
  /-- Ticks of 100 nanoseconds since 1601. -/
  ticks : Nat
  units : Units
deriving Repr, DecidableEq

def Header.created (header : Header) : Instant := .ofTicks header.ticks

structure Corner where
  x : Single
  y : Single
  z : Single
deriving Repr, DecidableEq

/-- A triangle of a mesh, by the indices of its corners. -/
structure Face where
  first : Nat
  second : Nat
  third : Nat
deriving Repr, DecidableEq

structure Mesh where
  corners : List Corner := []
  faces : List Face := []
deriving Repr, DecidableEq

structure File where
  header : Header
  mesh : Mesh
  toolpaths : List (Toolpath Float)

def bytesOf (name : String) : List UInt8 := name.toList.map Char.toUInt8

def magics : List String := ["MCAM", "MMC2"]

def hasMagic (bytes : List UInt8) : Bool :=
  magics.any fun magic => bytes.take 4 == bytesOf magic

def greatestVersion : Nat := 3

def mostVertices : Nat := 1000000

def mostFaces : Nat := 2000000

def mostToolpaths : Nat := 1000

open ByteReader

def readHeader (length : Nat) : Decoder Header := do
  let bytes ← take "header.magic" 4
  if !hasMagic bytes then refuse (.magic (Text.escaped (Text.ofBytes bytes)))
  let version ← number "header.version" 4
  if version = 0 ∨ greatestVersion < version then refuse (.version version)
  let fileSize ← number "header.file_size" 4
  if fileSize ≠ length then refuse (.size fileSize length)
  let ticks ← number "header.creation_timestamp" 8
  let flag ← number "header.units" 1
  match Units.ofFlag? flag with
  | some units => pure { magic := Text.ofBytes bytes, version, fileSize, ticks, units }
  | none => refuse (.unitsFlag flag)

def readSingle (field : String) : Decoder Single := do
  pure { bits := ← number field 4 }

def readCount (field : String) (width limit : Nat) : Decoder Nat := do
  let count ← number field width
  if limit < count then refuse (.overLimit field count limit) else pure count

def readCorner (index : Nat) : Decoder Corner := do
  let name := "vertex[" ++ toString index ++ "]"
  let x ← readSingle (name ++ ".x")
  let y ← readSingle (name ++ ".y")
  let z ← readSingle (name ++ ".z")
  pure { x, y, z }

def readFaceCorner (vertexCount index corner : Nat) : Decoder Nat := do
  let vertex ← number ("face[" ++ toString index ++ "]." ++ toString corner) 4
  if vertexCount ≤ vertex then refuse (.face index vertex vertexCount) else pure vertex

def readFace (vertexCount index : Nat) : Decoder Face := do
  let first ← readFaceCorner vertexCount index 0
  let second ← readFaceCorner vertexCount index 1
  let third ← readFaceCorner vertexCount index 2
  pure { first, second, third }

def readMesh : Decoder Mesh := do
  let vertexCount ← readCount "vertex_count" 4 mostVertices
  requireArray "vertex" vertexCount 12
  let corners ← elements readCorner 0 vertexCount
  let faceCount ← readCount "face_count" 4 mostFaces
  requireArray "face" faceCount 12
  let faces ← elements (readFace vertexCount) 0 faceCount
  pure { corners, faces }

/-- Reads a point of a toolpath.  The first one is reached by a rapid move, the
others by cuts at their feed. -/
def readPoint (path : String) (tool index : Nat) : Decoder (MotionPoint Float) := do
  let name := path ++ ".point[" ++ toString index ++ "]"
  let x ← readSingle (name ++ ".x")
  let y ← readSingle (name ++ ".y")
  let z ← readSingle (name ++ ".z")
  let feed ← readSingle (name ++ ".feed")
  let position : Position Float := { x := x.widened, y := y.widened, z := z.widened }
  if index = 0 then pure { position, motion := .rapid, tool }
  else pure { position, motion := .linear, feed := some feed.widened, tool }

def readToolpath (index : Nat) : Decoder (Toolpath Float) := do
  let name := "toolpath[" ++ toString index ++ "]"
  let tool ← number (name ++ ".tool_number") 2
  let count ← number (name ++ ".point_count") 4
  requireArray (name ++ ".point") count 16
  let points ← elements (readPoint name tool) 0 count
  pure { points, tool := some tool }

def readToolpaths : Decoder (List (Toolpath Float)) := do
  let count ← readCount "toolpath_count" 2 mostToolpaths
  elements readToolpath 0 count

/-- Reads a file, given its length; bytes after its end are left alone. -/
def readFile (length : Nat) : Decoder File := do
  let header ← readHeader length
  let mesh ← readMesh
  let toolpaths ← readToolpaths
  pure { header, mesh, toolpaths }

def decodeFile (bytes : List UInt8) : Except DecodeError File :=
  match readFile bytes.length (.start bytes) with
  | .ok (file, _) => .ok file
  | .error error => .error error

end Milling.Archive
