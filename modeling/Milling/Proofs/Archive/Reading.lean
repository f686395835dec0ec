import Milling.Archive.Decode
import Milling.Proofs.Archive.Layout

/-!
# Reading field after field

A reader stands at an offset of its buffer.  A read that fits takes the bytes of its width
off at the offset and leaves the reader behind them; one that does not fit leaves the
reader where it was.  Whatever is asked for, what was read is the front of the buffer.
-/

namespace Milling.Archive

section Readers

namespace ByteReader

/-- The reader behind the next bytes. -/
def advanced (reader : ByteReader) (width : Nat) : ByteReader :=
  { offset := reader.offset + width, rest := reader.rest.drop width }

variable {reader : ByteReader} {width : Nat}

theorem attempt_of_le (fits : width ≤ reader.remaining) (field : String) :
    reader.attempt field width = (.ok (reader.rest.take width), reader.advanced width) := by
  rw [attempt, require, if_pos fits]
  rfl

theorem attempt_of_lt (short : reader.remaining < width) (field : String) :
    reader.attempt field width =
      (.error (.short field width reader.offset reader.length), reader) := by
  rw [attempt, require, if_neg (Nat.not_le_of_lt short)]

end ByteReader

/-- The reader that stands at an offset of a buffer. -/
def readerAt (buffer : List UInt8) (offset : Nat) : ByteReader :=
  { offset, rest := buffer.drop offset }

def bytesAt (buffer : List UInt8) (offset width : Nat) : List UInt8 :=
  (buffer.drop offset).take width

variable {buffer : List UInt8} {offset width : Nat}

theorem remaining_readerAt : (readerAt buffer offset).remaining = buffer.length - offset :=
  List.length_drop

theorem length_readerAt (inside : offset ≤ buffer.length) :
    (readerAt buffer offset).length = buffer.length := by
  rw [ByteReader.length, remaining_readerAt]
  exact Nat.add_sub_of_le inside

theorem advanced_readerAt :
    (readerAt buffer offset).advanced width = readerAt buffer (offset + width) := by
  rw [ByteReader.advanced, readerAt, readerAt, List.drop_drop]

theorem length_bytesAt (fits : offset + width ≤ buffer.length) :
    (bytesAt buffer offset width).length = width := by
  rw [bytesAt, List.length_take, List.length_drop]
  omega

theorem bytesAt_append_drop :
    bytesAt buffer offset width ++ buffer.drop (offset + width) = buffer.drop offset := by
  rw [bytesAt, ← List.drop_drop, List.take_append_drop]

/-- Taking a field off at an offset, where it fits and where it does not. -/
theorem attempt_readerAt_cases (inside : offset ≤ buffer.length) (field : String) :
    (offset + width ≤ buffer.length ∧ (readerAt buffer offset).attempt field width =
        (.ok (bytesAt buffer offset width), readerAt buffer (offset + width))) ∨
      (buffer.length < offset + width ∧ (readerAt buffer offset).attempt field width =
        (.error (.short field width offset buffer.length), readerAt buffer offset)) := by
  by_cases fits : offset + width ≤ buffer.length
  · left
    have enough : width ≤ (readerAt buffer offset).remaining := by
      rw [remaining_readerAt]
      omega
    rw [ByteReader.attempt_of_le enough, advanced_readerAt]
    exact ⟨fits, rfl⟩
  · right
    have short := Nat.lt_of_not_le fits
    have tooFew : (readerAt buffer offset).remaining < width := by
      rw [remaining_readerAt]
      omega
    rw [ByteReader.attempt_of_lt tooFew, length_readerAt inside]
    exact ⟨short, rfl⟩

end Readers

/-- What a field holds. -/
inductive Kind where
  /-- A number of some bytes. -/
  | number (width : Nat)
  /-- A 32-bit float. -/
  | single
  /-- Bytes as they are. -/
  | tag (width : Nat)

/-- What is read from a field. -/
inductive Item where
  | number (width value : Nat)
  | single (value : Single)
  | tag (bytes : List UInt8)

def Kind.width : Kind → Nat
  | .number width => width
  | .single => 4
  | .tag width => width

/-- What a field of a kind holds in its bytes. -/
def Kind.item : Kind → List UInt8 → Item
  | .number width, bytes => .number width (littleEndian bytes)
  | .single, bytes => .single { bits := littleEndian bytes }
  | .tag _, bytes => .tag bytes

/-- The bytes in which something stands. -/
def Item.bytes : Item → List UInt8
  | .number width value => leastFirst width value
  | .single value => leastFirst 4 value.bits
  | .tag bytes => bytes

theorem Kind.bytes_item {kind : Kind} {bytes : List UInt8} (sized : bytes.length = kind.width) :
    (kind.item bytes).bytes = bytes := by
  cases kind with
  | number width =>
      rw [Kind.width] at sized
      rw [Kind.item, Item.bytes, ← sized, leastFirst_littleEndian]
  | single =>
      rw [Kind.width] at sized
      rw [Kind.item, Item.bytes, ← sized, leastFirst_littleEndian]
  | tag width => rfl

/-- A field that is asked for. -/
structure Request where
  field : String
  kind : Kind

/-- A field that was asked for, with what came of it. -/
structure Attempt where
  request : Request
  before : ByteReader
  given : Except DecodeError Item
  after : ByteReader

namespace Request

def read (request : Request) : Decoder Item :=
  match request.kind with
  | .number width => do pure (.number width (← ByteReader.number request.field width))
  | .single => do pure (.single (← readSingle request.field))
  | .tag width => do pure (.tag (← ByteReader.take request.field width))

def attempt (request : Request) (before : ByteReader) : Attempt :=
  let (given, after) := before.attempt request.field request.kind.width
  { request, before, given := given.map request.kind.item, after }

end Request

/-- Fields that are asked for one after the other, whatever comes of them. -/
def attempts : ByteReader → List Request → List Attempt
  | _, [] => []
  | reader, request :: requests =>
      request.attempt reader :: attempts (request.attempt reader).after requests

namespace Attempt

def bytes (attempt : Attempt) : List UInt8 :=
  match attempt.given with
  | .ok item => item.bytes
  | .error _ => []

/-- An attempt stays inside the buffer.  It reads what stands at its offset and goes on
behind that, or else, with too few bytes left, names its field and stays where it was. -/
structure Accounts (buffer : List UInt8) (attempt : Attempt) : Prop where
  before_le : attempt.before.offset ≤ buffer.length
  after_le : attempt.after.offset ≤ buffer.length
  decoded : attempt.request.read attempt.before =
    attempt.given.map fun item => (item, attempt.after)
  refused_iff : (∃ error, attempt.given = .error error) ↔
    buffer.length - attempt.before.offset < attempt.request.kind.width
  read : ∀ item, attempt.given = .ok item →
    attempt.after.offset = attempt.before.offset + attempt.request.kind.width ∧
      item = attempt.request.kind.item
        (bytesAt buffer attempt.before.offset attempt.request.kind.width)
  refused : ∀ error, attempt.given = .error error →
    attempt.after = attempt.before ∧ error.field? = some attempt.request.field

end Attempt

section Steps

theorem take_map {β : Type} (field : String) (width : Nat) (make : List UInt8 → β)
    (reader : ByteReader) :
    (ByteReader.take field width >>= fun bytes => pure (make bytes)) reader =
      (reader.attempt field width).1.map fun bytes =>
        (make bytes, (reader.attempt field width).2) := by
  rw [bind_apply, ByteReader.take]
  rcases reader.attempt field width with ⟨_ | _, _⟩ <;> rfl

/-- What a decoder gives is what comes of the attempt. -/
theorem Request.read_eq (request : Request) (reader : ByteReader) :
    request.read reader = (request.attempt reader).given.map fun item =>
      (item, (request.attempt reader).after) := by
  obtain ⟨field, kind⟩ := request
  have made : Request.read { field, kind } =
      ByteReader.take field kind.width >>= fun bytes => pure (kind.item bytes) := by
    cases kind with
    | number width => simp [Request.read, ByteReader.number, Kind.width, Kind.item]
    | single => simp [Request.read, readSingle, ByteReader.number, Kind.width, Kind.item]
    | tag width => rfl
  rw [made, take_map]
  unfold Request.attempt
  rcases reader.attempt field kind.width with ⟨_ | _, _⟩ <;> rfl

variable {buffer : List UInt8} {offset : Nat}

/-- An attempt at an offset of a buffer fits or does not. -/
theorem Request.attempt_cases (request : Request) (inside : offset ≤ buffer.length) :
    (offset + request.kind.width ≤ buffer.length ∧
        request.attempt (readerAt buffer offset) =
          { request
            before := readerAt buffer offset
            given := .ok (request.kind.item (bytesAt buffer offset request.kind.width))
            after := readerAt buffer (offset + request.kind.width) }) ∨
      (buffer.length < offset + request.kind.width ∧
        request.attempt (readerAt buffer offset) =
          { request
            before := readerAt buffer offset
            given := .error (.short request.field request.kind.width offset buffer.length)
            after := readerAt buffer offset }) := by
  rw [Request.attempt]
  rcases attempt_readerAt_cases inside request.field with ⟨fits, equal⟩ | ⟨short, equal⟩
  · left
    rw [equal]
    exact ⟨fits, rfl⟩
  · right
    rw [equal]
    exact ⟨short, rfl⟩

theorem Request.accounts_attempt (request : Request) (inside : offset ≤ buffer.length) :
    (request.attempt (readerAt buffer offset)).Accounts buffer := by
  have decoded := request.read_eq (readerAt buffer offset)
  rcases request.attempt_cases inside with ⟨fits, equal⟩ | ⟨short, equal⟩
  · rw [equal] at decoded ⊢
    refine ⟨inside, fits, decoded, ?_, ?_, ?_⟩
    · constructor
      · rintro ⟨error, ⟨⟩⟩
      · intro short
        simp only [readerAt] at short
        omega
    · rintro item ⟨⟩
      exact ⟨rfl, rfl⟩
    · rintro error ⟨⟩
  · rw [equal] at decoded ⊢
    refine ⟨inside, inside, decoded, ?_, ?_, ?_⟩
    · constructor
      · intro _
        simp only [readerAt]
        omega
      · intro _
        exact ⟨_, rfl⟩
    · rintro item ⟨⟩
    · rintro error ⟨⟩
      exact ⟨rfl, rfl⟩

/-- Behind an attempt the reader stands where the bytes that were read end. -/
theorem Request.exists_after (request : Request) (inside : offset ≤ buffer.length) :
    ∃ stop ≤ buffer.length,
      (request.attempt (readerAt buffer offset)).after = readerAt buffer stop ∧
        (request.attempt (readerAt buffer offset)).bytes ++ buffer.drop stop =
          buffer.drop offset := by
  rcases request.attempt_cases inside with ⟨fits, equal⟩ | ⟨short, equal⟩
  · have read : (request.attempt (readerAt buffer offset)).bytes =
        bytesAt buffer offset request.kind.width := by
      rw [equal]
      exact Kind.bytes_item (length_bytesAt fits)
    exact ⟨_, fits, by rw [equal], by rw [read, bytesAt_append_drop]⟩
  · exact ⟨offset, inside, by rw [equal], by rw [equal]; rfl⟩

end Steps

section Histories

variable {buffer : List UInt8} {offset : Nat}

theorem map_request_attempts (reader : ByteReader) (requests : List Request) :
    (attempts reader requests).map Attempt.request = requests := by
  induction requests generalizing reader with
  | nil => rfl
  | cons request requests ih => rw [attempts, List.map_cons, ih]; rfl

theorem before_of_mem_head? {reader : ByteReader} {requests : List Request} :
    ∀ first ∈ (attempts reader requests).head?, first.before = reader := by
  cases requests with
  | nil => rintro first ⟨⟩
  | cons request requests => rintro first ⟨⟩; rfl

theorem isChain_attempts (reader : ByteReader) (requests : List Request) :
    (attempts reader requests).IsChain fun first second => second.before = first.after := by
  induction requests generalizing reader with
  | nil => exact .nil
  | cons request requests ih =>
      rw [attempts, List.isChain_cons]
      exact ⟨before_of_mem_head?, ih _⟩

theorem accounts_of_mem_attempts (inside : offset ≤ buffer.length) (requests : List Request) :
    ∀ attempt ∈ attempts (readerAt buffer offset) requests, attempt.Accounts buffer := by
  induction requests generalizing offset with
  | nil => exact List.forall_mem_nil _
  | cons request requests ih =>
      obtain ⟨stop, stopInside, after, -⟩ := request.exists_after inside
      rw [attempts, List.forall_mem_cons, after]
      exact ⟨request.accounts_attempt inside, ih stopInside⟩

theorem flatMap_bytes_attempts (inside : offset ≤ buffer.length) (requests : List Request) :
    (attempts (readerAt buffer offset) requests).flatMap Attempt.bytes <+: buffer.drop offset := by
  induction requests generalizing offset with
  | nil => exact List.nil_prefix
  | cons request requests ih =>
      obtain ⟨stop, stopInside, after, split⟩ := request.exists_after inside
      rw [attempts, List.flatMap_cons, after, ← split]
      exact List.prefix_append_right_inj _ |>.mpr (ih stopInside)

/-- What comes of asking for fields one after the other: each attempt starts where the one
before it ended, and the bytes that were read are the front of the buffer. -/
structure IsHistory (buffer : List UInt8) (requests : List Request) (history : List Attempt) :
    Prop where
  asked : history.map Attempt.request = requests
  starts : ∀ first ∈ history.head?, first.before = .start buffer
  follows : history.IsChain fun first second => second.before = first.after
  accounts : ∀ attempt ∈ history, attempt.Accounts buffer
  front : history.flatMap Attempt.bytes <+: buffer

/-- Reads of all kinds, in any order and whether they fit or not, neither pass over a byte
nor read one twice, and none reaches over the end of the buffer. -/
theorem isHistory_attempts (buffer : List UInt8) (requests : List Request) :
    IsHistory buffer requests (attempts (.start buffer) requests) where
  asked := map_request_attempts _ requests
  starts := before_of_mem_head?
  follows := isChain_attempts _ requests
  accounts := accounts_of_mem_attempts (Nat.zero_le _) requests
  front := flatMap_bytes_attempts (Nat.zero_le _) requests

-- The four bytes of the second field are not there; the third one is read in its place.
example :
    (attempts (.start [1, 0, 2])
      [⟨"a", .number 2⟩, ⟨"b", .number 4⟩, ⟨"c", .tag 1⟩]).map
        (fun attempt => (attempt.after.offset, attempt.bytes)) =
      [(2, [1, 0]), (2, []), (3, [2])] := by decide

end Histories

end Milling.Archive
