import Mathlib
import Milling.Archive.Bytes

/-!
# Layouts of bytes

A layout says which bytes stand for which value.  A decoder decodes a layout
when it accepts exactly the buffers that start with such bytes, and takes off
just these.
-/

namespace Milling.Archive

section Numbers

def leastFirst : Nat → Nat → List UInt8
  | 0, _ => []
  | width + 1, value => UInt8.ofNat value :: leastFirst width (value / 256)

@[simp] theorem length_leastFirst (width value : Nat) :
    (leastFirst width value).length = width := by
  induction width generalizing value with
  | zero => rfl
  | succ width ih => simp [leastFirst, ih]

theorem littleEndian_leastFirst {width value : Nat} (bounded : value < 256 ^ width) :
    littleEndian (leastFirst width value) = value := by
  induction width generalizing value with
  | zero =>
      have zero : value = 0 := by simpa using bounded
      rw [zero]
      rfl
  | succ width ih =>
      have rest : value / 256 < 256 ^ width := by
        rw [Nat.div_lt_iff_lt_mul (by decide), ← Nat.pow_succ]
        exact bounded
      have byte : (UInt8.ofNat value).toNat = value % 256 := by simp
      rw [leastFirst, littleEndian, ih rest, byte]
      exact Nat.mod_add_div value 256

theorem littleEndian_lt (bytes : List UInt8) : littleEndian bytes < 256 ^ bytes.length := by
  induction bytes with
  | nil => decide
  | cons byte bytes ih =>
      have bounded := byte.toNat_lt
      rw [littleEndian, List.length_cons, Nat.pow_succ]
      omega

theorem leastFirst_littleEndian (bytes : List UInt8) :
    leastFirst bytes.length (littleEndian bytes) = bytes := by
  induction bytes with
  | nil => rfl
  | cons byte bytes ih =>
      have bounded := byte.toNat_lt
      have low : UInt8.ofNat (byte.toNat + 256 * littleEndian bytes) = byte := by
        apply UInt8.toNat_inj.mp
        simp
      have high : (byte.toNat + 256 * littleEndian bytes) / 256 = littleEndian bytes := by
        omega
      rw [List.length_cons, littleEndian, leastFirst, low, high, ih]

end Numbers

section Arrays

variable {γ : Type} {encode : γ → List UInt8}

theorem length_flatMap_of_width {width : Nat}
    (each : ∀ content, (encode content).length = width) (contents : List γ) :
    (contents.flatMap encode).length = contents.length * width := by
  induction contents with
  | nil => simp
  | cons content contents ih =>
      rw [List.flatMap_cons, List.length_append, ih, each, List.length_cons, Nat.succ_mul,
        Nat.add_comm]

theorem length_le_length_flatMap {contents : List γ} {content : γ}
    (member : content ∈ contents) :
    (encode content).length ≤ (contents.flatMap encode).length := by
  obtain ⟨front, back, rfl⟩ := List.append_of_mem member
  simp only [List.flatMap_append, List.flatMap_cons, List.length_append]
  omega

end Arrays

section Runs

variable {β γ : Type}

theorem bind_apply (decoder : Decoder β) (next : β → Decoder γ) (reader : ByteReader) :
    (decoder >>= next) reader =
      match decoder reader with
      | .ok (value, middle) => next value middle
      | .error error => .error error := by
  change StateT.bind decoder next reader = _
  unfold StateT.bind
  cases decoder reader <;> rfl

theorem requireArray_bind_apply (element : String) (count width : Nat) (next : Decoder β)
    (reader : ByteReader) :
    (ByteReader.requireArray element count width >>= fun _ => next) reader =
      if count * width ≤ reader.remaining then next reader
      else .error (.shortArray
        (element ++ "[" ++ toString (reader.remaining / width) ++ "]") count width
        reader.offset reader.remaining) := by
  rw [bind_apply, ByteReader.requireArray]
  by_cases enough : count * width ≤ reader.remaining
  · rw [if_pos enough, if_pos enough]
  · rw [if_neg enough, if_neg enough]

end Runs

/-- A decoder takes the bytes of a layout off the front of a buffer, and fails
on every other buffer. -/
def Decodes (decoder : Decoder β) (layout : List UInt8 → β → Prop) : Prop :=
  ∀ reader value after, decoder reader = .ok (value, after) ↔
    ∃ bytes, layout bytes value ∧ reader.rest = bytes ++ after.rest ∧
      after.offset = reader.offset + bytes.length

/-- The bytes of a valid content, with the value that it has. -/
def Coded (valid : γ → Prop) (encode : γ → List UInt8) (meaning : γ → β) :
    List UInt8 → β → Prop := fun bytes value =>
  ∃ content, valid content ∧ bytes = encode content ∧ value = meaning content

namespace Decodes

variable {β γ : Type}

theorem congr {decoder : Decoder β} {first second : List UInt8 → β → Prop}
    (decodes : Decodes decoder first)
    (same : ∀ bytes value, first bytes value ↔ second bytes value) :
    Decodes decoder second := by
  intro reader value after
  rw [decodes reader value after]
  simp only [same]

theorem pure (value : β) :
    Decodes (Pure.pure value) fun bytes result => bytes = [] ∧ result = value := by
  intro reader result after
  have run : (Pure.pure value : Decoder β) reader = .ok (value, reader) := rfl
  rw [run]
  constructor
  · intro equal
    cases equal
    exact ⟨[], ⟨rfl, rfl⟩, rfl, rfl⟩
  · rintro ⟨bytes, ⟨rfl, rfl⟩, rest, offset⟩
    obtain ⟨afterOffset, afterRest⟩ := after
    obtain ⟨readerOffset, readerRest⟩ := reader
    cases rest
    cases offset
    rfl

theorem refuse (error : DecodeError) :
    Decodes (ByteReader.refuse error : Decoder β) fun _ _ => False := by
  intro reader value after
  constructor
  · intro equal
    cases equal
  · rintro ⟨_, impossible, _⟩
    exact impossible.elim

theorem bind {decoder : Decoder β} {next : β → Decoder γ} {first : List UInt8 → β → Prop}
    {second : β → List UInt8 → γ → Prop} (front : Decodes decoder first)
    (back : ∀ value, Decodes (next value) (second value)) :
    Decodes (decoder >>= next) fun bytes result => ∃ value left right,
      bytes = left ++ right ∧ first left value ∧ second value right result := by
  intro reader result after
  rw [bind_apply]
  constructor
  · intro equal
    cases read : decoder reader with
    | error error => simp [read] at equal
    | ok pair =>
        obtain ⟨value, middle⟩ := pair
        rw [read] at equal
        obtain ⟨left, isLeft, leftRest, leftOffset⟩ := (front reader value middle).mp read
        obtain ⟨right, isRight, rightRest, rightOffset⟩ :=
          (back value middle result after).mp equal
        refine ⟨left ++ right, ⟨value, left, right, rfl, isLeft, isRight⟩, ?_, ?_⟩
        · rw [leftRest, rightRest, List.append_assoc]
        · rw [rightOffset, leftOffset, List.length_append, Nat.add_assoc]
  · rintro ⟨bytes, ⟨value, left, right, rfl, isLeft, isRight⟩, rest, offset⟩
    let middle : ByteReader :=
      { offset := reader.offset + left.length, rest := right ++ after.rest }
    have read : decoder reader = .ok (value, middle) := by
      refine (front reader value middle).mpr ⟨left, isLeft, ?_, rfl⟩
      rw [rest, List.append_assoc]
    rw [read]
    refine (back value middle result after).mpr ⟨right, isRight, rfl, ?_⟩
    rw [offset, List.length_append, Nat.add_assoc]

theorem ite {condition : Prop} [Decidable condition] {yes no : Decoder β}
    {first second : List UInt8 → β → Prop} (holds : Decodes yes first)
    (fails : Decodes no second) :
    Decodes (if condition then yes else no) fun bytes value =>
      if condition then first bytes value else second bytes value := by
  by_cases condition
  · simp [*]
  · simp [*]

theorem check {condition : Prop} [Decidable condition] {error : DecodeError}
    {later : PUnit → Decoder β} {layout : List UInt8 → β → Prop}
    (next : Decodes (later ⟨⟩) layout) :
    Decodes (if condition then ByteReader.refuse error >>= later else later ⟨⟩)
      fun bytes value => ¬condition ∧ layout bytes value := by
  by_cases failed : condition
  · simp only [failed, if_true, not_true_eq_false, false_and]
    intro reader value after
    constructor
    · intro equal
      cases equal
    · rintro ⟨_, impossible, _⟩
      exact impossible.elim
  · simpa only [failed, if_false, not_false_eq_true, true_and] using next

theorem take (field : String) (width : Nat) :
    Decodes (ByteReader.take field width) fun bytes value =>
      bytes.length = width ∧ value = bytes := by
  intro reader value after
  obtain ⟨offset, rest⟩ := reader
  obtain ⟨afterOffset, afterRest⟩ := after
  unfold ByteReader.take ByteReader.attempt ByteReader.require ByteReader.remaining
  by_cases fits : width ≤ rest.length
  · simp only [fits, if_true]
    constructor
    · intro equal
      cases equal
      have length : (rest.take width).length = width := List.length_take_of_le fits
      refine ⟨rest.take width, ⟨length, rfl⟩, (List.take_append_drop width rest).symm, ?_⟩
      rw [length]
    · rintro ⟨bytes, ⟨length, rfl⟩, split, moved⟩
      subst split moved length
      simp
  · simp only [fits, if_false]
    constructor
    · intro equal
      cases equal
    · rintro ⟨bytes, ⟨length, rfl⟩, split, _⟩
      rw [split, List.length_append] at fits
      omega

theorem number (field : String) (width : Nat) :
    Decodes (ByteReader.number field width) fun bytes value =>
      value < 256 ^ width ∧ bytes = leastFirst width value := by
  refine ((take field width).bind fun bytes => pure (littleEndian bytes)).congr ?_
  intro bytes value
  constructor
  · rintro ⟨read, left, right, rfl, ⟨length, rfl⟩, rfl, rfl⟩
    rw [List.append_nil, ← length]
    exact ⟨littleEndian_lt read, (leastFirst_littleEndian read).symm⟩
  · rintro ⟨bounded, rfl⟩
    refine ⟨leastFirst width value, leastFirst width value, [], ?_, ⟨?_, rfl⟩, rfl, ?_⟩
    · rw [List.append_nil]
    · rw [length_leastFirst]
    · rw [littleEndian_leastFirst bounded]

theorem word (toNat : γ → Nat) {width : Nat} (below : ∀ word, toNat word < 256 ^ width)
    (onto : ∀ value < 256 ^ width, ∃ word, toNat word = value) (field : String) :
    Decodes (ByteReader.number field width)
      (Coded (fun _ => True) (fun word => leastFirst width (toNat word)) toNat) := by
  refine (number field width).congr ?_
  intro bytes value
  constructor
  · rintro ⟨bounded, rfl⟩
    obtain ⟨word, rfl⟩ := onto value bounded
    exact ⟨word, trivial, rfl, rfl⟩
  · rintro ⟨word, _, rfl, rfl⟩
    exact ⟨below word, rfl⟩

/-- An array that has to fit is only checked earlier than it is read. -/
theorem requireArray {element : String} {count width : Nat} {next : Decoder β}
    {layout : List UInt8 → β → Prop} (decodes : Decodes next layout)
    (fits : ∀ bytes value, layout bytes value → count * width ≤ bytes.length) :
    Decodes (ByteReader.requireArray element count width >>= fun _ => next) layout := by
  intro reader value after
  rw [requireArray_bind_apply, ← decodes reader value after]
  split
  · exact Iff.rfl
  · rename_i short
    constructor
    · intro equal
      cases equal
    · intro read
      obtain ⟨bytes, isLayout, rest, _⟩ := (decodes reader value after).mp read
      have enough := fits bytes value isLayout
      have length : reader.remaining = bytes.length + after.rest.length := by
        rw [ByteReader.remaining, rest, List.length_append]
      omega

theorem elements {read : Nat → Decoder β} {valid : γ → Prop} {encode : γ → List UInt8}
    {meaning : Nat → γ → β}
    (each : ∀ index, Decodes (read index) (Coded valid encode (meaning index)))
    (index count : Nat) :
    Decodes (ByteReader.elements read index count)
      (Coded
        (fun contents : List γ => contents.length = count ∧ ∀ content ∈ contents, valid content)
        (fun contents => contents.flatMap encode)
        fun contents => (contents.zipIdx index).map fun entry => meaning entry.2 entry.1) := by
  induction count generalizing index with
  | zero =>
      refine (pure []).congr ?_
      intro bytes values
      constructor
      · rintro ⟨rfl, rfl⟩
        exact ⟨[], ⟨rfl, by simp⟩, rfl, rfl⟩
      · rintro ⟨contents, ⟨length, _⟩, rfl, rfl⟩
        rw [List.eq_nil_of_length_eq_zero length]
        exact ⟨rfl, rfl⟩
  | succ count ih =>
      refine ((each index).bind fun value =>
        (ih (index + 1)).bind fun others => pure (value :: others)).congr ?_
      intro bytes values
      constructor
      · rintro ⟨_, front, _, rfl, ⟨content, isValid, rfl, rfl⟩, _, back, _, rfl,
          ⟨contents, ⟨rfl, allValid⟩, rfl, rfl⟩, rfl, rfl⟩
        refine ⟨content :: contents, ⟨rfl, ?_⟩, ?_, rfl⟩
        · intro other member
          rcases List.mem_cons.mp member with rfl | later
          · exact isValid
          · exact allValid other later
        · rw [List.append_nil]
          rfl
      · rintro ⟨contents, ⟨length, allValid⟩, rfl, rfl⟩
        cases contents with
        | nil => cases length
        | cons content contents =>
            refine ⟨meaning index content, encode content, contents.flatMap encode, rfl,
              ⟨content, allValid content List.mem_cons_self, rfl, rfl⟩, _,
              contents.flatMap encode, [], (List.append_nil _).symm,
              ⟨contents, ⟨Nat.succ.inj length, ?_⟩, rfl, rfl⟩, rfl, rfl⟩
            intro other member
            exact allValid other (List.mem_cons_of_mem content member)

theorem alike {read : Nat → Decoder β} {valid : γ → Prop} {encode : γ → List UInt8}
    {meaning : γ → β} (each : ∀ index, Decodes (read index) (Coded valid encode meaning))
    (count : Nat) :
    Decodes (ByteReader.elements read 0 count)
      (Coded
        (fun contents : List γ => contents.length = count ∧ ∀ content ∈ contents, valid content)
        (fun contents => contents.flatMap encode)
        fun contents => contents.map meaning) := by
  have numbered := elements each 0 count
  have unnumbered : ∀ contents : List γ,
      (contents.zipIdx 0).map (fun entry => meaning entry.1) = contents.map meaning := by
    intro contents
    calc (contents.zipIdx 0).map (fun entry => meaning entry.1)
        = ((contents.zipIdx 0).map Prod.fst).map meaning := by rw [List.map_map]; rfl
      _ = contents.map meaning := by rw [List.zipIdx_map_fst]
  simpa only [unnumbered] using numbered

end Decodes

end Milling.Archive
