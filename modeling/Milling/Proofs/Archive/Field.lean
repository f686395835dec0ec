import Milling.Proofs.Archive.Layout

/-!
# Fields that are cut off

The bytes of a layout are those of its fields, one behind the other.  A decoder
that is given only the front of them reads the fields that are whole, and its
error names the first one that is not.
-/

namespace Milling.Archive

structure Field where
  name : String
  bytes : List UInt8

def joinedFields (fields : List Field) : List UInt8 := fields.flatMap Field.bytes

@[simp] theorem joinedFields_nil : joinedFields [] = [] := rfl

@[simp] theorem joinedFields_cons (field : Field) (fields : List Field) :
    joinedFields (field :: fields) = field.bytes ++ joinedFields fields := rfl

@[simp] theorem joinedFields_append (front back : List Field) :
    joinedFields (front ++ back) = joinedFields front ++ joinedFields back :=
  List.flatMap_append

/-- The first of some fields that does not fit into a number of bytes. -/
def firstMissing? : Nat → List Field → Option String
  | _, [] => none
  | available, field :: rest =>
      if available < field.bytes.length then some field.name
      else firstMissing? (available - field.bytes.length) rest

theorem firstMissing?_append_of_lt {available : Nat} {front : List Field}
    (short : available < (joinedFields front).length) (back : List Field) :
    firstMissing? available (front ++ back) = firstMissing? available front := by
  induction front generalizing available with
  | nil => cases short
  | cons field front ih =>
      rw [List.cons_append, firstMissing?, firstMissing?]
      split
      · rfl
      · rename_i whole
        rw [joinedFields_cons, List.length_append] at short
        exact ih (by omega)

theorem firstMissing?_append_of_le {available : Nat} {front : List Field}
    (enough : (joinedFields front).length ≤ available) (back : List Field) :
    firstMissing? available (front ++ back) =
      firstMissing? (available - (joinedFields front).length) back := by
  induction front generalizing available with
  | nil => rfl
  | cons field front ih =>
      rw [joinedFields_cons, List.length_append] at enough
      have whole : ¬available < field.bytes.length := by omega
      rw [List.cons_append, firstMissing?, if_neg whole, ih (by omega), joinedFields_cons,
        List.length_append, Nat.sub_sub]

section Elements

variable {γ : Type} (element : String) (encode : γ → List UInt8)

/-- The elements of an array as fields, named by their index. -/
def elementFields (index : Nat) (items : List γ) : List Field :=
  (items.zipIdx index).map fun entry =>
    { name := element ++ "[" ++ toString entry.2 ++ "]", bytes := encode entry.1 }

@[simp] theorem joinedFields_elementFields (index : Nat) (items : List γ) :
    joinedFields (elementFields element encode index items) = items.flatMap encode := by
  induction items generalizing index with
  | nil => rfl
  | cons item items ih => exact congrArg (encode item ++ ·) (ih (index + 1))

/-- Elements of one width are whole as far as their width goes into the bytes. -/
theorem firstMissing?_elementFields {width : Nat} (positive : 0 < width)
    (each : ∀ item, (encode item).length = width) {available : Nat} {items : List γ}
    (short : available < items.length * width) (index : Nat) :
    firstMissing? available (elementFields element encode index items) =
      some (element ++ "[" ++ toString (index + available / width) ++ "]") := by
  induction items generalizing available index with
  | nil => simp at short
  | cons item items ih =>
      have unfolded : elementFields element encode index (item :: items) =
          { name := element ++ "[" ++ toString index ++ "]", bytes := encode item } ::
            elementFields element encode (index + 1) items := rfl
      rw [unfolded, firstMissing?, each]
      split
      · rename_i here
        rw [Nat.div_eq_of_lt here, Nat.add_zero]
      · rename_i whole
        rw [List.length_cons, Nat.succ_mul] at short
        rw [ih (by omega), Nat.div_eq_sub_div positive (Nat.le_of_not_lt whole),
          Nat.add_assoc, Nat.add_comm 1]

end Elements

/-- What a decoder makes of the bytes of fields of which only a number are there:
with all of them it gives a value and goes on behind them, with fewer it names
the first field that is not whole. -/
structure CutsAt (available : Nat) (decoder : Decoder β) (fields : List Field) (value : β) :
    Prop where
  reads : (joinedFields fields).length ≤ available → ∀ offset behind,
    decoder { offset, rest := (joinedFields fields ++ behind).take available } =
      .ok (value,
        { offset := offset + (joinedFields fields).length
          rest := behind.take (available - (joinedFields fields).length) })
  stops : available < (joinedFields fields).length → ∀ offset behind, ∃ error name,
    decoder { offset, rest := (joinedFields fields ++ behind).take available } = .error error ∧
      error.field? = some name ∧ firstMissing? available fields = some name

namespace CutsAt

variable {β γ : Type} {available : Nat}

theorem length_take_of_lt {bytes : List UInt8} (short : available < bytes.length)
    (behind : List UInt8) : ((bytes ++ behind).take available).length = available := by
  rw [List.length_take, List.length_append]
  omega

theorem take_of_le {bytes : List UInt8} (enough : bytes.length ≤ available)
    (behind : List UInt8) :
    (bytes ++ behind).take available = bytes ++ behind.take (available - bytes.length) := by
  rw [List.take_append, List.take_of_length_le enough]

theorem pure (value : β) : CutsAt available (Pure.pure value) [] value where
  reads _ _ _ := rfl
  stops short := absurd short (Nat.not_lt_zero _)

theorem bind {decoder : Decoder β} {next : β → Decoder γ} {front back : List Field} {value : β}
    {result : γ} (first : CutsAt available decoder front value)
    (second : (joinedFields front).length ≤ available →
      CutsAt (available - (joinedFields front).length) (next value) back result) :
    CutsAt available (decoder >>= next) (front ++ back) result := by
  constructor
  · intro enough offset behind
    rw [joinedFields_append, List.length_append] at enough ⊢
    have whole : (joinedFields front).length ≤ available := by omega
    rw [bind_apply, List.append_assoc, first.reads whole]
    dsimp only
    rw [(second whole).reads (by omega), Nat.add_assoc, Nat.sub_sub]
  · intro short offset behind
    rw [joinedFields_append, List.length_append] at short
    rw [bind_apply, joinedFields_append, List.append_assoc]
    -- The bytes end behind the fields of the first decoder or within them.
    by_cases whole : (joinedFields front).length ≤ available
    · rw [first.reads whole, firstMissing?_append_of_le whole]
      exact (second whole).stops (by omega) _ behind
    · have cut : available < (joinedFields front).length := Nat.lt_of_not_le whole
      obtain ⟨error, name, stopped, named, missing⟩ :=
        first.stops cut offset (joinedFields back ++ behind)
      refine ⟨error, name, ?_, named, ?_⟩
      · rw [stopped]
      · rw [firstMissing?_append_of_lt cut, missing]

theorem map {decoder : Decoder β} {fields : List Field} {value : β} (make : β → γ)
    (cuts : CutsAt available decoder fields value) :
    CutsAt available (decoder >>= fun given => Pure.pure (make given)) fields (make value) := by
  have made : CutsAt available (decoder >>= fun given => Pure.pure (make given)) (fields ++ [])
      (make value) := cuts.bind fun _ => pure (make value)
  rwa [List.append_nil] at made

theorem check {condition : Prop} [Decidable condition] {error : DecodeError}
    {later : PUnit → Decoder β} {fields : List Field} {value : β} (passes : ¬condition)
    (next : CutsAt available (later ⟨⟩) fields value) :
    CutsAt available (if condition then ByteReader.refuse error >>= later else later ⟨⟩)
      fields value := by
  rw [if_neg passes]
  exact next

theorem take (name : String) (bytes : List UInt8) :
    CutsAt available (ByteReader.take name bytes.length) [{ name, bytes }] bytes := by
  have alone : joinedFields [{ name, bytes }] = bytes := List.append_nil bytes
  constructor
  · intro enough offset behind
    rw [alone] at enough ⊢
    rw [take_of_le enough]
    simp [ByteReader.take, ByteReader.attempt, ByteReader.require, ByteReader.remaining]
  · intro short offset behind
    rw [alone] at short ⊢
    have stopped : ByteReader.take name bytes.length
        { offset, rest := (bytes ++ behind).take available } =
          .error (.short name bytes.length offset (offset + available)) := by
      simp only [ByteReader.take, ByteReader.attempt, ByteReader.require, ByteReader.length,
        ByteReader.remaining, length_take_of_lt short, if_neg (Nat.not_le_of_lt short)]
    exact ⟨_, name, stopped, rfl, if_pos short⟩

theorem number (name : String) {width value : Nat} (bounded : value < 256 ^ width) :
    CutsAt available (ByteReader.number name width)
      [{ name, bytes := leastFirst width value }] value := by
  have whole := @take available name (leastFirst width value)
  rw [length_leastFirst] at whole
  have valued : CutsAt available (ByteReader.number name width)
      [{ name, bytes := leastFirst width value }] (littleEndian (leastFirst width value)) :=
    whole.map littleEndian
  rw [littleEndian_leastFirst bounded] at valued
  exact valued

/-- An array is checked as a whole before any of its elements is read. -/
theorem array (element : String) {encode : γ → List UInt8} {width : Nat} (positive : 0 < width)
    (each : ∀ item, (encode item).length = width) {items : List γ} {read : Decoder β}
    {layout : List UInt8 → β → Prop} (decodes : Decodes read layout) {value : β}
    (isLayout : layout (items.flatMap encode) value) :
    CutsAt available (ByteReader.requireArray element items.length width >>= fun _ => read)
      (elementFields element encode 0 items) value := by
  have total := length_flatMap_of_width each items
  constructor
  · intro enough offset behind
    rw [joinedFields_elementFields] at enough ⊢
    rw [requireArray_bind_apply, take_of_le enough, if_pos]
    · exact (decodes _ _ _).mpr ⟨_, isLayout, rfl, rfl⟩
    · rw [ByteReader.remaining, List.length_append, total]
      exact Nat.le_add_right _ _
  · intro short offset behind
    rw [joinedFields_elementFields] at short ⊢
    have cut := length_take_of_lt short behind
    rw [total] at short
    have missing := firstMissing?_elementFields element encode positive each short 0
    rw [Nat.zero_add] at missing
    have stopped := requireArray_bind_apply element items.length width read
      { offset, rest := (items.flatMap encode ++ behind).take available }
    rw [ByteReader.remaining, cut, if_neg (Nat.not_le_of_lt short)] at stopped
    exact ⟨_, _, stopped, rfl, missing⟩

theorem elements {read : Nat → Decoder β} {fields : Nat → γ → List Field} {meaning : γ → β}
    {items : List γ}
    (each : ∀ index, ∀ item ∈ items, ∀ available,
      CutsAt available (read index) (fields index item) (meaning item))
    (index : Nat) :
    CutsAt available (ByteReader.elements read index items.length)
      ((items.zipIdx index).flatMap fun entry => fields entry.2 entry.1)
      (items.map meaning) := by
  induction items generalizing available index with
  | nil => exact pure []
  | cons item items ih =>
      have others := fun available => @ih available
        (fun index item member => each index item (List.mem_cons_of_mem _ member)) (index + 1)
      exact (each index item List.mem_cons_self available).bind fun _ =>
        (others _).map (meaning item :: ·)

end CutsAt

end Milling.Archive
