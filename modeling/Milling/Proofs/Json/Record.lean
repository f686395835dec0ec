import Mathlib
import Milling.Json.Writer

/-!
# Records that are written and read

What the text of a value spells is the value itself, but for floats that are not finite.  A
record whose fields have different names is read by looking each name up, and a field that is
left out reads as absent.
-/

namespace Milling

namespace Json

mutual

/-- The value that a text spells: a float that is not finite is written as null. -/
def spelled : Json → Json
  | .null => .null
  | .bool value => .bool value
  | .integer value => .integer value
  | .float value => if value.isFinite then .float value else .null
  | .text value => .text value
  | .list items => .list (spelledItems items)
  | .record fields => .record (spelledFields fields)

def spelledItems : List Json → List Json
  | [] => []
  | item :: rest => spelled item :: spelledItems rest

def spelledFields : List (String × Json) → List (String × Json)
  | [] => []
  | (name, json) :: rest => (name, spelled json) :: spelledFields rest

end

theorem spelledItems_eq_map (items : List Json) : spelledItems items = items.map spelled := by
  induction items with
  | nil => rfl
  | cons item rest ih => rw [spelledItems, ih, List.map_cons]

theorem spelledFields_eq_map (fields : List (String × Json)) :
    spelledFields fields = fields.map fun field => (field.1, field.2.spelled) := by
  induction fields with
  | nil => rfl
  | cons field rest ih => rw [spelledFields, ih, List.map_cons]

@[simp] theorem names_spelledFields (fields : List (String × Json)) :
    (spelledFields fields).map Prod.fst = fields.map Prod.fst := by
  rw [spelledFields_eq_map, List.map_map]
  rfl

@[simp] theorem lookup_spelledFields (fields : List (String × Json)) (name : String) :
    (spelledFields fields).lookup name = (fields.lookup name).map spelled := by
  induction fields with
  | nil => rfl
  | cons field rest ih =>
      rw [spelledFields, List.lookup_cons, List.lookup_cons, ih]
      cases name == field.1 <;> rfl

theorem lookup_eq_none_of_notMem {fields : List (String × Json)} {names : List String}
    {name : String} (named : (fields.map Prod.fst).Sublist names) (foreign : name ∉ names) :
    fields.lookup name = none := by
  rw [List.lookup_eq_none_iff]
  intro field member
  rw [bne_iff_ne]
  rintro rfl
  exact foreign (named.subset (List.mem_map_of_mem member))

/-! A value of each kind is read back from what it spells if it is one that can be written. -/

@[simp] theorem float?_spelled (value : Float) :
    float? (spelled (.float value)) = some value ↔ value.isFinite = true := by
  by_cases finite : value.isFinite = true <;> simp [spelled, finite, float?]

@[simp] theorem natural?_spelled (bound value : Nat) :
    natural? bound (spelled (.integer value)) = some value ↔ value ≤ bound := by
  simp [spelled, natural?]

@[simp] theorem text?_spelled (value : String) : text? (spelled (.text value)) = some value := rfl

@[simp] theorem bool?_spelled (value : Bool) : bool? (spelled (.bool value)) = some value := rfl

section Compound

variable {β : Type} {decode? : Json → Option β} {encode : β → Json}

@[simp] theorem list?_spelled (values : List β) :
    list? decode? (spelled (.list (values.map encode))) = some values ↔
      ∀ value ∈ values, decode? (spelled (encode value)) = some value := by
  rw [spelled, spelledItems_eq_map, list?]
  induction values with
  | nil => simp
  | cons value rest ih =>
      simp only [List.map_cons, List.mapM_cons, Option.bind_eq_bind, Option.bind_eq_some_iff,
        Option.pure_def, Option.some.injEq, List.cons.injEq, List.forall_mem_cons, ← ih]
      constructor
      · rintro ⟨_, isFirst, _, isRest, rfl, rfl⟩
        exact ⟨isFirst, isRest⟩
      · rintro ⟨isFirst, isRest⟩
        exact ⟨value, isFirst, rest, isRest, rfl, rfl⟩

@[simp] theorem lookup_present (name other : String) (value? : Option β) :
    (present name encode value?).lookup other =
      if other = name then value?.map encode else none := by
  cases value? with
  | none => simp [present]
  | some value =>
      by_cases same : other = name
      · simp [present, same]
      · have unequal : (other == name) = false := by simpa using same
        simp [present, List.lookup_cons, same, unequal]

theorem names_present (name : String) (value? : Option β) :
    ((present name encode value?).map Prod.fst).Sublist [name] := by
  cases value? with
  | none => exact List.nil_sublist _
  | some value => exact List.Sublist.refl _

/-- A field that is left out when its value is absent is read as absent. -/
theorem nullable?_spelled (notNull : decode? .null = none) (value? : Option β) :
    value?.elim (some none) (nullable? decode? ∘ spelled ∘ encode) = some value? ↔
      ∀ value ∈ value?, decode? (spelled (encode value)) = some value := by
  cases value? with
  | none => simp
  | some value =>
      simp only [Option.elim_some, Option.mem_some, forall_eq', Function.comp_apply]
      cases spelled (encode value) <;> simp [nullable?, notNull]

end Compound

@[simp] theorem nullableFloat?_spelled (value? : Option Float) :
    value?.elim (some none) (nullable? float? ∘ spelled ∘ float) = some value? ↔
      ∀ value ∈ value?, value.isFinite = true := by
  rw [nullable?_spelled rfl]
  simp only [float?_spelled]

@[simp] theorem nullableNatural?_spelled (bound : Nat) (value? : Option Nat) :
    value?.elim (some none)
        (nullable? (natural? bound) ∘ spelled ∘ fun value : Nat => integer value) =
        some value? ↔
      ∀ value ∈ value?, value ≤ bound := by
  rw [nullable?_spelled rfl]
  exact forall₂_congr fun value _ => natural?_spelled bound value

@[simp] theorem nullableText?_spelled (value? : Option String) :
    value?.elim (some none) (nullable? text? ∘ spelled ∘ text) = some value? := by
  rw [nullable?_spelled rfl]
  exact fun value _ => text?_spelled value

end Json

namespace JsonText

mutual

/-- A value and what its text spells have one text. -/
theorem pretty_spelled (level : Nat) : ∀ json : Json, pretty level json.spelled = pretty level json
  | .null => rfl
  | .bool _ => rfl
  | .integer _ => rfl
  | .float value => by
      by_cases finite : value.isFinite = true <;> simp [Json.spelled, pretty, finite]
  | .text _ => rfl
  | .list [] => rfl
  | .list (item :: rest) => by
      rw [Json.spelled, Json.spelledItems, pretty, pretty, pretty_spelled,
        prettyItems_spelledItems]
  | .record [] => rfl
  | .record ((name, json) :: rest) => by
      rw [Json.spelled, Json.spelledFields, pretty, pretty, pretty_spelled,
        prettyFields_spelledFields]

theorem prettyItems_spelledItems (level : Nat) : ∀ items : List Json,
    prettyItems level (Json.spelledItems items) = prettyItems level items
  | [] => rfl
  | item :: rest => by
      rw [Json.spelledItems, prettyItems, prettyItems, pretty_spelled, prettyItems_spelledItems]

theorem prettyFields_spelledFields (level : Nat) : ∀ fields : List (String × Json),
    prettyFields level (Json.spelledFields fields) = prettyFields level fields
  | [] => rfl
  | (name, json) :: rest => by
      rw [Json.spelledFields, prettyFields, prettyFields, pretty_spelled,
        prettyFields_spelledFields]

end

theorem write_spelled (json : Json) : write json.spelled = write json := pretty_spelled 0 json

end JsonText

namespace Members

variable {β γ : Type}

@[simp] theorem read?_map (change : β → γ) (reader : MemberReader β) (data : Json) :
    read? (change <$> reader) data = (read? reader data).map change := by
  unfold read?
  cases ofJson? data with
  | none => rfl
  | some members =>
      have run : (change <$> reader) members =
          (reader members).map fun result => (change result.1, result.2) := by
        change (reader members).bind _ = _
        cases reader members <;> rfl
      simp only [Option.bind_eq_bind, Option.bind_some, run]
      cases reader members with
      | none => rfl
      | some result =>
          obtain ⟨value, rest⟩ := result
          simp only [Option.map_some, Option.bind_some]
          split <;> rfl

/-- A member that has to be there was read off some value. -/
theorem exists_of_read?_required {name : String} {value? : Json → Option β} {data : Json}
    {value : β} (isRead : read? (required name value?) data = some value) :
    ∃ json, value? json = some value := by
  obtain ⟨members, _, run⟩ := Option.bind_eq_some_iff.mp isRead
  obtain ⟨⟨result, rest⟩, found, final⟩ := Option.bind_eq_some_iff.mp run
  have same : result = value := by
    dsimp only at final
    split at final
    · cases final
    · exact Option.some.inj final
  obtain ⟨⟨json?, later⟩, _, chosen⟩ := Option.bind_eq_some_iff.mp found
  cases json? with
  | none => cases chosen
  | some json =>
      obtain ⟨value, isValue, pair⟩ := Option.bind_eq_some_iff.mp chosen
      cases pair
      exact ⟨json, same ▸ isValue⟩

/-- What a list is read to was read off its items. -/
theorem exists_of_mem_mapM {item? : β → Option γ} {items : List β} {values : List γ} {value : γ}
    (isRead : items.mapM item? = some values) (member : value ∈ values) :
    ∃ item ∈ items, item? item = some value := by
  induction items generalizing values with
  | nil =>
      cases isRead
      cases member
  | cons first rest ih =>
      rw [List.mapM_cons] at isRead
      obtain ⟨head, isHead, more⟩ := Option.bind_eq_some_iff.mp isRead
      obtain ⟨tail, isTail, both⟩ := Option.bind_eq_some_iff.mp more
      cases both
      rcases List.mem_cons.mp member with rfl | later
      · exact ⟨first, List.mem_cons_self, isHead⟩
      · obtain ⟨item, inRest, found⟩ := ih isTail later
        exact ⟨item, List.mem_cons_of_mem _ inRest, found⟩

section Named

variable {fields : List (String × Json)}

/-- A reader that takes its members by name leaves all of them in place. -/
def Keeps (fields : List (String × Json)) (reader : MemberReader β) : Prop :=
  ∀ value rest, reader (.named fields) = some (value, rest) → rest = .named fields

@[simp] theorem keeps_pure (value : β) : Keeps fields (pure value) := by
  intro _ _ found
  cases found
  rfl

theorem Keeps.bind {reader : MemberReader β} (keeps : Keeps fields reader)
    {next : β → MemberReader γ} (nextKeeps : ∀ value, Keeps fields (next value)) :
    Keeps fields (reader >>= next) := by
  intro value rest found
  obtain ⟨⟨first, kept⟩, isFirst, isNext⟩ := Option.bind_eq_some_iff.mp found
  cases keeps first kept isFirst
  exact nextKeeps first value rest isNext

theorem keeps_next (name : String) : Keeps fields (next name) := by
  intro value rest found
  rw [next] at found
  split at found <;> cases found <;> rfl

theorem keeps_lift (value? : Option β) : Keeps fields (StateT.lift value?) := by
  intro value rest found
  obtain ⟨_, _, same⟩ := Option.bind_eq_some_iff.mp found
  cases same
  rfl

@[simp] theorem keeps_required (name : String) (value? : Json → Option β) :
    Keeps fields (required name value?) := by
  refine (keeps_next name).bind fun json? => ?_
  cases json? with
  | none => exact fun _ _ found => nomatch found
  | some json => exact keeps_lift (value? json)

@[simp] theorem keeps_defaulted (name : String) (value? : Json → Option β) (absent : β) :
    Keeps fields (defaulted name value? absent) := by
  refine (keeps_next name).bind fun json? => ?_
  cases json? with
  | none => exact keeps_pure absent
  | some json => exact keeps_lift (value? json)

/-- Readers that keep the fields in place read one after the other. -/
@[simp] theorem read?_bind {reader : MemberReader β} (keeps : Keeps fields reader)
    (next : β → MemberReader γ) :
    read? (reader >>= next) (.record fields) =
      (read? reader (.record fields)).bind fun value => read? (next value) (.record fields) := by
  change ((reader >>= next) (.named fields)).bind _ = ((reader (.named fields)).bind _).bind _
  change ((reader (.named fields)).bind fun result => next result.1 result.2).bind _ = _
  cases found : reader (.named fields) with
  | none => rfl
  | some result =>
      obtain ⟨value, rest⟩ := result
      cases keeps value rest found
      rfl

@[simp] theorem read?_pure (value : β) : read? (pure value) (.record fields) = some value := rfl

/-- Among fields of different names there is one of a name or none. -/
theorem filter_eq_toList_lookup (distinct : (fields.map Prod.fst).Nodup) (name : String) :
    (fields.filter fun field => decide (field.1 = name)) =
      ((fields.lookup name).map fun json => (name, json)).toList := by
  induction fields with
  | nil => rfl
  | cons field rest ih =>
      obtain ⟨other, json⟩ := field
      obtain ⟨absent, restDistinct⟩ := List.nodup_cons.mp distinct
      by_cases same : other = name
      · subst same
        have none : rest.filter (fun field => decide (field.1 = other)) = [] := by
          rw [List.filter_eq_nil_iff]
          intro field member isSame
          exact absent (List.mem_map.mpr ⟨field, member, of_decide_eq_true isSame⟩)
        rw [List.filter_cons_of_pos (by simp), none]
        simp
      · have unequal : (name == other) = false := by simpa using Ne.symm same
        rw [List.filter_cons_of_neg (by simpa using same), ih restDistinct, List.lookup_cons,
          unequal]

theorem next_named (distinct : (fields.map Prod.fst).Nodup) (name : String) :
    next name (.named fields) = some (fields.lookup name, .named fields) := by
  rw [next, filter_eq_toList_lookup distinct]
  cases fields.lookup name <;> rfl

theorem read?_required (distinct : (fields.map Prod.fst).Nodup) (name : String)
    (value? : Json → Option β) :
    read? (required name value?) (.record fields) = (fields.lookup name).bind value? := by
  change ((next name (.named fields)).bind _).bind _ = _
  rw [next_named distinct]
  cases fields.lookup name with
  | none => rfl
  | some json =>
      change ((value? json).bind _).bind _ = value? json
      cases value? json <;> rfl

theorem read?_defaulted (distinct : (fields.map Prod.fst).Nodup) (name : String)
    (value? : Json → Option β) (absent : β) :
    read? (defaulted name value? absent) (.record fields) =
      (fields.lookup name).elim (some absent) value? := by
  change ((next name (.named fields)).bind _).bind _ = _
  rw [next_named distinct]
  cases fields.lookup name with
  | none => rfl
  | some json =>
      change ((value? json).bind _).bind _ = value? json
      cases value? json <;> rfl

end Named

/-- The name of an alternative comes off a record that has no other field of the tag's name. -/
theorem tagged?_cons {tag : String} {fields : List (String × Json)}
    (absent : tag ∉ fields.map Prod.fst) (json : Json) :
    tagged? tag (.record ((tag, json) :: fields)) = some (json, .record fields) := by
  have others : ∀ field ∈ fields, field.1 ≠ tag := fun field member same =>
    absent (List.mem_map.mpr ⟨field, member, same⟩)
  have tags : ((tag, json) :: fields).filter (fun field => decide (field.1 = tag)) =
      [(tag, json)] := by
    rw [List.filter_cons_of_pos (by simp), List.filter_eq_nil_iff.mpr]
    simpa using others
  have rest : ((tag, json) :: fields).filter (fun other => decide (other.1 ≠ tag)) = fields := by
    rw [List.filter_cons_of_neg (by simp), List.filter_eq_self.mpr]
    simpa using others
  rw [tagged?, tags, rest]

end Members

end Milling
