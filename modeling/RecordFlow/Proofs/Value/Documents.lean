import RecordFlow.Value.Json

/-!
# Values read from documents

## Rendering and reading undo each other

A document holds scalars, lists and maps.  A value made of these alone, with whole numbers of
sixty-four signed bits and finite floats, is rendered without a loss: reading its document gives
the value again, and rendering what was read from such a document gives the document again.  No
other value comes back from the rendering, and no other document from the reading.
-/

namespace RecordFlow

def SignedWord (n : Int) : Prop :=
  -0x8000000000000000 ≤ n ∧ n < 0x8000000000000000

/-- A value without sets, instances, failures and floats that are not finite. -/
inductive Value.Plain : Value → Prop where
  | null : Plain .null
  | bool (value : Bool) : Plain (.bool value)
  | int {value : Int} : SignedWord value → Plain (.int value)
  | float {value : Float} : Binary64.isFinite value = true → Plain (.float value)
  | text (value : String) : Plain (.text value)
  | list {items : List Value} : (∀ item ∈ items, Plain item) → Plain (.list items)
  | map {fields : List (String × Value)} :
      (∀ field ∈ fields, Plain field.2) → Plain (.map fields)

/-- A document whose whole numbers have sixty-four signed bits.  Its floats are finite, as there is
no way to write others. -/
inductive Json.Plain : Json → Prop where
  | null : Plain .null
  | bool (value : Bool) : Plain (.bool value)
  | int {value : Int} : SignedWord value → Plain (.int value)
  | float {value : Float} : Binary64.isFinite value = true → Plain (.float value)
  | text (value : String) : Plain (.text value)
  | array {items : List Json} : (∀ item ∈ items, Plain item) → Plain (.array items)
  | object {members : List (String × Json)} :
      (∀ member ∈ members, Plain member.2) → Plain (.object members)

namespace Value

/-!
# Lists and maps

Both conversions go through the elements one by one and leave the names of fields alone.
-/

theorem toJsonItems_eq_map (items : List Value) : toJsonItems items = items.map toJson := by
  induction items with
  | nil => rfl
  | cons item rest ih =>
      unfold toJsonItems
      rw [ih, List.map_cons]

theorem ofJsonItems_eq_map (items : List Json) : ofJsonItems items = items.map ofJson := by
  induction items with
  | nil => rfl
  | cons item rest ih =>
      unfold ofJsonItems
      rw [ih, List.map_cons]

theorem toJsonFields_eq_mapValues (fields : List (String × Value)) :
    toJsonFields fields = Entries.mapValues toJson fields := by
  induction fields with
  | nil => rfl
  | cons field rest ih =>
      unfold toJsonFields
      rw [ih]
      rfl

theorem ofJsonMembers_eq_mapValues (members : List (String × Json)) :
    ofJsonMembers members = Entries.mapValues ofJson members := by
  induction members with
  | nil => rfl
  | cons member rest ih =>
      unfold ofJsonMembers
      rw [ih]
      rfl

theorem map_map_eq_self {f : α → β} {g : β → α} {items : List α}
    (h : ∀ item ∈ items, g (f item) = item) : (items.map f).map g = items := by
  rw [List.map_map]
  exact (List.map_congr_left h).trans (List.map_id items)

theorem mapValues_mapValues_eq_self {f : α → β} {g : β → α} {entries : Entries α}
    (h : ∀ entry ∈ entries, g (f entry.2) = entry.2) :
    Entries.mapValues g (Entries.mapValues f entries) = entries := by
  apply map_map_eq_self
  intro entry hentry
  rw [h entry hentry]

theorem forall_mem_mapValues {f : α → β} {entries : Entries α} {p : β → Prop}
    (h : ∀ entry ∈ entries, p (f entry.2)) : ∀ entry ∈ Entries.mapValues f entries, p entry.2 := by
  intro entry hentry
  rcases List.mem_map.mp hentry with ⟨source, hsource, rfl⟩
  exact h source hsource

/-!
# From values

A whole number that fits is read as one, and a finite float is rendered as one.
-/

theorem ofWhole_of_signedWord {n : Int} (h : SignedWord n) : ofWhole n = int n :=
  if_pos h.2

theorem toJson_float {x : Float} (h : Binary64.isFinite x = true) : toJson (float x) = .float x :=
  if_pos h

theorem Plain.toJson {value : Value} (h : value.Plain) : value.toJson.Plain := by
  induction h with
  | null => exact .null
  | bool value => exact .bool value
  | int hword => exact .int hword
  | float hfinite =>
      rw [toJson_float hfinite]
      exact .float hfinite
  | text value => exact .text value
  | @list items _ ih =>
      show (Json.array (toJsonItems items)).Plain
      rw [toJsonItems_eq_map]
      exact .array (List.forall_mem_map.mpr ih)
  | @map fields _ ih =>
      show (Json.object (toJsonFields fields)).Plain
      rw [toJsonFields_eq_mapValues]
      exact .object (forall_mem_mapValues ih)

theorem Plain.ofJson_toJson {value : Value} (h : value.Plain) : ofJson value.toJson = value := by
  induction h with
  | null => rfl
  | bool value => rfl
  | int hword => exact ofWhole_of_signedWord hword
  | float hfinite =>
      rw [toJson_float hfinite]
      rfl
  | text value => rfl
  | @list items _ ih =>
      show Value.list (ofJsonItems (toJsonItems items)) = .list items
      rw [toJsonItems_eq_map, ofJsonItems_eq_map, map_map_eq_self ih]
  | @map fields _ ih =>
      show Value.map (ofJsonMembers (toJsonFields fields)) = .map fields
      rw [toJsonFields_eq_mapValues, ofJsonMembers_eq_mapValues, mapValues_mapValues_eq_self ih]

/-!
# From documents

What is read from a document is made of scalars, lists and maps.
-/

theorem plain_ofJson {document : Json} (h : document.Plain) : (ofJson document).Plain := by
  induction h with
  | null => exact .null
  | bool value => exact .bool value
  | int hword =>
      show (ofWhole _).Plain
      rw [ofWhole_of_signedWord hword]
      exact .int hword
  | float hfinite => exact .float hfinite
  | text value => exact .text value
  | @array items _ ih =>
      show (list (ofJsonItems items)).Plain
      rw [ofJsonItems_eq_map]
      exact .list (List.forall_mem_map.mpr ih)
  | @object members _ ih =>
      show (map (ofJsonMembers members)).Plain
      rw [ofJsonMembers_eq_mapValues]
      exact .map (forall_mem_mapValues ih)

theorem toJson_ofJson {document : Json} (h : document.Plain) :
    (ofJson document).toJson = document := by
  induction h with
  | null => rfl
  | bool value => rfl
  | int hword =>
      show (ofWhole _).toJson = _
      rw [ofWhole_of_signedWord hword]
      rfl
  | float hfinite => exact toJson_float hfinite
  | text value => rfl
  | @array items _ ih =>
      show Json.array (toJsonItems (ofJsonItems items)) = .array items
      rw [ofJsonItems_eq_map, toJsonItems_eq_map, map_map_eq_self ih]
  | @object members _ ih =>
      show Json.object (toJsonFields (ofJsonMembers members)) = .object members
      rw [ofJsonMembers_eq_mapValues, toJsonFields_eq_mapValues, mapValues_mapValues_eq_self ih]

/-- Exactly the plain values come back from plain documents, and exactly the plain documents from
plain values. -/
theorem plain_round_trip :
    (∀ value : Value, value.Plain ↔ value.toJson.Plain ∧ ofJson value.toJson = value) ∧
      ∀ document : Json,
        document.Plain ↔ (ofJson document).Plain ∧ (ofJson document).toJson = document := by
  constructor
  · intro value
    constructor
    · intro h
      exact ⟨h.toJson, h.ofJson_toJson⟩
    · intro h
      rcases h with ⟨hdocument, hsame⟩
      rw [← hsame]
      exact plain_ofJson hdocument
  · intro document
    constructor
    · intro h
      exact ⟨plain_ofJson h, toJson_ofJson h⟩
    · intro h
      rcases h with ⟨hvalue, hsame⟩
      rw [← hsame]
      exact hvalue.toJson

end Value
end RecordFlow
