import OpenSpy.Library.Ascii

/-!
# JSON values

The values of jansson and the accessors that the servers use: each answers a missing value, or
one of another kind, with a default.
-/

namespace OpenSpy

/-- A `json_t`. An object has its keys in the order in which they were set. -/
inductive Json where
  | null
  | bool (value : Bool)
  | integer (value : Int)
  | real (text : Bytes)
  | string (value : Bytes)
  | array (items : List Json)
  | object (fields : List (Bytes × Json))
  deriving Repr

namespace Json

/-- `json_object_get`, also of `NULL`. -/
def objectGet (json : Option Json) (key : Bytes) : Option Json :=
  match json with
  | some (.object fields) => (fields.find? fun field => field.1 == key).map Prod.snd
  | _ => none

/-- `json_integer_value`, also of `NULL`. -/
def integerValue (json : Option Json) : Int :=
  match json with
  | some (.integer value) => value
  | _ => 0

/-- `json_string_value`, also of `NULL`. -/
def stringValue (json : Option Json) : Option Bytes :=
  match json with
  | some (.string value) => some value
  | _ => none

/-- `json == json_true()`. -/
def isTrue (json : Option Json) : Bool :=
  match json with
  | some (.bool value) => value
  | _ => false

/-- `json_object` and a `json_object_set_new` for each key, which drops a key whose value could
not be made. -/
def ofFields (fields : List (Bytes × Option Json)) : Json :=
  .object (fields.filterMap fun (key, value) => value.map fun value => (key, value))

section Fields

variable {fields : List (Bytes × Option Json)} {name : Bytes} {value : Option Json}

/-- An object has nothing under a name that was not used. -/
theorem object_get_of_not_mem (h : name ∉ fields.map Prod.fst) :
    objectGet (some (ofFields fields)) name = none := by
  simp only [objectGet, ofFields, Option.map_eq_none_iff, List.find?_eq_none]
  intro field hfield heq
  obtain ⟨⟨other, value⟩, hmem, hother⟩ := List.mem_filterMap.mp hfield
  simp only [Option.map_eq_some_iff] at hother
  obtain ⟨_, -, rfl⟩ := hother
  exact h (List.mem_map.mpr ⟨_, hmem, beq_iff_eq.mp heq⟩)

/-- Under a name that was used once, it has the value, if there is one. -/
theorem object_get_of_mem (hnodup : (fields.map Prod.fst).Nodup) (hmem : (name, value) ∈ fields) :
    objectGet (some (ofFields fields)) name = value := by
  induction fields with
  | nil => cases hmem
  | cons field fields ih =>
      rw [List.map_cons, List.nodup_cons] at hnodup
      rcases List.mem_cons.mp hmem with rfl | htail
      · cases value with
        | some value => simp [ofFields, objectGet]
        | none =>
            show objectGet (some (ofFields fields)) name = none
            exact object_get_of_not_mem hnodup.1
      · have hne : field.1 ≠ name := fun heq =>
          hnodup.1 (heq ▸ List.mem_map_of_mem (f := Prod.fst) htail)
        rw [← ih hnodup.2 htail]
        cases hvalue : field.2 <;> simp [ofFields, objectGet, hvalue, hne]

end Fields

end Json

end OpenSpy
