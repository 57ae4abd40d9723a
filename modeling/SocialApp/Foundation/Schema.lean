import SocialApp.Foundation.Json

/-!
# Schemas of decoders

A schema says which JSON values a decoder accepts. A type whose decoder is described by one carries
the proof, and the schema of a class is put together from those of its properties, in the order in
which the decoder reads them.
-/

namespace SocialApp.Foundation

mutual

inductive Schema
  | anything
  | integer
  | boolean
  | number
  | string
  | array (elements : Schema)
  | object (fields : Fields)

inductive Fields
  | nil
  | required (key : String) (value : Schema) (rest : Fields)
  | optional (key : String) (value : Schema) (rest : Fields)

end

mutual

def Schema.accepts : Schema → Json → Bool
  | .anything, _ => true
  | .integer, json => json.int?.isSome
  | .boolean, json => json.bool?.isSome
  | .number, json => json.double?.isSome
  | .string, json => json.string?.isSome
  | .array elements, .array values => values.all elements.accepts
  | .array _, _ => false
  | .object fields, .object members => fields.accepts members
  | .object _, _ => false

def Fields.accepts : Fields → KeyedContainer → Bool
  | .nil, _ => true
  | .required key value rest, members =>
      (match members.lookup key with
        | none => false
        | some json => value.accepts json) && rest.accepts members
  | .optional key value rest, members =>
      (match members.lookup key with
        | none | some .null => true
        | some json => value.accepts json) && rest.accepts members

end

class Schematic (α : Type) [Decodable α] where
  schema : Schema
  accepts : ∀ json, (decoding json : Option α).isSome = schema.accepts json

export Schematic (schema)

instance : Schematic Int := ⟨.integer, fun _ => by simp only [Schema.accepts]; rfl⟩
instance : Schematic Bool := ⟨.boolean, fun _ => by simp only [Schema.accepts]; rfl⟩
instance : Schematic Rat := ⟨.number, fun _ => by simp only [Schema.accepts]; rfl⟩
instance : Schematic String := ⟨.string, fun _ => by simp only [Schema.accepts]; rfl⟩

theorem decodeEach_isSome {α : Type} [Decodable α] [Schematic α] (elements : List Json) :
    (decodeEach (decoding : Json → Option α) elements).isSome =
      elements.all (schema α).accepts := by
  induction elements with
  | nil => rfl
  | cons element elements ih =>
      rw [List.all_cons, ← ih, ← Schematic.accepts]
      cases first : (decoding element : Option α) <;>
        cases later : decodeEach (decoding : Json → Option α) elements <;>
          simp [decodeEach, first, later]

instance {α : Type} [Decodable α] [Schematic α] : Schematic (List α) where
  schema := .array (schema α)
  accepts json := by
    cases json with
    | array elements =>
        rw [Schema.accepts, ← decodeEach_isSome]
        rfl
    | _ => simp only [Schema.accepts]; rfl

/-! ## Reading an object field by field -/

theorem isSome_bind_of_const {α β : Type} {x : Option α} {f : α → Option β} {b : Bool}
    (later : ∀ a, (f a).isSome = b) : (x.bind f).isSome = (x.isSome && b) := by
  cases x with
  | none => rfl
  | some a => exact later a

section
variable {α β : Type} [Decodable α] [Schematic α] {members : KeyedContainer} {key : String}
  {rest : Fields}

omit [Decodable α] [Schematic α] in
theorem object_isSome {f : KeyedContainer → Option α} {fields : Fields}
    (reads : ∀ members, (f members).isSome = fields.accepts members) (json : Json) :
    (json.container.bind f).isSome = (Schema.object fields).accepts json := by
  cases json with
  | object members =>
      rw [Schema.accepts]
      exact reads members
  | _ => simp only [Schema.accepts]; rfl

omit [Decodable α] [Schematic α] in
theorem nil_isSome (a : α) : (some a).isSome = Fields.nil.accepts members := by
  simp only [Fields.accepts]
  rfl

theorem required_isSome {f : α → Option β} (later : ∀ a, (f a).isSome = rest.accepts members) :
    ((members.decode α key).bind f).isSome =
      (Fields.required key (schema α) rest).accepts members := by
  rw [isSome_bind_of_const later, Fields.accepts, KeyedContainer.decode]
  cases members.lookup key with
  | none => rfl
  | some json => rw [Option.bind_some, Schematic.accepts]

theorem optional_isSome {f : Option α → Option β}
    (later : ∀ a, (f a).isSome = rest.accepts members) :
    ((members.decodeIfPresent α key).bind f).isSome =
      (Fields.optional key (schema α) rest).accepts members := by
  rw [isSome_bind_of_const later, Fields.accepts, KeyedContainer.decodeIfPresent]
  cases members.lookup key with
  | none => rfl
  | some json =>
      cases json with
      | null => rfl
      | _ => rw [Option.isSome_map, Schematic.accepts]

end

end SocialApp.Foundation
