import Mathlib.Data.List.Forall2
import Mathlib.Data.Rat.Defs
import SocialApp.Foundation.Text

/-!
# `JSONDecoder`

A JSON value as the parser leaves it, the containers a decoder reads it through, and what a
synthesized or hand-written `init(from:)` builds on: `decode` throws on an absent key, on `null`
and on a value of another type; `decodeIfPresent` returns `nil` on the first two. An error is
`none`. A member list stands for the dictionary of an object: of a repeated key the first counts.
-/

namespace SocialApp.Foundation

inductive Json
  | null
  | bool (value : Bool)
  | number (value : Rat)
  | string (value : String)
  | array (elements : List Json)
  | object (members : List (String × Json))

class Decodable (α : Type) where
  decoding : Json → Option α

export Decodable (decoding)

namespace Json

def int? : Json → Option Int
  | number value =>
      if value.den = 1 ∧ intMin ≤ value.num ∧ value.num ≤ intMax then some value.num else none
  | _ => none

def bool? : Json → Option Bool
  | bool value => some value
  | _ => none

def double? : Json → Option Rat
  | number value => some value
  | _ => none

def string? : Json → Option String
  | string value => some value
  | _ => none

def array? : Json → Option (List Json)
  | array elements => some elements
  | _ => none

end Json

instance : Decodable Int := ⟨Json.int?⟩
instance : Decodable Bool := ⟨Json.bool?⟩
instance : Decodable Rat := ⟨Json.double?⟩
instance : Decodable String := ⟨Json.string?⟩

def decodeEach {α : Type} (decode : Json → Option α) : List Json → Option (List α)
  | [] => some []
  | element :: elements => do
      let value ← decode element
      let values ← decodeEach decode elements
      return value :: values

instance {α : Type} [Decodable α] : Decodable (List α) :=
  ⟨fun json => json.array?.bind (decodeEach decoding)⟩

abbrev KeyedContainer := List (String × Json)

def Json.container : Json → Option KeyedContainer
  | object members => some members
  | _ => none

namespace KeyedContainer
variable (values : KeyedContainer)

def decode (α : Type) [Decodable α] (key : String) : Option α := (values.lookup key).bind decoding

def decodeIfPresent (α : Type) [Decodable α] (key : String) : Option (Option α) :=
  match values.lookup key with
  | none | some .null => some none
  | some value => (decoding value).map some

def nestedContainer (key : String) : Option KeyedContainer :=
  (values.lookup key).bind Json.container

end KeyedContainer

/-! ## What a decoder accepts -/

namespace Json

def IsInt (json : Json) : Prop := ∃ n : Int, intMin ≤ n ∧ n ≤ intMax ∧ json = number n

def IsString (json : Json) : Prop := ∃ text, json = string text

def IsArrayOf (P : Json → Prop) (json : Json) : Prop :=
  ∃ elements, json = array elements ∧ ∀ element ∈ elements, P element

def HasMember (key : String) (P : Json → Prop) (json : Json) : Prop :=
  ∃ members value, json = object members ∧ members.lookup key = some value ∧ P value

theorem int?_eq_some_iff {json : Json} {n : Int} :
    json.int? = some n ↔ json = number n ∧ intMin ≤ n ∧ n ≤ intMax := by
  constructor
  · intro decoded
    cases json with
    | number value =>
        obtain ⟨⟨whole, lower, upper⟩, same⟩ := Option.ite_none_right_eq_some.mp decoded
        cases same
        exact ⟨by rw [Rat.coe_int_num_of_den_eq_one whole], lower, upper⟩
    | null | bool | string | array | object => cases decoded
  · intro fits
    obtain ⟨rfl, lower, upper⟩ := fits
    simp [int?, lower, upper]

theorem bool?_eq_some_iff {json : Json} {value : Bool} :
    json.bool? = some value ↔ json = bool value := by
  cases json <;> simp [bool?]

theorem string?_eq_some_iff {json : Json} {text : String} :
    json.string? = some text ↔ json = string text := by
  cases json <;> simp [string?]

theorem int?_isSome_iff {json : Json} : json.int?.isSome ↔ json.IsInt := by
  simp only [Option.isSome_iff_exists, int?_eq_some_iff, IsInt]
  exact exists_congr fun n => by rw [and_comm, and_assoc]

theorem int?_fits {json : Json} {n : Int} (decoded : json.int? = some n) :
    intMin ≤ n ∧ n ≤ intMax :=
  (int?_eq_some_iff.mp decoded).2

theorem string?_isSome_iff {json : Json} : json.string?.isSome ↔ json.IsString := by
  simp only [Option.isSome_iff_exists, string?_eq_some_iff, IsString]

end Json

theorem decodeEach_isSome_iff {α : Type} {decode : Json → Option α} {elements : List Json} :
    (decodeEach decode elements).isSome ↔ ∀ element ∈ elements, (decode element).isSome := by
  induction elements with
  | nil => simp [decodeEach]
  | cons element elements ih =>
      cases first : decode element <;> cases later : decodeEach decode elements <;>
        simp [decodeEach, first, later, ← ih]

theorem decodeEach_eq_map {α : Type} {decode : Json → Option α} {describe : Json → α}
    (described : ∀ json value, decode json = some value → value = describe json)
    {elements : List Json} {values : List α} (decoded : decodeEach decode elements = some values) :
    values = elements.map describe := by
  induction elements generalizing values with
  | nil => simpa [decodeEach] using decoded.symm
  | cons element elements ih =>
      simp only [decodeEach, Option.bind_eq_bind, Option.bind_eq_some_iff, Option.pure_def,
        Option.some.injEq] at decoded
      obtain ⟨value, first, rest, later, rfl⟩ := decoded
      rw [described element value first, ih later, List.map_cons]

theorem exists_of_mem_decodeEach {α : Type} {decode : Json → Option α} {elements : List Json}
    {values : List α} (decoded : decodeEach decode elements = some values) {value : α}
    (member : value ∈ values) : ∃ element, decode element = some value := by
  induction elements generalizing values with
  | nil =>
      simp only [decodeEach, Option.some.injEq] at decoded
      simp [← decoded] at member
  | cons element elements ih =>
      simp only [decodeEach, Option.bind_eq_bind, Option.bind_eq_some_iff, Option.pure_def,
        Option.some.injEq] at decoded
      obtain ⟨first, read, rest, later, rfl⟩ := decoded
      cases member with
      | head => exact ⟨element, read⟩
      | tail _ member => exact ih later member

theorem exists_of_decodeIfPresent {α : Type} [Decodable α] {values : KeyedContainer} {key : String}
    {value : α} (decoded : values.decodeIfPresent α key = some (some value)) :
    ∃ json, decoding json = some value := by
  unfold KeyedContainer.decodeIfPresent at decoded
  split at decoded
  · cases decoded
  · cases decoded
  · rename_i json _ _
    exact ⟨json, by simpa using decoded⟩

theorem decodeEach_map_congr {α β : Type} {decode : Json → Option α} (observe : α → β)
    {elements others : List Json}
    (same : List.Forall₂ (fun x y => (decode x).map observe = (decode y).map observe)
      elements others) :
    (decodeEach decode elements).map (List.map observe) =
      (decodeEach decode others).map (List.map observe) := by
  have unfolded : ∀ element elements,
      (decodeEach decode (element :: elements)).map (List.map observe) =
        ((decode element).map observe).bind fun value =>
          ((decodeEach decode elements).map (List.map observe)).map (value :: ·) := by
    intro element elements
    cases first : decode element <;> cases later : decodeEach decode elements <;>
      simp [decodeEach, first, later]
  induction same with
  | nil => rfl
  | cons first _ ih => rw [unfolded, unfolded, first, ih]

/-! ## Paths -/

namespace Json

def at? : List String → Json → Option Json
  | [], json => some json
  | key :: path, json => json.container.bind fun members => (members.lookup key).bind (at? path)

def valueAt (α : Type) [Decodable α] (path : List String) (json : Json) : Option α :=
  (at? path json).bind decoding

theorem valueAt_int_iff {path : List String} {json : Json} {n : Int} :
    json.valueAt Int path = some n ↔
      json.at? path = some (number n) ∧ intMin ≤ n ∧ n ≤ intMax := by
  simp only [valueAt, Option.bind_eq_some_iff, decoding, int?_eq_some_iff]
  simp

theorem valueAt_bool_iff {path : List String} {json : Json} {value : Bool} :
    json.valueAt Bool path = some value ↔ json.at? path = some (bool value) := by
  simp only [valueAt, Option.bind_eq_some_iff, decoding, bool?_eq_some_iff]
  simp

theorem valueAt_string_iff {path : List String} {json : Json} {text : String} :
    json.valueAt String path = some text ↔ json.at? path = some (string text) := by
  simp only [valueAt, Option.bind_eq_some_iff, decoding, string?_eq_some_iff]
  simp

theorem at?_one (values : KeyedContainer) (key : String) :
    (object values).at? [key] = values.lookup key := by
  simp [at?, container]

theorem at?_two (values : KeyedContainer) (key inner : String) :
    (object values).at? [key, inner] =
      (values.nestedContainer key).bind fun nested => nested.lookup inner := by
  simp only [at?, container, Option.bind_some, KeyedContainer.nestedContainer, Option.bind_assoc]
  simp

theorem at?_cons (key : String) (path : List String) (json : Json) :
    json.at? (key :: path) = (json.at? [key]).bind (at? path) := by
  simp [at?, Option.bind_assoc]

theorem decode_eq_valueAt {α : Type} [Decodable α] (values : KeyedContainer) (key : String) :
    values.decode α key = (object values).valueAt α [key] := by
  rw [valueAt, at?_one, KeyedContainer.decode]

theorem nested_decode_eq_valueAt {α : Type} [Decodable α] (values : KeyedContainer)
    (key inner : String) :
    ((values.nestedContainer key).bind fun nested => nested.decode α inner) =
      (object values).valueAt α [key, inner] := by
  rw [valueAt, at?_two, Option.bind_assoc]
  rfl

theorem hasMember_iff {key : String} {P : Json → Prop} {json : Json} :
    json.HasMember key P ↔ ∃ value, at? [key] json = some value ∧ P value := by
  cases json with
  | object members =>
      cases found : members.lookup key <;> simp [HasMember, at?, container, found]
  | _ => simp [HasMember, at?, container]

theorem hasMember_isSome_iff {α : Type} [Decodable α] {P : Json → Prop}
    (accepts : ∀ value, (decoding value : Option α).isSome ↔ P value) {key : String} {json : Json} :
    json.HasMember key P ↔ (json.valueAt α [key]).isSome := by
  rw [hasMember_iff, valueAt]
  cases at? [key] json <;> simp [accepts]

/-- Only what stands at `path` may differ between the two. -/
def AgreeOff : List String → Option Json → Option Json → Prop
  | [], _, _ => True
  | key :: path, x, y => ∃ members others, x = some (object members) ∧ y = some (object others) ∧
      (∀ other, other ≠ key → members.lookup other = others.lookup other) ∧
        AgreeOff path (members.lookup key) (others.lookup key)

def Comparable (path other : List String) : Prop := path <+: other ∨ other <+: path

instance (path other : List String) : Decidable (Comparable path other) :=
  inferInstanceAs (Decidable (_ ∨ _))

theorem at?_of_agreeOff {path other : List String} (apart : ¬ Comparable path other) {x y : Json}
    (agree : AgreeOff path (some x) (some y)) : at? other x = at? other y := by
  induction path generalizing other x y with
  | nil => exact absurd (Or.inl List.nil_prefix) apart
  | cons key path ih =>
      obtain ⟨members, others, eqx, eqy, elsewhere, below⟩ := agree
      cases eqx
      cases eqy
      cases other with
      | nil => exact absurd (Or.inr List.nil_prefix) apart
      | cons key' other =>
          simp only [at?, container, Option.bind_some]
          by_cases same : key' = key
          · subst same
            have deeper : ¬ Comparable path other := by
              simpa [Comparable, List.cons_prefix_cons] using apart
            cases left : members.lookup key' with
            | none =>
                rw [left] at below
                cases path with
                | nil => exact absurd (Or.inl List.nil_prefix) deeper
                | cons => obtain ⟨_, _, impossible, _⟩ := below; cases impossible
            | some v =>
                cases right : others.lookup key' with
                | none =>
                    rw [left, right] at below
                    cases path with
                    | nil => exact absurd (Or.inl List.nil_prefix) deeper
                    | cons => obtain ⟨_, _, _, impossible, _⟩ := below; cases impossible
                | some w =>
                    rw [left, right] at below
                    exact ih deeper below
          · rw [elsewhere key' same]

/-- A value read at `other`, unless it may have changed with what stands at `path`. -/
def keep {β : Type} (path other : List String) (value fallback : β) : β :=
  if Comparable path other then fallback else value

theorem keep_congr {β : Type} {path other : List String} {x y : Json}
    (agree : AgreeOff path (some x) (some y)) {value value' : β} (fallback : β)
    (reads : x.at? other = y.at? other → value = value') :
    keep path other value fallback = keep path other value' fallback := by
  unfold keep
  split
  · rfl
  · exact reads (at?_of_agreeOff ‹_› agree)

end Json
end SocialApp.Foundation
