import SocialApp.Foundation.Json
import SocialApp.Realm.Objects

/-!
# Decoding friends and groups

`init(from:)` of `Friend` and `Group`, and the bodies around them. `if let … = try?` keeps the
initial value of a property where its key does not decode, a plain `try?` assigns `nil`. The
grammar, the value of each field and the independence of the optional fields are stated over
paths into the JSON value.
-/

namespace SocialApp.Realm
open Foundation Json

def Friend.decoding (json : Json) : Option Friend := do
  let initial : Friend := {}
  let values ← json.container
  let firstName ← values.decode String "first_name"
  let id ← values.decode Int "id"
  let lastName ← values.decode String "last_name"
  let cityContainer := values.nestedContainer "city"
  let countryContainer := values.nestedContainer "country"
  let lastSeenContainer := values.nestedContainer "last_seen"
  let occupationContainer := values.nestedContainer "occupation"
  return {
    firstName := firstName
    id := id
    lastName := lastName
    isClosed := (values.decode Bool "is_closed").getD initial.isClosed
    canAccessClosed := (values.decode Bool "can_access_closed").getD initial.canAccessClosed
    sex := (values.decode Int "sex").getD initial.sex
    photo50 := (values.decode String "photo_50").or initial.photo50
    online := (values.decode Int "online").getD initial.online
    nickname := values.decode String "nickname"
    domain := values.decode String "domain"
    bdate := values.decode String "bdate"
    photoMax := values.decode String "photo_max"
    status := values.decode String "status"
    relation := (values.decode Int "relation").getD initial.relation
    city := cityContainer.bind fun c => c.decode String "title"
    country := countryContainer.bind fun c => c.decode String "title"
    lastSeen := (lastSeenContainer.bind fun c => c.decode Int "time").getD initial.lastSeen
    occupationType := occupationContainer.bind fun c => c.decode String "type"
    occupationName := occupationContainer.bind fun c => c.decode String "name"
    avatar := initial.avatar }

def Group.decoding (json : Json) : Option Group := do
  let initial : Group := {}
  let container ← json.container
  let id ← container.decode Int "id"
  let name ← container.decode String "name"
  return {
    id := id
    name := name
    activity := container.decode String "activity"
    membersCount := (container.decode Int "members_count").getD initial.membersCount
    photo50 := container.decode String "photo_50"
    avatar := initial.avatar }

instance : Decodable Friend := ⟨Friend.decoding⟩
instance : Decodable Group := ⟨Group.decoding⟩

structure Response (ρ : Type) where
  count : Int
  items : List ρ

abbrev FriendResponse := Response Friend
abbrev GroupResponse := Response Group

instance {ρ : Type} [Decodable ρ] : Decodable (Response ρ) where
  decoding json := do
    let values ← json.container
    let count ← values.decode Int "count"
    let items ← values.decode (List ρ) "items"
    return ⟨count, items⟩

structure ResponseData (ρ : Type) where
  response : Response ρ

abbrev FriendData := ResponseData Friend
abbrev GroupData := ResponseData Group

instance {ρ : Type} [Decodable ρ] : Decodable (ResponseData ρ) where
  decoding json := do
    let values ← json.container
    let response ← values.decode (Response ρ) "response"
    return ⟨response⟩

def FriendItem (item : Json) : Prop :=
  item.HasMember "id" IsInt ∧ item.HasMember "first_name" IsString ∧
    item.HasMember "last_name" IsString

def GroupItem (item : Json) : Prop := item.HasMember "id" IsInt ∧ item.HasMember "name" IsString

def IsBody (Item : Json → Prop) (body : Json) : Prop :=
  body.HasMember "response" fun response =>
    response.HasMember "count" IsInt ∧ response.HasMember "items" (IsArrayOf Item)

def describedFriend (item : Json) : Friend where
  firstName := (item.valueAt String ["first_name"]).getD ""
  id := (item.valueAt Int ["id"]).getD 0
  lastName := (item.valueAt String ["last_name"]).getD ""
  isClosed := (item.valueAt Bool ["is_closed"]).getD false
  canAccessClosed := (item.valueAt Bool ["can_access_closed"]).getD false
  sex := (item.valueAt Int ["sex"]).getD 0
  photo50 := (item.valueAt String ["photo_50"]).or (some "")
  online := (item.valueAt Int ["online"]).getD 0
  nickname := item.valueAt String ["nickname"]
  domain := item.valueAt String ["domain"]
  bdate := item.valueAt String ["bdate"]
  city := item.valueAt String ["city", "title"]
  country := item.valueAt String ["country", "title"]
  photoMax := item.valueAt String ["photo_max"]
  status := item.valueAt String ["status"]
  lastSeen := (item.valueAt Int ["last_seen", "time"]).getD 0
  occupationName := item.valueAt String ["occupation", "name"]
  occupationType := item.valueAt String ["occupation", "type"]
  relation := (item.valueAt Int ["relation"]).getD 0
  avatar := none

def describedGroup (item : Json) : Group where
  id := (item.valueAt Int ["id"]).getD 0
  name := (item.valueAt String ["name"]).getD ""
  activity := item.valueAt String ["activity"]
  membersCount := (item.valueAt Int ["members_count"]).getD 0
  photo50 := item.valueAt String ["photo_50"]
  avatar := none

theorem intMember_iff {key : String} {json : Json} :
    json.HasMember key IsInt ↔ (json.valueAt Int [key]).isSome :=
  hasMember_isSome_iff fun _ => int?_isSome_iff

theorem stringMember_iff {key : String} {json : Json} :
    json.HasMember key IsString ↔ (json.valueAt String [key]).isSome :=
  hasMember_isSome_iff fun _ => string?_isSome_iff

theorem friend_decoding_eq (item : Json) :
    Friend.decoding item =
      (item.valueAt String ["first_name"]).bind fun firstName =>
        (item.valueAt Int ["id"]).bind fun id =>
          (item.valueAt String ["last_name"]).bind fun lastName =>
            some { describedFriend item with
              firstName := firstName, id := id, lastName := lastName } := by
  cases item with
  | object values =>
      simp only [Friend.decoding, container, nested_decode_eq_valueAt]
      simp only [decode_eq_valueAt, Option.bind_eq_bind, Option.bind_some, Option.pure_def]
      rfl
  | _ => rfl

theorem group_decoding_eq (item : Json) :
    Group.decoding item =
      (item.valueAt Int ["id"]).bind fun id =>
        (item.valueAt String ["name"]).bind fun name =>
          some { describedGroup item with id := id, name := name } := by
  cases item with
  | object values =>
      simp only [Group.decoding, container, decode_eq_valueAt, Option.bind_eq_bind,
        Option.bind_some, Option.pure_def]
      rfl
  | _ => rfl

theorem friend_isSome_iff {item : Json} : (Friend.decoding item).isSome ↔ FriendItem item := by
  rw [friend_decoding_eq, FriendItem, intMember_iff, stringMember_iff, stringMember_iff]
  cases item.valueAt String ["first_name"] <;> cases item.valueAt Int ["id"] <;>
    cases item.valueAt String ["last_name"] <;> simp

theorem friend_described {item : Json} {friend : Friend}
    (decoded : Friend.decoding item = some friend) : friend = describedFriend item := by
  simp only [friend_decoding_eq, Option.bind_eq_some_iff, Option.some.injEq] at decoded
  obtain ⟨firstName, first, id, key, lastName, last, rfl⟩ := decoded
  simp [describedFriend, first, key, last]

theorem group_isSome_iff {item : Json} : (Group.decoding item).isSome ↔ GroupItem item := by
  rw [group_decoding_eq, GroupItem, intMember_iff, stringMember_iff]
  cases item.valueAt Int ["id"] <;> cases item.valueAt String ["name"] <;> simp

theorem group_described {item : Json} {group : Group}
    (decoded : Group.decoding item = some group) : group = describedGroup item := by
  simp only [group_decoding_eq, Option.bind_eq_some_iff, Option.some.injEq] at decoded
  obtain ⟨id, key, name, named, rfl⟩ := decoded
  simp [describedGroup, key, named]

section Bodies
variable {ρ : Type} [Decodable ρ]

theorem body_decoding_eq (body : Json) :
    (decoding body : Option (ResponseData ρ)) =
      (body.valueAt Int ["response", "count"]).bind fun count =>
        (body.valueAt (List ρ) ["response", "items"]).bind fun items => some ⟨⟨count, items⟩⟩ := by
  cases body with
  | object values =>
      simp only [decoding, container, KeyedContainer.decode, ← nested_decode_eq_valueAt,
        KeyedContainer.nestedContainer, Option.bind_eq_bind, Option.bind_some, Option.pure_def]
      cases values.lookup "response" with
      | none => rfl
      | some response =>
          cases response with
          | object members =>
              simp only [Option.bind_some, Json.container, Option.bind_assoc]
          | _ => rfl
  | _ => rfl

theorem isBody_iff {Item : Json → Prop} {body : Json} :
    IsBody Item body ↔ (body.valueAt Int ["response", "count"]).isSome ∧
      ∃ items, body.at? ["response", "items"] = some (array items) ∧ ∀ item ∈ items, Item item := by
  rw [IsBody, hasMember_iff, valueAt, at?_cons "response" ["count"],
    at?_cons "response" ["items"]]
  cases body.at? ["response"] with
  | none => simp
  | some response =>
      simp only [Option.some.injEq, exists_eq_left', Option.bind_some, intMember_iff, valueAt]
      rw [hasMember_iff]
      apply and_congr_right
      intro _
      constructor
      · intro member
        obtain ⟨value, found, items, rfl, each⟩ := member
        exact ⟨items, found, each⟩
      · intro member
        obtain ⟨items, found, each⟩ := member
        exact ⟨array items, found, items, rfl, each⟩

theorem body_isSome_iff {Item : Json → Prop}
    (accepts : ∀ item, (decoding item : Option ρ).isSome ↔ Item item) {body : Json} :
    (decoding body : Option (ResponseData ρ)).isSome ↔ IsBody Item body := by
  rw [body_decoding_eq, isBody_iff]
  cases body.valueAt Int ["response", "count"] with
  | none => simp
  | some count =>
      cases found : body.at? ["response", "items"] with
      | none => simp [valueAt, found]
      | some value =>
          cases value with
          | array items =>
              have each : (decodeEach (decoding : Json → Option ρ) items).isSome ↔
                  ∀ item ∈ items, Item item := by
                rw [decodeEach_isSome_iff]
                simp only [accepts]
              simp [valueAt, found, decoding, array?, Option.isSome_bind, ← each]
          | _ => simp [valueAt, found, decoding, array?]

def itemsPath : List String := ["response", "items"]

/-- Nothing differs but what stands at `path` in some of the items. -/
def ItemsAgreeOff (path : List String) (body other : Json) : Prop :=
  AgreeOff itemsPath (some body) (some other) ∧
    ∃ items others, body.at? itemsPath = some (array items) ∧
      other.at? itemsPath = some (array others) ∧
        List.Forall₂ (fun x y => x = y ∨ AgreeOff path (some x) (some y)) items others

structure Decodes (Item : Json → Prop) (describe : Json → ρ) (forget : List String → ρ → ρ)
    (required : List (List String)) : Prop where
  accepts : ∀ body, (decoding body : Option (ResponseData ρ)).isSome ↔ IsBody Item body
  items : ∀ body (data : ResponseData ρ), decoding body = some data →
    ∃ items, body.at? itemsPath = some (array items) ∧ data.response.items = items.map describe
  isolated : ∀ path, (∀ key ∈ required, ¬ Comparable path key) →
    ∀ body other, ItemsAgreeOff path body other →
      let forgotten (data : ResponseData ρ) := data.response.items.map (forget path)
      (decoding body).map forgotten = (decoding other).map forgotten

theorem decoding_map_congr {Item : Json → Prop} {describe : Json → ρ}
    (accepts : ∀ item, (decoding item : Option ρ).isSome ↔ Item item)
    (described : ∀ item (value : ρ), decoding item = some value → value = describe item)
    {observe : ρ → ρ} {x y : Json}
    (same : (Item x ↔ Item y) ∧ observe (describe x) = observe (describe y)) :
    (decoding x : Option ρ).map observe = (decoding y : Option ρ).map observe := by
  obtain ⟨item, equal⟩ := same
  rw [← accepts, ← accepts] at item
  cases left : (decoding x : Option ρ) <;> cases right : (decoding y : Option ρ)
  · rfl
  · simp [left, right] at item
  · simp [left, right] at item
  · rw [described x _ left, described y _ right, Option.map_some, Option.map_some, equal]

theorem decodes_of_items {Item : Json → Prop} {describe : Json → ρ}
    {forget : List String → ρ → ρ} {required : List (List String)}
    (accepts : ∀ item, (decoding item : Option ρ).isSome ↔ Item item)
    (described : ∀ item (value : ρ), decoding item = some value → value = describe item)
    (isolated : ∀ path, (∀ key ∈ required, ¬ Comparable path key) → ∀ x y,
      AgreeOff path (some x) (some y) →
        (Item x ↔ Item y) ∧ forget path (describe x) = forget path (describe y)) :
    Decodes Item describe forget required where
  accepts _ := body_isSome_iff accepts
  items body data decoded := by
    simp only [body_decoding_eq, Option.bind_eq_some_iff, valueAt, Option.some.injEq] at decoded
    obtain ⟨_, _, values, ⟨value, found, read⟩, rfl⟩ := decoded
    cases value with
    | array items => exact ⟨items, found, decodeEach_eq_map described read⟩
    | _ => simp [decoding, array?] at read
  isolated path off body other agree := by
    obtain ⟨outside, items, others, found, found', each⟩ := agree
    have count : body.at? ["response", "count"] = other.at? ["response", "count"] :=
      at?_of_agreeOff (by decide) outside
    have same : (decodeEach (decoding : Json → Option ρ) items).map (List.map (forget path)) =
        (decodeEach decoding others).map (List.map (forget path)) := by
      apply decodeEach_map_congr
      apply each.imp
      intro x y related
      cases related with
      | inl eq => rw [eq]
      | inr differ => exact decoding_map_congr accepts described (isolated path off x y differ)
    simp only [itemsPath] at found found'
    rw [body_decoding_eq, body_decoding_eq]
    simp only [valueAt, count, found, found', Option.map_bind, Option.bind_some]
    apply Option.bind_congr
    intro _ _
    simpa [decoding, array?, Option.map_eq_bind, Option.bind_assoc, Function.comp_def] using same

end Bodies

def Friend.forget (path : List String) (friend : Friend) : Friend :=
  { friend with
    isClosed := keep path ["is_closed"] friend.isClosed false
    canAccessClosed := keep path ["can_access_closed"] friend.canAccessClosed false
    sex := keep path ["sex"] friend.sex 0
    photo50 := keep path ["photo_50"] friend.photo50 none
    online := keep path ["online"] friend.online 0
    nickname := keep path ["nickname"] friend.nickname none
    domain := keep path ["domain"] friend.domain none
    bdate := keep path ["bdate"] friend.bdate none
    city := keep path ["city", "title"] friend.city none
    country := keep path ["country", "title"] friend.country none
    photoMax := keep path ["photo_max"] friend.photoMax none
    status := keep path ["status"] friend.status none
    lastSeen := keep path ["last_seen", "time"] friend.lastSeen 0
    occupationName := keep path ["occupation", "name"] friend.occupationName none
    occupationType := keep path ["occupation", "type"] friend.occupationType none
    relation := keep path ["relation"] friend.relation 0 }

def Group.forget (path : List String) (group : Group) : Group :=
  { group with
    activity := keep path ["activity"] group.activity none
    membersCount := keep path ["members_count"] group.membersCount 0
    photo50 := keep path ["photo_50"] group.photo50 none }

def Friend.required : List (List String) := [["id"], ["first_name"], ["last_name"]]
def Group.required : List (List String) := [["id"], ["name"]]

section Isolation
variable {path : List String} {x y : Json} (agree : AgreeOff path (some x) (some y))
include agree

theorem friendItem_congr (off : ∀ key ∈ Friend.required, ¬ Comparable path key) :
    FriendItem x ↔ FriendItem y := by
  have same := fun key member => at?_of_agreeOff (off key member) agree
  simp only [FriendItem, intMember_iff, stringMember_iff, valueAt, same ["id"] (by decide),
    same ["first_name"] (by decide), same ["last_name"] (by decide)]

theorem friend_forget_congr (off : ∀ key ∈ Friend.required, ¬ Comparable path key) :
    (describedFriend x).forget path = (describedFriend y).forget path := by
  have same := fun key member => at?_of_agreeOff (off key member) agree
  simp only [Friend.forget, describedFriend, Friend.mk.injEq, valueAt, same ["id"] (by decide),
    same ["first_name"] (by decide), same ["last_name"] (by decide), true_and, and_true]
  and_intros
  all_goals
    apply keep_congr agree
    intro reads
    rw [reads]

theorem groupItem_congr (off : ∀ key ∈ Group.required, ¬ Comparable path key) :
    GroupItem x ↔ GroupItem y := by
  have same := fun key member => at?_of_agreeOff (off key member) agree
  simp only [GroupItem, intMember_iff, stringMember_iff, valueAt, same ["id"] (by decide),
    same ["name"] (by decide)]

theorem group_forget_congr (off : ∀ key ∈ Group.required, ¬ Comparable path key) :
    (describedGroup x).forget path = (describedGroup y).forget path := by
  have same := fun key member => at?_of_agreeOff (off key member) agree
  simp only [Group.forget, describedGroup, Group.mk.injEq, valueAt, same ["id"] (by decide),
    same ["name"] (by decide), true_and, and_true]
  and_intros
  all_goals
    apply keep_congr agree
    intro reads
    rw [reads]

end Isolation

theorem decodes_friends : Decodes FriendItem describedFriend Friend.forget Friend.required := by
  apply decodes_of_items
  · exact fun _ => friend_isSome_iff
  · exact fun _ _ => friend_described
  · exact fun _ off _ _ agree => ⟨friendItem_congr agree off, friend_forget_congr agree off⟩

theorem decodes_groups : Decodes GroupItem describedGroup Group.forget Group.required := by
  apply decodes_of_items
  · exact fun _ => group_isSome_iff
  · exact fun _ _ => group_described
  · exact fun _ off _ _ agree => ⟨groupItem_congr agree off, group_forget_congr agree off⟩

theorem decoders_accept_grammar :
    Decodes FriendItem describedFriend Friend.forget Friend.required ∧
      Decodes GroupItem describedGroup Group.forget Group.required :=
  ⟨decodes_friends, decodes_groups⟩

end SocialApp.Realm
