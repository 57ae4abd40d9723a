import SocialApp.Foundation.Json
import SocialApp.Realm.Objects

/-!
# Posts of the newsfeed

The classes that `JSONDecoder` makes of the answer of `newsfeed.get`. Their properties are
optional and decoded if present, so that an absent key and `null` are `nil` and a value of another
type rejects the body. A photo of an attachment is an object of the Realm class, whose keys are
required; its sizes take whatever decodes.
-/

namespace SocialApp.Newsfeed
open Foundation Realm

instance : Decodable PhotoSizes where
  decoding json :=
    let initial : PhotoSizes := {}
    let container := json.container
    some {
      type := container.bind fun c => c.decode String "type"
      url := container.bind fun c => c.decode String "url"
      width := (container.bind fun c => c.decode Int "width").getD initial.width
      height := (container.bind fun c => c.decode Int "height").getD initial.height }

instance : Decodable Photo where
  decoding json := do
    let values ← json.container
    return {
      date := ← values.decode Int "date"
      id := ← values.decode Int "id"
      owner_id := ← values.decode Int "owner_id"
      text := ← values.decode String "text"
      sizes := ← values.decode (List PhotoSizes) "sizes" }

structure PostAttachment where
  type : Option String := none
  photo : Option Photo := none
  deriving DecidableEq

structure PostComments where
  count : Option Int := none
  can_post : Option Int := none
  groups_can_post : Option Bool := none
  deriving DecidableEq

structure PostDonut where
  is_donut : Option Bool := none
  deriving DecidableEq

structure PostLikes where
  count : Option Int := none
  user_likes : Option Int := none
  can_like : Option Int := none
  can_publish : Option Int := none
  deriving DecidableEq

structure PostSource where
  type : Option String := none
  deriving DecidableEq

structure PostReposts where
  count : Option Int := none
  user_reposted : Option Int := none
  deriving DecidableEq

structure PostViews where
  count : Option Int := none
  deriving DecidableEq

structure PostItem where
  attachments : Option (List PostAttachment) := none
  can_doubt_category : Option Bool := none
  can_set_category : Option Bool := none
  carousel_offset : Option Int := none
  comments : Option PostComments := none
  date : Option Int := none
  donut : Option PostDonut := none
  is_favorite : Option Bool := none
  likes : Option PostLikes := none
  marked_as_ads : Option Int := none
  post_id : Option Int := none
  post_source : Option PostSource := none
  post_type : Option String := none
  reposts : Option PostReposts := none
  short_text_rate : Option Rat := none
  signer_id : Option Int := none
  source_id : Option Int := none
  text : Option String := none
  topic_id : Option Int := none
  type : Option String := none
  views : Option PostViews := none
  deriving DecidableEq

instance : Decodable PostAttachment where
  decoding json := do
    let values ← json.container
    return {
      type := ← values.decodeIfPresent String "type"
      photo := ← values.decodeIfPresent Photo "photo" }

instance : Decodable PostComments where
  decoding json := do
    let values ← json.container
    return {
      count := ← values.decodeIfPresent Int "count"
      can_post := ← values.decodeIfPresent Int "can_post"
      groups_can_post := ← values.decodeIfPresent Bool "groups_can_post" }

instance : Decodable PostDonut where
  decoding json := do
    let values ← json.container
    return { is_donut := ← values.decodeIfPresent Bool "is_donut" }

instance : Decodable PostLikes where
  decoding json := do
    let values ← json.container
    return {
      count := ← values.decodeIfPresent Int "count"
      user_likes := ← values.decodeIfPresent Int "user_likes"
      can_like := ← values.decodeIfPresent Int "can_like"
      can_publish := ← values.decodeIfPresent Int "can_publish" }

instance : Decodable PostSource where
  decoding json := do
    let values ← json.container
    return { type := ← values.decodeIfPresent String "type" }

instance : Decodable PostReposts where
  decoding json := do
    let values ← json.container
    return {
      count := ← values.decodeIfPresent Int "count"
      user_reposted := ← values.decodeIfPresent Int "user_reposted" }

instance : Decodable PostViews where
  decoding json := do
    let values ← json.container
    return { count := ← values.decodeIfPresent Int "count" }

instance : Decodable PostItem where
  decoding json := do
    let values ← json.container
    return {
      attachments := ← values.decodeIfPresent (List PostAttachment) "attachments"
      can_doubt_category := ← values.decodeIfPresent Bool "can_doubt_category"
      can_set_category := ← values.decodeIfPresent Bool "can_set_category"
      carousel_offset := ← values.decodeIfPresent Int "carousel_offset"
      comments := ← values.decodeIfPresent PostComments "comments"
      date := ← values.decodeIfPresent Int "date"
      donut := ← values.decodeIfPresent PostDonut "donut"
      is_favorite := ← values.decodeIfPresent Bool "is_favorite"
      likes := ← values.decodeIfPresent PostLikes "likes"
      marked_as_ads := ← values.decodeIfPresent Int "marked_as_ads"
      post_id := ← values.decodeIfPresent Int "post_id"
      post_source := ← values.decodeIfPresent PostSource "post_source"
      post_type := ← values.decodeIfPresent String "post_type"
      reposts := ← values.decodeIfPresent PostReposts "reposts"
      short_text_rate := ← values.decodeIfPresent Rat "short_text_rate"
      signer_id := ← values.decodeIfPresent Int "signer_id"
      source_id := ← values.decodeIfPresent Int "source_id"
      text := ← values.decodeIfPresent String "text"
      topic_id := ← values.decodeIfPresent Int "topic_id"
      type := ← values.decodeIfPresent String "type"
      views := ← values.decodeIfPresent PostViews "views" }

structure PostProfile where
  id : Option Int := none
  first_name : Option String := none
  last_name : Option String := none
  photo_50 : Option String := none
  deriving DecidableEq

structure PostGroup where
  id : Option Int := none
  name : Option String := none
  screen_name : Option String := none
  photo_50 : Option String := none
  deriving DecidableEq

structure PostResponse where
  items : Option (List PostItem) := none
  profiles : Option (List PostProfile) := none
  groups : Option (List PostGroup) := none
  next_form : Option String := none
  deriving DecidableEq

structure PostData where
  response : PostResponse
  deriving DecidableEq

instance : Decodable PostProfile where
  decoding json := do
    let values ← json.container
    return {
      id := ← values.decodeIfPresent Int "id"
      first_name := ← values.decodeIfPresent String "first_name"
      last_name := ← values.decodeIfPresent String "last_name"
      photo_50 := ← values.decodeIfPresent String "photo_50" }

instance : Decodable PostGroup where
  decoding json := do
    let values ← json.container
    return {
      id := ← values.decodeIfPresent Int "id"
      name := ← values.decodeIfPresent String "name"
      screen_name := ← values.decodeIfPresent String "screen_name"
      photo_50 := ← values.decodeIfPresent String "photo_50" }

instance : Decodable PostResponse where
  decoding json := do
    let values ← json.container
    return {
      items := ← values.decodeIfPresent (List PostItem) "items"
      profiles := ← values.decodeIfPresent (List PostProfile) "profiles"
      groups := ← values.decodeIfPresent (List PostGroup) "groups"
      next_form := ← values.decodeIfPresent String "next_form" }

instance : Decodable PostData where
  decoding json := do
    let values ← json.container
    return { response := ← values.decode PostResponse "response" }

def Fits (value : Option Int) : Prop := ∀ n, value = some n → intMin ≤ n ∧ n ≤ intMax

theorem fits_of_decodeIfPresent {values : KeyedContainer} {key : String} {value : Option Int}
    (decoded : values.decodeIfPresent Int key = some value) : Fits value := by
  intro n eq
  subst eq
  obtain ⟨json, decoded⟩ := exists_of_decodeIfPresent decoded
  exact Json.int?_fits decoded

structure PostItem.InRange (item : PostItem) : Prop where
  source_id : Fits item.source_id
  likes : ∀ likes, item.likes = some likes → Fits likes.count

/-- What holds of the value however the fields before it were read. -/
theorem forall_some_of_bind {α β : Type} {x : Option α} {f : α → Option β} {P : β → Prop}
    (each : ∀ a, x = some a → ∀ b, f a = some b → P b) : ∀ b, x.bind f = some b → P b := by
  intro b eq
  obtain ⟨a, read, rest⟩ := Option.bind_eq_some_iff.mp eq
  exact each a read b rest

theorem likes_fits {json : Json} :
    ∀ likes : PostLikes, decoding json = some likes → Fits likes.count := by
  repeat
    apply forall_some_of_bind
    intro _ _
  intro likes eq
  cases eq
  apply fits_of_decodeIfPresent
  assumption

theorem item_reads {json : Json} : ∀ item : PostItem, decoding json = some item →
    ∃ values : KeyedContainer, values.decodeIfPresent Int "source_id" = some item.source_id ∧
      values.decodeIfPresent PostLikes "likes" = some item.likes := by
  apply forall_some_of_bind
  intro values _
  repeat
    apply forall_some_of_bind
    intro _ _
  intro item eq
  cases eq
  refine ⟨values, ?_, ?_⟩
  · assumption
  · assumption

theorem response_reads {json : Json} : ∀ response : PostResponse, decoding json = some response →
    ∃ values : KeyedContainer,
      values.decodeIfPresent (List PostItem) "items" = some response.items := by
  apply forall_some_of_bind
  intro values _
  repeat
    apply forall_some_of_bind
    intro _ _
  intro response eq
  cases eq
  refine ⟨values, ?_⟩
  assumption

theorem item_inRange {json : Json} {item : PostItem} (decoded : decoding json = some item) :
    item.InRange := by
  obtain ⟨values, source, likes⟩ := item_reads item decoded
  refine ⟨fits_of_decodeIfPresent source, ?_⟩
  intro l eq
  rw [eq] at likes
  obtain ⟨inner, read⟩ := exists_of_decodeIfPresent likes
  exact likes_fits l read

theorem items_inRange {json : Json} {data : PostData} (decoded : decoding json = some data)
    {items : List PostItem} (present : data.response.items = some items) :
    ∀ item ∈ items, item.InRange := by
  have response : ∃ inner, decoding inner = some data.response := by
    simp only [decoding, Option.bind_eq_bind, Option.pure_def] at decoded
    obtain ⟨values, _, decoded⟩ := Option.bind_eq_some_iff.mp decoded
    obtain ⟨response, decoded, eq⟩ := Option.bind_eq_some_iff.mp decoded
    obtain ⟨inner, _, read⟩ := Option.bind_eq_some_iff.mp decoded
    cases eq
    exact ⟨inner, read⟩
  obtain ⟨inner, response⟩ := response
  obtain ⟨values, read⟩ := response_reads _ response
  rw [present] at read
  obtain ⟨list, decoded⟩ := exists_of_decodeIfPresent read
  obtain ⟨elements, _, each⟩ := Option.bind_eq_some_iff.mp decoded
  intro item member
  obtain ⟨element, decoded⟩ := exists_of_mem_decodeEach each member
  exact item_inRange decoded

end SocialApp.Newsfeed
