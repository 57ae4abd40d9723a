import SocialApp.Foundation.Schema
import SocialApp.Newsfeed.Likes
import SocialApp.Realm.Decoding

/-!
# The answers that the newsfeed and the galleries accept

Every property of a post is optional, but one that is there with another type rejects the body with
all its posts. A size of a photo takes anything, and the other keys of a photo are required. What
`JSONDecoder` reads of a text before it decodes is the parameter `parse`.
-/

namespace SocialApp.Newsfeed
open Foundation Realm

instance : Schematic PhotoSizes := ⟨.anything, fun _ => by simp only [Schema.accepts]; rfl⟩

instance : Schematic Photo where
  schema := .object
    (.required "date" (schema Int)
    (.required "id" (schema Int)
    (.required "owner_id" (schema Int)
    (.required "text" (schema String)
    (.required "sizes" (schema (List PhotoSizes)) .nil)))))
  accepts := object_isSome fun _ => by
    iterate 5
      apply required_isSome
      intro _
    exact nil_isSome _

instance {ρ : Type} [Decodable ρ] [Schematic ρ] : Schematic (Response ρ) where
  schema := .object
    (.required "count" (schema Int)
    (.required "items" (schema (List ρ)) .nil))
  accepts := object_isSome fun _ => by
    iterate 2
      apply required_isSome
      intro _
    exact nil_isSome _

instance {ρ : Type} [Decodable ρ] [Schematic ρ] : Schematic (ResponseData ρ) where
  schema := .object (.required "response" (schema (Response ρ)) .nil)
  accepts := object_isSome fun _ => by
    apply required_isSome
    intro _
    exact nil_isSome _

instance : Schematic PostAttachment where
  schema := .object
    (.optional "type" (schema String)
    (.optional "photo" (schema Photo) .nil))
  accepts := object_isSome fun _ => by
    iterate 2
      apply optional_isSome
      intro _
    exact nil_isSome _

instance : Schematic PostComments where
  schema := .object
    (.optional "count" (schema Int)
    (.optional "can_post" (schema Int)
    (.optional "groups_can_post" (schema Bool) .nil)))
  accepts := object_isSome fun _ => by
    iterate 3
      apply optional_isSome
      intro _
    exact nil_isSome _

instance : Schematic PostDonut where
  schema := .object
    (.optional "is_donut" (schema Bool) .nil)
  accepts := object_isSome fun _ => by
    iterate 1
      apply optional_isSome
      intro _
    exact nil_isSome _

instance : Schematic PostLikes where
  schema := .object
    (.optional "count" (schema Int)
    (.optional "user_likes" (schema Int)
    (.optional "can_like" (schema Int)
    (.optional "can_publish" (schema Int) .nil))))
  accepts := object_isSome fun _ => by
    iterate 4
      apply optional_isSome
      intro _
    exact nil_isSome _

instance : Schematic PostSource where
  schema := .object
    (.optional "type" (schema String) .nil)
  accepts := object_isSome fun _ => by
    iterate 1
      apply optional_isSome
      intro _
    exact nil_isSome _

instance : Schematic PostReposts where
  schema := .object
    (.optional "count" (schema Int)
    (.optional "user_reposted" (schema Int) .nil))
  accepts := object_isSome fun _ => by
    iterate 2
      apply optional_isSome
      intro _
    exact nil_isSome _

instance : Schematic PostViews where
  schema := .object
    (.optional "count" (schema Int) .nil)
  accepts := object_isSome fun _ => by
    iterate 1
      apply optional_isSome
      intro _
    exact nil_isSome _

instance : Schematic PostItem where
  schema := .object
    (.optional "attachments" (schema (List PostAttachment))
    (.optional "can_doubt_category" (schema Bool)
    (.optional "can_set_category" (schema Bool)
    (.optional "carousel_offset" (schema Int)
    (.optional "comments" (schema PostComments)
    (.optional "date" (schema Int)
    (.optional "donut" (schema PostDonut)
    (.optional "is_favorite" (schema Bool)
    (.optional "likes" (schema PostLikes)
    (.optional "marked_as_ads" (schema Int)
    (.optional "post_id" (schema Int)
    (.optional "post_source" (schema PostSource)
    (.optional "post_type" (schema String)
    (.optional "reposts" (schema PostReposts)
    (.optional "short_text_rate" (schema Rat)
    (.optional "signer_id" (schema Int)
    (.optional "source_id" (schema Int)
    (.optional "text" (schema String)
    (.optional "topic_id" (schema Int)
    (.optional "type" (schema String)
    (.optional "views" (schema PostViews) .nil)))))))))))))))))))))
  accepts := object_isSome fun _ => by
    iterate 21
      apply optional_isSome
      intro _
    exact nil_isSome _

instance : Schematic PostProfile where
  schema := .object
    (.optional "id" (schema Int)
    (.optional "first_name" (schema String)
    (.optional "last_name" (schema String)
    (.optional "photo_50" (schema String) .nil))))
  accepts := object_isSome fun _ => by
    iterate 4
      apply optional_isSome
      intro _
    exact nil_isSome _

instance : Schematic PostGroup where
  schema := .object
    (.optional "id" (schema Int)
    (.optional "name" (schema String)
    (.optional "screen_name" (schema String)
    (.optional "photo_50" (schema String) .nil))))
  accepts := object_isSome fun _ => by
    iterate 4
      apply optional_isSome
      intro _
    exact nil_isSome _

instance : Schematic PostResponse where
  schema := .object
    (.optional "items" (schema (List PostItem))
    (.optional "profiles" (schema (List PostProfile))
    (.optional "groups" (schema (List PostGroup))
    (.optional "next_form" (schema String) .nil))))
  accepts := object_isSome fun _ => by
    iterate 4
      apply optional_isSome
      intro _
    exact nil_isSome _

instance : Schematic PostData where
  schema := .object (.required "response" (schema PostResponse) .nil)
  accepts := object_isSome fun _ => by
    apply required_isSome
    intro _
    exact nil_isSome _

section Requests
variable (parse : Data → Option Json)

def newsfeedGet (value : Option Data) : Option PostResponse :=
  match value with
  | none => none
  | some data =>
      match (parse data).bind (decoding : Json → Option PostData) with
      | none => none
      | some posts => some posts.response

def photosGetForProfile (value : Option Data) : Option (List Photo) :=
  match value with
  | none => none
  | some data =>
      match (parse data).bind (decoding : Json → Option (ResponseData Photo)) with
      | none => none
      | some photos => some photos.response.items

def Accepted (grammar : Schema) (value : Option Data) : Prop :=
  ∃ body, value.bind parse = some body ∧ grammar.accepts body

theorem newsfeedGet_isSome_iff (value : Option Data) :
    (newsfeedGet parse value).isSome ↔ Accepted parse (schema PostData) value := by
  unfold newsfeedGet Accepted
  cases value with
  | none => simp
  | some data =>
      cases parsed : parse data with
      | none => simp [parsed]
      | some body =>
          simp only [parsed, Option.bind_some, Option.some.injEq, exists_eq_left',
            ← Schematic.accepts]
          cases (decoding body : Option PostData) <;> simp

theorem photosGetForProfile_isSome_iff (value : Option Data) :
    (photosGetForProfile parse value).isSome ↔
      Accepted parse (schema (ResponseData Photo)) value := by
  unfold photosGetForProfile Accepted
  cases value with
  | none => simp
  | some data =>
      cases parsed : parse data with
      | none => simp [parsed]
      | some body =>
          simp only [parsed, Option.bind_some, Option.some.injEq, exists_eq_left',
            ← Schematic.accepts]
          cases (decoding body : Option (ResponseData Photo)) <;> simp

/-- What becomes of the screen: nothing at all, a trap, or one news more for each item. -/
def ShowsAll (screen : NewsTableViewController) (response : PostResponse)
    (result : Option NewsTableViewController) : Prop :=
  match response.items with
  | none => result = some screen
  | some items =>
      ((∀ item ∈ items, item.Sourced response) → ∃ next, result = some next ∧
        next.newsFeed = screen.newsFeed ++ items.map (translatedItem response)) ∧
      ((∃ item ∈ items, ¬ item.Sourced response) → result = none)

theorem biuldNewsFeed_shows (screen : NewsTableViewController) {response : PostResponse}
    {items : List PostItem} (present : response.items = some items) :
    ShowsAll screen response (biuldNewsFeed response screen) := by
  rw [ShowsAll, present]
  constructor
  · intro sourced
    have built : buildNewsFeed ⟨screen.newsFeed⟩ response =
        some (⟨screen.newsFeed ++ items.map (translatedItem response)⟩,
          screen.newsFeed ++ items.map (translatedItem response)) :=
      buildNewsFeed_some_iff.mpr ⟨items, present, sourced, rfl, rfl⟩
    exact ⟨_, by rw [biuldNewsFeed, built]; rfl, rfl⟩
  · intro unsourced
    obtain ⟨item, member, unsourced⟩ := unsourced
    cases built : buildNewsFeed ⟨screen.newsFeed⟩ response with
    | none => simp [biuldNewsFeed, built]
    | some result =>
        obtain ⟨items', present', sourced, _⟩ := buildNewsFeed_some_iff.mp built
        rw [present, Option.some.injEq] at present'
        exact absurd (sourced item (present' ▸ member)) unsourced

theorem answers_all_or_nothing (value : Option Data) (screen : NewsTableViewController) :
    (Accepted parse (schema PostData) value →
      ∃ response, newsfeedGet parse value = some response ∧
        ShowsAll screen response (downloadNews (newsfeedGet parse value) screen)) ∧
    (¬ Accepted parse (schema PostData) value →
      downloadNews (newsfeedGet parse value) screen = some screen) ∧
    ((photosGetForProfile parse value).isSome ↔
      Accepted parse (schema (ResponseData Photo)) value) := by
  refine ⟨?_, ?_, photosGetForProfile_isSome_iff parse value⟩
  · intro accepted
    obtain ⟨response, got⟩ := Option.isSome_iff_exists.mp
      ((newsfeedGet_isSome_iff parse value).mpr accepted)
    refine ⟨response, got, ?_⟩
    cases present : response.items with
    | none => simp [ShowsAll, present, downloadNews, got]
    | some items =>
        have shows := biuldNewsFeed_shows screen present
        simpa only [downloadNews, got, present] using shows
  · intro rejected
    have failed : newsfeedGet parse value = none := by
      rwa [← newsfeedGet_isSome_iff, Option.not_isSome_iff_eq_none] at rejected
    rw [failed]
    rfl

end Requests

end SocialApp.Newsfeed
