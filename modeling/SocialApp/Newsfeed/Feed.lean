import SocialApp.Library.Machine
import SocialApp.Newsfeed.Post

/-!
# Building the newsfeed

`NewsFeedBiulder` keeps one `News` for each item of the responses it was given. `-1 * id` is
evaluated once for each group of the response; it traps for the smallest `Int`, as `source_id!`
and `items!` do for `nil`. The feed of a sequence of pages is their translation item by item.
-/

namespace SocialApp.Newsfeed
open Foundation Library Machine Realm

structure News where
  avatar : Option Data := none
  avatarURL : Option String := none
  author : Option String := none
  time : Option Int := none
  text : Option String := none
  photos : Option (List Data) := some []
  photosURL : Option (List String) := some []
  likeCount : Option Int := none
  commentCount : Option Int := none
  reviewCount : Option Int := none
  liked : Option Int := none
  deriving DecidableEq

structure NewsFeedBiulder where
  newsFeed : List News := []
  deriving DecidableEq

def filterEach {α : Type} (isIncluded : α → Option Bool) : List α → Option (List α)
  | [] => some []
  | element :: elements => do
      let included ← isIncluded element
      let rest ← filterEach isIncluded elements
      return if included then element :: rest else rest

/-- `parsedJSON.groups?.filter({ $0.id == (-1 * id) })` -/
def filteredGroups (parsedJSON : PostResponse) (id : Int) : Option (Option (List PostGroup)) :=
  match parsedJSON.groups with
  | none => some none
  | some groups => (filterEach (fun group => (checked (-1 * id)).map fun negated =>
      decide (group.id = some negated)) groups).map some

def matchPostAuthor (parsedJSON : PostResponse) (id : Int) (news : News) : Option News :=
  if id < 0 then do
    let author ← filteredGroups parsedJSON id
    let first := author.bind List.head?
    return { news with
      author := some ((first.bind PostGroup.name).getD "")
      avatarURL := first.bind PostGroup.photo_50 }
  else
    let author := parsedJSON.profiles.map (List.filter fun profile => profile.id = some id)
    let first := author.bind List.head?
    some { news with
      author := some ((first.bind PostProfile.first_name).getD "" ++ " " ++
        (first.bind PostProfile.last_name).getD "")
      avatarURL := first.bind PostProfile.photo_50 }

/-- `attachment.photo?.sizes.first?.url` -/
def attachedURL (attachment : PostAttachment) : Option String :=
  attachment.photo.bind fun photo => photo.sizes.head?.bind PhotoSizes.url

/-- The message in the loop unwraps the author. -/
def fillAttachedPhotosURL (attachments : Option (List PostAttachment)) (news : News) :
    Option News :=
  match attachments with
  | none => some news
  | some attachments => attachments.foldlM (fun news attachment => do
      let news := { news with
        photosURL := news.photosURL.map (· ++ [(attachedURL attachment).getD ""]) }
      let _ ← news.author
      return news) news

def buildNews (parsedJSON : PostResponse) (item : PostItem) : Option News := do
  let id ← item.source_id
  let news ← matchPostAuthor parsedJSON id {}
  let news := { news with
    time := item.date
    liked := item.likes.bind PostLikes.user_likes
    likeCount := item.likes.bind PostLikes.count
    reviewCount := item.views.bind PostViews.count
    commentCount := item.comments.bind PostComments.count
    text := item.text }
  fillAttachedPhotosURL item.attachments news

def appendNews (parsedJSON : PostResponse) (newsFeed : List News) (item : PostItem) :
    Option (List News) := do
  let news ← buildNews parsedJSON item
  return newsFeed ++ [news]

def buildNewsFeed (biulder : NewsFeedBiulder) (parsedJSON : PostResponse) :
    Option (NewsFeedBiulder × List News) := do
  let items ← parsedJSON.items
  let newsFeed ← items.foldlM (appendNews parsedJSON) biulder.newsFeed
  return (⟨newsFeed⟩, newsFeed)

def authorGroup (page : PostResponse) (id : Int) : Option PostGroup :=
  (page.groups.getD []).find? fun group => group.id = some (-id)

def authorProfile (page : PostResponse) (id : Int) : Option PostProfile :=
  (page.profiles.getD []).find? fun profile => profile.id = some id

def authorName (page : PostResponse) (id : Int) : String :=
  if id < 0 then ((authorGroup page id).bind PostGroup.name).getD ""
  else ((authorProfile page id).bind PostProfile.first_name).getD "" ++ " " ++
    ((authorProfile page id).bind PostProfile.last_name).getD ""

def authorAvatarURL (page : PostResponse) (id : Int) : Option String :=
  if id < 0 then (authorGroup page id).bind PostGroup.photo_50
  else (authorProfile page id).bind PostProfile.photo_50

def attachedURLs (item : PostItem) : List String :=
  (item.attachments.getD []).map fun attachment => (attachedURL attachment).getD ""

def translated (page : PostResponse) (id : Int) (item : PostItem) : News where
  avatarURL := authorAvatarURL page id
  author := some (authorName page id)
  time := item.date
  text := item.text
  photosURL := some (attachedURLs item)
  likeCount := item.likes.bind PostLikes.count
  commentCount := item.comments.bind PostComments.count
  reviewCount := item.views.bind PostViews.count
  liked := item.likes.bind PostLikes.user_likes

/-- No overflow in `-1 * id` while the groups are searched. -/
def Searchable (page : PostResponse) (id : Int) : Prop :=
  intMin < id ∨ page.groups.getD [] = []

instance (page : PostResponse) (id : Int) : Decidable (Searchable page id) :=
  inferInstanceAs (Decidable (_ ∨ _))

theorem filterEach_some {α : Type} (p : α → Bool) (elements : List α) :
    filterEach (fun element => some (p element)) elements = some (elements.filter p) := by
  induction elements with
  | nil => rfl
  | cons element elements ih =>
      cases included : p element <;> simp [filterEach, included, ih]

theorem filterEach_none {α : Type} (elements : List α) :
    filterEach (fun _ => none) elements = if elements = [] then some [] else none := by
  cases elements <;> rfl

theorem checked_negation {id : Int} (negative : id < 0) :
    checked (-1 * id) = if intMin < id then some (-id) else none := by
  have bounds : (intMin ≤ -1 * id ∧ -1 * id ≤ intMax) ↔ intMin < id := by
    simp only [intMin, intMax]
    omega
  have product : -1 * id = -id := by omega
  simp only [checked, bounds]
  rw [product]

theorem filteredGroups_eq (page : PostResponse) {id : Int} (negative : id < 0) :
    filteredGroups page id = if Searchable page id then
      some (page.groups.map (List.filter fun group => group.id = some (-id))) else none := by
  cases present : page.groups with
  | none => simp [filteredGroups, Searchable, present]
  | some groups =>
      simp only [filteredGroups, Searchable, present, checked_negation negative]
      by_cases smallest : intMin < id
      · simp [smallest, filterEach_some]
      · by_cases empty : groups = [] <;> simp [smallest, filterEach_none, empty]

theorem matchPostAuthor_eq (page : PostResponse) (id : Int) (news : News)
    (searchable : id < 0 → Searchable page id) :
    matchPostAuthor page id news = some { news with
      author := some (authorName page id), avatarURL := authorAvatarURL page id } := by
  by_cases negative : id < 0
  · simp only [matchPostAuthor, negative, if_true, filteredGroups_eq page negative,
      searchable negative, authorName, authorAvatarURL, authorGroup]
    cases page.groups <;> simp [List.head?_filter]
  · simp only [matchPostAuthor, negative, if_false, authorName, authorAvatarURL, authorProfile]
    cases page.profiles <;> simp [List.head?_filter]

theorem matchPostAuthor_none {page : PostResponse} {id : Int} (news : News) (negative : id < 0)
    (unsearchable : ¬ Searchable page id) : matchPostAuthor page id news = none := by
  simp [matchPostAuthor, negative, filteredGroups_eq page negative, unsearchable]

theorem fillAttachedPhotosURL_eq (attachments : Option (List PostAttachment)) {news : News}
    {author : String} (named : news.author = some author) :
    fillAttachedPhotosURL attachments news = some { news with
      photosURL := news.photosURL.map (· ++ (attachments.getD []).map fun attachment =>
        (attachedURL attachment).getD "") } := by
  cases attachments with
  | none => simp [fillAttachedPhotosURL]
  | some attachments =>
      simp only [fillAttachedPhotosURL, Option.getD_some]
      induction attachments generalizing news with
      | nil => simp
      | cons attachment attachments ih =>
          simp only [List.foldlM_cons, named, Option.bind_eq_bind, Option.bind_some,
            Option.pure_def]
          refine (ih ?_).trans ?_
          · rfl
          · cases news.photosURL <;> simp

def PostItem.Sourced (page : PostResponse) (item : PostItem) : Prop :=
  ∃ id, item.source_id = some id ∧ (id < 0 → Searchable page id)

theorem buildNews_eq {page : PostResponse} {item : PostItem} {id : Int}
    (source : item.source_id = some id) (searchable : id < 0 → Searchable page id) :
    buildNews page item = some (translated page id item) := by
  simp only [buildNews, source, matchPostAuthor_eq page id _ searchable, Option.bind_eq_bind,
    Option.bind_some]
  rw [fillAttachedPhotosURL_eq _ rfl]
  simp [translated, attachedURLs]

theorem buildNews_isSome_iff {page : PostResponse} {item : PostItem} :
    (buildNews page item).isSome ↔ item.Sourced page := by
  unfold PostItem.Sourced
  cases source : item.source_id with
  | none => simp [buildNews, source]
  | some id =>
      by_cases searchable : id < 0 → Searchable page id
      · simpa [buildNews_eq source searchable] using searchable
      · obtain ⟨negative, unsearchable⟩ := Classical.not_imp.mp searchable
        simp [buildNews, source, matchPostAuthor_none _ negative unsearchable, negative,
          unsearchable]

def translatedItem (page : PostResponse) (item : PostItem) : News :=
  translated page (item.source_id.getD 0) item

theorem buildNews_sourced {page : PostResponse} {item : PostItem} (sourced : item.Sourced page) :
    buildNews page item = some (translatedItem page item) := by
  obtain ⟨id, source, searchable⟩ := sourced
  rw [buildNews_eq source searchable, translatedItem, source, Option.getD_some]

theorem foldlM_appendNews {page : PostResponse} {items : List PostItem} (newsFeed : List News)
    (sourced : ∀ item ∈ items, item.Sourced page) :
    items.foldlM (appendNews page) newsFeed =
      some (newsFeed ++ items.map (translatedItem page)) := by
  induction items generalizing newsFeed with
  | nil => simp
  | cons item items ih =>
      have first := buildNews_sourced (sourced item List.mem_cons_self)
      have rest := ih (newsFeed ++ [translatedItem page item])
        fun i member => sourced i (List.mem_cons_of_mem _ member)
      simpa [appendNews, first] using rest

theorem appendNews_isSome_iff {page : PostResponse} (newsFeed : List News) (item : PostItem) :
    (appendNews page newsFeed item).isSome ↔ item.Sourced page := by
  rw [← buildNews_isSome_iff]
  cases built : buildNews page item <;> simp [appendNews, built]

theorem sourced_of_foldlM {page : PostResponse} {items : List PostItem} {newsFeed final : List News}
    (built : items.foldlM (appendNews page) newsFeed = some final) :
    ∀ item ∈ items, item.Sourced page := by
  rw [← run_eq_foldlM] at built
  exact (run_isSome_iff appendNews_isSome_iff).mp (Option.isSome_of_eq_some built)

theorem buildNewsFeed_some_iff {biulder next : NewsFeedBiulder} {page : PostResponse}
    {newsFeed : List News} :
    buildNewsFeed biulder page = some (next, newsFeed) ↔
      ∃ items, page.items = some items ∧ (∀ item ∈ items, item.Sourced page) ∧
        newsFeed = biulder.newsFeed ++ items.map (translatedItem page) ∧ next = ⟨newsFeed⟩ := by
  unfold buildNewsFeed
  cases page.items with
  | none => simp
  | some items =>
      simp only [Option.bind_eq_bind, Option.bind_some, Option.bind_eq_some_iff, Option.pure_def,
        Option.some.injEq, Prod.mk.injEq, exists_eq_left']
      constructor
      · intro built
        obtain ⟨final, built, rfl, rfl⟩ := built
        have sourced := sourced_of_foldlM built
        rw [foldlM_appendNews _ sourced, Option.some_inj] at built
        exact ⟨sourced, built.symm, rfl⟩
      · intro translation
        obtain ⟨sourced, rfl, rfl⟩ := translation
        exact ⟨_, foldlM_appendNews _ sourced, rfl, rfl⟩

structure Page where
  response : PostResponse
  items : List PostItem
  nonNil : response.items = some items
  sourced : ∀ item ∈ items, ∃ id, item.source_id = some id ∧ intMin < id

def Page.news (page : Page) : List News := page.items.map (translatedItem page.response)

def returned : NewsFeedBiulder → List PostResponse → Option (List (List News))
  | _, [] => some []
  | biulder, response :: responses => do
      let (biulder, newsFeed) ← buildNewsFeed biulder response
      let later ← returned biulder responses
      return newsFeed :: later

theorem buildNewsFeed_page (biulder : NewsFeedBiulder) (page : Page) :
    buildNewsFeed biulder page.response =
      some (⟨biulder.newsFeed ++ page.news⟩, biulder.newsFeed ++ page.news) := by
  rw [buildNewsFeed_some_iff]
  refine ⟨page.items, page.nonNil, ?_, rfl, rfl⟩
  intro item member
  obtain ⟨id, source, bounded⟩ := page.sourced item member
  exact ⟨id, source, fun _ => Or.inl bounded⟩

theorem returned_eq (biulder : NewsFeedBiulder) (pages : List Page) :
    returned biulder (pages.map Page.response) = some ((List.range pages.length).map fun n =>
      biulder.newsFeed ++ (pages.take (n + 1)).flatMap Page.news) := by
  induction pages generalizing biulder with
  | nil => rfl
  | cons page pages ih =>
      simp only [List.map_cons, returned, buildNewsFeed_page, ih, Option.bind_eq_bind,
        Option.bind_some, Option.pure_def, List.length_cons, List.range_succ_eq_map, List.map_map]
      simp [Function.comp_def]

theorem feed_translates_pages (pages : List Page) :
    returned {} (pages.map Page.response) = some ((List.range pages.length).map fun n =>
      (pages.take (n + 1)).flatMap Page.news) := by
  rw [returned_eq]
  simp

def clubPage : Page where
  response := {
    items := some [{ source_id := some (-5) }]
    groups := some [{ id := some 5, name := some "Club", photo_50 := some "https://vk.com/5.jpg" }] }
  items := [{ source_id := some (-5) }]
  nonNil := rfl
  sourced item member := ⟨-5, (List.mem_singleton.mp member) ▸ rfl, by decide⟩

def friendPage : Page where
  response := {
    items := some [{ source_id := some 7 }]
    profiles := some [{ id := some 7, first_name := some "Ann", last_name := some "Lee" }] }
  items := [{ source_id := some 7 }]
  nonNil := rfl
  sourced item member := ⟨7, (List.mem_singleton.mp member) ▸ rfl, by decide⟩

theorem club_and_friend_translated :
    returned {} ([clubPage, friendPage].map Page.response) = some
      [[{ author := some "Club", avatarURL := some "https://vk.com/5.jpg" }],
        [{ author := some "Club", avatarURL := some "https://vk.com/5.jpg" },
          { author := some "Ann Lee" }]] :=
  feed_translates_pages [clubPage, friendPage]

end SocialApp.Newsfeed
