import SocialApp.Newsfeed.Screen

/-!
# The pictures of the newsfeed

Which URLs a post keeps for its media row, and how often a download pass appends their pictures.
`fillAttachedPhotosURL` keeps an empty text for an attachment without a picture, and every pass
appends to all posts of the feed, so that a post has its pictures once for each pass that ran
after its page was built.
-/

namespace SocialApp.Newsfeed
open Foundation Library Machine Realm

def pictureURLs (item : PostItem) : List String :=
  (item.attachments.getD []).filterMap attachedURL

structure Sized (item : PostItem) (news : News) : Prop where
  urls : news.photosURL = some (pictureURLs item)
  heights : ∀ newsFeed : List News, ∀ indexSection, newsFeed[indexSection]? = some news →
    (heightForRowAt newsFeed indexSection 2 = some .zero ↔ pictureURLs item = []) ∧
    (heightForRowAt newsFeed indexSection 2 = some .width ↔ (pictureURLs item).length = 1) ∧
    (heightForRowAt newsFeed indexSection 2 = some .halfWidth ↔ 1 < (pictureURLs item).length)

theorem map_getD_eq_filterMap_iff {α β : Type} (f : α → Option β) (d : β) {xs : List α} :
    xs.map (fun x => (f x).getD d) = xs.filterMap f ↔ ∀ x ∈ xs, (f x).isSome := by
  constructor
  · intro same
    have length := congrArg List.length same
    rw [List.length_map, List.length_filterMap_eq_countP] at length
    exact List.countP_eq_length.mp length.symm
  · intro all
    induction xs with
    | nil => rfl
    | cons x xs ih =>
        obtain ⟨y, here⟩ := Option.isSome_iff_exists.mp (all x List.mem_cons_self)
        rw [List.map_cons, List.filterMap_cons_some here, here,
          ih fun z member => all z (List.mem_cons_of_mem _ member), Option.getD_some]

theorem heightForRowAt_media {newsFeed : List News} {indexSection : Nat} {news : News}
    {urls : List String} (here : newsFeed[indexSection]? = some news)
    (urls_eq : news.photosURL = some urls) :
    heightForRowAt newsFeed indexSection 2 = some
      (if 0 = urls.length then .zero else if 1 = urls.length then .width else .halfWidth) := by
  simp [heightForRowAt, here, urls_eq]

theorem media_rows_sized_iff (author : String) (item : PostItem) :
    ∃ news, fillAttachedPhotosURL item.attachments { author := some author } = some news ∧
      (Sized item news ↔
        ∀ attachment ∈ item.attachments.getD [], (attachedURL attachment).isSome) := by
  refine ⟨_, fillAttachedPhotosURL_eq item.attachments rfl, ?_⟩
  rw [← map_getD_eq_filterMap_iff attachedURL ""]
  constructor
  · intro sized
    simpa [pictureURLs] using sized.urls
  · intro same
    have urls : some ([] ++ (item.attachments.getD []).map fun attachment =>
        (attachedURL attachment).getD "") = some (pictureURLs item) := by
      rw [same, List.nil_append, pictureURLs]
    refine ⟨urls, ?_⟩
    intro newsFeed indexSection here
    rw [heightForRowAt_media here urls]
    rcases pictureURLs item with _ | ⟨first, _ | ⟨second, rest⟩⟩ <;> simp

def photoAndLink : PostItem where
  attachments := some [
    { type := some "photo", photo := some { sizes := [{ url := some "https://a" }] } },
    { type := some "link" }]

theorem link_missizes_media_row :
    ¬ ∃ news, fillAttachedPhotosURL photoAndLink.attachments { author := some "" } = some news ∧
      Sized photoAndLink news := by
  intro filled
  obtain ⟨news, filled, sized⟩ := filled
  have kept : fillAttachedPhotosURL photoAndLink.attachments { author := some "" } =
      some { author := some "", photosURL := some ["https://a", ""] } := by decide
  rw [kept, Option.some_inj] at filled
  have urls := sized.urls
  rw [← filled] at urls
  revert urls
  decide

variable (web : Web)

def fetchedPhotos (news : News) : List Data := (news.photosURL.getD []).filterMap web.download

def withPhotos (news : News) : News :=
  { news with photos := news.photos.map (· ++ fetchedPhotos web news) }

theorem foldl_appendPhoto (news : News) (urls : List String) :
    urls.foldl (appendPhoto web) news =
      { news with photos := news.photos.map (· ++ urls.filterMap web.download) } := by
  induction urls generalizing news with
  | nil => simp
  | cons url urls ih =>
      rw [List.foldl_cons, ih, appendPhoto]
      cases got : web.download url <;> simp [got, Function.comp_def]

theorem downloadPhotosOf_some {news next : News} (ran : downloadPhotosOf web news = some next) :
    next = withPhotos web news := by
  simp only [downloadPhotosOf, foldl_appendPhoto, Option.bind_eq_bind, Option.bind_eq_some_iff,
    Option.pure_def, Option.some.injEq] at ran
  obtain ⟨_, _, rfl⟩ := ran
  rfl

theorem downloadPhotos_some {newsFeed final : List News}
    (ran : downloadPhotos web newsFeed = some final) : final = newsFeed.map (withPhotos web) := by
  induction newsFeed generalizing final with
  | nil => simpa [downloadPhotos] using ran.symm
  | cons news newsFeed ih =>
      simp only [downloadPhotos, Option.bind_eq_bind, Option.bind_eq_some_iff, Option.pure_def,
        Option.some.injEq] at ran
      obtain ⟨next, first, rest, later, rfl⟩ := ran
      rw [downloadPhotosOf_some web first, ih later, List.map_cons]

theorem step_newsFeed {screen next : NewsTableViewController} {event : Event} :
    step web screen event = some next →
      match event with
      | .biuldNewsFeed response => ∃ items, response.items = some items ∧
          next.newsFeed = screen.newsFeed ++ items.map (translatedItem response)
      | .avatarsPass => next.newsFeed = screen.newsFeed.map (downloadAvatar web)
      | .photosPass => next.newsFeed = screen.newsFeed.map (withPhotos web)
      | .likeButtonPressed tag => likeButtonPressed tag screen.newsFeed = some next.newsFeed := by
  intro action
  obtain ⟨feed, avatarPasses, photosPasses⟩ := screen
  cases event with
  | biuldNewsFeed response =>
      obtain ⟨⟨biulder, newsFeed⟩, built, eq⟩ := Option.bind_eq_some_iff.mp action
      cases eq
      obtain ⟨items, present, _, rfl, _⟩ := buildNewsFeed_some_iff.mp built
      exact ⟨items, present, rfl⟩
  | avatarsPass =>
      cases avatarPasses with
      | zero => cases action
      | succ avatarPasses => cases action; rfl
  | photosPass =>
      cases photosPasses with
      | zero => cases action
      | succ photosPasses =>
          obtain ⟨newsFeed, walked, eq⟩ := Option.bind_eq_some_iff.mp action
          cases eq
          exact downloadPhotos_some web walked
  | likeButtonPressed tag =>
      obtain ⟨newsFeed, pressed, eq⟩ := Option.bind_eq_some_iff.mp action
      cases eq
      exact pressed

structure FinishedRun where
  events : List Event
  final : NewsTableViewController
  ran : run (step web) {} events = some final
  finished : final.photosPasses = 0

def PhotosOnce (news : News) : Prop := news.photos = some (fetchedPhotos web news)

instance (news : News) : Decidable (PhotosOnce web news) := inferInstanceAs (Decidable (_ = _))

def Event.isPhotosPass : Event → Bool
  | photosPass => true
  | _ => false

/-- An item of the page has a picture whose download succeeds. -/
def HasPicture (response : PostResponse) : Prop :=
  ∃ item ∈ response.items.getD [], (attachedURLs item).filterMap web.download ≠ []

/-- The photos that `n` more passes leave are the fetched ones, each once. -/
def OnceAfter (n : Nat) (news : News) : Prop :=
  news.photos.map (· ++ (List.replicate n (fetchedPhotos web news)).flatten) =
    some (fetchedPhotos web news)

def NewPagesOnce (events : List Event) : Prop :=
  ∀ before response after, events = before ++ .biuldNewsFeed response :: after →
    HasPicture web response → after.countP Event.isPhotosPass = 1

theorem replicate_flatten_eq_self_iff {α : Type} {n : Nat} {xs : List α} :
    (List.replicate n xs).flatten = xs ↔ xs = [] ∨ n = 1 := by
  constructor
  · intro same
    have length : n * xs.length = xs.length := by simpa using congrArg List.length same
    cases xs with
    | nil => exact Or.inl rfl
    | cons x xs =>
        exact Or.inr (Nat.eq_of_mul_eq_mul_right (Nat.succ_pos xs.length) (by simpa using length))
  · intro once
    cases once with
    | inl empty =>
        subst empty
        simp
    | inr one =>
        subst one
        simp

theorem onceAfter_translated {n : Nat} {response : PostResponse} {item : PostItem} :
    OnceAfter web n (translatedItem response item) ↔
      (attachedURLs item).filterMap web.download = [] ∨ n = 1 := by
  rw [← replicate_flatten_eq_self_iff]
  simp [OnceAfter, translatedItem, translated, fetchedPhotos]

theorem page_onceAfter_iff {n : Nat} {response : PostResponse} {items : List PostItem}
    (present : response.items = some items) :
    (∀ item ∈ items, OnceAfter web n (translatedItem response item)) ↔
      (HasPicture web response → n = 1) := by
  simp only [onceAfter_translated]
  constructor
  · intro once picture
    obtain ⟨item, member, fetched⟩ := picture
    rw [present, Option.getD_some] at member
    exact (once item member).resolve_left fetched
  · intro once item member
    by_cases fetched : (attachedURLs item).filterMap web.download = []
    · exact Or.inl fetched
    · exact Or.inr (once ⟨item, by rwa [present, Option.getD_some], fetched⟩)

theorem onceAfter_withPhotos {n : Nat} {news : News} :
    OnceAfter web n (withPhotos web news) ↔ OnceAfter web (n + 1) news := by
  simp only [OnceAfter, withPhotos, fetchedPhotos, Option.map_map, Function.comp_def,
    List.replicate_succ, List.flatten_cons, List.append_assoc]

/-- What avatars and likes leave alone. -/
def media (news : News) : Option (List String) × Option (List Data) := (news.photosURL, news.photos)

theorem forall_onceAfter_congr {newsFeed other : List News}
    (same : newsFeed.map media = other.map media) (n : Nat) :
    (∀ news ∈ newsFeed, OnceAfter web n news) ↔ ∀ news ∈ other, OnceAfter web n news := by
  have through : ∀ feed : List News, (∀ news ∈ feed, OnceAfter web n news) ↔
      ∀ m ∈ feed.map media, OnceAfter web n { photosURL := m.1, photos := m.2 } := by
    intro feed
    rw [List.forall_mem_map]
    rfl
  rw [through newsFeed, through other, same]

theorem map_set_media {newsFeed : List News} {tag : Nat} {news changed : News}
    (here : newsFeed[tag]? = some news) (same : media changed = media news) :
    (newsFeed.set tag changed).map media = newsFeed.map media := by
  obtain ⟨bound, rfl⟩ := List.getElem?_eq_some_iff.mp here
  rw [List.map_set, same]
  apply List.ext_getElem?
  intro i
  rw [List.getElem?_set]
  split
  · rename_i eq
    subst eq
    simp [bound]
  · rfl

theorem likeButtonPressed_media {tag : Nat} {newsFeed next : List News}
    (pressed : likeButtonPressed tag newsFeed = some next) :
    next.map media = newsFeed.map media := by
  obtain ⟨news, likeCount, liked, here, rfl⟩ := likeButtonPressed_some pressed
  exact map_set_media here rfl

theorem downloadAvatar_media (news : News) : media (downloadAvatar web news) = media news := by
  unfold downloadAvatar
  split <;> rfl

theorem newPagesOnce_cons {event : Event} {events : List Event} :
    NewPagesOnce web (event :: events) ↔
      (∀ response, event = .biuldNewsFeed response → HasPicture web response →
        events.countP Event.isPhotosPass = 1) ∧ NewPagesOnce web events := by
  constructor
  · intro all
    refine ⟨fun response eq => all [] response events (by rw [eq, List.nil_append]), ?_⟩
    intro before response after split
    exact all (event :: before) response after (by rw [split, List.cons_append])
  · intro both before response after split
    cases before with
    | nil =>
        simp only [List.nil_append, List.cons.injEq] at split
        exact split.2 ▸ both.1 response split.1
    | cons first before =>
        simp only [List.cons_append, List.cons.injEq] at split
        exact both.2 before response after split.2

theorem step_onceAfter_iff {screen next : NewsTableViewController} {event : Event}
    (action : step web screen event = some next) (n : Nat) :
    (∀ news ∈ next.newsFeed, OnceAfter web n news) ↔
      (∀ news ∈ screen.newsFeed,
        OnceAfter web (n + if event.isPhotosPass then 1 else 0) news) ∧
      ∀ response, event = .biuldNewsFeed response → HasPicture web response → n = 1 := by
  have changed := step_newsFeed web action
  cases event with
  | biuldNewsFeed response =>
      obtain ⟨items, present, feed⟩ := changed
      rw [feed, List.forall_mem_append, List.forall_mem_map, page_onceAfter_iff web present]
      simp [Event.isPhotosPass]
  | avatarsPass =>
      have same : next.newsFeed.map media = screen.newsFeed.map media := by
        rw [changed, List.map_map]
        exact List.map_congr_left fun news _ => downloadAvatar_media web news
      simpa [Event.isPhotosPass] using forall_onceAfter_congr web same n
  | photosPass =>
      rw [changed]
      simp [onceAfter_withPhotos, Event.isPhotosPass]
  | likeButtonPressed tag =>
      simpa [Event.isPhotosPass] using
        forall_onceAfter_congr web (likeButtonPressed_media changed) n

theorem run_photosOnce_iff {screen final : NewsTableViewController} {events : List Event}
    (ran : run (step web) screen events = some final) :
    (∀ news ∈ final.newsFeed, PhotosOnce web news) ↔
      (∀ news ∈ screen.newsFeed, OnceAfter web (events.countP Event.isPhotosPass) news) ∧
        NewPagesOnce web events := by
  induction events generalizing screen with
  | nil =>
      simp only [run_nil, Option.some.injEq] at ran
      subst ran
      simp [OnceAfter, PhotosOnce, NewPagesOnce]
  | cons event events ih =>
      obtain ⟨next, action, rest⟩ := Option.bind_eq_some_iff.mp ran
      rw [ih rest, newPagesOnce_cons, ← and_assoc, step_onceAfter_iff web action, List.countP_cons]

theorem photos_once_iff (finishedRun : FinishedRun web) :
    (∀ news ∈ finishedRun.final.newsFeed, PhotosOnce web news) ↔
      NewPagesOnce web finishedRun.events := by
  rw [run_photosOnce_iff web finishedRun.ran]
  simp

def everyPicture : Web := ⟨fun _ => true, fun _ => some [255]⟩

def onePicture : PostResponse where
  items := some [{
    source_id := some 1
    attachments := some [{ photo := some { sizes := [{ url := some "https://a" }] } }] }]

def twoPages : FinishedRun everyPicture where
  events := [.biuldNewsFeed onePicture, .avatarsPass, .photosPass,
    .biuldNewsFeed onePicture, .avatarsPass, .photosPass]
  final := {
    newsFeed := [
      { author := some " ", photosURL := some ["https://a"], photos := some [[255], [255]] },
      { author := some " ", photosURL := some ["https://a"], photos := some [[255]] }] }
  ran := by decide
  finished := rfl

theorem second_page_duplicates_photos :
    ¬ ∀ news ∈ twoPages.final.newsFeed, PhotosOnce everyPicture news := by
  decide

end SocialApp.Newsfeed
