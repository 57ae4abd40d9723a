import SocialApp.Newsfeed.Passes

/-!
# The newsfeed read off its history

Pages are appended, so that a section keeps its post. A post depends on the item it was built from
and on what came since: whether a pass over the avatars, how many over the photos, and how many
taps on its section.
-/

namespace SocialApp.Newsfeed
open Foundation Library Machine

/-! ## Specification -/

namespace Event

def isPage : Event → Bool
  | biuldNewsFeed _ => true
  | _ => false

def isAvatarsPass : Event → Bool
  | avatarsPass => true
  | _ => false

def isTapOn (indexSection : Nat) : Event → Bool
  | likeButtonPressed tag => tag == indexSection
  | _ => false

end Event

/-- A post with the page it is from and the events since. -/
structure Entry where
  page : PostResponse
  item : PostItem
  since : List Event

def Event.entries (since : List Event) : Event → List Entry
  | biuldNewsFeed page => (page.items.getD []).map (⟨page, ·, since⟩)
  | _ => []

def entries : List Event → List Entry
  | [] => []
  | event :: events => event.entries events ++ entries events

/-- The counter of a post after some taps: each second tap takes the one before back. -/
def likeCountAfter (built : News) (taps : Nat) : Option Int :=
  built.likeCount.map fun count =>
    if taps % 2 = 0 then count else if built.liked = some 1 then count - 1 else count + 1

def likedAfter (built : News) (taps : Nat) : Option Int :=
  if taps = 0 then built.liked
  else some (if taps % 2 = 1 ↔ built.liked = some 1 then 0 else 1)

variable (web : Web)

def aged (built : News) (avatar : Bool) (photosPasses taps : Nat) : News :=
  { built with
    avatar := if avatar then built.avatarURL.bind web.download else none
    photos := some (List.replicate photosPasses (fetchedPhotos web built)).flatten
    likeCount := likeCountAfter built taps
    liked := likedAfter built taps }

namespace Entry

def built (entry : Entry) : News := translatedItem entry.page entry.item

def taps (entry : Entry) (indexSection : Nat) : Nat :=
  entry.since.countP (Event.isTapOn indexSection)

def news (indexSection : Nat) (entry : Entry) : News :=
  aged web entry.built (entry.since.any Event.isAvatarsPass)
    (entry.since.countP Event.isPhotosPass) (entry.taps indexSection)

end Entry

def feedHistory (events : List Event) : NewsTableViewController where
  newsFeed := (entries events).mapIdx (Entry.news web)
  avatarPasses := events.countP Event.isPage - events.countP Event.isAvatarsPass
  photosPasses := events.countP Event.isPage - events.countP Event.isPhotosPass

/-- An event that does not trap after the events before: each page starts one pass of a kind, and
a tap needs a post with a counter that does not overflow. -/
def Admits (before : List Event) : Event → Prop
  | .biuldNewsFeed response =>
      ∃ items, response.items = some items ∧ ∀ item ∈ items, item.Sourced response
  | .avatarsPass => before.countP Event.isAvatarsPass < before.countP Event.isPage
  | .photosPass => before.countP Event.isPhotosPass < before.countP Event.isPage
  | .likeButtonPressed tag => ∃ entry count, (entries before)[tag]? = some entry ∧
      likeCountAfter entry.built (entry.taps tag + 1) = some count ∧
        intMin ≤ count ∧ count ≤ intMax

theorem aged_nothing (page : PostResponse) (item : PostItem) :
    aged web (translatedItem page item) false 0 0 = translatedItem page item := by
  simp only [aged, likeCountAfter, likedAfter, Nat.zero_mod, if_true, Option.map_id']
  rfl

theorem aged_avatar (built : News) (avatar : Bool) (photosPasses taps : Nat) :
    downloadAvatar web (aged web built avatar photosPasses taps) =
      aged web built true photosPasses taps := by
  cases got : built.avatarURL.bind web.download <;> cases avatar <;>
    simp [downloadAvatar, aged, got]

theorem aged_photos (built : News) (avatar : Bool) (photosPasses taps : Nat) :
    withPhotos web (aged web built avatar photosPasses taps) =
      aged web built avatar (photosPasses + 1) taps := by
  have same : fetchedPhotos web (aged web built avatar photosPasses taps) =
      fetchedPhotos web built := rfl
  simp only [withPhotos, same]
  simp [aged, List.replicate_succ']

theorem likedAfter_iff (built : News) (taps : Nat) :
    1 = (likedAfter built taps).getD 0 ↔ (taps % 2 = 0 ↔ built.liked = some 1) := by
  unfold likedAfter
  split
  · rename_i none_yet
    cases liked : built.liked with
    | none => simp [none_yet]
    | some userLikes => simp [none_yet, eq_comm]
  · rcases Nat.mod_two_eq_zero_or_one taps with even | odd
    · by_cases liked : built.liked = some 1 <;> simp [even, liked]
    · by_cases liked : built.liked = some 1 <;> simp [odd, liked]

theorem tapped_after (built : News) (taps : Nat) :
    tapped (likeCountAfter built taps) (likedAfter built taps) =
      (likeCountAfter built (taps + 1)).bind fun count =>
        (checked count).map fun count => (count, (likedAfter built (taps + 1)).getD 0) := by
  simp only [tapped, likedAfter_iff]
  cases counted : built.likeCount with
  | none => simp [likeCountAfter, counted]
  | some count =>
      rcases Nat.mod_two_eq_zero_or_one taps with even | odd
      · have next : (taps + 1) % 2 = 1 := by omega
        by_cases liked : built.liked = some 1 <;>
          simp [likeCountAfter, likedAfter, counted, even, next, liked]
      · have next : (taps + 1) % 2 = 0 := by omega
        by_cases liked : built.liked = some 1 <;>
          simp [likeCountAfter, likedAfter, counted, odd, next, liked]

theorem entries_concat (events : List Event) (event : Event) :
    entries (events ++ [event]) =
      (entries events).map (fun entry => { entry with since := entry.since ++ [event] }) ++
        event.entries [] := by
  induction events with
  | nil => simp [entries]
  | cons first events ih =>
      have aged : first.entries (events ++ [event]) = (first.entries events).map
          fun entry => { entry with since := entry.since ++ [event] } := by
        cases first <;> simp [Event.entries, Function.comp_def]
      rw [List.cons_append, entries, entries, ih, aged, List.map_append, List.append_assoc]

theorem news_later (entry : Entry) (event : Event) (indexSection : Nat) :
    Entry.news web indexSection { entry with since := entry.since ++ [event] } =
      aged web entry.built (entry.since.any Event.isAvatarsPass || event.isAvatarsPass)
        (entry.since.countP Event.isPhotosPass + if event.isPhotosPass then 1 else 0)
        (entry.taps indexSection + if event.isTapOn indexSection then 1 else 0) := by
  simp only [Entry.news, Entry.taps, List.any_append, List.countP_append, List.any_cons,
    List.any_nil, Bool.or_false, List.countP_singleton]
  rfl

theorem newsFeed_concat (events : List Event) (event : Event) :
    (feedHistory web (events ++ [event])).newsFeed =
      (entries events).mapIdx (fun indexSection entry =>
        aged web entry.built (entry.since.any Event.isAvatarsPass || event.isAvatarsPass)
          (entry.since.countP Event.isPhotosPass + if event.isPhotosPass then 1 else 0)
          (entry.taps indexSection + if event.isTapOn indexSection then 1 else 0)) ++
        (event.entries []).map Entry.built := by
  have new : ∀ indexSection, ∀ entry ∈ event.entries [],
      Entry.news web indexSection entry = entry.built := by
    intro indexSection entry member
    cases event with
    | biuldNewsFeed page =>
        obtain ⟨item, _, rfl⟩ := List.mem_map.mp member
        exact aged_nothing web page item
    | avatarsPass | photosPass | likeButtonPressed tag => cases member
  simp only [feedHistory, entries_concat, List.mapIdx_append]
  congr 1
  · rw [List.mapIdx_eq_iff]
    intro indexSection
    rw [List.getElem?_mapIdx, List.getElem?_map, Option.map_map]
    congr 1
    funext entry
    exact (news_later web entry event indexSection).symm
  · rw [List.mapIdx_eq_iff]
    intro indexSection
    rw [List.getElem?_map]
    cases here : (event.entries [])[indexSection]? with
    | none => rfl
    | some entry => exact congrArg some (new _ entry (List.mem_of_getElem? here)).symm

def Within (events : List Event) : Prop :=
  events.countP Event.isAvatarsPass ≤ events.countP Event.isPage ∧
    events.countP Event.isPhotosPass ≤ events.countP Event.isPage

theorem countP_concat (p : Event → Bool) (events : List Event) (event : Event) :
    (events ++ [event]).countP p = events.countP p + if p event then 1 else 0 := by
  rw [List.countP_append, List.countP_singleton]

theorem within_of_admitted {events : List Event}
    (admitted : ∀ before event after, events = before ++ event :: after → Admits before event) :
    Within events := by
  induction events using List.reverseRecOn with
  | nil => exact ⟨Nat.le_refl 0, Nat.le_refl 0⟩
  | append_singleton events event ih =>
      obtain ⟨earlier, last⟩ := prefixes_concat.mp admitted
      obtain ⟨avatars, photos⟩ := ih earlier
      rw [Within, countP_concat, countP_concat, countP_concat]
      cases event with
      | biuldNewsFeed response =>
          exact ⟨Nat.le_succ_of_le avatars, Nat.le_succ_of_le photos⟩
      | avatarsPass => exact ⟨last, photos⟩
      | photosPass => exact ⟨avatars, last⟩
      | likeButtonPressed tag => exact ⟨avatars, photos⟩

theorem map_mapIdx {α β γ : Type} (f : Nat → α → β) (g : β → γ) (l : List α) :
    (l.mapIdx f).map g = l.mapIdx fun i a => g (f i a) := by
  symm
  rw [List.mapIdx_eq_iff]
  intro i
  rw [List.getElem?_map, List.getElem?_mapIdx, Option.map_map]
  rfl

theorem screen_ext {screen other : NewsTableViewController}
    (newsFeed : screen.newsFeed = other.newsFeed)
    (avatarPasses : screen.avatarPasses = other.avatarPasses)
    (photosPasses : screen.photosPasses = other.photosPasses) : screen = other := by
  cases screen
  cases other
  cases newsFeed
  cases avatarPasses
  cases photosPasses
  rfl

theorem feedHistory_page {before : List Event} (within : Within before) {response : PostResponse}
    {items : List PostItem} (present : response.items = some items) :
    feedHistory web (before ++ [.biuldNewsFeed response]) = {
      newsFeed := (feedHistory web before).newsFeed ++ items.map (translatedItem response)
      avatarPasses := (feedHistory web before).avatarPasses + 1
      photosPasses := (feedHistory web before).photosPasses + 1 } := by
  obtain ⟨avatars, photos⟩ := within
  apply screen_ext
  · have kept : ∀ entry : Entry, (entry.since.any Event.isAvatarsPass ||
        Event.isAvatarsPass (.biuldNewsFeed response)) = entry.since.any Event.isAvatarsPass :=
      fun entry => Bool.or_false _
    rw [newsFeed_concat]
    simp only [kept]
    congr 1
    rw [Event.entries, present, Option.getD_some, List.map_map]
    rfl
  · simp only [feedHistory, countP_concat, Event.isPage, Event.isAvatarsPass, if_true]
    exact Nat.sub_add_comm avatars
  · simp only [feedHistory, countP_concat, Event.isPage, Event.isPhotosPass, if_true]
    exact Nat.sub_add_comm photos

theorem step_page {before : List Event} (within : Within before) {response : PostResponse}
    {screen : NewsTableViewController} :
    step web (feedHistory web before) (.biuldNewsFeed response) = some screen ↔
      Admits before (.biuldNewsFeed response) ∧
        screen = feedHistory web (before ++ [.biuldNewsFeed response]) := by
  constructor
  · intro action
    obtain ⟨items, present, sourced, rfl⟩ := biuldNewsFeed_some_iff.mp action
    exact ⟨⟨items, present, sourced⟩, (feedHistory_page web within present).symm⟩
  · intro admitted
    obtain ⟨⟨items, present, sourced⟩, rfl⟩ := admitted
    exact biuldNewsFeed_some_iff.mpr
      ⟨items, present, sourced, feedHistory_page web within present⟩

theorem feedHistory_avatars (before : List Event) :
    (feedHistory web (before ++ [.avatarsPass])).newsFeed =
      (feedHistory web before).newsFeed.map (downloadAvatar web) := by
  rw [newsFeed_concat, feedHistory, map_mapIdx]
  simp only [Entry.news, aged_avatar, Event.isAvatarsPass, Bool.or_true]
  exact List.append_nil _

theorem feedHistory_photos (before : List Event) :
    (feedHistory web (before ++ [.photosPass])).newsFeed =
      (feedHistory web before).newsFeed.map (withPhotos web) := by
  rw [newsFeed_concat, feedHistory, map_mapIdx]
  simp only [Entry.news, aged_photos, Event.isAvatarsPass, Bool.or_false]
  exact List.append_nil _

theorem step_avatars {before : List Event} {screen : NewsTableViewController} :
    step web (feedHistory web before) .avatarsPass = some screen ↔
      Admits before .avatarsPass ∧ screen = feedHistory web (before ++ [.avatarsPass]) := by
  have longer : feedHistory web (before ++ [.avatarsPass]) = {
      newsFeed := (feedHistory web before).newsFeed.map (downloadAvatar web)
      avatarPasses := (feedHistory web before).avatarPasses - 1
      photosPasses := (feedHistory web before).photosPasses } := by
    apply screen_ext
    · exact feedHistory_avatars web before
    · simp only [feedHistory, countP_concat, Event.isPage, Event.isAvatarsPass, if_true]
      exact Nat.sub_add_eq _ _ 1
    · simp only [feedHistory, countP_concat]
      rfl
  have admits : Admits before .avatarsPass ↔ 0 < (feedHistory web before).avatarPasses :=
    Nat.sub_pos_iff_lt.symm
  rw [admits, longer, step]
  cases (feedHistory web before).avatarPasses with
  | zero => simp
  | succ avatarPasses => simp [eq_comm]

theorem authored_history (before : List Event) :
    ∀ news ∈ (feedHistory web before).newsFeed, news.author.isSome := by
  intro news member
  obtain ⟨i, bound, rfl⟩ := List.mem_mapIdx.mp member
  rfl

theorem step_photos {before : List Event} {screen : NewsTableViewController} :
    step web (feedHistory web before) .photosPass = some screen ↔
      Admits before .photosPass ∧ screen = feedHistory web (before ++ [.photosPass]) := by
  have longer : feedHistory web (before ++ [.photosPass]) = {
      newsFeed := (feedHistory web before).newsFeed.map (withPhotos web)
      avatarPasses := (feedHistory web before).avatarPasses
      photosPasses := (feedHistory web before).photosPasses - 1 } := by
    apply screen_ext
    · exact feedHistory_photos web before
    · simp only [feedHistory, countP_concat]
      rfl
    · simp only [feedHistory, countP_concat, Event.isPage, Event.isPhotosPass, if_true]
      exact Nat.sub_add_eq _ _ 1
  have admits : Admits before .photosPass ↔ 0 < (feedHistory web before).photosPasses :=
    Nat.sub_pos_iff_lt.symm
  have walked := downloadPhotos_authored web (authored_history web before)
  rw [admits, longer, step]
  cases (feedHistory web before).photosPasses with
  | zero => simp
  | succ photosPasses => simp [walked, eq_comm]

theorem feedHistory_tap (before : List Event) {tag : Nat} {entry : Entry}
    (here : (entries before)[tag]? = some entry) :
    (feedHistory web (before ++ [.likeButtonPressed tag])).newsFeed =
      (feedHistory web before).newsFeed.set tag
        (aged web entry.built (entry.since.any Event.isAvatarsPass)
          (entry.since.countP Event.isPhotosPass) (entry.taps tag + 1)) := by
  have inside : tag < (feedHistory web before).newsFeed.length := by
    have bound := (List.getElem?_eq_some_iff.mp here).1
    rwa [feedHistory, List.length_mapIdx]
  have unpaged : Event.entries [] (.likeButtonPressed tag) = [] := rfl
  rw [newsFeed_concat, unpaged, List.map_nil, List.append_nil, List.mapIdx_eq_iff]
  intro indexSection
  by_cases own : tag = indexSection
  · subst own
    rw [List.getElem?_set_self inside, here]
    simp [Event.isTapOn, Event.isAvatarsPass, Event.isPhotosPass]
  · rw [List.getElem?_set_ne own, feedHistory, List.getElem?_mapIdx]
    congr 1
    funext entry
    simp [Entry.news, Event.isTapOn, Event.isAvatarsPass, Event.isPhotosPass, own]

theorem pressed_history (before : List Event) (tag : Nat) (newsFeed : List News) :
    likeButtonPressed tag (feedHistory web before).newsFeed = some newsFeed ↔
      Admits before (.likeButtonPressed tag) ∧
        newsFeed = (feedHistory web (before ++ [.likeButtonPressed tag])).newsFeed := by
  have feed : (feedHistory web before).newsFeed[tag]? =
      ((entries before)[tag]?).map (Entry.news web tag) := List.getElem?_mapIdx
  rw [likeButtonPressed_bind, feed, Admits]
  cases here : (entries before)[tag]? with
  | none => simp
  | some entry =>
      have taps : tapped (Entry.news web tag entry).likeCount
          (Entry.news web tag entry).liked = _ :=
        tapped_after entry.built (entry.taps tag)
      rw [feedHistory_tap web before here, Option.map_some, Option.bind_some, taps]
      cases next : likeCountAfter entry.built (entry.taps tag + 1) with
      | none => simp [next]
      | some count =>
          by_cases fits : intMin ≤ count ∧ count ≤ intMax
          · have changed : aged web entry.built (entry.since.any Event.isAvatarsPass)
                (entry.since.countP Event.isPhotosPass) (entry.taps tag + 1) =
                  { Entry.news web tag entry with
                    likeCount := some count
                    liked := some ((likedAfter entry.built (entry.taps tag + 1)).getD 0) } := by
              have liked : likedAfter entry.built (entry.taps tag + 1) =
                  some ((likedAfter entry.built (entry.taps tag + 1)).getD 0) := rfl
              rw [aged, next, liked]
              rfl
            simp [next, checked, fits, changed, eq_comm]
          · simp [next, checked, fits]

theorem step_tap {before : List Event} {tag : Nat} {screen : NewsTableViewController} :
    step web (feedHistory web before) (.likeButtonPressed tag) = some screen ↔
      Admits before (.likeButtonPressed tag) ∧
        screen = feedHistory web (before ++ [.likeButtonPressed tag]) := by
  have longer : feedHistory web (before ++ [.likeButtonPressed tag]) = {
      newsFeed := (feedHistory web (before ++ [.likeButtonPressed tag])).newsFeed
      avatarPasses := (feedHistory web before).avatarPasses
      photosPasses := (feedHistory web before).photosPasses } := by
    apply screen_ext
    · rfl
    · simp only [feedHistory, countP_concat]
      rfl
    · simp only [feedHistory, countP_concat]
      rfl
  rw [longer, step]
  constructor
  · intro action
    obtain ⟨newsFeed, pressed, action⟩ := Option.bind_eq_some_iff.mp action
    cases action
    obtain ⟨admitted, rfl⟩ := (pressed_history web before tag newsFeed).mp pressed
    exact ⟨admitted, rfl⟩
  · intro admitted
    obtain ⟨admitted, rfl⟩ := admitted
    exact Option.bind_eq_some_iff.mpr
      ⟨_, (pressed_history web before tag _).mpr ⟨admitted, rfl⟩, rfl⟩

theorem feed_is_history (events : List Event) (screen : NewsTableViewController) :
    run (step web) {} events = some screen ↔
      (∀ before event after, events = before ++ event :: after → Admits before event) ∧
        screen = feedHistory web events := by
  have start : ({} : NewsTableViewController) = feedHistory web [] := rfl
  refine run_some_iff_history start fun before event screen admitted => ?_
  have within := within_of_admitted admitted
  cases event with
  | biuldNewsFeed response => exact step_page web within
  | avatarsPass => exact step_avatars web
  | photosPass => exact step_photos web
  | likeButtonPressed tag => exact step_tap web

end SocialApp.Newsfeed
