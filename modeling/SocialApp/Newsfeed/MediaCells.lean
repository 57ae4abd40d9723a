import SocialApp.Library.Outlet
import SocialApp.Newsfeed.Passes
import SocialApp.Screens.Reuse

/-!
# Media rows

A media cell keeps the photos that its post had when the cell was configured, and its collection
view counts and reads these, while the loops append to the posts. What an item shows is a picture
of the post's own URLs and stays at its place.
-/

namespace SocialApp.Newsfeed
open Foundation Library Machine Screens

variable {Image : Type} (ui : UIKit Image) (web : Web)

structure NewsMediaTableViewCell where
  imagesArray : Option (List Data) := none

namespace NewsMediaTableViewCell

def numberOfItemsInSection (cell : NewsMediaTableViewCell) : Nat :=
  match cell.imagesArray with
  | some imagesArray => imagesArray.length
  | none => 0

/-- The image of the item after the call; a reused item shows `newsMediaPhoto` before. -/
def cellForItemAt (cell : NewsMediaTableViewCell) (item : Nat) (newsMediaPhoto : Option Image) :
    Option (Option Image) :=
  match cell.imagesArray with
  | some imagesArray => do
      let image ← imagesArray[item]?
      return ui.imageData image
  | none => some newsMediaPhoto

end NewsMediaTableViewCell

structure MediaTable where
  passes : OverlappingPasses := {}
  cells : Nat → NewsMediaTableViewCell := fun _ => {}

inductive MediaEvent
  | pass (event : PassEvent)
  | cellForRowAt (cell indexSection : Nat)

def MediaTable.step : Machine MediaTable MediaEvent
  | table, .pass event =>
      (OverlappingPasses.step web table.passes event).map fun passes => { table with passes }
  | table, .cellForRowAt cell indexSection => do
      let news ← table.passes.screen.newsFeed[indexSection]?
      return { table with
        cells := Function.update table.cells cell { imagesArray := news.photos } }

def MediaEvent.configures (cell : Nat) : MediaEvent → Option Nat
  | cellForRowAt other indexSection => if other = cell then some indexSection else none
  | pass _ => none

/-- Sections keep their posts, and these their URLs and, at their places, their photos. -/
def Grows (newsFeed later : List News) : Prop :=
  ∀ (indexSection : Nat) (news : News), newsFeed[indexSection]? = some news →
    ∃ news' : News, later[indexSection]? = some news' ∧ news'.photosURL = news.photosURL ∧
      ∀ photos, news.photos = some photos → ∃ more, news'.photos = some (photos ++ more)

def OwnPhotos (news : News) : Prop :=
  ∃ photos, news.photos = some photos ∧ ∀ data ∈ photos, data ∈ fetchedPhotos web news

/-- The URLs that a loop is still to load are URLs of the post that it visits. -/
def Pass.Visits (newsFeed : List News) : Pass → Prop
  | photos (some (indexSection, urlStrings)) _ => ∃ news, newsFeed[indexSection]? = some news ∧
      ∀ urlString ∈ urlStrings, urlString ∈ news.photosURL.getD []
  | _ => True

structure Own (state : OverlappingPasses) : Prop where
  photos : ∀ news ∈ state.screen.newsFeed, OwnPhotos web news
  visits : ∀ pass ∈ state.running, pass.Visits state.screen.newsFeed

theorem Grows.refl (newsFeed : List News) : Grows newsFeed newsFeed :=
  fun _ news here => ⟨news, here, rfl, fun photos kept => ⟨[], by rw [kept, List.append_nil]⟩⟩

theorem grows_append (newsFeed more : List News) : Grows newsFeed (newsFeed ++ more) := by
  intro indexSection news here
  have inside := (List.getElem?_eq_some_iff.mp here).1
  refine ⟨news, ?_, rfl, fun photos kept => ⟨[], by rw [kept, List.append_nil]⟩⟩
  rw [List.getElem?_append_left inside, here]

theorem grows_set {newsFeed : List News} {indexSection : Nat} {news changed : News}
    (here : newsFeed[indexSection]? = some news) (urls : changed.photosURL = news.photosURL)
    (grown : ∀ photos, news.photos = some photos →
      ∃ more, changed.photos = some (photos ++ more)) :
    Grows newsFeed (newsFeed.set indexSection changed) := by
  intro other otherNews there
  by_cases own : indexSection = other
  · subst own
    cases here.symm.trans there
    exact ⟨changed, List.getElem?_set_self (List.getElem?_eq_some_iff.mp here).1, urls, grown⟩
  · obtain same := Grows.refl newsFeed other otherNews there
    rwa [List.getElem?_set_ne own]

theorem Pass.Visits.grown {pass : Pass} {newsFeed later : List News} (visits : pass.Visits newsFeed)
    (grows : Grows newsFeed later) : pass.Visits later := by
  cases pass with
  | avatars remaining => trivial
  | photos visiting remaining =>
      cases visiting with
      | none => trivial
      | some post =>
          obtain ⟨news, here, urls⟩ := visits
          obtain ⟨news', here', same, _⟩ := grows _ news here
          exact ⟨news', here', by rwa [same]⟩

theorem own_set {newsFeed : List News} {indexSection : Nat} {changed : News}
    (own : ∀ news ∈ newsFeed, OwnPhotos web news) (changed_own : OwnPhotos web changed) :
    ∀ news ∈ newsFeed.set indexSection changed, OwnPhotos web news := by
  intro news member
  rcases List.mem_or_eq_of_mem_set member with old | rfl
  · exact own news old
  · exact changed_own

theorem photosURL_appendPhoto (news : News) (urlString : String) :
    (appendPhoto web news urlString).photosURL = news.photosURL := by
  cases got : web.download urlString <;> simp [appendPhoto, got]

theorem photos_appendPhoto {news : News} (urlString : String) (photos : List Data)
    (kept : news.photos = some photos) :
    ∃ more, (appendPhoto web news urlString).photos = some (photos ++ more) := by
  refine ⟨(web.download urlString).toList, ?_⟩
  cases got : web.download urlString <;> simp [appendPhoto, got, kept]

theorem ownPhotos_appendPhoto {news : News} {urlString : String} (own : OwnPhotos web news)
    (listed : urlString ∈ news.photosURL.getD []) :
    OwnPhotos web (appendPhoto web news urlString) := by
  obtain ⟨photos, kept, fetched⟩ := own
  cases got : web.download urlString with
  | none =>
      rw [appendPhoto, got]
      exact ⟨photos, kept, fetched⟩
  | some data =>
      rw [appendPhoto, got]
      refine ⟨photos ++ [data], by rw [kept]; rfl, ?_⟩
      intro other member
      rcases List.mem_append.mp member with old | new
      · exact fetched other old
      · cases List.mem_singleton.mp new
        exact List.mem_filterMap.mpr ⟨urlString, listed, got⟩

theorem ownPhotos_downloadAvatar {news : News} (own : OwnPhotos web news) :
    OwnPhotos web (downloadAvatar web news) := by
  obtain ⟨photos, kept, fetched⟩ := own
  refine ⟨photos, ?_, by rwa [fetchedPhotos_downloadAvatar]⟩
  rw [← kept]
  exact congrArg Prod.snd (downloadAvatar_media web news)

theorem own_moves {pass next : Pass} {newsFeed later : List News}
    (moves : pass.Moves web newsFeed next later) (visits : pass.Visits newsFeed)
    (own : ∀ news ∈ newsFeed, OwnPhotos web news) :
    Grows newsFeed later ∧ next.Visits later ∧ ∀ news ∈ later, OwnPhotos web news := by
  cases moves with
  | @avatar visited remaining news here =>
      have same := downloadAvatar_media web news
      refine ⟨grows_set here (congrArg Prod.fst same) ?_, trivial, ?_⟩
      · intro photos kept
        exact ⟨[], by rw [List.append_nil, ← kept]; exact congrArg Prod.snd same⟩
      · exact own_set web own
          (ownPhotos_downloadAvatar web (own news (List.mem_of_getElem? here)))
  | visit here => exact ⟨Grows.refl _, ⟨_, here, fun _ listed => listed⟩, own⟩
  | @photo visited urlString urlStrings remaining news here =>
      obtain ⟨visitedNews, here', listed⟩ := visits
      cases here.symm.trans here'
      obtain ⟨first, rest⟩ := List.forall_mem_cons.mp listed
      have grows : Grows newsFeed (newsFeed.set visited (appendPhoto web news urlString)) :=
        grows_set here (photosURL_appendPhoto web news urlString) (photos_appendPhoto web urlString)
      have later : Pass.Visits newsFeed (.photos (some (visited, urlStrings)) remaining) :=
        ⟨news, here, rest⟩
      refine ⟨grows, later.grown grows, ?_⟩
      exact own_set web own
        (ownPhotos_appendPhoto web (own news (List.mem_of_getElem? here)) first)
  | leave => exact ⟨Grows.refl _, trivial, own⟩

theorem own_step {state next : OverlappingPasses} {event : PassEvent} (own : Own web state)
    (action : OverlappingPasses.step web state event = some next) :
    Grows state.screen.newsFeed next.screen.newsFeed ∧ Own web next := by
  cases event with
  | biuldNewsFeed response =>
      obtain ⟨screen, built, rfl⟩ := Option.map_eq_some_iff.mp action
      obtain ⟨items, _, _, rfl⟩ := biuldNewsFeed_some_iff.mp built
      have grows := grows_append state.screen.newsFeed (items.map (translatedItem response))
      refine ⟨grows, ?_, fun pass member => (own.visits pass member).grown grows⟩
      intro news member
      rcases List.mem_append.mp member with old | new
      · exact own.photos news old
      · obtain ⟨item, _, rfl⟩ := List.mem_map.mp new
        exact ⟨[], rfl, by simp⟩
  | likeButtonPressed tag =>
      obtain ⟨newsFeed, pressed, rfl⟩ := Option.map_eq_some_iff.mp action
      obtain ⟨news, likeCount, liked, here, rfl⟩ := likeButtonPressed_some pressed
      have grows : Grows state.screen.newsFeed (state.screen.newsFeed.set tag
          { news with likeCount := some likeCount, liked := some liked }) :=
        grows_set here rfl fun photos kept => ⟨[], by rw [List.append_nil, ← kept]⟩
      refine ⟨grows, ?_, fun pass member => (own.visits pass member).grown grows⟩
      exact own_set web own.photos (own.photos news (List.mem_of_getElem? here))
  | startAvatars =>
      obtain ⟨⟨newsFeed, avatarPasses, photosPasses⟩, running⟩ := state
      cases avatarPasses with
      | zero => cases action
      | succ avatarPasses =>
          cases action
          refine ⟨Grows.refl newsFeed, own.photos, ?_⟩
          exact List.forall_mem_append.mpr ⟨own.visits, by simp [Pass.Visits]⟩
  | startPhotos =>
      obtain ⟨⟨newsFeed, avatarPasses, photosPasses⟩, running⟩ := state
      cases photosPasses with
      | zero => cases action
      | succ photosPasses =>
          cases action
          refine ⟨Grows.refl newsFeed, own.photos, ?_⟩
          exact List.forall_mem_append.mpr ⟨own.visits, by simp [Pass.Visits]⟩
  | advance index =>
      obtain ⟨pass, here, action⟩ := Option.bind_eq_some_iff.mp action
      obtain ⟨⟨moved, newsFeed⟩, advanced, action⟩ := Option.bind_eq_some_iff.mp action
      cases action
      have visits := own.visits pass (List.mem_of_getElem? here)
      have moves := moves_of_advance web advanced
      obtain ⟨grows, movedVisits, photos⟩ := own_moves web moves visits own.photos
      refine ⟨grows, photos, ?_⟩
      intro other member
      rcases List.mem_or_eq_of_mem_set member with old | rfl
      · exact (own.visits other old).grown grows
      · exact movedVisits

/-- The cell shows photos of the post of its section, each at its place. -/
def ShowsPost (newsFeed : List News) (cell : NewsMediaTableViewCell) (indexSection : Nat) : Prop :=
  ∃ (news : News) (shown more : List Data), newsFeed[indexSection]? = some news ∧
    cell.imagesArray = some shown ∧ news.photos = some (shown ++ more)

theorem ShowsPost.grown {newsFeed later : List News} {cell : NewsMediaTableViewCell}
    {indexSection : Nat} (shows : ShowsPost newsFeed cell indexSection)
    (grows : Grows newsFeed later) : ShowsPost later cell indexSection := by
  obtain ⟨news, shown, more, here, images, photos⟩ := shows
  obtain ⟨news', here', _, kept⟩ := grows indexSection news here
  obtain ⟨added, photos'⟩ := kept _ photos
  exact ⟨news', shown, more ++ added, here', images, by rw [photos', List.append_assoc]⟩

structure MediaShown (events : List MediaEvent) (table : MediaTable) : Prop where
  own : Own web table.passes
  cells : ∀ cell, match lastSome (MediaEvent.configures cell) events with
    | some indexSection =>
        ShowsPost table.passes.screen.newsFeed (table.cells cell) indexSection
    | none => (table.cells cell).imagesArray = none

theorem mediaShown_of_run {events : List MediaEvent} {table : MediaTable}
    (ran : run (MediaTable.step web) {} events = some table) : MediaShown web events table := by
  induction events using List.reverseRecOn generalizing table with
  | nil =>
      cases ran
      exact ⟨⟨by simp, by simp⟩, fun cell => rfl⟩
  | append_singleton events event ih =>
      obtain ⟨before, reached, action⟩ := (run_concat_some _).mp ran
      obtain ⟨own, cells⟩ := ih reached
      cases event with
      | pass event =>
          obtain ⟨passes, moved, rfl⟩ := Option.map_eq_some_iff.mp action
          obtain ⟨grows, own⟩ := own_step web own moved
          refine ⟨own, fun cell => ?_⟩
          have kept := cells cell
          rw [lastSome_concat, MediaEvent.configures, Option.none_or]
          cases last : lastSome (MediaEvent.configures cell) events with
          | none => rwa [last] at kept
          | some indexSection =>
              rw [last] at kept
              exact kept.grown grows
      | cellForRowAt configured indexSection =>
          obtain ⟨news, here, action⟩ := Option.bind_eq_some_iff.mp action
          cases action
          refine ⟨own, fun cell => ?_⟩
          have kept := cells cell
          rw [lastSome_concat]
          by_cases same : configured = cell
          · subst same
            obtain ⟨photos, present, _⟩ := own.photos news (List.mem_of_getElem? here)
            simp only [MediaEvent.configures, if_true, Option.some_or, Function.update_self]
            exact ⟨news, photos, [], here, present, by rw [present, List.append_nil]⟩
          · simp only [MediaEvent.configures, if_neg same, Option.none_or,
              Function.update_of_ne (Ne.symm same)]
            exact kept

theorem media_cells_show_photos {events : List MediaEvent} {table : MediaTable}
    (ran : run (MediaTable.step web) {} events = some table) (cell : Nat) :
    match lastSome (MediaEvent.configures cell) events with
    | none => (table.cells cell).numberOfItemsInSection = 0
    | some indexSection => ∃ (news : News) (photos : List Data),
        table.passes.screen.newsFeed[indexSection]? = some news ∧ news.photos = some photos ∧
          ∀ item < (table.cells cell).numberOfItemsInSection, ∃ data ∈ fetchedPhotos web news,
            photos[item]? = some data ∧ ∀ image : Option Image,
              (table.cells cell).cellForItemAt ui item image = some (ui.imageData data) := by
  obtain ⟨own, cells⟩ := mediaShown_of_run web ran
  have shows := cells cell
  cases last : lastSome (MediaEvent.configures cell) events with
  | none =>
      rw [last] at shows
      simp only [NewsMediaTableViewCell.numberOfItemsInSection, shows]
  | some indexSection =>
      rw [last] at shows
      obtain ⟨news, shown, more, here, images, photos⟩ := shows
      obtain ⟨kept, present, fetched⟩ := own.photos news (List.mem_of_getElem? here)
      cases photos.symm.trans present
      refine ⟨news, shown ++ more, here, photos, fun item inside => ?_⟩
      simp only [NewsMediaTableViewCell.numberOfItemsInSection, images] at inside
      have there : shown[item]? = some shown[item] := List.getElem?_eq_getElem inside
      refine ⟨shown[item], fetched _ (List.mem_append_left more (List.getElem_mem inside)), ?_, ?_⟩
      · rw [List.getElem?_append_left inside, there]
      · intro image
        simp [NewsMediaTableViewCell.cellForItemAt, images, there]

def shownWhileLoading : List MediaEvent :=
  [.pass (.biuldNewsFeed onePicture), .pass .startPhotos, .pass (.advance 0), .pass (.advance 0),
    .cellForRowAt 5 0, .pass (.biuldNewsFeed onePicture), .pass .startPhotos, .pass (.advance 1),
    .pass (.advance 1)]

def shownTable : MediaTable where
  passes := {
    screen := {
      newsFeed := [
        { author := some " ", photosURL := some ["https://a"], photos := some [[255], [255]] },
        { author := some " ", photosURL := some ["https://a"], photos := some [] }]
      avatarPasses := 2 }
    running := [.photos (some (0, [])) [], .photos (some (0, [])) [1]] }
  cells := Function.update (fun _ => {}) 5 { imagesArray := some [[255]] }

theorem first_picture_shown : ∃ (news : News) (photos : List Data),
    shownTable.passes.screen.newsFeed[0]? = some news ∧ news.photos = some photos ∧
      ∀ item < (shownTable.cells 5).numberOfItemsInSection,
        ∃ data ∈ fetchedPhotos everyPicture news, photos[item]? = some data ∧
          ∀ image : Option String,
            (shownTable.cells 5).cellForItemAt pictures item image =
              some (pictures.imageData data) := by
  have ran : run (MediaTable.step everyPicture) {} shownWhileLoading = some shownTable := rfl
  exact media_cells_show_photos pictures everyPicture ran 5

end SocialApp.Newsfeed
