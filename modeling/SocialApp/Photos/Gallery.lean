import SocialApp.Library.Outlet
import SocialApp.Network.FriendsRefresh
import SocialApp.Photos.Downloads
import SocialApp.Screens.Reuse

/-!
# Galleries with photos in flight

Several galleries may be open one above another, each with a request for its user and downloads of
its own. A save block keeps the photo object that the loop of `downloadPhotos` had, and reads its id
and its owner when it runs; what the photo says may have changed by then, since `Photo` rows are
overwritten, but never deleted. `serves url data` says that the server may answer `url` with `data`.
-/

namespace SocialApp.Photos
open Library Foundation Realm Network Machine

structure Gallery where
  store : Store
  downloads : List (String × Int) := []
  mainQueue : List (Int × Data) := []

inductive GalleryEvent
  | friendsRefresh (friends : List Friend)
  | photosAnswer (userID : Int) (photoMetaData : Option (List Photo)) (access : Access)
  | download (index : Nat) (answer : Option Data)
  | mainBlock (access : Access)

namespace Gallery
variable (isURL : String → Bool) (serves : String → Data → Bool)

def step : Machine Gallery GalleryEvent
  | gallery, .friendsRefresh friends => do
      let (_, store) ← SavingOperation.main .commits .commits ⟨some ⟨none, friends⟩, []⟩
        gallery.store
      return { gallery with store }
  | gallery, .photosAnswer _ none _ => some gallery
  | gallery, .photosAnswer userID (some photoMetaData) access => do
      let store ← savePhotosMetaData access photoMetaData userID gallery.store
      let (started, _) := startDownloads isURL (getPhotosMetaData store userID)
      let downloads := gallery.downloads ++ started.map fun download =>
        (download.url, download.photoID)
      return { gallery with store, downloads }
  | gallery, .download index answer => do
      let (url, photoID) ← gallery.downloads[index]?
      let blocks := ((answer.filter (serves url)).map fun data => (photoID, data)).toList
      return { gallery with
        downloads := gallery.downloads.eraseIdx index
        mainQueue := gallery.mainQueue ++ blocks }
  | gallery, .mainBlock access =>
      match gallery.mainQueue with
      | [] => none
      | (photoID, data) :: mainQueue => do
          let photo ← gallery.store.photos.find photoID
          let store ← savePhotoflow access photo.id photo.owner_id (some data) gallery.store
          return { gallery with store, mainQueue }

def save (photo : Photo) (data : Data) (store : Store) : Store :=
  { store with photoflow := store.photoflow.upsert ⟨photo.id, photo.owner_id, some data⟩ }

inductive Moves (gallery : Gallery) : GalleryEvent → Gallery → Prop
  | refreshes (friends : List Friend) :
      Moves gallery (.friendsRefresh friends)
        { gallery with store := { gallery.store with friends := Table.empty.upsertAll friends } }
  | fails (userID : Int) (access : Access) :
      Moves gallery (.photosAnswer userID none access) gallery
  | starts {userID : Int} {photoMetaData : List Photo} {access : Access} {store : Store}
      (saved : savePhotosMetaData access photoMetaData userID gallery.store = some store) :
      Moves gallery (.photosAnswer userID (some photoMetaData) access)
        { gallery with
          store
          downloads := gallery.downloads ++
            (startDownloads isURL (getPhotosMetaData store userID)).1.map fun download =>
              (download.url, download.photoID) }
  | answers {index url photoID} (taken : gallery.downloads[index]? = some (url, photoID))
      (answer : Option Data) :
      Moves gallery (.download index answer)
        { gallery with
          downloads := gallery.downloads.eraseIdx index
          mainQueue := gallery.mainQueue ++
            ((answer.filter (serves url)).map fun data => (photoID, data)).toList }
  | saves {photoID data mainQueue photo access}
      (block : gallery.mainQueue = (photoID, data) :: mainQueue)
      (found : gallery.store.photos.find photoID = some photo) (opens : access ≠ .openFails) :
      Moves gallery (.mainBlock access)
        { gallery with
          store := if access = .commits then save photo data gallery.store else gallery.store
          mainQueue }

variable {isURL serves} in
theorem moves_of_step {gallery next : Gallery} {event : GalleryEvent}
    (action : step isURL serves gallery event = some next) :
    Moves isURL serves gallery event next := by
  cases event with
  | friendsRefresh friends =>
      cases action
      exact .refreshes friends
  | photosAnswer userID photoMetaData access =>
      cases photoMetaData with
      | none =>
          cases action
          exact .fails userID access
      | some photoMetaData =>
          obtain ⟨store, saved, rest⟩ := Option.bind_eq_some_iff.mp action
          cases rest
          exact .starts saved
  | download index answer =>
      obtain ⟨⟨url, photoID⟩, taken, rest⟩ := Option.bind_eq_some_iff.mp action
      cases rest
      exact .answers taken answer
  | mainBlock access =>
      cases block : gallery.mainQueue with
      | nil => simp [step, block] at action
      | cons head mainQueue =>
          obtain ⟨photoID, data⟩ := head
          simp only [step, block] at action
          obtain ⟨photo, found, rest⟩ := Option.bind_eq_some_iff.mp action
          cases access with
          | openFails => cases rest
          | writeFails =>
              cases rest
              exact .saves block found (by simp)
          | commits =>
              cases rest
              exact .saves block found (by simp)

def listedPhotos : GalleryEvent → List Photo
  | .photosAnswer _ (some photoMetaData) _ => photoMetaData
  | _ => []

/-- A photo with this id was listed with a URL to which the server answered `data`. -/
def Served (known : List Photo) (id : Int) (data : Data) : Prop :=
  ∃ photo ∈ known, photo.id = id ∧ ∃ url, usableURL isURL photo = some url ∧ serves url data

structure FromListed (known : List Photo) (row : Photoflow) : Prop where
  served : ∃ data, row.data = some data ∧ Served isURL serves known row.id data
  owned : ∃ photo ∈ known, photo.id = row.id ∧ photo.owner_id = row.ownerID

structure Sound (before : Store) (known : List Photo) (gallery : Gallery) : Prop where
  photos : ∀ photo ∈ gallery.store.photos.rows, photo ∈ known
  downloads : ∀ url id, (url, id) ∈ gallery.downloads → id ∈ gallery.store.photos.keys ∧
    ∃ photo ∈ known, photo.id = id ∧ usableURL isURL photo = some url
  blocks : ∀ id data, (id, data) ∈ gallery.mainQueue → id ∈ gallery.store.photos.keys ∧
    Served isURL serves known id data
  rows : ∀ row ∈ gallery.store.photoflow.rows,
    row ∈ before.photoflow.rows ∨ FromListed isURL serves known row

variable {isURL serves}

theorem Served.mono {known more : List Photo} {id : Int} {data : Data}
    (served : Served isURL serves known id data) :
    Served isURL serves (known ++ more) id data := by
  obtain ⟨photo, member, source⟩ := served
  exact ⟨photo, List.mem_append_left _ member, source⟩

theorem FromListed.mono {known more : List Photo} {row : Photoflow}
    (listed : FromListed isURL serves known row) :
    FromListed isURL serves (known ++ more) row := by
  obtain ⟨⟨data, present, served⟩, photo, member, owner⟩ := listed
  exact ⟨⟨data, present, served.mono⟩, photo, List.mem_append_left _ member, owner⟩

theorem Sound.mono {before : Store} {known : List Photo} {gallery : Gallery}
    (sound : gallery.Sound isURL serves before known) (more : List Photo) :
    gallery.Sound isURL serves before (known ++ more) where
  photos photo member := List.mem_append_left _ (sound.photos photo member)
  downloads url id member := by
    obtain ⟨stored, photo, listed, source⟩ := sound.downloads url id member
    exact ⟨stored, photo, List.mem_append_left _ listed, source⟩
  blocks id data member := ⟨(sound.blocks id data member).1, (sound.blocks id data member).2.mono⟩
  rows row member := (sound.rows row member).imp id FromListed.mono

theorem mem_startDownloads {photos : List Photo} {download : PhotoDownload}
    (member : download ∈ (startDownloads isURL photos).1) :
    ∃ photo ∈ photos, photo.id = download.photoID ∧ usableURL isURL photo = some download.url := by
  rw [startDownloads_eq] at member
  obtain ⟨photo, taken, started⟩ := List.mem_filterMap.mp member
  obtain ⟨url, usable, rfl⟩ := Option.map_eq_some_iff.mp started
  exact ⟨photo, (List.takeWhile_sublist _).subset taken, rfl, usable⟩

theorem savedPhotos {access : Access} {photos : List Photo} {userID : Int} {store next : Store}
    (saved : savePhotosMetaData access photos userID store = some next) :
    next = store ∨ next = { store with photos := store.photos.upsertAll photos } := by
  cases access with
  | openFails =>
      cases saved
      exact Or.inl rfl
  | writeFails =>
      obtain ⟨_, _, rfl⟩ := Option.map_eq_some_iff.mp saved
      exact Or.inl rfl
  | commits =>
      obtain ⟨_, _, rfl⟩ := Option.map_eq_some_iff.mp saved
      exact Or.inr rfl

theorem mem_upsertAll {table : Table Photo.id} {photos : List Photo} {photo : Photo}
    (member : photo ∈ (table.upsertAll photos).rows) : photo ∈ table.rows ∨ photo ∈ photos := by
  have found := Table.find_key member
  rw [Table.find_upsertAll, Option.or_eq_some_iff] at found
  rcases found with last | ⟨_, old⟩
  · exact Or.inr (Table.mem_of_latest last)
  · exact Or.inl (Table.find_eq_some_iff.mp old).1

theorem Sound.store {before store : Store} {known photoMetaData : List Photo} {gallery : Gallery}
    {access : Access} {userID : Int} (sound : gallery.Sound isURL serves before known)
    (saved : savePhotosMetaData access photoMetaData userID gallery.store = some store) :
    { gallery with store }.Sound isURL serves before (known ++ photoMetaData) := by
  have later := sound.mono photoMetaData
  rcases savedPhotos saved with rfl | rfl
  · exact later
  · have keys : ∀ id ∈ gallery.store.photos.keys,
        id ∈ (gallery.store.photos.upsertAll photoMetaData).keys :=
      fun id stored => Table.mem_keys_upsertAll.mpr (Or.inr stored)
    refine ⟨?_, ?_, ?_, later.rows⟩
    · intro photo member
      rcases mem_upsertAll member with old | new
      · exact later.photos photo old
      · exact List.mem_append_right _ new
    · intro url id member
      exact ⟨keys id (later.downloads url id member).1, (later.downloads url id member).2⟩
    · intro id data member
      exact ⟨keys id (later.blocks id data member).1, (later.blocks id data member).2⟩

theorem Moves.sound {before : Store} {known : List Photo} {gallery next : Gallery}
    {event : GalleryEvent} (moves : Moves isURL serves gallery event next)
    (sound : gallery.Sound isURL serves before known) :
    next.Sound isURL serves before (known ++ listedPhotos event) := by
  have later := sound.mono (listedPhotos event)
  cases moves with
  | refreshes friends => exact ⟨later.photos, later.downloads, later.blocks, later.rows⟩
  | fails userID access => exact later
  | starts saved =>
      have stored := sound.store saved
      refine ⟨stored.photos, ?_, stored.blocks, stored.rows⟩
      intro url id member
      rcases List.mem_append.mp member with old | new
      · exact stored.downloads url id old
      · obtain ⟨download, started, same⟩ := List.mem_map.mp new
        cases same
        obtain ⟨photo, mine, key, usable⟩ := mem_startDownloads started
        have row := (List.mem_filter.mp mine).1
        exact ⟨key ▸ List.mem_map_of_mem row, photo, stored.photos photo row, key, usable⟩
  | answers taken answer =>
      refine ⟨later.photos, ?_, ?_, later.rows⟩
      · exact fun url id member => later.downloads url id (List.mem_of_mem_eraseIdx member)
      · intro id data member
        rcases List.mem_append.mp member with old | new
        · exact later.blocks id data old
        · obtain ⟨image, got, same⟩ := Option.map_eq_some_iff.mp (Option.mem_toList.mp new)
          cases same
          obtain ⟨stored, photo, listed, key, usable⟩ :=
            later.downloads _ _ (List.mem_of_getElem? taken)
          exact ⟨stored, photo, listed, key, _, usable, (Option.filter_eq_some_iff.mp got).2⟩
  | @saves photoID data mainQueue photo access block found opens =>
      have rest : ∀ id data, (id, data) ∈ mainQueue → id ∈ gallery.store.photos.keys ∧
          Served isURL serves (known ++ []) id data :=
        fun id data member => later.blocks id data (block ▸ List.mem_cons_of_mem _ member)
      cases access with
      | openFails => exact absurd rfl opens
      | writeFails => exact ⟨later.photos, later.downloads, rest, later.rows⟩
      | commits =>
          refine ⟨later.photos, later.downloads, rest, ?_⟩
          intro row member
          rcases Table.mem_upsert.mp member with rfl | ⟨old, _⟩
          · have key := (Table.find_eq_some_iff.mp found).2
            have served := (later.blocks photoID data (block ▸ List.mem_cons_self)).2
            have stored := later.photos photo (Table.find_eq_some_iff.mp found).1
            exact Or.inr ⟨⟨data, rfl, key.symm ▸ served⟩, photo, stored, rfl, rfl⟩
          · exact later.rows row old

theorem sound_run {before : Store} {known : List Photo} {gallery next : Gallery}
    {events : List GalleryEvent} (sound : gallery.Sound isURL serves before known)
    (ran : run (step isURL serves) gallery events = some next) :
    next.Sound isURL serves before (known ++ events.flatMap listedPhotos) := by
  induction events generalizing gallery known with
  | nil =>
      cases ran
      simpa using sound
  | cons event events ih =>
      obtain ⟨middle, action, rest⟩ := Option.bind_eq_some_iff.mp ran
      have later := ih ((moves_of_step action).sound sound) rest
      rwa [List.append_assoc, ← List.flatMap_cons] at later

theorem sound_launch (store : Store) :
    ({ store } : Gallery).Sound isURL serves store store.photos.rows where
  photos _ member := member
  downloads _ _ member := by cases member
  blocks _ _ member := by cases member
  rows _ member := Or.inl member

def OneOwner (photos : List Photo) : Prop :=
  ∀ photo ∈ photos, ∀ other ∈ photos, photo.id = other.id → photo.owner_id = other.owner_id

theorem photoflow_from_lists {store : Store} {events : List GalleryEvent} {gallery : Gallery}
    (ran : run (step isURL serves) { store } events = some gallery) :
    let known := store.photos.rows ++ events.flatMap listedPhotos
    (∀ row ∈ gallery.store.photoflow.rows,
      row ∈ store.photoflow.rows ∨ FromListed isURL serves known row) ∧
    (OneOwner known → ∀ userID, ∀ row ∈ getPhotoflow gallery.store userID,
      row ∈ store.photoflow.rows ∨ ∃ photo ∈ known, photo.id = row.id ∧ photo.owner_id = userID ∧
        ∃ url data, usableURL isURL photo = some url ∧ serves url data ∧ row.data = some data) := by
  have sound := sound_run (sound_launch store) ran
  refine ⟨sound.rows, ?_⟩
  intro oneOwner userID row member
  obtain ⟨stored, owner⟩ := List.mem_filter.mp member
  rcases sound.rows row stored with old | listed
  · exact Or.inl old
  · obtain ⟨⟨data, present, photo, known, key, url, usable, serves⟩, other, known', key', owner'⟩ :=
      listed
    refine Or.inr ⟨photo, known, key, ?_, url, data, usable, serves, present⟩
    rw [oneOwner photo known other known' (key.trans key'.symm), owner']
    exact of_decide_eq_true owner

def shownPhoto : Photo where
  id := 5
  owner_id := 7
  sizes := [{ type := some "x", url := some "https://vk.com/5.jpg" }]

def friendOnly : Store := { Store.empty with friends := Table.empty.upsert { id := 7 } }

def answerRun : List GalleryEvent :=
  [.photosAnswer 7 (some [shownPhoto]) .commits, .download 0 (some [255])]

def savedRun : List GalleryEvent := answerRun ++ [.mainBlock .commits]

theorem photoflow_from_answer :
    ∃ gallery, run (step (fun _ => true) (fun _ _ => true)) ⟨friendOnly, [], []⟩ savedRun =
        some gallery ∧
      ∀ row ∈ gallery.store.photoflow.rows, row ∈ friendOnly.photoflow.rows ∨
        FromListed (fun _ => true) (fun _ _ => true)
          (friendOnly.photos.rows ++ savedRun.flatMap listedPhotos) row :=
  ⟨_, rfl, (@photoflow_from_lists _ _ friendOnly savedRun _ rfl).1⟩

def afterQueue (gallery : Gallery) (id : Int) : Option Photoflow :=
  ((Table.latest Prod.fst gallery.mainQueue id).bind fun block =>
    (gallery.store.photos.find id).map fun photo =>
      ⟨photo.id, photo.owner_id, some block.2⟩).or (gallery.store.photoflow.find id)

theorem afterQueue_saved {gallery : Gallery} {photoID : Int} {data : Data}
    {mainQueue : List (Int × Data)} {photo : Photo}
    (block : gallery.mainQueue = (photoID, data) :: mainQueue)
    (found : gallery.store.photos.find photoID = some photo) :
    afterQueue { gallery with store := save photo data gallery.store, mainQueue } =
      gallery.afterQueue := by
  funext id
  have key := (Table.find_eq_some_iff.mp found).2
  have saved : (save photo data gallery.store).photoflow.find id =
      if photo.id = id then some ⟨photo.id, photo.owner_id, some data⟩
      else gallery.store.photoflow.find id := Table.find_upsert _ _ _
  have photos : (save photo data gallery.store).photos = gallery.store.photos := rfl
  simp only [afterQueue, block, saved, photos, Table.latest_cons, key]
  by_cases here : photoID = id
  · subst here
    cases Table.latest Prod.fst mainQueue photoID <;> simp [found, key]
  · simp [here]

theorem drain_of_stored {gallery : Gallery}
    (stored : ∀ id data, (id, data) ∈ gallery.mainQueue → id ∈ gallery.store.photos.keys) :
    ∃ final, run (step isURL serves) gallery
        (List.replicate gallery.mainQueue.length (.mainBlock .commits)) = some final ∧
      final.mainQueue = [] ∧ final.store.photoflow.find = gallery.afterQueue := by
  induction queue : gallery.mainQueue generalizing gallery with
  | nil =>
      refine ⟨gallery, rfl, queue, ?_⟩
      funext id
      simp [afterQueue, queue, Table.latest]
  | cons block mainQueue ih =>
      obtain ⟨photoID, data⟩ := block
      have key : photoID ∈ gallery.store.photos.keys :=
        stored photoID data (queue ▸ List.mem_cons_self)
      obtain ⟨photo, found⟩ := Option.isSome_iff_exists.mp (Table.find_isSome_iff.mpr key)
      have rest : ∀ id data, (id, data) ∈ mainQueue → id ∈ gallery.store.photos.keys :=
        fun id data member => stored id data (queue ▸ List.mem_cons_of_mem _ member)
      have action : step isURL serves gallery (.mainBlock .commits) =
          some { gallery with store := save photo data gallery.store, mainQueue } := by
        simp only [step, queue, found]
        rfl
      obtain ⟨final, ran, empty, rows⟩ :=
        @ih { gallery with store := save photo data gallery.store, mainQueue } rest rfl
      refine ⟨final, ?_, empty, rows.trans (afterQueue_saved queue found)⟩
      rw [List.length_cons, List.replicate_succ, run_cons, action, Option.bind_some, ran]

theorem gallery_drains {store : Store} {events : List GalleryEvent} {gallery : Gallery}
    (ran : run (step isURL serves) { store } events = some gallery) :
    ∃ final, run (step isURL serves) gallery
        (List.replicate gallery.mainQueue.length (.mainBlock .commits)) = some final ∧
      final.mainQueue = [] ∧ final.store.photoflow.find = gallery.afterQueue := by
  have sound := sound_run (sound_launch store) ran
  exact drain_of_stored fun id data member => (sound.blocks id data member).1

theorem answered_drains :
    ∃ gallery, run (step (fun _ => true) (fun _ _ => true)) ⟨friendOnly, [], []⟩ answerRun =
        some gallery ∧
      ∃ final, run (step (fun _ => true) (fun _ _ => true)) gallery
          (List.replicate gallery.mainQueue.length (.mainBlock .commits)) = some final ∧
        final.mainQueue = [] ∧ final.store.photoflow.find = gallery.afterQueue :=
  ⟨_, rfl, @gallery_drains _ _ friendOnly answerRun _ rfl⟩

section Cells
variable {Image : Type} (ui : Screens.UIKit Image)

/-- The image of a reused cell is assigned only if the row has data. -/
def assignImage (row : Photoflow) (image : Option Image) : Option Image :=
  match row.data with
  | some data => ui.imageData data
  | none => image

def cellForItemAt (photoflow : List Photoflow) (item : Nat) (photoflowImage : Option Image) :
    Option (Option Image) :=
  photoflow[item]?.map fun row => assignImage ui row photoflowImage

/-- The full screen keeps the objects that the gallery had when it was opened. -/
def fullScreenCell (photoArray : List Int) (store : Store) (item : Nat)
    (fullScreenImageView : Option Image) : Option (Option Image) := do
  let id ← photoArray[item]?
  let row ← store.photoflow.find id
  return assignImage ui row fullScreenImageView

def didSelectItemAt (photoflow : List Photoflow) : List Int := photoflow.map Photoflow.id

theorem Moves.keeps {gallery next : Gallery} {event : GalleryEvent}
    (moves : Moves isURL serves gallery event next) {id : Int}
    (stored : (gallery.store.photoflow.find id).isSome) :
    (next.store.photoflow.find id).isSome := by
  cases moves with
  | starts saved =>
      rcases savedPhotos saved with rfl | rfl
      · exact stored
      · exact stored
  | @saves _ data _ photo access _ _ _ =>
      by_cases commits : access = .commits
      · simp only [commits, if_true]
        show ((gallery.store.photoflow.upsert _).find id).isSome
        rw [Table.find_upsert]
        split
        · rfl
        · exact stored
      · simpa only [commits, if_false] using stored
  | refreshes | fails | answers => exact stored

theorem data_of_run {store : Store} (filled : ∀ row ∈ store.photoflow.rows, row.data.isSome)
    {events : List GalleryEvent} {gallery : Gallery}
    (ran : run (step isURL serves) { store } events = some gallery) {id : Int} {row : Photoflow}
    (found : gallery.store.photoflow.find id = some row) : ∃ data, row.data = some data := by
  have stored := (Table.find_eq_some_iff.mp found).1
  rcases (photoflow_from_lists ran).1 row stored with old | listed
  · exact Option.isSome_iff_exists.mp (filled row old)
  · obtain ⟨data, present, _⟩ := listed.served
    exact ⟨data, present⟩

theorem cells_show_their_rows {store : Store}
    (filled : ∀ row ∈ store.photoflow.rows, row.data.isSome) {events later : List GalleryEvent}
    {gallery next : Gallery} (ran : run (step isURL serves) { store } events = some gallery)
    (ran' : run (step isURL serves) gallery later = some next) {userID : Int} {item : Nat}
    {row : Photoflow} (shown : (getPhotoflow gallery.store userID)[item]? = some row)
    (image : Option Image) :
    ∃ data row' data', row.data = some data ∧ next.store.photoflow.find row.id = some row' ∧
      row'.data = some data' ∧
      cellForItemAt ui (getPhotoflow gallery.store userID) item image =
        some (ui.imageData data) ∧
      fullScreenCell ui (didSelectItemAt (getPhotoflow gallery.store userID)) next.store item
        image = some (ui.imageData data') := by
  have stored := (List.mem_filter.mp (List.mem_of_getElem? shown)).1
  have found := Table.find_key stored
  obtain ⟨data, present⟩ := data_of_run filled ran found
  have keeps : ∀ g e g', (g.store.photoflow.find row.id).isSome →
      step isURL serves g e = some g' → (g'.store.photoflow.find row.id).isSome :=
    fun _ _ _ here action => (moves_of_step action).keeps here
  obtain ⟨row', found'⟩ := Option.isSome_iff_exists.mp
    (run_invariant keeps (Option.isSome_of_eq_some found) ran')
  have whole : run (step isURL serves) { store } (events ++ later) = some next := by
    rw [run_append, ran, Option.bind_some, ran']
  obtain ⟨data', present'⟩ := data_of_run filled whole found'
  refine ⟨data, row', data', present, found', present', ?_, ?_⟩
  · simp [cellForItemAt, shown, assignImage, present]
  · simp [fullScreenCell, didSelectItemAt, shown, found', assignImage, present']

end Cells

def savedGallery : Gallery where
  store := { friendOnly with
    photos := Table.empty.upsert shownPhoto
    photoflow := Table.empty.upsert ⟨5, 7, some [255]⟩ }

theorem cell_shows_answer :
    run (step (fun _ => true) (fun _ _ => true)) ⟨friendOnly, [], []⟩ savedRun =
        some savedGallery ∧
      cellForItemAt Screens.pictures (getPhotoflow savedGallery.store 7) 0 none =
        some (Screens.pictures.imageData [255]) := by
  have ran : run (step (fun _ => true) (fun _ _ => true)) ⟨friendOnly, [], []⟩ savedRun =
      some savedGallery := rfl
  have shown : (getPhotoflow savedGallery.store 7)[0]? = some ⟨5, 7, some [255]⟩ := rfl
  obtain ⟨data, _, _, present, _, _, cell, _⟩ := cells_show_their_rows Screens.pictures
    (fun _ member => by cases member) ran (run_nil _ savedGallery) shown none
  cases present
  exact ⟨ran, cell⟩

end Gallery
end SocialApp.Photos
