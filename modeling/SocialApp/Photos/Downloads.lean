import Mathlib.Data.List.TakeWhile
import SocialApp.Realm.Manager

/-!
# Downloading the photos of a user

`PhotoflowViewController.downloadPhotos` starts one download for each stored photo, from its first
size of type `x`. A photo without a usable one makes the loop return, before the photos behind it
and before the collection is reloaded and the activity indicator stopped.
-/

namespace SocialApp.Photos
open Library Foundation Realm

structure PhotoflowScreen where
  animating : Bool
  reloads : Nat
  deriving DecidableEq

structure PhotoDownload where
  photoID : Int
  ownerID : Int
  url : String
  deriving DecidableEq

def photoURL (photo : Photo) : Option String :=
  let size := photo.sizes.filter fun size => size.type = some "x"
  size.head?.bind PhotoSizes.url

variable (isURL : String → Bool)

def usableURL (photo : Photo) : Option String := (photoURL photo).filter isURL

/-- The loop, and whether it runs to its end. -/
def startDownloads : List Photo → List PhotoDownload × Bool
  | [] => ([], true)
  | photo :: photos =>
      match usableURL isURL photo with
      | none => ([], false)
      | some url =>
          let (downloads, ended) := startDownloads photos
          (⟨photo.id, photo.owner_id, url⟩ :: downloads, ended)

def stopActivityIndicator (screen : PhotoflowScreen) : PhotoflowScreen :=
  { screen with animating := false }

def reloadData (screen : PhotoflowScreen) : PhotoflowScreen :=
  { screen with reloads := screen.reloads + 1 }

def downloadPhotos (photoMetaData : List Photo) (screen : PhotoflowScreen) :
    List PhotoDownload × PhotoflowScreen :=
  match startDownloads isURL photoMetaData with
  | (downloads, false) => (downloads, screen)
  | (downloads, true) => (downloads, stopActivityIndicator (reloadData screen))

variable (contents : Int → String → Option Data)

/-- The row that the main queue saves once the download has brought its data. -/
def downloaded (download : PhotoDownload) : Option Photoflow :=
  (contents download.photoID download.url).map fun data =>
    ⟨download.photoID, download.ownerID, some data⟩

def runSaves (rows : List Photoflow) (store : Store) : Option Store :=
  rows.foldlM (fun store row => savePhotoflow .commits row.id row.ownerID row.data store) store

/-! ## Specification -/

def fetched (photo : Photo) : Option Photoflow :=
  (usableURL isURL photo).bind fun url => downloaded contents ⟨photo.id, photo.owner_id, url⟩

structure Handled (photos : List Photo) (screen : PhotoflowScreen) (before after : Store)
    (shown : PhotoflowScreen) : Prop where
  saved : ∀ photo ∈ photos, ∀ row, fetched isURL contents photo = some row →
    after.photoflow.find photo.id = some row
  others : ∀ id, (∀ photo ∈ photos, photo.id = id → fetched isURL contents photo = none) →
    after.photoflow.find id = before.photoflow.find id
  stopped : shown.animating = false
  reloaded : shown.reloads = screen.reloads + 1

/-- Whatever the order in which the downloads complete. -/
def HandlesEveryPhoto (store : Store) (userID : Int) (screen : PhotoflowScreen) : Prop :=
  let photos := getPhotosMetaData store userID
  let started := downloadPhotos isURL photos screen
  ∀ order, order.Perm (started.1.filterMap (downloaded contents)) →
    ∃ after, runSaves order store = some after ∧
      Handled isURL contents photos screen store after started.2

theorem startDownloads_eq (photos : List Photo) :
    startDownloads isURL photos =
      ((photos.takeWhile fun photo => (usableURL isURL photo).isSome).filterMap fun photo =>
          (usableURL isURL photo).map fun url => ⟨photo.id, photo.owner_id, url⟩,
        photos.all fun photo => (usableURL isURL photo).isSome) := by
  induction photos with
  | nil => rfl
  | cons photo photos ih =>
      cases usable : usableURL isURL photo with
      | none => simp [startDownloads, usable]
      | some url => simp [startDownloads, usable, ih]

theorem downloadPhotos_screen (photos : List Photo) (screen : PhotoflowScreen) :
    (downloadPhotos isURL photos screen).2 =
      if photos.all fun photo => (usableURL isURL photo).isSome then
        stopActivityIndicator (reloadData screen)
      else screen := by
  rw [downloadPhotos, startDownloads_eq]
  cases photos.all fun photo => (usableURL isURL photo).isSome <;> rfl

theorem downloadPhotos_downloads (photos : List Photo) (screen : PhotoflowScreen) :
    (downloadPhotos isURL photos screen).1 = (startDownloads isURL photos).1 := by
  unfold downloadPhotos
  split <;> simp [*]

variable {isURL} in
theorem downloads_of_usable {photos : List Photo}
    (usable : ∀ photo ∈ photos, (usableURL isURL photo).isSome) :
    (startDownloads isURL photos).1.filterMap (downloaded contents) =
      photos.filterMap (fetched isURL contents) := by
  rw [startDownloads_eq, List.takeWhile_eq_self_iff.mpr usable, List.filterMap_filterMap]
  apply List.filterMap_congr
  intro photo _
  rw [fetched, Option.bind_map]
  rfl

theorem runSaves_eq (rows : List Photoflow) (store : Store) :
    runSaves rows store = some { store with photoflow := store.photoflow.upsertAll rows } := by
  induction rows generalizing store with
  | nil => rfl
  | cons row rows ih => exact ih { store with photoflow := store.photoflow.upsert row }

theorem fetched_id {photo : Photo} {row : Photoflow}
    (got : fetched isURL contents photo = some row) : row.id = photo.id := by
  simp only [fetched, downloaded, Option.bind_eq_some_iff, Option.map_eq_some_iff] at got
  obtain ⟨_, _, _, _, rfl⟩ := got
  rfl

theorem distinct_fetched {photos : List Photo} (distinct : (photos.map Photo.id).Nodup) :
    ((photos.filterMap (fetched isURL contents)).map Photoflow.id).Nodup :=
  Table.nodup_filterMap (fun _ _ got => fetched_id isURL contents got) distinct

theorem handled_of_complete {photos : List Photo} (distinct : (photos.map Photo.id).Nodup)
    (store : Store) (screen : PhotoflowScreen) {order : List Photoflow}
    (complete : order.Perm (photos.filterMap (fetched isURL contents))) :
    Handled isURL contents photos screen store
      { store with photoflow := store.photoflow.upsertAll order }
      (stopActivityIndicator (reloadData screen)) where
  saved photo member row got := by
    have listed : row ∈ order := complete.mem_iff.mpr (List.mem_filterMap.mpr ⟨photo, member, got⟩)
    have keys := (complete.map Photoflow.id).nodup_iff.mpr
      (distinct_fetched isURL contents distinct)
    show (store.photoflow.upsertAll order).find photo.id = some row
    rw [Table.find_upsertAll,
      (Table.latest_eq_some_iff keys).mpr ⟨listed, fetched_id isURL contents got⟩, Option.some_or]
  others id absent := by
    show (store.photoflow.upsertAll order).find id = store.photoflow.find id
    have unsaved : id ∉ order.map Photoflow.id := by
      intro saved
      obtain ⟨row, ordered, rfl⟩ := List.mem_map.mp saved
      obtain ⟨photo, listed, got⟩ := List.mem_filterMap.mp (complete.mem_iff.mp ordered)
      have none := absent photo listed (fetched_id isURL contents got).symm
      simp [none] at got
    rw [← Table.latest_isSome_iff, Option.not_isSome_iff_eq_none] at unsaved
    rw [Table.find_upsertAll, unsaved, Option.none_or]
  stopped := rfl
  reloaded := rfl

theorem handlesEveryPhoto_iff (store : Store) (userID : Int) (screen : PhotoflowScreen) :
    HandlesEveryPhoto isURL contents store userID screen ↔
      ∀ photo ∈ getPhotosMetaData store userID, (usableURL isURL photo).isSome := by
  have ended := downloadPhotos_screen isURL (getPhotosMetaData store userID) screen
  constructor
  · intro handles
    obtain ⟨after, _, handled⟩ := handles _ (List.Perm.refl _)
    have shown := handled.reloaded
    rw [ended] at shown
    split at shown
    · exact List.all_eq_true.mp ‹_›
    · omega
  · intro usable order complete
    rw [downloadPhotos_downloads, downloads_of_usable contents usable] at complete
    refine ⟨_, runSaves_eq order store, ?_⟩
    rw [ended, if_pos (List.all_eq_true.mpr usable)]
    apply handled_of_complete isURL contents ?_ store screen complete
    exact store.photos.nodup.sublist (List.filter_sublist.map Photo.id)

def onlySmallFirst : Store where
  friends := .empty
  groups := .empty
  photos := ⟨[
    { id := 1, owner_id := 7, sizes := [{ type := some "m", url := some "https://a" }] },
    { id := 2, owner_id := 7, sizes := [{ type := some "x", url := some "https://b" }] }],
    by decide⟩
  photoflow := .empty

theorem photo_without_x_stops_the_loop :
    ¬ HandlesEveryPhoto (fun _ => true) (fun _ _ => some [255]) onlySmallFirst 7 ⟨true, 0⟩ := by
  intro handles
  obtain ⟨after, ran, handled⟩ := handles _ (List.Perm.refl _)
  have stopped := handled.stopped
  revert stopped
  decide

end SocialApp.Photos
