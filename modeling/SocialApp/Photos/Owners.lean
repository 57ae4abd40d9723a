import SocialApp.Library.Machine
import SocialApp.Realm.Manager

/-!
# Whose photos a save touches

The server identifies a photo by its owner and its id; the tables `Photo` and `Photoflow` use the
id alone as primary key. Saves for one user can therefore only be told apart from the rows of
another while no id is used by both.
-/

namespace SocialApp.Photos
open Library Foundation Realm

structure PhotosOf (userID : Int) where
  photos : List Photo
  owned : ∀ photo ∈ photos, photo.owner_id = userID

inductive Save
  | photosMetaData (userID : Int) (photos : PhotosOf userID)
  | photoflow (photoID ownerID : Int) (data : Option Data)

def Save.user : Save → Int
  | photosMetaData userID _ => userID
  | photoflow _ ownerID _ => ownerID

def step : Machine Store Save
  | store, .photosMetaData userID photos => savePhotosMetaData .commits photos.photos userID store
  | store, .photoflow photoID ownerID data => savePhotoflow .commits photoID ownerID data store

/-! ## Specification -/

structure Untouched (userID : Int) (before after : Store) : Prop where
  photos : getPhotosMetaData after userID = getPhotosMetaData before userID
  photoflow : getPhotoflow after userID = getPhotoflow before userID
  kept : ∀ photo, photo.owner_id = userID → before.photos.find photo.id = some photo →
    after.photos.find photo.id = some photo

def Isolated (store : Store) (save : Save) : Prop :=
  ∀ after, step store save = some after → ∀ v, v ≠ save.user → Untouched v store after

/-- No id that the save writes is in use by another owner. A user without `Friend` row saves no
photos at all. -/
def FreshIds (store : Store) : Save → Prop
  | .photosMetaData userID photos => (store.friends.find userID).isSome →
      ∀ photo ∈ photos.photos, ∀ stored, store.photos.find photo.id = some stored →
        stored.owner_id = userID
  | .photoflow photoID ownerID _ => ∀ stored, store.photoflow.find photoID = some stored →
      stored.ownerID = ownerID

theorem untouched_of_selection {userID : Int} {before after : Store}
    (photos : getPhotosMetaData after userID = getPhotosMetaData before userID)
    (photoflow : getPhotoflow after userID = getPhotoflow before userID) :
    Untouched userID before after where
  photos := photos
  photoflow := photoflow
  kept photo owner found := by
    have member : photo ∈ getPhotosMetaData after userID := by
      rw [photos]
      simpa [getPhotosMetaData, owner] using (Table.find_eq_some_iff.mp found).1
    exact Table.find_key (List.mem_filter.mp member).1

theorem step_photosMetaData {store after : Store} {userID : Int} {photos : PhotosOf userID} :
    step store (.photosMetaData userID photos) = some after ↔
      (store.friends.find userID).isSome ∧
        { store with photos := store.photos.upsertAll photos.photos } = after := by
  simp [step, savePhotosMetaData, Option.isSome_iff_exists]

theorem owner_of_saved {userID : Int} (photos : PhotosOf userID) (table : Table Photo.id)
    {photo stored : Photo} (member : photo ∈ photos.photos)
    (found : (table.upsertAll photos.photos).find photo.id = some stored) :
    stored.owner_id = userID := by
  have present : (Table.latest Photo.id photos.photos photo.id).isSome :=
    Table.latest_isSome_iff.mpr (List.mem_map_of_mem member)
  obtain ⟨last, isLast⟩ := Option.isSome_iff_exists.mp present
  rw [Table.find_upsertAll, isLast, Option.some_or, Option.some.injEq] at found
  exact photos.owned stored (found ▸ List.mem_reverse.mp (List.mem_of_find?_eq_some isLast))

theorem isolated_photosMetaData (store : Store) (userID : Int) (photos : PhotosOf userID) :
    Isolated store (.photosMetaData userID photos) ↔
      FreshIds store (.photosMetaData userID photos) := by
  simp only [Isolated, step_photosMetaData, and_imp, FreshIds, Save.user]
  constructor
  · intro isolated friend photo member stored found
    by_contra other
    -- the stored row would have to survive under the id of the new photo
    have kept := (isolated _ friend rfl stored.owner_id other).kept stored rfl
      ((Table.find_eq_some_iff.mp found).2 ▸ found)
    rw [(Table.find_eq_some_iff.mp found).2] at kept
    exact other (owner_of_saved photos store.photos member kept)
  · intro fresh after friend same v other
    subst same
    refine untouched_of_selection ?_ rfl
    refine Table.filter_upsertAll (fun photo member => ?_) fun photo member stored found => ?_
    · simpa [photos.owned photo member] using Ne.symm other
    · simpa [fresh friend photo member stored found] using Ne.symm other

theorem isolated_photoflow (store : Store) (photoID ownerID : Int) (data : Option Data) :
    Isolated store (.photoflow photoID ownerID data) ↔
      FreshIds store (.photoflow photoID ownerID data) := by
  simp only [Isolated, step, savePhotoflow, write_commits, Option.some.injEq, forall_eq', FreshIds,
    Save.user]
  constructor
  · intro isolated stored found
    by_contra other
    have same := (isolated stored.ownerID other).photoflow
    obtain ⟨member, rfl⟩ := Table.find_eq_some_iff.mp found
    have selected : stored ∈ getPhotoflow store stored.ownerID := by simp [getPhotoflow, member]
    rw [← same] at selected
    rcases Table.mem_upsert.mp (List.mem_filter.mp selected).1 with replaced | ⟨_, different⟩
    · exact other (congrArg Photoflow.ownerID replaced)
    · exact different rfl
  · intro fresh v other
    refine untouched_of_selection rfl ?_
    refine Table.filter_upsert ?_ fun stored found => ?_
    · simpa using Ne.symm other
    · simpa [fresh stored found] using Ne.symm other

theorem photos_isolated_iff (store : Store) (saves : List Save) :
    Machine.Along step Isolated store saves ↔ Machine.Along step FreshIds store saves := by
  refine Machine.along_congr (I := fun _ => True) (fun _ _ _ _ _ => trivial) ?_ trivial saves
  intro store save _
  cases save with
  | photosMetaData userID photos => exact isolated_photosMetaData store userID photos
  | photoflow photoID ownerID data => exact isolated_photoflow store photoID ownerID data

def twoAlbums : Store :=
  { Store.empty with
    friends := Table.empty.upsertAll [{ id := 1 }, { id := 2 }]
    photos := Table.empty.upsert { id := 5, owner_id := 2 } }

theorem same_id_overwrites :
    ¬ ∀ (store : Store) (saves : List Save), Machine.Along step Isolated store saves := by
  intro all
  have isolated := (all twoAlbums [.photosMetaData 1 ⟨[{ id := 5, owner_id := 1 }], by simp⟩]).1
  have fresh := (isolated_photosMetaData _ _ _).mp isolated (by decide)
  exact absurd (fresh _ List.mem_cons_self { id := 5, owner_id := 2 } (by decide)) (by decide)

end SocialApp.Photos
