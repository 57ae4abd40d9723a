import SocialApp.Photos.Downloads
import SocialApp.Photos.Owners

/-!
# Refreshing the photos of a user

`savePhotosMetaData` inserts and overwrites rows but removes none, unlike the refreshes of friends
and groups, which delete first. After several refreshes the user has the photos of all of them.
-/

namespace SocialApp.Photos
open Library Foundation Realm Machine

def refreshes {userID : Int} (lists : List (PhotosOf userID)) : List Save :=
  lists.map (.photosMetaData userID)

/-! ## Specification -/

structure ExactFor (userID : Int) (photos : List Photo) (store : Store) : Prop where
  oneRow : ∀ id, ((getPhotosMetaData store userID).map Photo.id).count id =
    if id ∈ photos.map Photo.id then 1 else 0
  contents : ∀ photo ∈ getPhotosMetaData store userID,
    Table.latest Photo.id photos photo.id = some photo
  offered : ∀ isURL screen,
    ∀ download ∈ (downloadPhotos isURL (getPhotosMetaData store userID) screen).1,
      download.photoID ∈ photos.map Photo.id

/-- The last list has every photo of the user that is stored or in an earlier list. -/
structure ReturnsAll {userID : Int} (store : Store) (earlier : List (PhotosOf userID))
    (last : PhotosOf userID) : Prop where
  stored : ∀ photo ∈ getPhotosMetaData store userID, photo.id ∈ last.photos.map Photo.id
  returned : ∀ list ∈ earlier, ∀ photo ∈ list.photos, photo.id ∈ last.photos.map Photo.id

def allPhotos {userID : Int} (lists : List (PhotosOf userID)) : List Photo :=
  lists.flatMap PhotosOf.photos

theorem owner_of_allPhotos {userID : Int} {lists : List (PhotosOf userID)} {photo : Photo}
    (member : photo ∈ allPhotos lists) : photo.owner_id = userID := by
  obtain ⟨list, _, member⟩ := List.mem_flatMap.mp member
  exact list.owned photo member

theorem run_refreshes {store : Store} {userID : Int} (isFriend : (store.friends.find userID).isSome)
    (lists : List (PhotosOf userID)) :
    run step store (refreshes lists) =
      some { store with photos := store.photos.upsertAll (allPhotos lists) } := by
  induction lists generalizing store with
  | nil => rfl
  | cons list lists ih =>
      have first : step store (.photosMetaData userID list) =
          some { store with photos := store.photos.upsertAll list.photos } :=
        step_photosMetaData.mpr ⟨isFriend, rfl⟩
      have rest := @ih { store with photos := store.photos.upsertAll list.photos } isFriend
      rw [refreshes] at rest
      rw [refreshes, List.map_cons, run_cons, first, Option.bind_some, rest]
      simp [allPhotos, Table.upsertAll]

theorem mem_getPhotosMetaData {store : Store} {userID : Int} {photo : Photo} :
    photo ∈ getPhotosMetaData store userID ↔
      store.photos.find photo.id = some photo ∧ photo.owner_id = userID := by
  simp [getPhotosMetaData, Table.find_eq_some_iff]

theorem count_getPhotosMetaData (store : Store) (userID id : Int) :
    ((getPhotosMetaData store userID).map Photo.id).count id =
      if id ∈ (getPhotosMetaData store userID).map Photo.id then 1 else 0 :=
  List.Nodup.count (store.photos.nodup.sublist (List.filter_sublist.map Photo.id))

theorem photoID_of_download {isURL : String → Bool} {photos : List Photo} {screen : PhotoflowScreen}
    {download : PhotoDownload} (member : download ∈ (downloadPhotos isURL photos screen).1) :
    download.photoID ∈ photos.map Photo.id := by
  rw [downloadPhotos_downloads, startDownloads_eq] at member
  obtain ⟨photo, taken, started⟩ := List.mem_filterMap.mp member
  obtain ⟨url, _, rfl⟩ := Option.map_eq_some_iff.mp started
  exact List.mem_map_of_mem (List.takeWhile_sublist _ |>.subset taken)

theorem ite_eq_ite_iff {P Q : Prop} [Decidable P] [Decidable Q] :
    (if P then 1 else 0) = (if Q then 1 else 0) ↔ (P ↔ Q) := by
  by_cases p : P <;> by_cases q : Q <;> simp [p, q]

theorem exactFor_iff {userID : Int} {photos : List Photo} {store : Store} :
    ExactFor userID photos store ↔
      (∀ id, id ∈ (getPhotosMetaData store userID).map Photo.id ↔ id ∈ photos.map Photo.id) ∧
        ∀ photo ∈ getPhotosMetaData store userID,
          Table.latest Photo.id photos photo.id = some photo := by
  constructor
  · intro holds
    have ids := holds.oneRow
    simp only [count_getPhotosMetaData, ite_eq_ite_iff] at ids
    exact ⟨ids, holds.contents⟩
  · intro same
    obtain ⟨ids, contents⟩ := same
    refine ⟨?_, contents, ?_⟩
    · simpa only [count_getPhotosMetaData, ite_eq_ite_iff] using ids
    · intro isURL screen download member
      exact (ids _).mp (photoID_of_download member)

theorem mem_ids_getPhotosMetaData {store : Store} {userID id : Int} :
    id ∈ (getPhotosMetaData store userID).map Photo.id ↔
      ∃ photo, store.photos.find id = some photo ∧ photo.owner_id = userID := by
  simp only [List.mem_map, mem_getPhotosMetaData]
  constructor
  · intro stored
    obtain ⟨photo, ⟨found, owner⟩, rfl⟩ := stored
    exact ⟨photo, found, owner⟩
  · intro stored
    obtain ⟨photo, found, owner⟩ := stored
    obtain ⟨_, rfl⟩ := Table.find_eq_some_iff.mp found
    exact ⟨photo, ⟨found, owner⟩, rfl⟩

theorem mem_ids_refreshed {store : Store} {userID id : Int} {lists : List (PhotosOf userID)} :
    id ∈ (getPhotosMetaData { store with photos := store.photos.upsertAll (allPhotos lists) }
        userID).map Photo.id ↔
      id ∈ (allPhotos lists).map Photo.id ∨
        id ∈ (getPhotosMetaData store userID).map Photo.id := by
  rw [mem_ids_getPhotosMetaData, mem_ids_getPhotosMetaData, ← Table.latest_isSome_iff]
  simp only [Table.find_upsertAll]
  cases last : Table.latest Photo.id (allPhotos lists) id with
  | none => simp
  | some photo => simp [owner_of_allPhotos (Table.mem_of_latest last)]

theorem allPhotos_concat {userID : Int} (earlier : List (PhotosOf userID))
    (last : PhotosOf userID) :
    allPhotos (earlier ++ [last]) = allPhotos earlier ++ last.photos := by
  simp [allPhotos]

theorem same_ids_iff {store : Store} {userID : Int} {earlier : List (PhotosOf userID)}
    {last : PhotosOf userID} :
    (∀ id, id ∈ (getPhotosMetaData
        { store with photos := store.photos.upsertAll (allPhotos (earlier ++ [last])) }
        userID).map Photo.id ↔ id ∈ last.photos.map Photo.id) ↔ ReturnsAll store earlier last := by
  simp only [mem_ids_refreshed]
  simp only [allPhotos_concat, List.map_append, List.mem_append]
  constructor
  · intro ids
    constructor
    · intro photo stored
      exact (ids photo.id).mp (Or.inr (List.mem_map_of_mem stored))
    · intro list member photo listed
      have before : photo ∈ allPhotos earlier := List.mem_flatMap.mpr ⟨list, member, listed⟩
      exact (ids photo.id).mp (Or.inl (Or.inl (List.mem_map_of_mem before)))
  · intro returns id
    constructor
    · intro known
      obtain (before | now) | old := known
      · obtain ⟨photo, photo_mem, rfl⟩ := List.mem_map.mp before
        obtain ⟨list, member, listed⟩ := List.mem_flatMap.mp photo_mem
        exact returns.returned list member photo listed
      · exact now
      · obtain ⟨photo, stored, rfl⟩ := List.mem_map.mp old
        exact returns.stored photo stored
    · exact fun now => Or.inl (Or.inr now)

theorem exactFor_refreshed_iff {store : Store} {userID : Int} {earlier : List (PhotosOf userID)}
    {last : PhotosOf userID} :
    ExactFor userID last.photos
        { store with photos := store.photos.upsertAll (allPhotos (earlier ++ [last])) } ↔
      ReturnsAll store earlier last := by
  rw [exactFor_iff, same_ids_iff]
  apply and_iff_left_of_imp
  intro returns photo member
  have key := (same_ids_iff.mpr returns photo.id).mp (List.mem_map_of_mem member)
  obtain ⟨saved, latest⟩ := Option.isSome_iff_exists.mp (Table.latest_isSome_iff.mpr key)
  have found := (mem_getPhotosMetaData.mp member).1
  simp only [allPhotos_concat, Table.find_upsertAll, Table.latest_append, latest, Option.some_or,
    Option.some.injEq] at found
  exact found ▸ latest

theorem photo_refresh_exact_iff {store : Store} {userID : Int}
    (isFriend : (store.friends.find userID).isSome) (earlier : List (PhotosOf userID))
    (last : PhotosOf userID) :
    (∃ after, run step store (refreshes (earlier ++ [last])) = some after ∧
        ExactFor userID last.photos after) ↔
      ReturnsAll store earlier last := by
  rw [run_refreshes isFriend]
  simp only [Option.some.injEq, exists_eq_left', exactFor_refreshed_iff]

def oneFriend : Store := { Store.empty with friends := Table.empty.upsert { id := 7 } }

def album (id : Int) : PhotosOf 7 := ⟨[{ id := id, owner_id := 7 }], by simp⟩

theorem photo_refresh_exact_again :
    ∃ after, run step oneFriend (refreshes ([album 1] ++ [album 1])) = some after ∧
      ExactFor 7 (album 1).photos after := by
  refine (photo_refresh_exact_iff (by decide) [album 1] (album 1)).mpr ⟨?_, ?_⟩
  · decide
  · decide

theorem removed_photo_stays :
    ¬ ∃ after, run step oneFriend (refreshes ([album 1] ++ [album 2])) = some after ∧
      ExactFor 7 (album 2).photos after := by
  intro refreshed
  obtain ⟨after, ran, holds⟩ := refreshed
  have stays : (run step oneFriend (refreshes ([album 1] ++ [album 2]))).map (fun after =>
      ((getPhotosMetaData after 7).map Photo.id).count 1) = some 1 := by decide
  rw [ran, Option.map_some, holds.oneRow] at stays
  revert stays
  decide

end SocialApp.Photos
