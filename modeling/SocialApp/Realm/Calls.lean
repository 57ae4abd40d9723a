import SocialApp.Library.Component
import SocialApp.Realm.Maps

/-!
# Calls of `RealmManager` that may fail

The app calls the writing methods in any order, and each opening of the Realm and each transaction
may fail. A run of such calls is the same run on four maps from primary keys to rows, traps
included. Each map is edited by the calls for its table only, so runs that agree on the order of
the calls for each table and end without a trap end in the same store.
-/

namespace SocialApp.Realm
open Library Foundation Machine

inductive Call
  | saveGotFriendsInRealm (friends : List Friend)
  | saveAvatarForUserID (image : Option Data) (userID : Int)
  | deleteAllFriendsObject
  | saveGotGroupsInRealm (groups : List Group)
  | saveAvatarForGroupID (image : Option Data) (groupID : Int)
  | deleteAllGroupsObject
  | deleteGroupObjects
  | savePhotosMetaData (photos : List Photo) (userID : Int)
  | deleteAllPhotos
  | savePhotoflow (photoID ownerID : Int) (data : Option Data)
  | deletePhotoflow (userID : Int)

structure Attempt where
  call : Call
  access : Access

namespace Attempt

def step : Machine Store Attempt
  | store, ⟨.saveGotFriendsInRealm friends, access⟩ =>
      Realm.saveGotFriendsInRealm access friends store
  | store, ⟨.saveAvatarForUserID image userID, access⟩ =>
      Realm.saveAvatarForUserID access image userID store
  | store, ⟨.deleteAllFriendsObject, access⟩ => Realm.deleteAllFriendsObject access store
  | store, ⟨.saveGotGroupsInRealm groups, access⟩ => Realm.saveGotGroupsInRealm access groups store
  | store, ⟨.saveAvatarForGroupID image groupID, access⟩ =>
      Realm.saveAvatarForGroupID access image groupID store
  | store, ⟨.deleteAllGroupsObject, access⟩ => Realm.deleteAllGroupsObject access store
  | store, ⟨.deleteGroupObjects, access⟩ => Realm.deleteGroupObjects access store
  | store, ⟨.savePhotosMetaData photos userID, access⟩ =>
      Realm.savePhotosMetaData access photos userID store
  | store, ⟨.deleteAllPhotos, access⟩ => Realm.deleteAllPhotos access store
  | store, ⟨.savePhotoflow photoID ownerID data, access⟩ =>
      Realm.savePhotoflow access photoID ownerID data store
  | store, ⟨.deletePhotoflow userID, access⟩ => Realm.deletePhotoflow access userID store

end Attempt

structure Maps where
  friends : Int → Option Friend
  groups : Int → Option Group
  photos : Int → Option Photo
  photoflow : Int → Option Photoflow

def Store.maps (store : Store) : Maps :=
  ⟨store.friends.find, store.groups.find, store.photos.find, store.photoflow.find⟩

def overlay {ρ : Type} (key : ρ → Int) (rows : List ρ) (m : Int → Option ρ) : Int → Option ρ :=
  fun id => (Table.latest key rows id).or (m id)

def assignAvatar {ρ : Type} (setAvatar : Option Data → ρ → ρ) (image : Option Data) (id : Int)
    (m : Int → Option ρ) : Int → Option ρ :=
  Function.update m id ((m id).map (setAvatar image))

namespace Maps

def commit (maps : Maps) : Call → Maps
  | .saveGotFriendsInRealm friends =>
      { maps with friends := overlay Friend.id friends maps.friends }
  | .saveAvatarForUserID image userID =>
      { maps with friends := assignAvatar Operation.friendWithAvatar image userID maps.friends }
  | .deleteAllFriendsObject => { maps with friends := fun _ => none }
  | .saveGotGroupsInRealm groups => { maps with groups := overlay Group.id groups maps.groups }
  | .saveAvatarForGroupID image groupID =>
      { maps with groups := assignAvatar Operation.groupWithAvatar image groupID maps.groups }
  | .deleteAllGroupsObject | .deleteGroupObjects => { maps with groups := fun _ => none }
  | .savePhotosMetaData photos _ => { maps with photos := overlay Photo.id photos maps.photos }
  | .deleteAllPhotos => { maps with photos := fun _ => none }
  | .savePhotoflow photoID ownerID data =>
      { maps with
        photoflow := Function.update maps.photoflow photoID (some ⟨photoID, ownerID, data⟩) }
  | .deletePhotoflow userID =>
      { maps with
        photoflow := fun id => (maps.photoflow id).filter fun row => row.ownerID ≠ userID }

/-- A save traps where the Realm does not open, a deletion where its transaction fails, and a save
of photos where it gets as far as to unwrap a friend that is not there. -/
def traps (maps : Maps) : Attempt → Bool
  | ⟨.savePhotosMetaData _ userID, access⟩ =>
      access != .openFails && (maps.friends userID).isNone
  | ⟨.deleteAllFriendsObject, access⟩ | ⟨.deleteAllGroupsObject, access⟩
  | ⟨.deleteGroupObjects, access⟩ | ⟨.deleteAllPhotos, access⟩ | ⟨.deletePhotoflow _, access⟩ =>
      access == .writeFails
  | ⟨_, access⟩ => access == .openFails

def step : Machine Maps Attempt
  | maps, attempt =>
      if maps.traps attempt then none
      else if attempt.access = .commits then some (maps.commit attempt.call)
      else some maps

end Maps

section
variable {store : Store} {call : Call} {access : Access} {update : Store → Store}

theorem map_write (saves : store.maps.traps ⟨call, access⟩ = (access == .openFails))
    (commits : (update store).maps = store.maps.commit call) :
    (access.write update store).map Store.maps = store.maps.step ⟨call, access⟩ := by
  rw [Maps.step, saves, ← commits]
  cases access <;> rfl

theorem map_forceWrite (deletes : store.maps.traps ⟨call, access⟩ = (access == .writeFails))
    (commits : (update store).maps = store.maps.commit call) :
    (access.forceWrite update store).map Store.maps = store.maps.step ⟨call, access⟩ := by
  rw [Maps.step, deletes, ← commits]
  cases access <;> rfl

end

theorem find_overlay {ρ : Type} {key : ρ → Int} (table : Table key) (rows : List ρ) :
    (table.upsertAll rows).find = overlay key rows table.find := by
  funext id
  exact Table.find_upsertAll table rows id

theorem map_savePhotosMetaData (store : Store) (photos : List Photo) (userID : Int)
    (access : Access) :
    (savePhotosMetaData access photos userID store).map Store.maps =
      store.maps.step ⟨.savePhotosMetaData photos userID, access⟩ := by
  have found := find_overlay store.photos photos
  have friend : store.maps.friends userID = store.friends.find userID := rfl
  cases access with
  | openFails => rfl
  | writeFails =>
      cases present : store.friends.find userID <;>
        simp [savePhotosMetaData, Maps.step, Maps.traps, friend, present]
  | commits =>
      cases present : store.friends.find userID <;>
        simp [savePhotosMetaData, Maps.step, Maps.traps, present, Maps.commit, Store.maps, found]

theorem map_step (store : Store) (attempt : Attempt) :
    (Attempt.step store attempt).map Store.maps = store.maps.step attempt := by
  obtain ⟨call, access⟩ := attempt
  cases call with
  | saveGotFriendsInRealm friends =>
      have found := find_overlay store.friends friends
      apply map_write rfl
      exact congrArg (fun friends => { store.maps with friends }) found
  | saveAvatarForUserID image userID =>
      have found : (setFriendAvatar image userID store.friends).find =
          assignAvatar Operation.friendWithAvatar image userID store.friends.find :=
        Edit.find_assigned Operation.friendWithAvatar (fun _ _ => rfl) store.friends userID image
      apply map_write rfl
      exact congrArg (fun friends => { store.maps with friends }) found
  | deleteAllFriendsObject => apply map_forceWrite <;> rfl
  | saveGotGroupsInRealm groups =>
      have found := find_overlay store.groups groups
      apply map_write rfl
      exact congrArg (fun groups => { store.maps with groups }) found
  | saveAvatarForGroupID image groupID =>
      have found : (setGroupAvatar image groupID store.groups).find =
          assignAvatar Operation.groupWithAvatar image groupID store.groups.find :=
        Edit.find_assigned Operation.groupWithAvatar (fun _ _ => rfl) store.groups groupID image
      apply map_write rfl
      exact congrArg (fun groups => { store.maps with groups }) found
  | deleteAllGroupsObject => apply map_forceWrite <;> rfl
  | deleteGroupObjects => apply map_forceWrite <;> rfl
  | savePhotosMetaData photos userID => exact map_savePhotosMetaData store photos userID access
  | deleteAllPhotos => apply map_forceWrite <;> rfl
  | savePhotoflow photoID ownerID data =>
      have found : (store.photoflow.upsert ⟨photoID, ownerID, data⟩).find =
          Function.update store.photoflow.find photoID (some ⟨photoID, ownerID, data⟩) := by
        funext id
        rw [Table.find_upsert, Function.update_apply]
        simp only [eq_comm]
      apply map_write rfl
      exact congrArg (fun photoflow => { store.maps with photoflow }) found
  | deletePhotoflow userID =>
      have found : (store.photoflow.removeAll fun row => row.ownerID = userID).find =
          fun id => (store.photoflow.find id).filter fun row => row.ownerID ≠ userID := by
        funext id
        rw [Table.find_removeAll]
        simp only [decide_not]
      apply map_forceWrite rfl
      exact congrArg (fun photoflow => { store.maps with photoflow }) found

theorem calls_refine_maps (store : Store) (attempts : List Attempt) :
    (run Attempt.step store attempts).map Store.maps = run Maps.step store.maps attempts := by
  induction attempts generalizing store with
  | nil => rfl
  | cons attempt attempts ih =>
      rw [run_cons, run_cons, ← map_step store attempt, Option.map_bind, Option.bind_map]
      exact Option.bind_congr fun final _ => ih final

def Store.commit (store : Store) : Call → Store
  | .saveGotFriendsInRealm friends => { store with friends := store.friends.upsertAll friends }
  | .saveAvatarForUserID image userID =>
      { store with friends := setFriendAvatar image userID store.friends }
  | .deleteAllFriendsObject => { store with friends := .empty }
  | .saveGotGroupsInRealm groups => { store with groups := store.groups.upsertAll groups }
  | .saveAvatarForGroupID image groupID =>
      { store with groups := setGroupAvatar image groupID store.groups }
  | .deleteAllGroupsObject | .deleteGroupObjects => { store with groups := .empty }
  | .savePhotosMetaData photos _ => { store with photos := store.photos.upsertAll photos }
  | .deleteAllPhotos => { store with photos := .empty }
  | .savePhotoflow photoID ownerID data =>
      { store with photoflow := store.photoflow.upsert ⟨photoID, ownerID, data⟩ }
  | .deletePhotoflow userID =>
      { store with photoflow := store.photoflow.removeAll fun row => row.ownerID = userID }

section
variable {store final : Store} {call : Call} {access : Access}

theorem eq_of_write (action : access.write (·.commit call) store = some final) :
    final = if access = .commits then store.commit call else store := by
  cases access with
  | openFails => cases action
  | writeFails | commits => cases action; rfl

theorem eq_of_forceWrite (action : access.forceWrite (·.commit call) store = some final) :
    final = if access = .commits then store.commit call else store := by
  cases access with
  | writeFails => cases action
  | openFails | commits => cases action; rfl

end

theorem step_commits {store final : Store} {attempt : Attempt}
    (action : Attempt.step store attempt = some final) :
    final = if attempt.access = .commits then store.commit attempt.call else store := by
  obtain ⟨call, access⟩ := attempt
  cases call with
  | savePhotosMetaData photos userID =>
      simp only [Attempt.step, savePhotosMetaData] at action
      cases access with
      | openFails => cases action; rfl
      | writeFails | commits =>
          obtain ⟨_, _, rfl⟩ := Option.map_eq_some_iff.mp action
          rfl
  | saveGotFriendsInRealm | saveAvatarForUserID | saveGotGroupsInRealm | saveAvatarForGroupID
  | savePhotoflow => exact eq_of_write action
  | deleteAllFriendsObject | deleteAllGroupsObject | deleteGroupObjects | deleteAllPhotos
  | deletePhotoflow => exact eq_of_forceWrite action

def tableComponent {ρ : Type} {key : ρ → Int} (table : Store → Table key)
    (update : Call → Option (Table key → Table key))
    (commits : ∀ store call, table (store.commit call) =
      (update call).elim (table store) (· (table store))) : Component Attempt.step (Table key) where
  value := table
  effect attempt := if attempt.access = .commits then update attempt.call else none
  moves action := by
    rw [step_commits action]
    split
    · exact commits _ _
    · rfl

def friendsComponent : Component Attempt.step (Table Friend.id) :=
  tableComponent Store.friends
    (fun
      | .saveGotFriendsInRealm friends => some (·.upsertAll friends)
      | .saveAvatarForUserID image userID => some (setFriendAvatar image userID)
      | .deleteAllFriendsObject => some fun _ => .empty
      | _ => none)
    fun _ call => by cases call <;> rfl

def groupsComponent : Component Attempt.step (Table Group.id) :=
  tableComponent Store.groups
    (fun
      | .saveGotGroupsInRealm groups => some (·.upsertAll groups)
      | .saveAvatarForGroupID image groupID => some (setGroupAvatar image groupID)
      | .deleteAllGroupsObject | .deleteGroupObjects => some fun _ => .empty
      | _ => none)
    fun _ call => by cases call <;> rfl

def photosComponent : Component Attempt.step (Table Photo.id) :=
  tableComponent Store.photos
    (fun
      | .savePhotosMetaData photos _ => some (·.upsertAll photos)
      | .deleteAllPhotos => some fun _ => .empty
      | _ => none)
    fun _ call => by cases call <;> rfl

def photoflowComponent : Component Attempt.step (Table Photoflow.id) :=
  tableComponent Store.photoflow
    (fun
      | .savePhotoflow photoID ownerID data => some (·.upsert ⟨photoID, ownerID, data⟩)
      | .deletePhotoflow userID => some (·.removeAll fun row => row.ownerID = userID)
      | _ => none)
    fun _ call => by cases call <;> rfl

/-- The transactions that commit on each table are the same, in the same order. -/
structure SameOrder (attempts others : List Attempt) : Prop where
  friends : friendsComponent.touching attempts = friendsComponent.touching others
  groups : groupsComponent.touching attempts = groupsComponent.touching others
  photos : photosComponent.touching attempts = photosComponent.touching others
  photoflow : photoflowComponent.touching attempts = photoflowComponent.touching others

theorem interleavings_end_alike {attempts others : List Attempt} (same : SameOrder attempts others)
    {store final final' : Store} (ran : run Attempt.step store attempts = some final)
    (ran' : run Attempt.step store others = some final') : final = final' := by
  have friends : final.friends = final'.friends :=
    friendsComponent.value_congr same.friends ran ran'
  have groups : final.groups = final'.groups := groupsComponent.value_congr same.groups ran ran'
  have photos : final.photos = final'.photos := photosComponent.value_congr same.photos ran ran'
  have photoflow : final.photoflow = final'.photoflow :=
    photoflowComponent.value_congr same.photoflow ran ran'
  cases final
  cases final'
  simp only [Store.mk.injEq]
  exact ⟨friends, groups, photos, photoflow⟩

def savesFriends : Attempt := ⟨.saveGotFriendsInRealm [{ id := 1 }], .commits⟩
def savesGroups : Attempt := ⟨.saveGotGroupsInRealm [{ id := 2 }], .commits⟩

theorem saves_interleave :
    (Store.empty.commit savesFriends.call).commit savesGroups.call =
      (Store.empty.commit savesGroups.call).commit savesFriends.call :=
  @interleavings_end_alike [savesFriends, savesGroups] [savesGroups, savesFriends]
    ⟨rfl, rfl, rfl, rfl⟩ .empty _ _ rfl rfl

end SocialApp.Realm
