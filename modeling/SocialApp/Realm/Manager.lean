import SocialApp.Realm.Objects

/-!
# `RealmManager`

Every method opens the Realm and most run one write transaction. How these two end is a parameter
of the method; a method that traps returns `none`. `deleteGroupObjects` is
`deleteObjects(delete: Group.self)`.
-/

namespace SocialApp.Realm
open Library Foundation

inductive Access
  | openFails
  | writeFails
  | commits
  deriving DecidableEq

/-- `let realm = try! Realm()`, then `try? realm.write`. -/
def Access.write (access : Access) (update : Store → Store) (store : Store) : Option Store :=
  match access with
  | .openFails => none
  | .writeFails => some store
  | .commits => some (update store)

/-- `let realm = try Realm()` inside `do … catch`, then `try! realm.write`. -/
def Access.forceWrite (access : Access) (update : Store → Store) (store : Store) : Option Store :=
  match access with
  | .openFails => some store
  | .writeFails => none
  | .commits => some (update store)

@[simp] theorem write_commits (update : Store → Store) (store : Store) :
    Access.commits.write update store = some (update store) := rfl

@[simp] theorem forceWrite_commits (update : Store → Store) (store : Store) :
    Access.commits.forceWrite update store = some (update store) := rfl

/-! ## Friends -/

def saveGotFriendsInRealm (access : Access) (friends : List Friend) : Store → Option Store :=
  access.write fun store => { store with friends := store.friends.upsertAll friends }

def setFriendAvatar (data : Option Data) (userID : Int) (friends : Table Friend.id) :
    Table Friend.id :=
  friends.modify userID (fun friend => { friend with avatar := data }) fun _ => rfl

def saveAvatarForUserID (access : Access) (data : Option Data) (userID : Int) :
    Store → Option Store :=
  access.write fun store => { store with friends := setFriendAvatar data userID store.friends }

def friendsGetFromRealm (store : Store) : Table Friend.id := store.friends

def deleteAllFriendsObject (access : Access) : Store → Option Store :=
  access.forceWrite fun store => { store with friends := .empty }

/-! ## Groups -/

def saveGotGroupsInRealm (access : Access) (groups : List Group) : Store → Option Store :=
  access.write fun store => { store with groups := store.groups.upsertAll groups }

def setGroupAvatar (data : Option Data) (groupID : Int) (groups : Table Group.id) :
    Table Group.id :=
  groups.modify groupID (fun group => { group with avatar := data }) fun _ => rfl

def saveAvatarForGroupID (access : Access) (data : Option Data) (groupID : Int) :
    Store → Option Store :=
  access.write fun store => { store with groups := setGroupAvatar data groupID store.groups }

def groupsGetFromRealm (store : Store) : Table Group.id := store.groups

def deleteGroupObjects (access : Access) : Store → Option Store :=
  access.forceWrite fun store => { store with groups := .empty }

def deleteAllGroupsObject (access : Access) : Store → Option Store :=
  access.forceWrite fun store => { store with groups := .empty }

/-! ## Photos -/

/-- The friend is looked up by primary key and force-unwrapped before the transaction. The list
assigned to its `photos` stays in memory; the transaction stores the photos themselves. -/
def savePhotosMetaData (access : Access) (photos : List Photo) (userID : Int) (store : Store) :
    Option Store :=
  match access with
  | .openFails => some store
  | .writeFails => (store.friends.find userID).map fun _ => store
  | .commits => (store.friends.find userID).map fun _ =>
      { store with photos := store.photos.upsertAll photos }

def getPhotosMetaData (store : Store) (userID : Int) : List Photo :=
  store.photos.rows.filter fun photo => photo.owner_id = userID

def deleteAllPhotos (access : Access) : Store → Option Store :=
  access.forceWrite fun store => { store with photos := .empty }

def savePhotoflow (access : Access) (photoID ownerID : Int) (data : Option Data) :
    Store → Option Store :=
  access.write fun store =>
    { store with photoflow := store.photoflow.upsert ⟨photoID, ownerID, data⟩ }

def getPhotoflow (store : Store) (userID : Int) : List Photoflow :=
  store.photoflow.rows.filter fun photoflow => photoflow.ownerID = userID

def deletePhotoflow (access : Access) (userID : Int) : Store → Option Store :=
  access.forceWrite fun store =>
    { store with photoflow := store.photoflow.removeAll fun row => row.ownerID = userID }

end SocialApp.Realm
