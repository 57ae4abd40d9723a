import SocialApp.Network.FriendsRefresh

/-!
# Avatar downloads

Each object of a list starts a download of its `photo50`; a download that succeeds queues a save
on the main queue. The saves run in the order in which the downloads complete. The loop
`for object in objects { if let url = URL(string: object.photo50!) { … } }` stands in three places:
`AvatarDownloader`, `DownloadingAvatarsOperation.main` and `GroupsTableViewController`.
-/

namespace SocialApp.Network
open Library Foundation Realm

inductive AvatarSave
  | saveAvatarForUserID (userID : Int)
  | saveAvatarForGroupID (groupID : Int)
  deriving DecidableEq

def AvatarSave.id : AvatarSave → Int
  | saveAvatarForUserID userID => userID
  | saveAvatarForGroupID groupID => groupID

def AvatarSave.run (image : Data) : AvatarSave → Store → Option Store
  | saveAvatarForUserID userID => Realm.saveAvatarForUserID .commits (some image) userID
  | saveAvatarForGroupID groupID => Realm.saveAvatarForGroupID .commits (some image) groupID

structure Download where
  url : String
  save : AvatarSave
  deriving DecidableEq

section Loop
variable {ρ : Type} (isURL : String → Bool) (save : Int → AvatarSave)
  (id : ρ → Int) (photo50 : ρ → Option String)

def downloadEach : List ρ → Option (List Download)
  | [] => some []
  | object :: objects => do
      let url ← photo50 object
      let downloads ← downloadEach objects
      return if isURL url then ⟨url, save (id object)⟩ :: downloads else downloads

end Loop

inductive ObjectType
  | friend
  | group
  deriving DecidableEq

inductive Objects
  | friends (objects : List Friend)
  | groups (objects : List Group)

variable (isURL : String → Bool)

/-- `AvatarDownloader.downloadForType`. Both branches save with `saveAvatarForUserID`. -/
def downloadForType (objects : Option Objects) (objectType : ObjectType) :
    Option (List Download) :=
  match objectType, objects with
  | .friend, some (.friends objects) =>
      downloadEach isURL .saveAvatarForUserID Friend.id Friend.photo50 objects
  | .group, some (.groups objects) =>
      downloadEach isURL .saveAvatarForUserID Group.id Group.photo50 objects
  | _, _ => some []

structure DownloadingAvatarsOperation where
  savingOperation : Option SavingOperation

def DownloadingAvatarsOperation.main (operation : DownloadingAvatarsOperation) :
    Option (List Download) :=
  match operation.savingOperation with
  | none => some []
  | some savingOperation =>
      downloadEach isURL .saveAvatarForUserID Friend.id Friend.photo50 savingOperation.parsedData

def downloadAvatars (groupsData : List Group) : Option (List Download) :=
  downloadEach isURL .saveAvatarForGroupID Group.id Group.photo50 groupsData

/-- The saves of the downloads that bring data, in the order in which they were started. The
download for the object `id` from `url` brings `contents id url`. -/
def finished (contents : Int → String → Option Data) (downloads : List Download) :
    List (AvatarSave × Data) :=
  downloads.filterMap fun download =>
    (contents download.save.id download.url).map fun data => (download.save, data)

def runSaves (saves : List (AvatarSave × Data)) (store : Store) : Option Store :=
  saves.foldlM (fun store save => save.1.run save.2 store) store

section Loop
variable {ρ : Type} (save : Int → AvatarSave) (id : ρ → Int) (photo50 : ρ → Option String)
  (contents : Int → String → Option Data)

def fetched (object : ρ) : Option Data :=
  (photo50 object).bind fun url => if isURL url then contents (id object) url else none

def fetchedFor (objects : List ρ) (k : Int) : Option Data :=
  (objects.find? fun object => id object = k).bind (fetched isURL id photo50 contents)

theorem downloadEach_finished (named : ∀ k, (save k).id = k) {objects : List ρ}
    (nonNil : ∀ object ∈ objects, (photo50 object).isSome) :
    ∃ downloads, downloadEach isURL save id photo50 objects = some downloads ∧
      finished contents downloads = objects.filterMap fun object =>
        (fetched isURL id photo50 contents object).map fun data => (save (id object), data) := by
  induction objects with
  | nil => exact ⟨[], rfl, rfl⟩
  | cons object objects ih =>
      obtain ⟨url, present⟩ := Option.isSome_iff_exists.mp (nonNil object List.mem_cons_self)
      obtain ⟨downloads, started, done⟩ := ih fun o member => nonNil o (List.mem_cons_of_mem _ member)
      refine ⟨if isURL url then ⟨url, save (id object)⟩ :: downloads else downloads,
        by simp [downloadEach, present, started], ?_⟩
      have got : fetched isURL id photo50 contents object =
          if isURL url then contents (id object) url else none := by simp [fetched, present]
      rw [List.filterMap_cons, got, ← done]
      by_cases valid : isURL url
      · simp only [valid, if_true, finished, List.filterMap_cons, named]
      · simp [valid]

variable {id} in
theorem mem_fetched_iff {objects : List ρ} (distinct : (objects.map id).Nodup)
    (g : ρ → Option Data) (k : Int) (data : Data) :
    (k, data) ∈ objects.filterMap (fun object => (g object).map fun d => (id object, d)) ↔
      (objects.find? fun object => id object = k).bind g = some data := by
  have lookup := fun object => Table.find_eq_some_iff (t := ⟨objects, distinct⟩) (k := k) (r := object)
  simp only [Table.find] at lookup
  simp only [List.mem_filterMap, Option.map_eq_some_iff, Prod.mk.injEq, Option.bind_eq_some_iff,
    lookup]
  constructor
  · intro fetched
    obtain ⟨object, member, _, got, rfl, rfl⟩ := fetched
    exact ⟨object, ⟨member, rfl⟩, got⟩
  · intro fetched
    obtain ⟨object, ⟨member, rfl⟩, got⟩ := fetched
    exact ⟨object, member, data, got, rfl, rfl⟩

variable {id} in
theorem distinct_filterMap {objects : List ρ} (distinct : (objects.map id).Nodup)
    (g : ρ → Option Data) :
    ((objects.filterMap fun object => (g object).map fun d => (id object, d)).map
      Prod.fst).Nodup := by
  refine Table.nodup_filterMap ?_ distinct
  intro object write got
  obtain ⟨_, _, rfl⟩ := Option.map_eq_some_iff.mp got
  rfl

theorem exists_writes {objects : List ρ} (distinct : (objects.map id).Nodup)
    (named : ∀ k, (save k).id = k) {order : List (AvatarSave × Data)}
    (complete : order.Perm (objects.filterMap fun object =>
      (fetched isURL id photo50 contents object).map fun data => (save (id object), data))) :
    ∃ writes : List (Int × Data), order = writes.map (fun w => (save w.1, w.2)) ∧
      (writes.map Prod.fst).Nodup ∧
      ∀ k data, (k, data) ∈ writes ↔
        fetchedFor isURL id photo50 contents objects k = some data := by
  have perm := complete.map fun s => (s.1.id, s.2)
  simp only [List.map_filterMap, Option.map_map, Function.comp_def, named] at perm
  refine ⟨order.map fun s => (s.1.id, s.2), ?_, ?_, ?_⟩
  · rw [List.map_map]
    symm
    conv_rhs => rw [← List.map_id order]
    apply List.map_congr_left
    intro s member
    obtain ⟨object, _, got⟩ := List.mem_filterMap.mp (complete.mem_iff.mp member)
    obtain ⟨data, _, rfl⟩ := Option.map_eq_some_iff.mp got
    simp [named]
  · exact (perm.map Prod.fst).nodup_iff.mpr (distinct_filterMap distinct _)
  · intro k data
    rw [perm.mem_iff]
    exact mem_fetched_iff distinct _ k data

end Loop

def withFriendAvatar (image : Data) (friend : Friend) : Friend := { friend with avatar := some image }

def withGroupAvatar (image : Data) (group : Group) : Group := { group with avatar := some image }

@[simp] theorem withFriendAvatar_id (image : Data) (friend : Friend) :
    (withFriendAvatar image friend).id = friend.id := rfl

@[simp] theorem withGroupAvatar_id (image : Data) (group : Group) :
    (withGroupAvatar image group).id = group.id := rfl

def friendsWithAvatars (image : Int → Option Data) (friends : Table Friend.id) : Table Friend.id :=
  friends.rewrite withFriendAvatar withFriendAvatar_id image

def groupsWithAvatars (image : Int → Option Data) (groups : Table Group.id) : Table Group.id :=
  groups.rewrite withGroupAvatar withGroupAvatar_id image

theorem runSaves_users (writes : List (Int × Data)) (store : Store) :
    runSaves (writes.map fun w => (.saveAvatarForUserID w.1, w.2)) store =
      some { store with
        friends := store.friends.modifyAll withFriendAvatar withFriendAvatar_id writes } := by
  induction writes generalizing store with
  | nil => rfl
  | cons w ws ih => exact ih { store with friends := setFriendAvatar (some w.2) w.1 store.friends }

theorem runSaves_groups (writes : List (Int × Data)) (store : Store) :
    runSaves (writes.map fun w => (.saveAvatarForGroupID w.1, w.2)) store =
      some { store with
        groups := store.groups.modifyAll withGroupAvatar withGroupAvatar_id writes } := by
  induction writes generalizing store with
  | nil => rfl
  | cons w ws ih => exact ih { store with groups := setGroupAvatar (some w.2) w.1 store.groups }

section Saves
variable {ρ : Type} {id : ρ → Int} {photo50 : ρ → Option String} {objects : List ρ}
  (contents : Int → String → Option Data) (distinct : (objects.map id).Nodup)
  (nonNil : ∀ object ∈ objects, (photo50 object).isSome)
include distinct nonNil

theorem loop_saved {save : Int → AvatarSave} (named : ∀ k, (save k).id = k) {store target : Store}
    (written : ∀ writes : List (Int × Data), (writes.map Prod.fst).Nodup →
      (∀ k data, (k, data) ∈ writes ↔ fetchedFor isURL id photo50 contents objects k = some data) →
        runSaves (writes.map fun w => (save w.1, w.2)) store = some target) :
    ∃ downloads, downloadEach isURL save id photo50 objects = some downloads ∧
      ∀ order, order.Perm (finished contents downloads) → runSaves order store = some target := by
  obtain ⟨downloads, started, done⟩ := downloadEach_finished isURL save id photo50 contents named
    nonNil
  refine ⟨downloads, started, fun order complete => ?_⟩
  obtain ⟨writes, rfl, keys, spec⟩ := exists_writes isURL save id photo50 contents distinct named
    (done ▸ complete)
  exact written writes keys spec

theorem users_saved (store : Store) :
    ∃ downloads, downloadEach isURL .saveAvatarForUserID id photo50 objects = some downloads ∧
      ∀ order, order.Perm (finished contents downloads) →
        runSaves order store = some { store with
          friends := friendsWithAvatars (fetchedFor isURL id photo50 contents objects)
            store.friends } := by
  apply loop_saved isURL contents distinct nonNil (fun _ => rfl)
  intro writes keys spec
  rw [runSaves_users, Table.modifyAll_eq_rewrite _ _ _ _ keys _ spec]
  rfl

theorem groups_saved (store : Store) :
    ∃ downloads, downloadEach isURL .saveAvatarForGroupID id photo50 objects = some downloads ∧
      ∀ order, order.Perm (finished contents downloads) →
        runSaves order store = some { store with
          groups := groupsWithAvatars (fetchedFor isURL id photo50 contents objects)
            store.groups } := by
  apply loop_saved isURL contents distinct nonNil (fun _ => rfl)
  intro writes keys spec
  rw [runSaves_groups, Table.modifyAll_eq_rewrite _ _ _ _ keys _ spec]
  rfl

end Saves

inductive AvatarRequest
  | friends (objects : List Friend)
  | groups (objects : List Group)
  | operation (savingOperation : SavingOperation)

namespace AvatarRequest

def downloads : AvatarRequest → Option (List Download)
  | friends objects => downloadForType isURL (some (.friends objects)) .friend
  | groups objects => downloadForType isURL (some (.groups objects)) .group
  | operation savingOperation => DownloadingAvatarsOperation.main isURL ⟨some savingOperation⟩

def Admissible (store : Store) : AvatarRequest → Prop
  | friends objects | operation ⟨_, objects⟩ =>
      (objects.map Friend.id).Nodup ∧ (∀ friend ∈ objects, friend.id ∈ store.friends.keys) ∧
        ∀ friend ∈ objects, friend.photo50.isSome
  | groups objects =>
      (objects.map Group.id).Nodup ∧ (∀ group ∈ objects, group.id ∈ store.groups.keys) ∧
        ∀ group ∈ objects, group.photo50.isSome

variable (contents : Int → String → Option Data)

def friendImage (objects : List Friend) : Int → Option Data :=
  fetchedFor isURL Friend.id Friend.photo50 contents objects

def groupImage (objects : List Group) : Int → Option Data :=
  fetchedFor isURL Group.id Group.photo50 contents objects

def delivered (store : Store) : AvatarRequest → Store
  | friends objects | operation ⟨_, objects⟩ =>
      { store with friends := friendsWithAvatars (friendImage isURL contents objects) store.friends }
  | groups objects =>
      { store with groups := groupsWithAvatars (groupImage isURL contents objects) store.groups }

def Delivers (store : Store) (request : AvatarRequest) : Prop :=
  ∃ downloads, request.downloads isURL = some downloads ∧
    ∀ order, order.Perm (finished contents downloads) →
      runSaves order store = some (request.delivered isURL contents store)

/-- Only an image that a group and the friend of the same id already have may come for a group. -/
def NothingNew (store : Store) : AvatarRequest → Prop
  | groups objects => ∀ id image, groupImage isURL contents objects id = some image →
      (∀ group, store.groups.find id = some group → group.avatar = some image) ∧
        ∀ friend, store.friends.find id = some friend → friend.avatar = some image
  | friends _ | operation _ => True

end AvatarRequest

theorem withFriendAvatar_eq_self {image : Data} {friend : Friend} :
    withFriendAvatar image friend = friend ↔ friend.avatar = some image := by
  cases friend
  simp [withFriendAvatar, eq_comm]

theorem withGroupAvatar_eq_self {image : Data} {group : Group} :
    withGroupAvatar image group = group ↔ group.avatar = some image := by
  cases group
  simp [withGroupAvatar, eq_comm]

theorem group_branch_delivers_iff (contents : Int → String → Option Data) {objects : List Group}
    (distinct : (objects.map Group.id).Nodup) (nonNil : ∀ group ∈ objects, group.photo50.isSome)
    (store : Store) :
    AvatarRequest.Delivers isURL contents store (.groups objects) ↔
      AvatarRequest.NothingNew isURL contents store (.groups objects) := by
  obtain ⟨downloads, started, saved⟩ := users_saved isURL contents distinct nonNil store
  have branch : (AvatarRequest.groups objects).downloads isURL = some downloads := started
  have result : AvatarRequest.Delivers isURL contents store (.groups objects) ↔
      friendsWithAvatars (AvatarRequest.groupImage isURL contents objects) store.friends =
          store.friends ∧
        groupsWithAvatars (AvatarRequest.groupImage isURL contents objects) store.groups =
          store.groups := by
    simp only [AvatarRequest.Delivers, branch, Option.some.injEq, exists_eq_left',
      AvatarRequest.delivered]
    constructor
    · intro delivers
      have same := (saved _ (.refl _)).symm.trans (delivers _ (.refl _))
      simp only [Option.some.injEq, Store.mk.injEq, and_true] at same
      exact ⟨same.1, same.2.symm⟩
    · intro unchanged order complete
      obtain ⟨friends, groups⟩ := unchanged
      rw [saved order complete, groups]
      exact congrArg (fun friends => some { store with friends }) friends
  rw [result, friendsWithAvatars, groupsWithAvatars, Table.rewrite_eq_self_iff,
    Table.rewrite_eq_self_iff]
  simp only [withFriendAvatar_eq_self, withGroupAvatar_eq_self, AvatarRequest.NothingNew]
  constructor
  · intro unchanged id image got
    obtain ⟨friends, groups⟩ := unchanged
    exact ⟨groups id image got, friends id image got⟩
  · intro all
    exact ⟨fun id image got => (all id image got).2, fun id image got => (all id image got).1⟩

theorem avatars_delivered_iff (contents : Int → String → Option Data) (request : AvatarRequest)
    (store : Store) (admissible : request.Admissible store) :
    request.Delivers isURL contents store ↔ request.NothingNew isURL contents store := by
  cases request with
  | friends objects =>
      exact ⟨fun _ => trivial,
        fun _ => users_saved isURL contents admissible.1 admissible.2.2 store⟩
  | operation savingOperation =>
      exact ⟨fun _ => trivial,
        fun _ => users_saved isURL contents admissible.1 admissible.2.2 store⟩
  | groups objects => exact group_branch_delivers_iff isURL contents admissible.1 admissible.2.2 store

def clashStore : Store :=
  { Store.empty with
    friends := Table.empty.upsert { id := 1 }
    groups := Table.empty.upsert { id := 1, photo50 := some "https://vk.com/g.jpg" } }

theorem avatars_delivered_clash :
    (AvatarRequest.friends [{ id := 1 }]).Admissible clashStore ∧
      (AvatarRequest.friends [{ id := 1 }]).Delivers (fun _ => true) (fun _ _ => some [7]) clashStore :=
  have admissible : (AvatarRequest.friends [{ id := 1 }]).Admissible clashStore := by
    simp only [AvatarRequest.Admissible]; decide
  ⟨admissible, (avatars_delivered_iff _ _ _ _ admissible).mpr trivial⟩

theorem group_avatar_misrouted :
    ¬ ∀ (isURL : String → Bool) (contents : Int → String → Option Data) (request : AvatarRequest)
        (store : Store), request.Admissible store → request.Delivers isURL contents store := by
  intro all
  have admissible : (AvatarRequest.groups clashStore.groups.rows).Admissible clashStore := by
    simp only [AvatarRequest.Admissible]; decide
  have delivers := all (fun _ => true) (fun _ _ => some [7]) _ _ admissible
  have nothingNew := (group_branch_delivers_iff _ _ admissible.1 admissible.2.2 _).mp delivers
  have friend := (nothingNew 1 [7] (by decide)).2 { id := 1 } (by decide)
  exact absurd friend (by decide)

theorem downloadAvatars_delivered (contents : Int → String → Option Data) {objects : List Group}
    (distinct : (objects.map Group.id).Nodup) (nonNil : ∀ group ∈ objects, group.photo50.isSome)
    (store : Store) :
    ∃ downloads, downloadAvatars isURL objects = some downloads ∧
      ∀ order, order.Perm (finished contents downloads) →
        runSaves order store = some ((AvatarRequest.groups objects).delivered isURL contents store) :=
  groups_saved isURL contents distinct nonNil store

end SocialApp.Network
