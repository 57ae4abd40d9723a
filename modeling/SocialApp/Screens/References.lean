import SocialApp.Network.FriendsRefresh
import SocialApp.Screens.SearchList

/-!
# References to friends that outlive a refresh

The search array, an open profile and a photo request that is still to be answered all refer to
rows of `Friend`. Reading a field through such a reference traps once its row is gone, and so does
the lookup that `savePhotosMetaData` unwraps. An event that needs a row, a profile or a request
which is not there does nothing.
-/

namespace SocialApp.Screens
open Library Foundation Realm Network

structure Scene where
  store : Store
  list : ListScreen := {}
  friendProfile : Option Int := none
  photoRequests : List Int := []

inductive SceneEvent
  | refresh (parsedData : List Friend)
  | search (event : SearchEvent)
  | redrawRow (row : Nat)
  | openProfile (row : Nat)
  | redrawProfile
  | openPhotoflow
  | photoMetaDataArrives (userId : Int) (photoMetaData : Option (List Photo))
  | closeProfile

namespace Scene

/-- Read the fields of the friend in a row. A table view asks only for rows that it has; `none` is
a trap. -/
def readRow (row : Nat) (next : Friend → Scene) (scene : Scene) : Option Scene :=
  if row < scene.list.numberOfRowsInSection scene.store.friends then
    (scene.list.cellForRowAt scene.store.friends row).map next
  else some scene

def readProfile (next : Friend → Scene) (scene : Scene) : Option Scene :=
  match scene.friendProfile with
  | none => some scene
  | some id => (scene.store.friends.find id).map next

def photoMetaDataArrives (userId : Int) (photoMetaData : Option (List Photo)) (scene : Scene) :
    Option Scene :=
  if userId ∈ scene.photoRequests then
    let answered := { scene with photoRequests := scene.photoRequests.erase userId }
    match photoMetaData with
    | none => some answered
    | some photos => (savePhotosMetaData .commits photos userId scene.store).map fun store =>
        { answered with store }
  else some scene

def step (ops : TextOperations) : Machine Scene SceneEvent
  | scene, .refresh parsedData => do
      let (_, store) ← SavingOperation.main .commits .commits ⟨some ⟨none, parsedData⟩, []⟩
        scene.store
      return { scene with store }
  | scene, .search event =>
      some { scene with
        list := scene.list.search (friendMatches ops) event scene.store.friends }
  | scene, .redrawRow row => scene.readRow row fun _ => scene
  | scene, .openProfile row =>
      -- `viewDidLoad` of the profile reads the names and `photoMax`.
      scene.readRow row fun friend => { scene with friendProfile := some friend.id }
  | scene, .redrawProfile => scene.readProfile fun _ => scene
  | scene, .openPhotoflow =>
      -- `didSelectRowAt` reads the id into `photoflowViewController.userId`.
      scene.readProfile fun friend =>
        { scene with photoRequests := friend.id :: scene.photoRequests }
  | scene, .photoMetaDataArrives userId photoMetaData =>
      scene.photoMetaDataArrives userId photoMetaData
  | scene, .closeProfile => some { scene with friendProfile := none }

def held (scene : Scene) : List Int :=
  (if scene.list.searchField.isFiltering then scene.list.searched else []) ++
    (scene.friendProfile.toList ++ scene.photoRequests)

end Scene

/-! ## Specification -/

def Safe (ops : TextOperations) (scene : Scene) : Prop :=
  ∀ event, (scene.step ops event).isSome

def KeepsHeld (scene : Scene) : SceneEvent → Prop
  | .refresh parsedData => ∀ id ∈ scene.held, id ∈ parsedData.map Friend.id
  | _ => True

def Live (scene : Scene) : Prop := ∀ id ∈ scene.held, id ∈ scene.store.friends.keys

theorem mem_held {scene : Scene} {id : Int} :
    id ∈ scene.held ↔ (scene.list.searchField.isFiltering ∧ id ∈ scene.list.searched) ∨
      scene.friendProfile = some id ∨ id ∈ scene.photoRequests := by
  by_cases filtering : scene.list.searchField.isFiltering <;>
    simp [Scene.held, filtering]

theorem mem_of_cellForRowAt {store : Store} {list : ListScreen} {row : Nat} {friend : Friend}
    (read : list.cellForRowAt store.friends row = some friend) : friend.id ∈ store.friends.keys := by
  unfold ListScreen.cellForRowAt at read
  split at read
  · obtain ⟨id, _, found⟩ := Option.bind_eq_some_iff.mp read
    exact List.mem_map_of_mem (Table.find_eq_some_iff.mp found).1
  · exact List.mem_map_of_mem (List.mem_of_getElem? read)

theorem readRow_some {scene next : Scene} {row : Nat} {update : Friend → Scene}
    (read : scene.readRow row update = some next) :
    next = scene ∨ ∃ friend, friend.id ∈ scene.store.friends.keys ∧ next = update friend := by
  unfold Scene.readRow at read
  split at read
  · obtain ⟨friend, cell, rfl⟩ := Option.map_eq_some_iff.mp read
    exact Or.inr ⟨friend, mem_of_cellForRowAt cell, rfl⟩
  · exact Or.inl (Option.some.inj read).symm

theorem readProfile_some {scene next : Scene} {update : Friend → Scene}
    (read : scene.readProfile update = some next) :
    next = scene ∨ ∃ friend, friend.id ∈ scene.store.friends.keys ∧ next = update friend := by
  unfold Scene.readProfile at read
  split at read
  · exact Or.inl (Option.some.inj read).symm
  · obtain ⟨friend, found, rfl⟩ := Option.map_eq_some_iff.mp read
    exact Or.inr ⟨friend, List.mem_map_of_mem (Table.find_eq_some_iff.mp found).1, rfl⟩

theorem readRow_isSome_iff {scene : Scene} {update : Friend → Scene} :
    (∀ row, (scene.readRow row update).isSome) ↔
      (scene.list.searchField.isFiltering →
        ∀ id ∈ scene.list.searched, id ∈ scene.store.friends.keys) := by
  unfold Scene.readRow ListScreen.numberOfRowsInSection ListScreen.cellForRowAt
  by_cases filtering : scene.list.searchField.isFiltering
  · simp only [filtering, if_true, true_implies]
    constructor
    · intro reads id member
      obtain ⟨row, inRange, rfl⟩ := List.mem_iff_getElem.mp member
      have read := reads row
      rw [if_pos inRange, List.getElem?_eq_getElem inRange, Option.isSome_map] at read
      exact Table.find_isSome_iff.mp read
    · intro live row
      split
      · rename_i inRange
        rw [List.getElem?_eq_getElem inRange, Option.isSome_map]
        exact Table.find_isSome_iff.mpr (live _ (List.getElem_mem inRange))
      · rfl
  · simp only [filtering, Bool.false_eq_true, if_false, false_implies, iff_true]
    intro row
    split
    · rename_i inRange
      simp [inRange]
    · rfl

theorem readProfile_isSome_iff {scene : Scene} {update : Friend → Scene} :
    (scene.readProfile update).isSome ↔
      ∀ id, scene.friendProfile = some id → id ∈ scene.store.friends.keys := by
  unfold Scene.readProfile
  cases scene.friendProfile <;> simp [Table.find_isSome_iff]

theorem savePhotosMetaData_isSome_iff {photos : List Photo} {userID : Int} {store : Store} :
    (savePhotosMetaData .commits photos userID store).isSome ↔ userID ∈ store.friends.keys := by
  simp [savePhotosMetaData, Table.find_isSome_iff]

theorem photoMetaDataArrives_isSome {scene : Scene} {userId : Int}
    {photoMetaData : Option (List Photo)}
    (live : userId ∈ scene.photoRequests → userId ∈ scene.store.friends.keys) :
    (scene.photoMetaDataArrives userId photoMetaData).isSome := by
  unfold Scene.photoMetaDataArrives
  by_cases pending : userId ∈ scene.photoRequests
  · cases photoMetaData with
    | none => simp [pending]
    | some photos => simp [pending, savePhotosMetaData_isSome_iff, live pending]
  · simp [pending]

theorem safe_iff_live (ops : TextOperations) (scene : Scene) : Safe ops scene ↔ Live scene := by
  constructor
  · intro safe id held
    rcases mem_held.mp held with ⟨filtering, member⟩ | open_ | pending
    · exact readRow_isSome_iff.mp (fun row => safe (.redrawRow row)) filtering id member
    · exact readProfile_isSome_iff.mp (safe .redrawProfile) id open_
    · have arrives := safe (.photoMetaDataArrives id (some []))
      rw [Scene.step, Scene.photoMetaDataArrives, if_pos pending, Option.isSome_map] at arrives
      exact savePhotosMetaData_isSome_iff.mp arrives
  · intro live event
    have rows : scene.list.searchField.isFiltering →
        ∀ id ∈ scene.list.searched, id ∈ scene.store.friends.keys :=
      fun filtering id member => live id (mem_held.mpr (Or.inl ⟨filtering, member⟩))
    have profile : ∀ id, scene.friendProfile = some id → id ∈ scene.store.friends.keys :=
      fun id same => live id (mem_held.mpr (Or.inr (Or.inl same)))
    cases event with
    | refresh parsedData => rfl
    | search event => rfl
    | closeProfile => rfl
    | redrawRow row => exact readRow_isSome_iff.mpr rows row
    | openProfile row => exact readRow_isSome_iff.mpr rows row
    | redrawProfile => exact readProfile_isSome_iff.mpr profile
    | openPhotoflow => exact readProfile_isSome_iff.mpr profile
    | photoMetaDataArrives userId photoMetaData =>
        exact photoMetaDataArrives_isSome fun pending =>
          live userId (mem_held.mpr (Or.inr (Or.inr pending)))

theorem Live.preserved {scene next : Scene} (live : Live scene)
    (friends : next.store.friends = scene.store.friends)
    (held : ∀ id ∈ next.held, id ∈ scene.held ∨ id ∈ scene.store.friends.keys) : Live next := by
  intro id member
  rw [friends]
  exact (held id member).elim (live id) fun stored => stored

theorem live_refresh_iff (parsedData : List Friend) (scene : Scene) :
    Live { scene with store := { scene.store with friends := Table.empty.upsertAll parsedData } } ↔
      KeepsHeld scene (.refresh parsedData) := by
  apply forall_congr'
  intro id
  apply forall_congr'
  intro member
  rw [Table.mem_keys_upsertAll]
  simp [Table.keys]

theorem photoMetaDataArrives_some {scene next : Scene} {userId : Int}
    {photoMetaData : Option (List Photo)}
    (action : scene.photoMetaDataArrives userId photoMetaData = some next) :
    next.store.friends = scene.store.friends ∧ next.list = scene.list ∧
      next.friendProfile = scene.friendProfile ∧
      ∀ id ∈ next.photoRequests, id ∈ scene.photoRequests := by
  unfold Scene.photoMetaDataArrives at action
  split at action
  · cases photoMetaData with
    | none =>
        cases action
        exact ⟨rfl, rfl, rfl, fun id => List.mem_of_mem_erase⟩
    | some photos =>
        obtain ⟨store, saved, rfl⟩ := Option.map_eq_some_iff.mp action
        obtain ⟨friend, _, rfl⟩ := Option.map_eq_some_iff.mp saved
        exact ⟨rfl, rfl, rfl, fun id => List.mem_of_mem_erase⟩
  · cases action
    exact ⟨rfl, rfl, rfl, fun _ member => member⟩

theorem Live.step {ops : TextOperations} {scene next : Scene} {event : SceneEvent}
    (live : Live scene) (other : ∀ parsedData, event ≠ .refresh parsedData)
    (action : scene.step ops event = some next) : Live next := by
  cases event with
  | refresh parsedData => exact absurd rfl (other parsedData)
  | search event =>
      cases action
      refine live.preserved rfl ?_
      intro id member
      rcases mem_held.mp member with ⟨_, found⟩ | rest
      · exact Or.inr (ListScreen.search_live event _ _ found)
      · exact Or.inl (mem_held.mpr (Or.inr rest))
  | redrawRow row =>
      rcases readRow_some action with rfl | ⟨_, _, rfl⟩ <;> exact live
  | openProfile row =>
      rcases readRow_some action with rfl | ⟨friend, stored, rfl⟩
      · exact live
      · refine live.preserved rfl ?_
        intro id member
        rcases mem_held.mp member with found | same | pending
        · exact Or.inl (mem_held.mpr (Or.inl found))
        · exact Or.inr (Option.some.inj same ▸ stored)
        · exact Or.inl (mem_held.mpr (Or.inr (Or.inr pending)))
  | redrawProfile =>
      rcases readProfile_some action with rfl | ⟨_, _, rfl⟩ <;> exact live
  | openPhotoflow =>
      rcases readProfile_some action with rfl | ⟨friend, stored, rfl⟩
      · exact live
      · refine live.preserved rfl ?_
        intro id member
        rcases mem_held.mp member with found | same | pending
        · exact Or.inl (mem_held.mpr (Or.inl found))
        · exact Or.inl (mem_held.mpr (Or.inr (Or.inl same)))
        · rcases List.mem_cons.mp pending with rfl | pending
          · exact Or.inr stored
          · exact Or.inl (mem_held.mpr (Or.inr (Or.inr pending)))
  | photoMetaDataArrives userId photoMetaData =>
      obtain ⟨friends, list, profile, requests⟩ := photoMetaDataArrives_some action
      refine live.preserved friends ?_
      intro id member
      rw [mem_held, list, profile] at member
      exact Or.inl (mem_held.mpr (member.imp_right (Or.imp_right (requests id))))
  | closeProfile =>
      cases action
      refine live.preserved rfl ?_
      intro id member
      rcases mem_held.mp member with found | same | pending
      · exact Or.inl (mem_held.mpr (Or.inl found))
      · cases same
      · exact Or.inl (mem_held.mpr (Or.inr (Or.inr pending)))

theorem live_step_iff {ops : TextOperations} {scene next : Scene} {event : SceneEvent}
    (live : Live scene) (action : scene.step ops event = some next) :
    Live next ↔ KeepsHeld scene event := by
  cases event with
  | refresh parsedData =>
      cases action
      exact live_refresh_iff parsedData scene
  | _ => exact iff_of_true (live.step (by simp) action) trivial

theorem references_safe_iff (ops : TextOperations) (store : Store) (events : List SceneEvent) :
    Machine.Visits (Scene.step ops) (Safe ops) { store } events ↔
      Machine.Along (Scene.step ops) KeepsHeld { store } events := by
  refine Machine.visits_iff_along ?_ ?_ ?_ events
  · intro scene event next safe action
    rw [safe_iff_live] at safe ⊢
    exact live_step_iff safe action
  · intro scene event disabled
    cases event with
    | refresh parsedData => cases disabled
    | _ => trivial
  · rw [safe_iff_live]
    intro id held
    simp [Scene.held, SearchController.isFiltering] at held

theorem open_profile_dangles :
    ¬ ∀ (ops : TextOperations) (store : Store) (events : List SceneEvent),
      (Machine.run (Scene.step ops) { store } events).isSome := by
  intro all
  have survives := all ascii { Store.empty with friends := Table.empty.upsert { id := 1 } }
    [.openProfile 0, .refresh [], .redrawProfile]
  exact absurd survives (by decide)

end SocialApp.Screens
