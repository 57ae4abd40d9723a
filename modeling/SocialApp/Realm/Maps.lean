import SocialApp.Library.KeyedMap
import SocialApp.Realm.Manager

/-!
# The friends and groups tables as keyed maps

A refresh replaces the map of its table by the decoded list, an avatar save assigns one field at
one key. The two tables are edited independently, and the avatars saved before a refresh or for
ids that it does not bring are gone after it.
-/

namespace SocialApp.Realm
open Library Foundation Machine

structure DecodedFriends where
  items : List Friend
  bare : ∀ friend ∈ items, friend.avatar = none

structure DecodedGroups where
  items : List Group
  bare : ∀ group ∈ items, group.avatar = none

inductive Operation
  | friendsRefresh (friends : DecodedFriends)
  | groupsRefresh (groups : DecodedGroups)
  | saveAvatarForUserID (image : Option Data) (userID : Int)
  | saveAvatarForGroupID (image : Option Data) (groupID : Int)

namespace Operation

def step : Machine Store Operation
  | store, friendsRefresh friends => do
      let store ← deleteAllFriendsObject .commits store
      saveGotFriendsInRealm .commits friends.items store
  | store, groupsRefresh groups => do
      let store ← deleteGroupObjects .commits store
      saveGotGroupsInRealm .commits groups.items store
  | store, saveAvatarForUserID image userID => Realm.saveAvatarForUserID .commits image userID store
  | store, saveAvatarForGroupID image groupID =>
      Realm.saveAvatarForGroupID .commits image groupID store

def friendsEdit : Operation → Option (Edit Int Friend (Option Data))
  | friendsRefresh friends => some (.replace friends.items)
  | saveAvatarForUserID image userID => some (.assign userID image)
  | groupsRefresh _ | saveAvatarForGroupID _ _ => none

def groupsEdit : Operation → Option (Edit Int Group (Option Data))
  | groupsRefresh groups => some (.replace groups.items)
  | saveAvatarForGroupID image groupID => some (.assign groupID image)
  | friendsRefresh _ | saveAvatarForUserID _ _ => none

def friendWithAvatar (image : Option Data) (friend : Friend) : Friend :=
  { friend with avatar := image }

def groupWithAvatar (image : Option Data) (group : Group) : Group :=
  { group with avatar := image }

def editFriends (operations : List Operation) (friends : Int → Option Friend) :
    Int → Option Friend :=
  (operations.filterMap friendsEdit).foldl (Edit.apply Friend.id friendWithAvatar) friends

def editGroups (operations : List Operation) (groups : Int → Option Group) :
    Int → Option Group :=
  (operations.filterMap groupsEdit).foldl (Edit.apply Group.id groupWithAvatar) groups

end Operation

open Operation

structure Refines (operations : List Operation) (store final : Store) : Prop where
  friends : final.friends.find = editFriends operations store.friends.find
  groups : final.groups.find = editGroups operations store.groups.find
  photos : final.photos = store.photos
  photoflow : final.photoflow = store.photoflow

theorem step_refines (store : Store) (operation : Operation) :
    ∃ final, step store operation = some final ∧ Refines [operation] store final := by
  cases operation with
  | friendsRefresh friends =>
      exact ⟨_, rfl, Edit.find_replaced friendWithAvatar store.friends friends.items, rfl, rfl, rfl⟩
  | groupsRefresh groups =>
      exact ⟨_, rfl, rfl, Edit.find_replaced groupWithAvatar store.groups groups.items, rfl, rfl⟩
  | saveAvatarForUserID image userID =>
      have found := Edit.find_assigned friendWithAvatar (fun _ _ => rfl) store.friends userID image
      exact ⟨_, rfl, found, rfl, rfl, rfl⟩
  | saveAvatarForGroupID image groupID =>
      have found := Edit.find_assigned groupWithAvatar (fun _ _ => rfl) store.groups groupID image
      exact ⟨_, rfl, rfl, found, rfl, rfl⟩

theorem foldl_filterMap_cons {α β γ : Type} (edit : α → Option β) (f : γ → β → γ) (a : α)
    (operations : List α) (m : γ) :
    ((a :: operations).filterMap edit).foldl f m =
      (operations.filterMap edit).foldl f (([a].filterMap edit).foldl f m) := by
  rw [← List.foldl_append, ← List.filterMap_append, List.singleton_append]

theorem run_refines (store : Store) (operations : List Operation) :
    ∃ final, run step store operations = some final ∧ Refines operations store final := by
  induction operations generalizing store with
  | nil => exact ⟨store, rfl, rfl, rfl, rfl, rfl⟩
  | cons operation operations ih =>
      obtain ⟨next, action, first⟩ := step_refines store operation
      obtain ⟨final, ran, rest⟩ := ih next
      refine ⟨final, by simp [action, ran], ?_, ?_, rest.photos.trans first.photos,
        rest.photoflow.trans first.photoflow⟩
      · rw [rest.friends, first.friends]
        exact (foldl_filterMap_cons friendsEdit _ operation operations _).symm
      · rw [rest.groups, first.groups]
        exact (foldl_filterMap_cons groupsEdit _ operation operations _).symm

def savedForUser (id : Int) : Operation → Option (Option Data)
  | .saveAvatarForUserID image userID => if userID = id then some image else none
  | _ => none

def savedForGroup (id : Int) : Operation → Option (Option Data)
  | .saveAvatarForGroupID image groupID => if groupID = id then some image else none
  | _ => none

def Operation.RefreshesFriends : Operation → Prop
  | friendsRefresh _ => True
  | _ => False

def Operation.RefreshesGroups : Operation → Prop
  | groupsRefresh _ => True
  | _ => False

/-- The map that `rows` and the avatars saved since then define. -/
def withSaved {ρ : Type} (key : ρ → Int) (setAvatar : Option Data → ρ → ρ)
    (saved : Int → Operation → Option (Option Data)) (rows : List ρ) (since : List Operation)
    (id : Int) : Option ρ :=
  (Table.latest key rows id).map (setAvatar (lastSome (saved id) since).join)

theorem edited_after_refresh {ρ : Type} {key : ρ → Int} {setAvatar : Option Data → ρ → ρ}
    (overwrites : ∀ d d' r, setAvatar d (setAvatar d' r) = setAvatar d r)
    {edit : Operation → Option (Edit Int ρ (Option Data))}
    {saved : Int → Operation → Option (Option Data)}
    (reads : ∀ id operation, (edit operation).bind (Edit.assignedAt id) = saved id operation)
    {before after : List Operation} {refresh : Operation} {rows : List ρ}
    (replaces : edit refresh = some (.replace rows)) (bare : ∀ row ∈ rows, setAvatar none row = row)
    (assigns : ∀ operation ∈ after, ∀ e, edit operation = some e → e.IsAssign)
    (m : Int → Option ρ) (id : Int) :
    ((before ++ refresh :: after).filterMap edit).foldl (Edit.apply key setAvatar) m id =
      withSaved key setAvatar saved rows after id := by
  have later : ∀ e ∈ after.filterMap edit, e.IsAssign := by
    intro e member
    obtain ⟨operation, member, eq⟩ := List.mem_filterMap.mp member
    exact assigns operation member e eq
  rw [List.filterMap_append, List.filterMap_cons_some replaces, Edit.foldl_replace overwrites later,
    lastSome_filterMap, withSaved]
  simp only [reads]
  cases found : Table.latest key rows id with
  | none => rfl
  | some row =>
      have member := Table.mem_of_latest found
      cases lastSome (saved id) after with
      | none => simp [bare row member]
      | some image => rfl

theorem friends_after_refresh {before after : List Operation} {friends : DecodedFriends}
    (last : ∀ operation ∈ after, ¬ operation.RefreshesFriends) (m : Int → Option Friend)
    (id : Int) :
    editFriends (before ++ .friendsRefresh friends :: after) m id =
      withSaved Friend.id friendWithAvatar savedForUser friends.items after id := by
  apply edited_after_refresh
  · exact fun _ _ _ => rfl
  · intro id operation
    cases operation <;> rfl
  · rfl
  · intro friend member
    rw [friendWithAvatar, ← friends.bare friend member]
  · intro operation member edit eq
    cases operation with
    | friendsRefresh => exact absurd trivial (last _ member)
    | saveAvatarForUserID => cases eq; trivial
    | _ => cases eq

theorem groups_after_refresh {before after : List Operation} {groups : DecodedGroups}
    (last : ∀ operation ∈ after, ¬ operation.RefreshesGroups) (m : Int → Option Group) (id : Int) :
    editGroups (before ++ .groupsRefresh groups :: after) m id =
      withSaved Group.id groupWithAvatar savedForGroup groups.items after id := by
  apply edited_after_refresh
  · exact fun _ _ _ => rfl
  · intro id operation
    cases operation <;> rfl
  · rfl
  · intro group member
    rw [groupWithAvatar, ← groups.bare group member]
  · intro operation member edit eq
    cases operation with
    | groupsRefresh => exact absurd trivial (last _ member)
    | saveAvatarForGroupID => cases eq; trivial
    | _ => cases eq

theorem count_withSaved {ρ : Type} {key : ρ → Int} {table : Table key}
    {setAvatar : Option Data → ρ → ρ} {saved : Int → Operation → Option (Option Data)}
    {rows : List ρ} {since : List Operation} {id : Int}
    (found : table.find id = withSaved key setAvatar saved rows since id) :
    table.keys.count id = if id ∈ rows.map key then 1 else 0 := by
  rw [Table.count_keys, found, withSaved, Option.isSome_map]
  simp only [Table.latest_isSome_iff]

def Operation.OnFriends : Operation → Prop
  | friendsRefresh _ | saveAvatarForUserID _ _ => True
  | groupsRefresh _ | saveAvatarForGroupID _ _ => False

def Operation.SavesAvatar : Operation → Prop
  | saveAvatarForUserID _ _ | saveAvatarForGroupID _ _ => True
  | friendsRefresh _ | groupsRefresh _ => False

structure Frame (operation : Operation) (store final : Store) : Prop where
  groups : operation.OnFriends → final.groups = store.groups
  friends : ¬ operation.OnFriends → final.friends = store.friends
  keys : operation.SavesAvatar →
    final.friends.keys = store.friends.keys ∧ final.groups.keys = store.groups.keys

theorem step_frame {store final : Store} {operation : Operation}
    (action : step store operation = some final) : Frame operation store final := by
  cases operation with
  | friendsRefresh friends =>
      cases action
      exact ⟨fun _ => rfl, fun off => absurd trivial off, False.elim⟩
  | groupsRefresh groups =>
      cases action
      exact ⟨False.elim, fun _ => rfl, False.elim⟩
  | saveAvatarForUserID image userID =>
      cases action
      have keys := Table.keys_modify store.friends userID (friendWithAvatar image) fun _ => rfl
      exact ⟨fun _ => rfl, fun off => absurd trivial off, fun _ => ⟨keys, rfl⟩⟩
  | saveAvatarForGroupID image groupID =>
      cases action
      have keys := Table.keys_modify store.groups groupID (groupWithAvatar image) fun _ => rfl
      exact ⟨False.elim, fun _ => rfl, fun _ => ⟨rfl, keys⟩⟩

/-- The table holds one row for each id of the list and no other, with the avatar saved last. -/
def Holds {ρ : Type} {key : ρ → Int} (table : Table key) (setAvatar : Option Data → ρ → ρ)
    (saved : Int → Operation → Option (Option Data)) (rows : List ρ) (since : List Operation) :
    Prop :=
  ∀ id, table.keys.count id = (if id ∈ rows.map key then 1 else 0) ∧
    table.find id = withSaved key setAvatar saved rows since id

theorem realm_refines_maps :
    (∀ store operations, ∃ final, run step store operations = some final ∧
      (∀ before friends after, operations = before ++ .friendsRefresh friends :: after →
        (∀ operation ∈ after, ¬ operation.RefreshesFriends) →
          Holds final.friends friendWithAvatar savedForUser friends.items after) ∧
      (∀ before groups after, operations = before ++ .groupsRefresh groups :: after →
        (∀ operation ∈ after, ¬ operation.RefreshesGroups) →
          Holds final.groups groupWithAvatar savedForGroup groups.items after)) ∧
    ∀ store operation, ∃ final, step store operation = some final ∧
      Frame operation store final := by
  constructor
  · intro store operations
    obtain ⟨final, ran, refines⟩ := run_refines store operations
    refine ⟨final, ran, ?_, ?_⟩
    · intro before friends after split last id
      have found : final.friends.find id =
          withSaved Friend.id friendWithAvatar savedForUser friends.items after id := by
        rw [refines.friends, split, friends_after_refresh last]
      exact ⟨count_withSaved found, found⟩
    · intro before groups after split last id
      have found : final.groups.find id =
          withSaved Group.id groupWithAvatar savedForGroup groups.items after id := by
        rw [refines.groups, split, groups_after_refresh last]
      exact ⟨count_withSaved found, found⟩
  · intro store operation
    obtain ⟨final, action, _⟩ := step_refines store operation
    exact ⟨final, action, step_frame action⟩

end SocialApp.Realm
