import SocialApp.Accounts.Device
import SocialApp.Realm.Decoding
import SocialApp.Realm.Maps
import SocialApp.Screens.Reuse

/-!
# What becomes of decoded friends and groups

The objects of an accepted body are saved, their avatars downloaded and their rows configured. A
friend keeps the initial `photo50` where its key does not decode; a group loses it, and the
downloads force-unwrap it.
-/

namespace SocialApp.Accounts
open Library Foundation Realm Network Screens Json

structure AcceptedBody (ρ : Type) [Decodable ρ] where
  body : Json
  data : ResponseData ρ
  accepted : decoding body = some data

def friendRow (friend : Friend) : FriendRow where
  fullName := friend.lastName ++ " " ++ friend.firstName
  lastSeen := some friend.lastSeen
  occupation := friend.occupationName
  avatar := friend.avatar
  online := some friend.online

def groupRow (group : Group) : GroupRow where
  name := group.name
  image := group.avatar
  followersCount := some group.membersCount
  activity := group.activity

def friendProfileRow (friendProfile : Option Friend) : FriendProfileRow where
  status := friendProfile.bind Friend.status
  id := friendProfile.map Friend.id
  birthday := friendProfile.bind Friend.bdate
  city := friendProfile.bind Friend.city
  country := friendProfile.bind Friend.country
  occupation := friendProfile.bind Friend.occupationName
  relation := friendProfile.map Friend.relation

variable {Image : Type} (isURL : String → Bool) (ui : UIKit Image)

structure FriendsPass (friends : List Friend) : Prop where
  saved : ∀ store, ∃ operation store',
    SavingOperation.main .commits .commits ⟨some ⟨none, friends⟩, []⟩ store =
        some (operation, store') ∧
      (DownloadingAvatarsOperation.main isURL ⟨some operation⟩).isSome
  downloadedForType : (downloadForType isURL (some (.friends friends)) .friend).isSome
  configured : ∀ friend ∈ friends, ∀ cell,
    (FriendsTableViewCell.step ui cell (friendRow friend)).isSome
  detailed : ∀ friend ∈ friends, ∀ cell : FriendProfileDetailsTableViewCell,
    (cell.configureCell (friendProfileRow (some friend))).isSome

structure GroupsPass (groups : List Group) : Prop where
  saved : ∀ store, (downloadUserGroups isURL .commits .commits (some groups) store).isSome
  downloaded : (downloadAvatars isURL groups).isSome
  downloadedForType : (downloadForType isURL (some (.groups groups)) .group).isSome
  configured : ∀ group ∈ groups, ∀ cell : GroupsTableViewCell Image,
    (cell.configureCell ui (groupRow group)).isSome

theorem downloadEach_isSome_iff {ρ : Type} (save : Int → AvatarSave) (id : ρ → Int)
    (photo50 : ρ → Option String) {objects : List ρ} :
    (downloadEach isURL save id photo50 objects).isSome ↔
      ∀ object ∈ objects, (photo50 object).isSome := by
  induction objects with
  | nil => simp [downloadEach]
  | cons object objects ih =>
      cases present : photo50 object <;> cases rest : downloadEach isURL save id photo50 objects <;>
        simp [downloadEach, present, rest, ← ih]

theorem friendsPass {friends : List Friend} (nonNil : ∀ friend ∈ friends, friend.photo50.isSome) :
    FriendsPass isURL ui friends where
  saved _ := ⟨_, _, rfl, (downloadEach_isSome_iff isURL _ _ _).mpr nonNil⟩
  downloadedForType := (downloadEach_isSome_iff isURL _ _ _).mpr nonNil
  configured _ _ _ := rfl
  detailed _ _ _ := rfl

theorem downloadUserGroups_eq {groups : List Group}
    (nonNil : ∀ group ∈ groups, group.photo50.isSome) (store : Store) :
    downloadUserGroups isURL .commits .commits (some groups) store =
      some { store with groups := Table.empty.upsertAll groups } := by
  have stored : (downloadAvatars isURL
      ((Table.empty : Table Group.id).upsertAll groups).rows).isSome := by
    apply (downloadEach_isSome_iff isURL _ _ _).mpr
    intro group member
    exact nonNil group (Table.mem_of_mem_upsertAll_empty member)
  obtain ⟨downloads, stored⟩ := Option.isSome_iff_exists.mp stored
  simp [downloadUserGroups, deleteGroupObjects, saveGotGroupsInRealm, groupsGetFromRealm, stored]

theorem groupsPass_iff {groups : List Group} :
    GroupsPass isURL ui groups ↔ ∀ group ∈ groups, group.photo50.isSome := by
  constructor
  · intro pass
    exact (downloadEach_isSome_iff isURL _ _ _).mp pass.downloaded
  · intro nonNil
    have started := (downloadEach_isSome_iff isURL .saveAvatarForGroupID Group.id Group.photo50).mpr
      nonNil
    refine ⟨?_, started, (downloadEach_isSome_iff isURL _ _ _).mpr nonNil, ?_⟩
    · intro store
      simp [downloadUserGroups_eq isURL nonNil]
    · intro group _ cell
      cases avatar : group.avatar <;> simp [GroupsTableViewCell.configureCell, groupRow, avatar]

def HasPhoto50 (item : Json) : Prop := item.HasMember "photo_50" IsString

def ItemsHavePhoto50 (body : Json) : Prop :=
  ∃ items, body.at? itemsPath = some (array items) ∧ ∀ item ∈ items, HasPhoto50 item

theorem exists_described {ρ : Type} [Decodable ρ] {Item : Json → Prop} {describe : Json → ρ}
    {forget : List String → ρ → ρ} {required : List (List String)}
    (decodes : Decodes Item describe forget required) (accepted : AcceptedBody ρ) :
    ∀ object ∈ accepted.data.response.items, ∃ item, object = describe item := by
  obtain ⟨items, _, described⟩ := decodes.items _ _ accepted.accepted
  intro object member
  rw [described] at member
  obtain ⟨item, _, rfl⟩ := List.mem_map.mp member
  exact ⟨item, rfl⟩

theorem friends_nonNil (accepted : AcceptedBody Friend) :
    ∀ friend ∈ accepted.data.response.items, friend.photo50.isSome := by
  intro friend member
  obtain ⟨item, rfl⟩ := exists_described decodes_friends accepted friend member
  simp [describedFriend]

theorem groups_nonNil_iff (accepted : AcceptedBody Group) :
    (∀ group ∈ accepted.data.response.items, group.photo50.isSome) ↔
      ItemsHavePhoto50 accepted.body := by
  obtain ⟨items, found, described⟩ := decodes_groups.items _ _ accepted.accepted
  simp [described, ItemsHavePhoto50, found, HasPhoto50, stringMember_iff, describedGroup]

def decodedFriends (accepted : AcceptedBody Friend) : DecodedFriends where
  items := accepted.data.response.items
  bare friend member := by
    obtain ⟨item, rfl⟩ := exists_described decodes_friends accepted friend member
    rfl

def decodedGroups (accepted : AcceptedBody Group) : DecodedGroups where
  items := accepted.data.response.items
  bare group member := by
    obtain ⟨item, rfl⟩ := exists_described decodes_groups accepted group member
    rfl

theorem main_refreshes_friends (accepted : AcceptedBody Friend) (store : Store) :
    (SavingOperation.main .commits .commits ⟨some ⟨none, accepted.data.response.items⟩, []⟩
      store).map Prod.snd = Operation.step store (.friendsRefresh (decodedFriends accepted)) := rfl

theorem downloadUserGroups_refreshes_groups (accepted : AcceptedBody Group)
    (photos : ItemsHavePhoto50 accepted.body) (store : Store) :
    downloadUserGroups isURL .commits .commits (some accepted.data.response.items) store =
      Operation.step store (.groupsRefresh (decodedGroups accepted)) := by
  rw [downloadUserGroups_eq isURL ((groups_nonNil_iff accepted).mpr photos)]
  rfl

theorem decoded_pass_iff :
    (∀ accepted : AcceptedBody Friend, FriendsPass isURL ui accepted.data.response.items) ∧
    (∀ accepted : AcceptedBody Group, GroupsPass isURL ui accepted.data.response.items ↔
      ItemsHavePhoto50 accepted.body) := by
  constructor
  · intro accepted
    exact friendsPass isURL ui (friends_nonNil accepted)
  · intro accepted
    rw [groupsPass_iff, groups_nonNil_iff]

def groupWithoutPhoto : AcceptedBody Group where
  body := .object [("response", .object [("count", .number 1),
    ("items", .array [
      .object [("id", .number 5), ("name", .string "Chess club"), ("photo_50", .null)]])])]
  data := ⟨⟨1, [{ id := 5, name := "Chess club", activity := none, photo50 := none }]⟩⟩
  accepted := by rfl

theorem group_without_photo_traps :
    ¬ GroupsPass (fun _ => true) pictures groupWithoutPhoto.data.response.items := by
  intro pass
  have started := pass.downloaded
  revert started
  decide

end SocialApp.Accounts
