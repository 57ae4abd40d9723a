import SocialApp.Login.TabBar
import SocialApp.Network.Avatars
import SocialApp.Screens.SearchList

/-!
# A device that several accounts use

The session, the default Realm and the two list screens of the tab bar. The tab bar comes with new
list screens; nothing else that a login or a sign out does touches them or the Realm. A response
comes with the outcome `commits` of the transaction that saves it.
-/

namespace SocialApp.Accounts
open Library Foundation Realm Network Screens

structure Toolkit where
  decodeFriends : Data → Option (List Friend)
  decodeGroups : Data → Option (List Group)
  isURL : String → Bool
  text : TextOperations

def downloadUserGroups (isURL : String → Bool) (deletion saving : Access)
    (groups : Option (List Group)) (store : Store) : Option Store :=
  match groups with
  | none => some store
  | some groupsArray => do
      let store ← deleteGroupObjects deletion store
      let store ← saveGotGroupsInRealm saving groupsArray store
      let _ ← downloadAvatars isURL (groupsGetFromRealm store).rows
      return store

structure Device where
  app : Login.App
  store : Store
  friendsScreen : ListScreen := {}
  groupsScreen : ListScreen := {}

def Device.initial : Device := ⟨.initial, .empty, {}, {}⟩

inductive SessionEvent
  | friendsResponse (response : Option Data) (commits : Bool)
  | groupsResponse (response : Option Data) (commits : Bool)
  | photosResponse (userId : Int) (photoMetaData : Option (List Photo))
  | avatarResponse (save : AvatarSave) (image : Data)
  | searchFriends (event : SearchEvent)
  | searchGroups (event : SearchEvent)

inductive DeviceEvent
  | login (event : Login.Event)
  | session (event : SessionEvent)

namespace Device
variable (kit : Toolkit)

def session : Machine Device SessionEvent
  | device, .friendsResponse response commits => do
      let (savingOperation, store) ← downloadUserFriendsWithOperations kit.decodeFriends .commits
        (transaction commits) response device.store
      let _ ← DownloadingAvatarsOperation.main kit.isURL ⟨some savingOperation⟩
      return { device with store }
  | device, .groupsResponse response commits => do
      let store ← downloadUserGroups kit.isURL .commits (transaction commits)
        (response.bind kit.decodeGroups) device.store
      return { device with store }
  | device, .photosResponse userId photoMetaData =>
      match photoMetaData with
      | none => some device
      | some photos => do
          let store ← savePhotosMetaData .commits photos userId device.store
          return { device with store }
  | device, .avatarResponse save image => do
      let store ← save.run image device.store
      return { device with store }
  | device, .searchFriends event =>
      some { device with friendsScreen :=
        device.friendsScreen.search (friendMatches kit.text) event device.store.friends }
  | device, .searchGroups event =>
      some { device with groupsScreen :=
        device.groupsScreen.search (groupMatches kit.text) event device.store.groups }

def step : Machine Device DeviceEvent
  | device, .login event => do
      let app ← Login.step device.app event
      if device.app.root = .webLogin ∧ app.root = .tabBar then
        return { device with app, friendsScreen := {}, groupsScreen := {} }
      else
        return { device with app }
  | device, .session event => device.session kit event

def shown (device : Device) : List (Option Friend) × List (Option Group) :=
  (device.friendsScreen.rowsShown (friendsGetFromRealm device.store),
    device.groupsScreen.rowsShown (groupsGetFromRealm device.store))

end Device
end SocialApp.Accounts
