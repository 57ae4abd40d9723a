import Mathlib.Data.Option.Basic
import SocialApp.Accounts.Device

/-!
# What one account sees of another

Two runs that differ only in the session before a sign out show the next account the same rows
exactly if these sessions left the same friends and groups behind.
-/

namespace SocialApp.Accounts
open Library Foundation Realm Network Screens

variable (kit : Toolkit)

/-! ## Specification -/

def leftBehind (before : List DeviceEvent) : Option (Table Friend.id × Table Group.id) :=
  (Machine.run (Device.step kit) .initial before).map fun device =>
    (device.store.friends, device.store.groups)

/-- After the run, a sign out and the login of the next account: the rows shown at the login and
after each event of its session. -/
def shownToNext (before : List DeviceEvent) (fragment : String) (session : List SessionEvent) :
    Option (List (List (Option Friend) × List (Option Group))) :=
  (Machine.run (Device.step kit) .initial
      (before ++ [.login .signOut, .login (Login.redirect fragment)])).map fun device =>
    Machine.observations (Device.session kit) Device.shown device session

structure View where
  friends : Table Friend.id
  groups : Table Group.id
  friendsScreen : ListScreen
  groupsScreen : ListScreen

def Device.view (device : Device) : View :=
  ⟨device.store.friends, device.store.groups, device.friendsScreen, device.groupsScreen⟩

variable {kit}

theorem shown_congr {device other : Device} (same : device.view = other.view) :
    device.shown = other.shown := by
  simp only [Device.view, View.mk.injEq] at same
  obtain ⟨friends, groups, friendsScreen, groupsScreen⟩ := same
  simp only [Device.shown, friendsGetFromRealm, groupsGetFromRealm, friends, groups, friendsScreen,
    groupsScreen]

theorem exists_saved_groups (isURL : String → Bool) (groups : List Group) (commits : Bool) :
    ∃ rows, ∀ store, downloadUserGroups isURL .commits (transaction commits) (some groups) store =
      (downloadAvatars isURL rows.rows).map fun _ => { store with groups := rows } := by
  simp only [Option.map_eq_bind]
  cases commits with
  | false => exact ⟨.empty, fun _ => rfl⟩
  | true => exact ⟨Table.empty.upsertAll groups, fun _ => rfl⟩

variable (kit) in
theorem view_session {device other : Device} (same : device.view = other.view)
    (event : SessionEvent) :
    (device.session kit event).map Device.view = (other.session kit event).map Device.view := by
  obtain ⟨app, ⟨friends, groups, photos, photoflow⟩, friendsScreen, groupsScreen⟩ := device
  obtain ⟨app', ⟨friends', groups', photos', photoflow'⟩, friendsScreen', groupsScreen'⟩ := other
  simp only [Device.view, View.mk.injEq] at same
  obtain ⟨rfl, rfl, rfl, rfl⟩ := same
  cases event with
  | friendsResponse response commits =>
      obtain ⟨saving, rows, chain⟩ := exists_saved_friends kit.decodeFriends response commits
      simp only [Device.session, chain, Option.bind_eq_bind, Option.bind_some]
      cases DownloadingAvatarsOperation.main kit.isURL ⟨some saving⟩ <;> rfl
  | groupsResponse response commits =>
      simp only [Device.session]
      cases response.bind kit.decodeGroups with
      | none => rfl
      | some groups =>
          obtain ⟨rows, saved⟩ := exists_saved_groups kit.isURL groups commits
          simp only [saved]
          cases downloadAvatars kit.isURL rows.rows <;> rfl
  | photosResponse userId photoMetaData =>
      cases photoMetaData with
      | none => rfl
      | some photos =>
          simp only [Device.session, savePhotosMetaData]
          cases friends.find userId <;> rfl
  | avatarResponse save image => cases save <;> rfl
  | searchFriends event => rfl
  | searchGroups event => rfl

theorem observations_eq {device other : Device} (same : device.view = other.view)
    (session : List SessionEvent) :
    Machine.observations (Device.session kit) Device.shown device session =
      Machine.observations (Device.session kit) Device.shown other session := by
  refine Machine.observations_congr (R := fun a b => a.view = b.view) (fun _ _ => shown_congr) ?_
    same session
  intro device other event same
  have stepped := view_session kit same event
  cases first : device.session kit event with
  | none =>
      rw [first, Option.map_none, eq_comm, Option.map_eq_none_iff] at stepped
      rw [stepped]
      exact .none
  | some next =>
      rw [first, Option.map_some, eq_comm, Option.map_eq_some_iff] at stepped
      obtain ⟨next', second, view⟩ := stepped
      rw [second]
      exact .some view.symm

variable (kit) in
theorem run_next_login {fragment : String} (complete : Login.Complete fragment) (device : Device) :
    ∃ app, Machine.run (Device.step kit) device
        [.login .signOut, .login (Login.redirect fragment)] =
      some { app, store := device.store } := by
  have loginPage : (Login.signOutButton device.app).root = .webLogin := rfl
  have blank : (Login.NavigationResponse.mk (some ⟨"/blank.html", some fragment⟩)).blankFragment =
      some fragment := rfl
  obtain ⟨app, action, root, _⟩ := Login.login_complete blank loginPage complete
  refine ⟨app, ?_⟩
  have signedOut : Device.step kit device (.login .signOut) =
      some { device with app := Login.signOutButton device.app } := by
    simp [Device.step, Login.step, Login.signOutButton]
  have loggedIn : Device.step kit { device with app := Login.signOutButton device.app }
      (.login (Login.redirect fragment)) = some { app, store := device.store } := by
    simp [Device.step, Login.redirect, action, root, loginPage]
  simp only [Machine.run_cons, signedOut, loggedIn, Machine.run_nil, Option.bind_some]

def Device.newcomer (tables : Table Friend.id × Table Group.id) : Device :=
  ⟨.initial, ⟨tables.1, tables.2, .empty, .empty⟩, {}, {}⟩

theorem shownToNext_eq {fragment : String} (complete : Login.Complete fragment)
    (before : List DeviceEvent) (session : List SessionEvent) :
    shownToNext kit before fragment session = (leftBehind kit before).map fun tables =>
      Machine.observations (Device.session kit) Device.shown (.newcomer tables) session := by
  unfold shownToNext leftBehind
  rw [Machine.run_append]
  cases Machine.run (Device.step kit) .initial before with
  | none => rfl
  | some device =>
      obtain ⟨app, ran⟩ := run_next_login kit complete device
      simp only [Option.bind_some, ran, Option.map_some, Option.some.injEq]
      apply observations_eq
      rfl

theorem shown_newcomer (tables : Table Friend.id × Table Group.id) :
    (Device.newcomer tables).shown = (tables.1.rows.map some, tables.2.rows.map some) := by
  simp only [Device.shown, ListScreen.rowsShown_eq, friendsGetFromRealm, groupsGetFromRealm]
  rfl

theorem observations_injective (session : List SessionEvent) :
    Function.Injective fun tables =>
      Machine.observations (Device.session kit) Device.shown (.newcomer tables) session := by
  intro tables others same
  have first : (Device.newcomer tables).shown = (Device.newcomer others).shown := by
    have heads := congrArg List.head? same
    cases session <;> exact Option.some.inj heads
  rw [shown_newcomer, shown_newcomer, Prod.mk.injEq] at first
  have friends := List.map_injective_iff.mpr (Option.some_injective _) first.1
  have groups := List.map_injective_iff.mpr (Option.some_injective _) first.2
  exact Prod.ext (Table.ext friends) (Table.ext groups)

theorem accounts_isolated_iff {fragment : String} (complete : Login.Complete fragment)
    (first second : List DeviceEvent) (session : List SessionEvent) :
    shownToNext kit first fragment session = shownToNext kit second fragment session ↔
      leftBehind kit first = leftBehind kit second := by
  rw [shownToNext_eq complete, shownToNext_eq complete]
  exact (Option.map_injective (observations_injective session)).eq_iff

def accountRun (fragment : String) (session : List SessionEvent) : List DeviceEvent :=
  .login (Login.redirect fragment) :: session.map .session

def sampleKit : Toolkit where
  decodeFriends _ := some [{ id := 1 }]
  decodeGroups _ := some [{ id := 1 }]
  isURL _ := true
  text := ascii

def friendsFirst : List DeviceEvent :=
  accountRun "access_token=a&user_id=1"
    [.friendsResponse (some []) true, .groupsResponse (some []) true]

def groupsFirst : List DeviceEvent :=
  accountRun "access_token=c&user_id=3"
    [.groupsResponse (some []) true, .friendsResponse (some [1]) true, .groupsResponse none true,
      .searchGroups (.textChanged "club")]

theorem same_rows_isolated :
    (leftBehind sampleKit friendsFirst).map (fun tables => (tables.1.keys, tables.2.keys)) =
        some ([1], [1]) ∧
      shownToNext sampleKit friendsFirst "access_token=b&user_id=2" [.groupsResponse none true] =
        shownToNext sampleKit groupsFirst "access_token=b&user_id=2"
          [.groupsResponse none true] :=
  ⟨by decide, (accounts_isolated_iff (by decide) _ _ _).mpr (by decide)⟩

theorem groups_of_other_account_shown :
    ¬ ∀ (kit : Toolkit) (fragment next : String) (first second session : List SessionEvent),
      Login.Complete fragment → Login.Complete next →
        shownToNext kit (accountRun fragment first) next session =
          shownToNext kit (accountRun fragment second) next session := by
  intro all
  have same := all sampleKit "access_token=a&user_id=1" "access_token=b&user_id=2" []
    [.groupsResponse (some []) true] [.groupsResponse none true] (by decide) (by decide)
  have tables := (shownToNext_eq (by decide) _ _).symm.trans
    (same.trans (shownToNext_eq (by decide) _ _))
  have left := Option.map_injective (observations_injective _) tables
  exact absurd left (by decide)

end SocialApp.Accounts
