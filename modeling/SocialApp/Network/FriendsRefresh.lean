import SocialApp.Realm.Manager

/-!
# The friends refresh

`NetworkOperation`, `ParsingOperation` and `SavingOperation` hand the answer of `friends.get` from
one to the next, each reading `dependencies.first as? …`; `downloadUserFriends` is the older path
with a completion handler. What `JSONDecoder` makes of a body is the parameter `decode`.
-/

namespace SocialApp.Network
open Library Foundation Realm

variable (decode : Data → Option (List Friend))

structure NetworkOperation where
  data : Option Data := none

structure ParsingOperation where
  networkOperation : Option NetworkOperation
  parsedData : List Friend := []

structure SavingOperation where
  parsingOperation : Option ParsingOperation
  parsedData : List Friend := []

def NetworkOperation.responseData (response : Option Data) (operation : NetworkOperation) :
    NetworkOperation :=
  { operation with data := response }

def ParsingOperation.main (operation : ParsingOperation) : ParsingOperation :=
  match operation.networkOperation.bind NetworkOperation.data with
  | none => operation
  | some data =>
      match decode data with
      | none => operation
      | some friends => { operation with parsedData := friends }

def SavingOperation.main (deletion saving : Access) (operation : SavingOperation) (store : Store) :
    Option (SavingOperation × Store) :=
  match operation.parsingOperation with
  | none => some (operation, store)
  | some parsingOperation => do
      let operation := { operation with parsedData := parsingOperation.parsedData }
      let store ← deleteAllFriendsObject deletion store
      let store ← saveGotFriendsInRealm saving operation.parsedData store
      return (operation, store)

def downloadUserFriendsWithOperations (deletion saving : Access) (response : Option Data)
    (store : Store) : Option (SavingOperation × Store) :=
  let networkOperation := NetworkOperation.responseData response {}
  let parsingOperation := ParsingOperation.main decode ⟨some networkOperation, []⟩
  SavingOperation.main deletion saving ⟨some parsingOperation, []⟩ store

def friendsGet (response : Option Data) : Option (List Friend) := response.bind decode

def downloadUserFriends (deletion saving : Access) (response : Option Data) (store : Store) :
    Option Store :=
  match friendsGet decode response with
  | none => some store
  | some friendsArray => do
      let store ← deleteAllFriendsObject deletion store
      saveGotFriendsInRealm saving friendsArray store

theorem parsedData_main (response : Option Data) :
    (ParsingOperation.main decode ⟨some ⟨response⟩, []⟩).parsedData =
      (friendsGet decode response).getD [] := by
  unfold ParsingOperation.main friendsGet
  cases response with
  | none => rfl
  | some data => cases h : decode data <;> simp [h]

/-- A failed request reaches the store as an empty list of friends. -/
theorem downloadUserFriendsWithOperations_eq (saving : Access) (response : Option Data)
    (store : Store) :
    (downloadUserFriendsWithOperations decode .commits saving response store).map Prod.snd =
      saveGotFriendsInRealm saving ((friendsGet decode response).getD [])
        { store with friends := .empty } := by
  unfold downloadUserFriendsWithOperations SavingOperation.main
  simp only [NetworkOperation.responseData, deleteAllFriendsObject, forceWrite_commits,
    Option.bind_eq_bind, Option.bind_some, parsedData_main]
  cases saveGotFriendsInRealm saving ((friendsGet decode response).getD [])
    { store with friends := .empty } <;> rfl

theorem downloadUserFriends_failed {response : Option Data}
    (failed : friendsGet decode response = none) (deletion saving : Access) (store : Store) :
    downloadUserFriends decode deletion saving response store = some store := by
  simp [downloadUserFriends, failed]

theorem downloadUserFriends_decoded {response : Option Data} {friends : List Friend}
    (decoded : friendsGet decode response = some friends) (saving : Access) (store : Store) :
    downloadUserFriends decode .commits saving response store =
      (downloadUserFriendsWithOperations decode .commits saving response store).map Prod.snd := by
  rw [downloadUserFriendsWithOperations_eq]
  simp [downloadUserFriends, decoded, deleteAllFriendsObject]

def transaction (commits : Bool) : Access := if commits then .commits else .writeFails

/-- The rows are those of the answer if it decodes and is written, and the old ones otherwise. -/
def AllOrNothing (response : Option Data) (commits : Bool) (before after : Table Friend.id) : Prop :=
  match friendsGet decode response, commits with
  | some items, true => ∀ id, after.find id = Table.latest Friend.id items id
  | _, _ => after = before

def RefreshIsAtomic (response : Option Data) (commits : Bool) (store : Store) : Prop :=
  ∃ saving after, downloadUserFriendsWithOperations decode .commits (transaction commits) response
      store = some (saving, after) ∧
    AllOrNothing decode response commits store.friends after.friends

theorem exists_saved_friends (response : Option Data) (commits : Bool) :
    ∃ saving rows, ∀ store, downloadUserFriendsWithOperations decode .commits (transaction commits)
      response store = some (saving, { store with friends := rows }) := by
  let parsing := ParsingOperation.main decode ⟨some ⟨response⟩, []⟩
  cases commits with
  | false => exact ⟨⟨some parsing, parsing.parsedData⟩, .empty, fun _ => rfl⟩
  | true =>
      exact ⟨⟨some parsing, parsing.parsedData⟩, Table.empty.upsertAll parsing.parsedData,
        fun _ => rfl⟩

theorem refreshIsAtomic_of_store {response : Option Data} {commits : Bool} {store after : Store}
    (saved : saveGotFriendsInRealm (transaction commits) ((friendsGet decode response).getD [])
      { store with friends := .empty } = some after) :
    RefreshIsAtomic decode response commits store ↔
      AllOrNothing decode response commits store.friends after.friends := by
  have ends := (downloadUserFriendsWithOperations_eq decode (transaction commits) response store).trans
    saved
  obtain ⟨⟨saving, _⟩, chain, rfl⟩ := Option.map_eq_some_iff.mp ends
  simp [RefreshIsAtomic, chain]

theorem friends_refresh_iff (response : Option Data) (commits : Bool) (store : Store) :
    RefreshIsAtomic decode response commits store ↔
      ((friendsGet decode response).isSome ∧ commits = true) ∨ store.friends = .empty := by
  cases commits with
  | false =>
      have wiped : saveGotFriendsInRealm (transaction false) ((friendsGet decode response).getD [])
          { store with friends := .empty } = some { store with friends := .empty } := rfl
      rw [refreshIsAtomic_of_store decode wiped]
      cases friendsGet decode response <;> simp [AllOrNothing, eq_comm]
  | true =>
      rw [refreshIsAtomic_of_store decode rfl]
      cases decoded : friendsGet decode response with
      | none => simp [AllOrNothing, decoded, eq_comm]
      | some items => simp [AllOrNothing, decoded, Table.find_upsertAll_empty]

theorem offline_refresh_loses_friends :
    ¬ ∀ (decode : Data → Option (List Friend)) (response : Option Data) (commits : Bool)
        (store : Store), RefreshIsAtomic decode response commits store := by
  intro all
  have kept := (refreshIsAtomic_of_store _ rfl).mp
    (all (fun _ => some []) none true { Store.empty with friends := Table.empty.upsert { id := 1 } })
  exact absurd (congrArg Table.rows kept) (by decide)

end SocialApp.Network
