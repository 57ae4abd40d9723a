import SocialApp.Library.Outlet
import SocialApp.Network.Avatars
import SocialApp.Realm.Maps

/-!
# Avatars in flight

The friends and the groups are refreshed again and again, by one list screen after another, while
the avatars of earlier refreshes are still on their way. A save block keeps the object whose avatar
was requested and reads its id when it runs. An object stands for the row with its primary key: it
is good again once a later refresh has brought the key back, and reads that refresh's row; reading
it while there is no such row ends the program. A friend's avatar is downloaded on a global queue,
the avatars of the groups one after another in the completion of the request. `serves url data`
says that the server may answer `url` with `data`. Every transaction commits.
-/

namespace SocialApp.Network
open Library Foundation Realm Machine

inductive Block
  | saveAvatarForUserID (object : Int) (image : Data)
  | saveAvatarForGroupID (group : Int) (image : Data)

structure InFlight where
  store : Store
  saved : List (List Int) := []
  downloads : List (String × Int) := []
  mainQueue : List Block := []

inductive FlightEvent
  | savingOperation (friends : DecodedFriends)
  | downloadingAvatarsOperation (index : Nat)
  | download (index : Nat) (answer : Option Data)
  | groupsCompletion (groups : DecodedGroups) (answers : Int → Option Data)
  | mainBlock

namespace InFlight

def friend (flight : InFlight) (object : Int) : Option Friend := flight.store.friends.find object

def group (flight : InFlight) (object : Int) : Option Group := flight.store.groups.find object

variable (isURL : String → Bool) (serves : String → Data → Bool)

/-- The loop of `DownloadingAvatarsOperation.main`, which reads the objects as they are now. -/
def startDownloads (flight : InFlight) : List Int → Option (List (String × Int))
  | [] => some []
  | object :: objects => do
      let friend ← flight.friend object
      let url ← friend.photo50
      let downloads ← flight.startDownloads objects
      return if isURL url then (url, object) :: downloads else downloads

/-- The loop of `downloadAvatars`; `answers` is what the request for each group brings. -/
def groupBlocks (answers : Int → Option Data) : List Group → Option (List Block)
  | [] => some []
  | group :: groups => do
      let url ← group.photo50
      let blocks ← groupBlocks answers groups
      let data := if isURL url then (answers group.id).filter (serves url) else none
      return match data with
        | some image => .saveAvatarForGroupID group.id image :: blocks
        | none => blocks

def runBlock (flight : InFlight) : Block → Option InFlight
  | .saveAvatarForUserID object image => do
      let friend ← flight.friend object
      let store ← Realm.saveAvatarForUserID .commits (some image) friend.id flight.store
      return { flight with store }
  | .saveAvatarForGroupID object image => do
      let group ← flight.group object
      let store ← Realm.saveAvatarForGroupID .commits (some image) group.id flight.store
      return { flight with store }

def step : Machine InFlight FlightEvent
  | flight, .savingOperation friends => do
      let (operation, store) ← SavingOperation.main .commits .commits
        ⟨some ⟨none, friends.items⟩, []⟩ flight.store
      return { flight with store, saved := flight.saved ++ [operation.parsedData.map Friend.id] }
  | flight, .downloadingAvatarsOperation index => do
      let objects ← flight.saved[index]?
      let downloads ← flight.startDownloads isURL objects
      return { flight with
        saved := flight.saved.eraseIdx index
        downloads := flight.downloads ++ downloads }
  | flight, .download index answer => do
      let (url, object) ← flight.downloads[index]?
      let blocks := ((answer.filter (serves url)).map fun image =>
        Block.saveAvatarForUserID object image).toList
      return { flight with
        downloads := flight.downloads.eraseIdx index
        mainQueue := flight.mainQueue ++ blocks }
  | flight, .groupsCompletion groups answers => do
      let store ← deleteGroupObjects .commits flight.store
      let store ← saveGotGroupsInRealm .commits groups.items store
      let blocks ← groupBlocks isURL serves answers (groupsGetFromRealm store).rows
      return { flight with store, mainQueue := flight.mainQueue ++ blocks }
  | flight, .mainBlock =>
      match flight.mainQueue with
      | [] => none
      | block :: mainQueue => { flight with mainQueue }.runBlock block

inductive Moves (flight : InFlight) : FlightEvent → InFlight → Prop
  | saves (friends : DecodedFriends) :
      Moves flight (.savingOperation friends)
        { flight with
          store := { flight.store with friends := Table.empty.upsertAll friends.items }
          saved := flight.saved ++ [friends.items.map Friend.id] }
  | starts {index objects downloads} (taken : flight.saved[index]? = some objects)
      (started : flight.startDownloads isURL objects = some downloads) :
      Moves flight (.downloadingAvatarsOperation index)
        { flight with
          saved := flight.saved.eraseIdx index
          downloads := flight.downloads ++ downloads }
  | answers {index url object} (taken : flight.downloads[index]? = some (url, object))
      (answer : Option Data) :
      Moves flight (.download index answer)
        { flight with
          downloads := flight.downloads.eraseIdx index
          mainQueue := flight.mainQueue ++ ((answer.filter (serves url)).map fun image =>
            Block.saveAvatarForUserID object image).toList }
  | completes {groups : DecodedGroups} {answers : Int → Option Data} {blocks : List Block}
      (queued : groupBlocks isURL serves answers
        ((Table.empty : Table Group.id).upsertAll groups.items).rows = some blocks) :
      Moves flight (.groupsCompletion groups answers)
        { flight with
          store := { flight.store with groups := Table.empty.upsertAll groups.items }
          mainQueue := flight.mainQueue ++ blocks }
  | savesFriend {object image mainQueue friend}
      (block : flight.mainQueue = .saveAvatarForUserID object image :: mainQueue)
      (found : flight.friend object = some friend) :
      Moves flight .mainBlock
        { flight with
          store := { flight.store with
            friends := setFriendAvatar (some image) object flight.store.friends }
          mainQueue }
  | savesGroup {object image mainQueue group}
      (block : flight.mainQueue = .saveAvatarForGroupID object image :: mainQueue)
      (found : flight.group object = some group) :
      Moves flight .mainBlock
        { flight with
          store := { flight.store with
            groups := setGroupAvatar (some image) object flight.store.groups }
          mainQueue }

variable {isURL serves} in
theorem step_eq_some_iff {flight next : InFlight} {event : FlightEvent} :
    step isURL serves flight event = some next ↔ Moves isURL serves flight event next := by
  constructor
  · intro action
    cases event with
    | savingOperation friends =>
        cases action
        exact .saves friends
    | downloadingAvatarsOperation index =>
        obtain ⟨objects, taken, rest⟩ := Option.bind_eq_some_iff.mp action
        obtain ⟨downloads, started, rest⟩ := Option.bind_eq_some_iff.mp rest
        cases rest
        exact .starts taken started
    | download index answer =>
        obtain ⟨⟨url, object⟩, taken, rest⟩ := Option.bind_eq_some_iff.mp action
        cases rest
        exact .answers taken answer
    | groupsCompletion groups answers =>
        obtain ⟨blocks, queued, rest⟩ := Option.bind_eq_some_iff.mp action
        cases rest
        exact .completes queued
    | mainBlock =>
        cases block : flight.mainQueue with
        | nil => simp [step, block] at action
        | cons head mainQueue =>
            simp only [step, block] at action
            cases head with
            | saveAvatarForUserID object image =>
                obtain ⟨friend, found, rest⟩ := Option.bind_eq_some_iff.mp action
                obtain rfl := (Table.find_eq_some_iff.mp found).2
                cases rest
                exact .savesFriend block found
            | saveAvatarForGroupID object image =>
                obtain ⟨group, found, rest⟩ := Option.bind_eq_some_iff.mp action
                obtain rfl := (Table.find_eq_some_iff.mp found).2
                cases rest
                exact .savesGroup block found
  · intro moves
    cases moves with
    | saves friends => rfl
    | starts taken started => simp [step, taken, started]
    | answers taken answer => simp [step, taken]
    | completes queued =>
        simp only [step, deleteGroupObjects, forceWrite_commits, saveGotGroupsInRealm,
          write_commits, groupsGetFromRealm, Option.bind_eq_bind, Option.bind_some, queued]
        rfl
    | @savesFriend object image mainQueue friend block found =>
        have read : { flight with mainQueue }.friend object = some friend := found
        obtain rfl := (Table.find_eq_some_iff.mp found).2
        simp only [step, block, runBlock, read]
        rfl
    | @savesGroup object image mainQueue group block found =>
        have read : { flight with mainQueue }.group object = some group := found
        obtain rfl := (Table.find_eq_some_iff.mp found).2
        simp only [step, block, runBlock, read]
        rfl

variable {isURL serves}

def bareFriends (flight : InFlight) (id : Int) : Option Friend :=
  (flight.store.friends.find id).map (Operation.friendWithAvatar none)

def bareGroups (flight : InFlight) (id : Int) : Option Group :=
  (flight.store.groups.find id).map (Operation.groupWithAvatar none)

def friendsOf : FlightEvent → Option (Int → Option Friend)
  | .savingOperation friends => some (Table.latest Friend.id friends.items)
  | _ => none

def groupsOf : FlightEvent → Option (Int → Option Group)
  | .groupsCompletion groups _ => some (Table.latest Group.id groups.items)
  | _ => none

theorem map_latest_of_fixed {ρ : Type} {key : ρ → Int} {f : ρ → ρ} {rows : List ρ}
    (fixed : ∀ row ∈ rows, f row = row) (id : Int) :
    (Table.latest key rows id).map f = Table.latest key rows id := by
  cases last : Table.latest key rows id with
  | none => rfl
  | some row => rw [Option.map_some, fixed row (Table.mem_of_latest last)]

theorem Moves.bareFriends_eq {flight next : InFlight} {event : FlightEvent}
    (moves : Moves isURL serves flight event next) :
    next.bareFriends = (friendsOf event).getD flight.bareFriends := by
  funext id
  cases moves with
  | saves friends =>
      rw [bareFriends, Table.find_upsertAll_empty]
      apply map_latest_of_fixed
      intro friend member
      rw [Operation.friendWithAvatar, ← friends.bare friend member]
  | savesFriend block found =>
      rw [bareFriends, setFriendAvatar, Table.find_modify]
      split
      · rw [Option.map_map]
        rfl
      · rfl
  | starts | answers | completes | savesGroup => rfl

theorem Moves.bareGroups_eq {flight next : InFlight} {event : FlightEvent}
    (moves : Moves isURL serves flight event next) :
    next.bareGroups = (groupsOf event).getD flight.bareGroups := by
  funext id
  cases moves with
  | @completes groups _ _ queued =>
      rw [bareGroups, Table.find_upsertAll_empty]
      apply map_latest_of_fixed
      intro group member
      rw [Operation.groupWithAvatar, ← groups.bare group member]
  | savesGroup block found =>
      rw [bareGroups, setGroupAvatar, Table.find_modify]
      split
      · rw [Option.map_map]
        rfl
      · rfl
  | starts | answers | saves | savesFriend => rfl

variable (isURL serves) in
def friendsOutlet : Outlet (step isURL serves) (Int → Option Friend) where
  value := bareFriends
  assigned := friendsOf
  writes action := (step_eq_some_iff.mp action).bareFriends_eq

variable (isURL serves) in
def groupsOutlet : Outlet (step isURL serves) (Int → Option Group) where
  value := bareGroups
  assigned := groupsOf
  writes action := (step_eq_some_iff.mp action).bareGroups_eq

theorem bareFriends_of_find {flight : InFlight} {object : Int} {friend : Friend}
    (found : flight.friend object = some friend) :
    flight.bareFriends object = some (Operation.friendWithAvatar none friend) :=
  congrArg (Option.map (Operation.friendWithAvatar none)) found

theorem bareGroups_of_find {flight : InFlight} {object : Int} {group : Group}
    (found : flight.group object = some group) :
    flight.bareGroups object = some (Operation.groupWithAvatar none group) :=
  congrArg (Option.map (Operation.groupWithAvatar none)) found

def friendsListed : FlightEvent → List Friend
  | .savingOperation friends => friends.items
  | _ => []

def groupsListed : FlightEvent → List Group
  | .groupsCompletion groups _ => groups.items
  | _ => []

theorem Moves.friend_source {flight next : InFlight} {event : FlightEvent}
    (moves : Moves isURL serves flight event next) {object : Int} {friend : Friend}
    (found : next.friend object = some friend) :
    (∃ old, flight.friend object = some old ∧ old.photo50 = friend.photo50) ∨
      ∃ item ∈ friendsListed event, item.id = object ∧ item.photo50 = friend.photo50 := by
  have bare := bareFriends_of_find found
  rw [moves.bareFriends_eq] at bare
  cases event with
  | savingOperation friends =>
      have listed := Table.mem_of_latest bare
      obtain ⟨_, rfl⟩ := Table.find_eq_some_iff.mp found
      exact Or.inr ⟨_, listed, rfl, rfl⟩
  | downloadingAvatarsOperation | download | groupsCompletion | mainBlock =>
      obtain ⟨old, before, same⟩ := Option.map_eq_some_iff.mp bare
      have url := congrArg Friend.photo50 same
      exact Or.inl ⟨old, before, url⟩

theorem Moves.group_source {flight next : InFlight} {event : FlightEvent}
    (moves : Moves isURL serves flight event next) {object : Int} {group : Group}
    (found : next.group object = some group) :
    (∃ old, flight.group object = some old ∧ old.photo50 = group.photo50) ∨
      ∃ item ∈ groupsListed event, item.id = object ∧ item.photo50 = group.photo50 := by
  have bare := bareGroups_of_find found
  rw [moves.bareGroups_eq] at bare
  cases event with
  | groupsCompletion groups answers =>
      have listed := Table.mem_of_latest bare
      obtain ⟨_, rfl⟩ := Table.find_eq_some_iff.mp found
      exact Or.inr ⟨_, listed, rfl, rfl⟩
  | downloadingAvatarsOperation | download | savingOperation | mainBlock =>
      obtain ⟨old, before, same⟩ := Option.map_eq_some_iff.mp bare
      have url := congrArg Group.photo50 same
      exact Or.inl ⟨old, before, url⟩

variable (isURL serves)

def OwnAvatar (photo50 : Option String) (avatar : Option Data) : Prop :=
  ∀ image, avatar = some image → ∃ url, photo50 = some url ∧ isURL url ∧ serves url image

def Served (known : List (Int × Option String)) (id : Int) (image : Data) : Prop :=
  ∃ url, (id, some url) ∈ known ∧ isURL url ∧ serves url image

structure FromLists (friends groups : List (Int × Option String)) (flight : InFlight) : Prop where
  friendURL : ∀ friend ∈ flight.store.friends.rows, (friend.id, friend.photo50) ∈ friends
  groupURL : ∀ group ∈ flight.store.groups.rows, (group.id, group.photo50) ∈ groups
  friendAvatar : ∀ friend ∈ flight.store.friends.rows, ∀ image, friend.avatar = some image →
    Served isURL serves friends friend.id image
  groupAvatar : ∀ group ∈ flight.store.groups.rows, ∀ image, group.avatar = some image →
    Served isURL serves groups group.id image
  downloads : ∀ url object, (url, object) ∈ flight.downloads →
    (object, some url) ∈ friends ∧ isURL url
  friendBlock : ∀ object image, .saveAvatarForUserID object image ∈ flight.mainQueue →
    Served isURL serves friends object image
  groupBlock : ∀ object image, .saveAvatarForGroupID object image ∈ flight.mainQueue →
    Served isURL serves groups object image

variable {isURL serves}

theorem mem_startDownloads {flight : InFlight} {objects : List Int}
    {downloads : List (String × Int)}
    (started : flight.startDownloads isURL objects = some downloads) {url : String} {object : Int}
    (member : (url, object) ∈ downloads) :
    object ∈ objects ∧ isURL url ∧
      ∃ friend, flight.friend object = some friend ∧ friend.photo50 = some url := by
  induction objects generalizing downloads with
  | nil =>
      cases started
      cases member
  | cons head objects ih =>
      simp only [startDownloads, Option.bind_eq_bind, Option.bind_eq_some_iff, Option.pure_def,
        Option.some.injEq] at started
      obtain ⟨friend, found, photo50, present, rest, later, rfl⟩ := started
      by_cases valid : isURL photo50
      · simp only [valid, if_true, List.mem_cons, Prod.mk.injEq] at member
        rcases member with ⟨rfl, rfl⟩ | member
        · exact ⟨List.mem_cons_self, valid, friend, found, present⟩
        · obtain ⟨listed, source⟩ := ih later member
          exact ⟨List.mem_cons_of_mem _ listed, source⟩
      · rw [if_neg valid] at member
        obtain ⟨listed, source⟩ := ih later member
        exact ⟨List.mem_cons_of_mem _ listed, source⟩

theorem mem_groupBlocks {answers : Int → Option Data} {groups : List Group} {blocks : List Block}
    (queued : groupBlocks isURL serves answers groups = some blocks) {block : Block}
    (member : block ∈ blocks) :
    ∃ group ∈ groups, ∃ image, block = .saveAvatarForGroupID group.id image ∧
      OwnAvatar isURL serves group.photo50 (some image) := by
  induction groups generalizing blocks with
  | nil =>
      cases queued
      cases member
  | cons group groups ih =>
      simp only [groupBlocks, Option.bind_eq_bind, Option.bind_eq_some_iff, Option.pure_def,
        Option.some.injEq] at queued
      obtain ⟨url, present, rest, later, rfl⟩ := queued
      cases got : (if isURL url then (answers group.id).filter (serves url) else none) with
      | none =>
          rw [got] at member
          obtain ⟨other, listed, own⟩ := ih later member
          exact ⟨other, List.mem_cons_of_mem _ listed, own⟩
      | some image =>
          rw [got] at member
          rcases List.mem_cons.mp member with rfl | member
          · refine ⟨group, List.mem_cons_self, image, rfl, ?_⟩
            intro image' same
            cases same
            split at got
            · exact ⟨url, present, ‹_›, (Option.filter_eq_some_iff.mp got).2⟩
            · cases got
          · obtain ⟨other, listed, own⟩ := ih later member
            exact ⟨other, List.mem_cons_of_mem _ listed, own⟩

theorem Moves.download_source {flight next : InFlight} {event : FlightEvent}
    (moves : Moves isURL serves flight event next) {url : String} {object : Int}
    (member : (url, object) ∈ next.downloads) :
    (url, object) ∈ flight.downloads ∨
      isURL url ∧ ∃ friend, next.friend object = some friend ∧ friend.photo50 = some url := by
  cases moves with
  | starts taken started =>
      rcases List.mem_append.mp member with old | new
      · exact Or.inl old
      · exact Or.inr (mem_startDownloads started new).2
  | answers taken answer => exact Or.inl (List.mem_of_mem_eraseIdx member)
  | saves | completes | savesFriend | savesGroup => exact Or.inl member

theorem Moves.friendBlock_source {flight next : InFlight} {event : FlightEvent}
    (moves : Moves isURL serves flight event next) {object : Int} {image : Data}
    (member : .saveAvatarForUserID object image ∈ next.mainQueue) :
    .saveAvatarForUserID object image ∈ flight.mainQueue ∨
      next.store = flight.store ∧ ∃ url, (url, object) ∈ flight.downloads ∧ serves url image := by
  cases moves with
  | answers taken answer =>
      rcases List.mem_append.mp member with old | new
      · exact Or.inl old
      · obtain ⟨_, got, same⟩ := Option.map_eq_some_iff.mp (Option.mem_toList.mp new)
        cases same
        exact Or.inr ⟨rfl, _, List.mem_of_getElem? taken, (Option.filter_eq_some_iff.mp got).2⟩
  | completes queued =>
      rcases List.mem_append.mp member with old | new
      · exact Or.inl old
      · obtain ⟨_, _, _, same, _⟩ := mem_groupBlocks queued new
        cases same
  | savesFriend queue found => exact Or.inl (queue ▸ List.mem_cons_of_mem _ member)
  | savesGroup queue found => exact Or.inl (queue ▸ List.mem_cons_of_mem _ member)
  | saves | starts => exact Or.inl member

theorem Moves.groupBlock_source {flight next : InFlight} {event : FlightEvent}
    (moves : Moves isURL serves flight event next) {object : Int} {image : Data}
    (member : .saveAvatarForGroupID object image ∈ next.mainQueue) :
    .saveAvatarForGroupID object image ∈ flight.mainQueue ∨
      ∃ group, next.group object = some group ∧
        OwnAvatar isURL serves group.photo50 (some image) := by
  cases moves with
  | answers taken answer =>
      rcases List.mem_append.mp member with old | new
      · exact Or.inl old
      · obtain ⟨_, _, same⟩ := Option.map_eq_some_iff.mp (Option.mem_toList.mp new)
        cases same
  | completes queued =>
      rcases List.mem_append.mp member with old | new
      · exact Or.inl old
      · obtain ⟨group, stored, _, same, own⟩ := mem_groupBlocks queued new
        cases same
        exact Or.inr ⟨group, Table.find_key stored, own⟩
  | savesFriend queue found => exact Or.inl (queue ▸ List.mem_cons_of_mem _ member)
  | savesGroup queue found => exact Or.inl (queue ▸ List.mem_cons_of_mem _ member)
  | saves | starts => exact Or.inl member

theorem Moves.friendAvatar_source {flight next : InFlight} {event : FlightEvent}
    (moves : Moves isURL serves flight event next) {friend : Friend} {image : Data}
    (member : friend ∈ next.store.friends.rows) (present : friend.avatar = some image) :
    ∃ old ∈ flight.store.friends.rows, old.id = friend.id ∧ old.photo50 = friend.photo50 ∧
      (old.avatar = some image ∨ .saveAvatarForUserID friend.id image ∈ flight.mainQueue) := by
  cases moves with
  | saves friends =>
      rw [friends.bare friend (Table.mem_of_mem_upsertAll_empty member)] at present
      cases present
  | savesFriend queue found =>
      obtain ⟨old, stored, rfl⟩ := List.mem_map.mp member
      refine ⟨old, stored, ?_⟩
      split at present
      · rename_i saved
        cases present
        rw [if_pos saved]
        exact ⟨rfl, rfl, Or.inr (saved ▸ queue ▸ List.mem_cons_self)⟩
      · rename_i other
        rw [if_neg other]
        exact ⟨rfl, rfl, Or.inl present⟩
  | starts | answers | completes | savesGroup => exact ⟨friend, member, rfl, rfl, Or.inl present⟩

theorem Moves.groupAvatar_source {flight next : InFlight} {event : FlightEvent}
    (moves : Moves isURL serves flight event next) {group : Group} {image : Data}
    (member : group ∈ next.store.groups.rows) (present : group.avatar = some image) :
    ∃ old ∈ flight.store.groups.rows, old.id = group.id ∧ old.photo50 = group.photo50 ∧
      (old.avatar = some image ∨ .saveAvatarForGroupID group.id image ∈ flight.mainQueue) := by
  cases moves with
  | @completes groups _ _ queued =>
      rw [groups.bare group (Table.mem_of_mem_upsertAll_empty member)] at present
      cases present
  | savesGroup queue found =>
      obtain ⟨old, stored, rfl⟩ := List.mem_map.mp member
      refine ⟨old, stored, ?_⟩
      split at present
      · rename_i saved
        cases present
        rw [if_pos saved]
        exact ⟨rfl, rfl, Or.inr (saved ▸ queue ▸ List.mem_cons_self)⟩
      · rename_i other
        rw [if_neg other]
        exact ⟨rfl, rfl, Or.inl present⟩
  | starts | answers | saves | savesFriend => exact ⟨group, member, rfl, rfl, Or.inl present⟩

theorem Moves.fromLists {friends groups : List (Int × Option String)} {flight next : InFlight}
    {event : FlightEvent} (moves : Moves isURL serves flight event next)
    (friendsKnown : ∀ friend ∈ friendsListed event, (friend.id, friend.photo50) ∈ friends)
    (groupsKnown : ∀ group ∈ groupsListed event, (group.id, group.photo50) ∈ groups)
    (listed : flight.FromLists isURL serves friends groups) :
    next.FromLists isURL serves friends groups := by
  have friendURL : ∀ id friend, next.friend id = some friend → (id, friend.photo50) ∈ friends := by
    intro id friend found
    rcases moves.friend_source found with ⟨old, before, same⟩ | ⟨item, brought, key, same⟩
    · obtain ⟨stored, key⟩ := Table.find_eq_some_iff.mp before
      exact same ▸ key ▸ listed.friendURL old stored
    · exact same ▸ key ▸ friendsKnown item brought
  have groupURL : ∀ id group, next.group id = some group → (id, group.photo50) ∈ groups := by
    intro id group found
    rcases moves.group_source found with ⟨old, before, same⟩ | ⟨item, brought, key, same⟩
    · obtain ⟨stored, key⟩ := Table.find_eq_some_iff.mp before
      exact same ▸ key ▸ listed.groupURL old stored
    · exact same ▸ key ▸ groupsKnown item brought
  refine ⟨fun friend member => friendURL _ _ (Table.find_key member),
    fun group member => groupURL _ _ (Table.find_key member), ?_, ?_, ?_, ?_, ?_⟩
  · intro friend member image present
    obtain ⟨old, stored, key, _, before | queued⟩ := moves.friendAvatar_source member present
    · exact key ▸ listed.friendAvatar old stored image before
    · exact listed.friendBlock friend.id image queued
  · intro group member image present
    obtain ⟨old, stored, key, _, before | queued⟩ := moves.groupAvatar_source member present
    · exact key ▸ listed.groupAvatar old stored image before
    · exact listed.groupBlock group.id image queued
  · intro url object member
    rcases moves.download_source member with old | ⟨valid, friend, found, present⟩
    · exact listed.downloads url object old
    · exact ⟨present ▸ friendURL object friend found, valid⟩
  · intro object image member
    rcases moves.friendBlock_source member with old | ⟨_, url, started, answered⟩
    · exact listed.friendBlock object image old
    · obtain ⟨known, valid⟩ := listed.downloads url object started
      exact ⟨url, known, valid, answered⟩
  · intro object image member
    rcases moves.groupBlock_source member with old | ⟨group, found, own⟩
    · exact listed.groupBlock object image old
    · obtain ⟨url, present, valid, answered⟩ := own image rfl
      exact ⟨url, present ▸ groupURL object group found, valid, answered⟩

variable (isURL serves) in
structure OwnAvatars (store : Store) : Prop where
  friends : ∀ friend ∈ store.friends.rows, OwnAvatar isURL serves friend.photo50 friend.avatar
  groups : ∀ group ∈ store.groups.rows, OwnAvatar isURL serves group.photo50 group.avatar

variable (isURL serves) in
/-- A refresh brings an id whose avatar is in flight back with the URL that is being downloaded, or
with one that serves the image that waits on the main queue. -/
structure KeepsURLs (flight : InFlight) (event : FlightEvent) : Prop where
  downloads : ∀ friend ∈ friendsListed event, ∀ url, (url, friend.id) ∈ flight.downloads →
    friend.photo50 = some url
  friendBlock : ∀ friend ∈ friendsListed event, ∀ image,
    .saveAvatarForUserID friend.id image ∈ flight.mainQueue →
      OwnAvatar isURL serves friend.photo50 (some image)
  groupBlock : ∀ group ∈ groupsListed event, ∀ image,
    .saveAvatarForGroupID group.id image ∈ flight.mainQueue →
      OwnAvatar isURL serves group.photo50 (some image)

variable (isURL serves) in
structure Own (flight : InFlight) : Prop extends OwnAvatars isURL serves flight.store where
  downloads : ∀ url object, (url, object) ∈ flight.downloads → isURL url ∧
    ∀ friend, flight.friend object = some friend → friend.photo50 = some url
  friendBlock : ∀ object image, .saveAvatarForUserID object image ∈ flight.mainQueue →
    ∀ friend, flight.friend object = some friend →
      OwnAvatar isURL serves friend.photo50 (some image)
  groupBlock : ∀ object image, .saveAvatarForGroupID object image ∈ flight.mainQueue →
    ∀ group, flight.group object = some group → OwnAvatar isURL serves group.photo50 (some image)

theorem Moves.own {flight next : InFlight} {event : FlightEvent}
    (moves : Moves isURL serves flight event next) (keeps : flight.KeepsURLs isURL serves event)
    (own : flight.Own isURL serves) : next.Own isURL serves := by
  have downloads : ∀ url object, (url, object) ∈ flight.downloads → isURL url ∧
      ∀ friend, next.friend object = some friend → friend.photo50 = some url := by
    intro url object member
    refine ⟨(own.downloads url object member).1, ?_⟩
    intro friend found
    rcases moves.friend_source found with ⟨old, before, same⟩ | ⟨item, brought, rfl, same⟩
    · exact same ▸ (own.downloads url object member).2 old before
    · exact same ▸ keeps.downloads item brought url member
  refine ⟨⟨?_, ?_⟩, ?_, ?_, ?_⟩
  · intro friend member image present
    obtain ⟨old, stored, key, same, before | queued⟩ := moves.friendAvatar_source member present
    · exact same ▸ own.friends old stored image before
    · have found : flight.friend friend.id = some old := key ▸ Table.find_key stored
      exact same ▸ own.friendBlock friend.id image queued old found image rfl
  · intro group member image present
    obtain ⟨old, stored, key, same, before | queued⟩ := moves.groupAvatar_source member present
    · exact same ▸ own.groups old stored image before
    · have found : flight.group group.id = some old := key ▸ Table.find_key stored
      exact same ▸ own.groupBlock group.id image queued old found image rfl
  · intro url object member
    rcases moves.download_source member with old | ⟨valid, friend, found, present⟩
    · exact downloads url object old
    · refine ⟨valid, ?_⟩
      intro friend' found'
      exact Option.some.inj (found.symm.trans found') ▸ present
  · intro object image member friend found
    rcases moves.friendBlock_source member with queued | ⟨_, url, started, answered⟩
    · rcases moves.friend_source found with ⟨old, before, same⟩ | ⟨item, brought, rfl, same⟩
      · exact same ▸ own.friendBlock object image queued old before
      · exact same ▸ keeps.friendBlock item brought image queued
    · obtain ⟨valid, reads⟩ := downloads url object started
      rintro _ ⟨⟩
      exact ⟨url, reads friend found, valid, answered⟩
  · intro object image member group found
    rcases moves.groupBlock_source member with queued | ⟨group', found', answered⟩
    · rcases moves.group_source found with ⟨old, before, same⟩ | ⟨item, brought, rfl, same⟩
      · exact same ▸ own.groupBlock object image queued old before
      · exact same ▸ keeps.groupBlock item brought image queued
    · exact Option.some.inj (found'.symm.trans found) ▸ answered

def friendURLs (friends : List Friend) : List (Int × Option String) :=
  friends.map fun friend => (friend.id, friend.photo50)

def groupURLs (groups : List Group) : List (Int × Option String) :=
  groups.map fun group => (group.id, group.photo50)

theorem fromLists_launch {store : Store} (own : OwnAvatars isURL serves store)
    {friends groups : List (Int × Option String)}
    (friendsKnown : friendURLs store.friends.rows ⊆ friends)
    (groupsKnown : groupURLs store.groups.rows ⊆ groups) :
    ({ store } : InFlight).FromLists isURL serves friends groups := by
  have friendURL : ∀ friend ∈ store.friends.rows, (friend.id, friend.photo50) ∈ friends :=
    fun friend member => friendsKnown (List.mem_map_of_mem member)
  have groupURL : ∀ group ∈ store.groups.rows, (group.id, group.photo50) ∈ groups :=
    fun group member => groupsKnown (List.mem_map_of_mem member)
  refine ⟨friendURL, groupURL, ?_, ?_, by simp, by simp, by simp⟩
  · intro friend member image present
    obtain ⟨url, same, source⟩ := own.friends friend member image present
    exact ⟨url, same ▸ friendURL friend member, source⟩
  · intro group member image present
    obtain ⟨url, same, source⟩ := own.groups group member image present
    exact ⟨url, same ▸ groupURL group member, source⟩

theorem fromLists_run {friends groups : List (Int × Option String)} {flight next : InFlight}
    {events : List FlightEvent}
    (friendsKnown : friendURLs (events.flatMap friendsListed) ⊆ friends)
    (groupsKnown : groupURLs (events.flatMap groupsListed) ⊆ groups)
    (listed : flight.FromLists isURL serves friends groups)
    (ran : run (step isURL serves) flight events = some next) :
    next.FromLists isURL serves friends groups := by
  induction events generalizing flight with
  | nil =>
      cases ran
      exact listed
  | cons event events ih =>
      obtain ⟨middle, action, rest⟩ := Option.bind_eq_some_iff.mp ran
      simp only [friendURLs, groupURLs, List.flatMap_cons, List.map_append,
        List.append_subset] at friendsKnown groupsKnown
      refine ih friendsKnown.2 groupsKnown.2 ?_ rest
      refine (step_eq_some_iff.mp action).fromLists ?_ ?_ listed
      · exact fun friend member => friendsKnown.1 (List.mem_map_of_mem member)
      · exact fun group member => groupsKnown.1 (List.mem_map_of_mem member)

theorem avatars_from_lists {store : Store} (own : OwnAvatars isURL serves store)
    {events : List FlightEvent} {flight : InFlight}
    (ran : run (step isURL serves) { store } events = some flight) :
    (∀ friend ∈ flight.store.friends.rows, ∀ image, friend.avatar = some image →
      Served isURL serves (friendURLs (store.friends.rows ++ events.flatMap friendsListed))
        friend.id image) ∧
    (∀ group ∈ flight.store.groups.rows, ∀ image, group.avatar = some image →
      Served isURL serves (groupURLs (store.groups.rows ++ events.flatMap groupsListed))
        group.id image) ∧
    (Along (step isURL serves) (KeepsURLs isURL serves) { store } events →
      OwnAvatars isURL serves flight.store) ∧
    flight.bareFriends = (lastSome friendsOf events).getD ({ store } : InFlight).bareFriends ∧
    flight.bareGroups = (lastSome groupsOf events).getD ({ store } : InFlight).bareGroups := by
  have listed : flight.FromLists isURL serves
      (friendURLs (store.friends.rows ++ events.flatMap friendsListed))
      (groupURLs (store.groups.rows ++ events.flatMap groupsListed)) := by
    refine fromLists_run ?_ ?_ (fromLists_launch own ?_ ?_) ran <;>
      simp [friendURLs, groupURLs]
  have launch : ({ store } : InFlight).Own isURL serves := ⟨own, by simp, by simp, by simp⟩
  refine ⟨listed.friendAvatar, listed.groupAvatar, ?_,
    (friendsOutlet isURL serves).value_run ran, (groupsOutlet isURL serves).value_run ran⟩
  intro keeps
  have preserved : ∀ flight event next, Own isURL serves flight →
      KeepsURLs isURL serves flight event → step isURL serves flight event = some next →
        Own isURL serves next :=
    fun _ _ _ own keeps action => (step_eq_some_iff.mp action).own keeps own
  exact (run_invariant_along preserved launch keeps ran).toOwnAvatars

def oneFriend (url : String) : DecodedFriends where
  items := [{ id := 1, photo50 := some url }]
  bare friend member := by
    rw [List.mem_singleton.mp member]

def newPhoto : List FlightEvent :=
  [.savingOperation (oneFriend "https://vk.com/1.jpg"), .downloadingAvatarsOperation 0,
    .savingOperation (oneFriend "https://vk.com/2.jpg"), .download 0 (some [7]), .mainBlock]

/-- The second list has the friend of the first with a new photo: the old one becomes its avatar. -/
theorem newPhoto_old_avatar : ∃ flight,
    run (step (fun _ => true) (fun url image => url = "https://vk.com/1.jpg" && image = [7]))
        ⟨.empty, [], [], []⟩ newPhoto = some flight ∧
      flight.store.friends.rows =
        [{ id := 1, photo50 := some "https://vk.com/2.jpg", avatar := some [7] }] ∧
      ∀ friend ∈ flight.store.friends.rows, ∀ image, friend.avatar = some image →
        Served (fun _ => true) (fun url image => url = "https://vk.com/1.jpg" && image = [7])
          [(1, some "https://vk.com/1.jpg"), (1, some "https://vk.com/2.jpg")] friend.id image := by
  have own : OwnAvatars (fun _ => true)
      (fun url image => url = "https://vk.com/1.jpg" && image = [7]) .empty :=
    ⟨fun _ member => (by cases member), fun _ member => (by cases member)⟩
  exact ⟨_, rfl, rfl, (@avatars_from_lists _ _ .empty own newPhoto _ rfl).1⟩

def Possible (flight : InFlight) : FlightEvent → Prop
  | .savingOperation friends => ∀ friend ∈ friends.items, friend.photo50.isSome
  | .downloadingAvatarsOperation index => index < flight.saved.length
  | .download index _ => index < flight.downloads.length
  | .groupsCompletion groups _ => ∀ group ∈ groups.items, group.photo50.isSome
  | .mainBlock => flight.mainQueue ≠ []

def Drops : FlightEvent → Block → Prop
  | .savingOperation friends, .saveAvatarForUserID object _ => object ∉ friends.items.map Friend.id
  | .groupsCompletion groups _, .saveAvatarForGroupID object _ => object ∉ groups.items.map Group.id
  | _, _ => False

structure KeepsRows (flight : InFlight) (event : FlightEvent) : Prop where
  blocks : ∀ block ∈ flight.mainQueue, ¬ Drops event block
  saved : ∀ friends, event = .savingOperation friends → ∀ objects ∈ flight.saved,
    ∀ object ∈ objects, object ∈ friends.items.map Friend.id
  downloads : ∀ friends, event = .savingOperation friends → ∀ url object,
    (url, object) ∈ flight.downloads → object ∈ friends.items.map Friend.id

def LiveBlock (flight : InFlight) : Block → Prop
  | .saveAvatarForUserID object _ => (flight.friend object).isSome
  | .saveAvatarForGroupID object _ => (flight.group object).isSome

def HasPhoto (flight : InFlight) (object : Int) : Prop :=
  ∃ friend, flight.friend object = some friend ∧ friend.photo50.isSome

structure Live (flight : InFlight) : Prop where
  saved : ∀ objects ∈ flight.saved, ∀ object ∈ objects, flight.HasPhoto object
  downloads : ∀ url object, (url, object) ∈ flight.downloads → (flight.friend object).isSome
  blocks : ∀ block ∈ flight.mainQueue, flight.LiveBlock block

theorem startDownloads_isSome {flight : InFlight} {objects : List Int}
    (photos : ∀ object ∈ objects, flight.HasPhoto object) :
    (flight.startDownloads isURL objects).isSome := by
  induction objects with
  | nil => rfl
  | cons object objects ih =>
      obtain ⟨friend, found, present⟩ := photos object List.mem_cons_self
      obtain ⟨url, present⟩ := Option.isSome_iff_exists.mp present
      obtain ⟨downloads, started⟩ := Option.isSome_iff_exists.mp
        (ih fun other member => photos other (List.mem_cons_of_mem _ member))
      simp [startDownloads, found, present, started]

theorem groupBlocks_isSome {answers : Int → Option Data} {groups : List Group}
    (photos : ∀ group ∈ groups, group.photo50.isSome) :
    (groupBlocks isURL serves answers groups).isSome := by
  induction groups with
  | nil => rfl
  | cons group groups ih =>
      obtain ⟨url, present⟩ := Option.isSome_iff_exists.mp (photos group List.mem_cons_self)
      obtain ⟨blocks, queued⟩ := Option.isSome_iff_exists.mp
        (ih fun other member => photos other (List.mem_cons_of_mem _ member))
      simp [groupBlocks, present, queued]

theorem step_isSome {flight : InFlight} {event : FlightEvent} (live : flight.Live)
    (possible : flight.Possible event) : (step isURL serves flight event).isSome := by
  cases event with
  | savingOperation friends => rfl
  | downloadingAvatarsOperation index =>
      obtain ⟨objects, taken⟩ : ∃ objects, flight.saved[index]? = some objects :=
        ⟨_, List.getElem?_eq_getElem possible⟩
      have starts : (flight.startDownloads isURL objects).isSome :=
        startDownloads_isSome (live.saved objects (List.mem_of_getElem? taken))
      obtain ⟨downloads, started⟩ := Option.isSome_iff_exists.mp starts
      exact Option.isSome_of_eq_some (step_eq_some_iff.mpr (.starts taken started))
  | download index answer =>
      have taken := List.getElem?_eq_getElem possible
      exact Option.isSome_of_eq_some (step_eq_some_iff.mpr (.answers taken answer))
  | groupsCompletion groups answers =>
      have photos : ∀ group ∈ ((Table.empty : Table Group.id).upsertAll groups.items).rows,
          group.photo50.isSome :=
        fun group member => possible group (Table.mem_of_mem_upsertAll_empty member)
      have queues : (groupBlocks isURL serves answers
          ((Table.empty : Table Group.id).upsertAll groups.items).rows).isSome :=
        groupBlocks_isSome photos
      obtain ⟨blocks, queued⟩ := Option.isSome_iff_exists.mp queues
      exact Option.isSome_of_eq_some (step_eq_some_iff.mpr (.completes queued))
  | mainBlock =>
      obtain ⟨block, mainQueue, queue⟩ := List.exists_cons_of_ne_nil possible
      have head := live.blocks block (queue ▸ List.mem_cons_self)
      cases block with
      | saveAvatarForUserID object image =>
          obtain ⟨friend, found⟩ := Option.isSome_iff_exists.mp head
          exact Option.isSome_of_eq_some (step_eq_some_iff.mpr (.savesFriend queue found))
      | saveAvatarForGroupID object image =>
          obtain ⟨group, found⟩ := Option.isSome_iff_exists.mp head
          exact Option.isSome_of_eq_some (step_eq_some_iff.mpr (.savesGroup queue found))

theorem friend_isSome_bare (flight : InFlight) (object : Int) :
    (flight.friend object).isSome = (flight.bareFriends object).isSome :=
  Option.isSome_map.symm

theorem group_isSome_bare (flight : InFlight) (object : Int) :
    (flight.group object).isSome = (flight.bareGroups object).isSome :=
  Option.isSome_map.symm

theorem hasPhoto_iff_bare (flight : InFlight) (object : Int) :
    flight.HasPhoto object ↔
      ∃ friend, flight.bareFriends object = some friend ∧ friend.photo50.isSome := by
  constructor
  · intro has
    obtain ⟨friend, found, present⟩ := has
    exact ⟨_, bareFriends_of_find found, present⟩
  · intro has
    obtain ⟨_, found, present⟩ := has
    obtain ⟨friend, before, rfl⟩ := Option.map_eq_some_iff.mp found
    exact ⟨friend, before, present⟩

theorem Moves.friend_isSome_iff {flight next : InFlight} {event : FlightEvent}
    (moves : Moves isURL serves flight event next) {object : Int}
    (live : (flight.friend object).isSome) :
    (next.friend object).isSome ↔
      ∀ friends, event = .savingOperation friends → object ∈ friends.items.map Friend.id := by
  rw [friend_isSome_bare] at live ⊢
  rw [moves.bareFriends_eq]
  cases event with
  | savingOperation friends => exact Table.latest_isSome_iff.trans (by simp)
  | downloadingAvatarsOperation | download | groupsCompletion | mainBlock =>
      exact iff_of_true live (by simp)

theorem Moves.group_isSome_iff {flight next : InFlight} {event : FlightEvent}
    (moves : Moves isURL serves flight event next) {object : Int}
    (live : (flight.group object).isSome) :
    (next.group object).isSome ↔ ∀ groups answers, event = .groupsCompletion groups answers →
      object ∈ groups.items.map Group.id := by
  rw [group_isSome_bare] at live ⊢
  rw [moves.bareGroups_eq]
  cases event with
  | groupsCompletion groups answers => exact Table.latest_isSome_iff.trans (by simp)
  | downloadingAvatarsOperation | download | savingOperation | mainBlock =>
      exact iff_of_true live (by simp)

theorem Moves.liveBlock_iff {flight next : InFlight} {event : FlightEvent}
    (moves : Moves isURL serves flight event next) {block : Block}
    (live : flight.LiveBlock block) : next.LiveBlock block ↔ ¬ Drops event block := by
  cases block with
  | saveAvatarForUserID object image =>
      rw [LiveBlock, moves.friend_isSome_iff live]
      cases event <;> simp [Drops]
  | saveAvatarForGroupID object image =>
      rw [LiveBlock, moves.group_isSome_iff live]
      cases event <;> simp [Drops]

theorem Moves.liveBlock_mainBlock {flight next : InFlight}
    (moves : Moves isURL serves flight .mainBlock next) (block : Block) :
    next.LiveBlock block ↔ flight.LiveBlock block := by
  cases block with
  | saveAvatarForUserID object image =>
      rw [LiveBlock, LiveBlock, friend_isSome_bare, friend_isSome_bare, moves.bareFriends_eq]
      rfl
  | saveAvatarForGroupID object image =>
      rw [LiveBlock, LiveBlock, group_isSome_bare, group_isSome_bare, moves.bareGroups_eq]
      rfl

theorem Moves.hasPhoto {flight next : InFlight} {event : FlightEvent}
    (moves : Moves isURL serves flight event next) (possible : flight.Possible event)
    {object : Int} (has : flight.HasPhoto object)
    (kept : ∀ friends, event = .savingOperation friends → object ∈ friends.items.map Friend.id) :
    next.HasPhoto object := by
  rw [hasPhoto_iff_bare] at has ⊢
  rw [moves.bareFriends_eq]
  cases event with
  | savingOperation friends =>
      obtain ⟨friend, last⟩ := Option.isSome_iff_exists.mp
        (Table.latest_isSome_iff.mpr (kept friends rfl))
      exact ⟨friend, last, possible friend (Table.mem_of_latest last)⟩
  | _ => exact has

theorem Moves.queued {flight next : InFlight} {event : FlightEvent}
    (moves : Moves isURL serves flight event next) (live : flight.Live) {block : Block}
    (member : block ∈ next.mainQueue) : block ∈ flight.mainQueue ∨ next.LiveBlock block := by
  cases block with
  | saveAvatarForUserID object image =>
      rcases moves.friendBlock_source member with old | ⟨same, url, started, _⟩
      · exact Or.inl old
      · refine Or.inr ?_
        rw [LiveBlock, InFlight.friend, same]
        exact live.downloads url object started
  | saveAvatarForGroupID object image =>
      rcases moves.groupBlock_source member with old | ⟨group, found, _⟩
      · exact Or.inl old
      · exact Or.inr (Option.isSome_of_eq_some found)

theorem Moves.liveQueue_iff {flight next : InFlight} {event : FlightEvent}
    (moves : Moves isURL serves flight event next) (live : flight.Live) :
    (∀ block ∈ next.mainQueue, next.LiveBlock block) ↔
      ∀ block ∈ flight.mainQueue, ¬ Drops event block := by
  constructor
  · intro all block member dropped
    have remains : block ∈ next.mainQueue := by
      cases moves with
      | saves friends => exact member
      | completes queued => exact List.mem_append_left _ member
      | starts | answers | savesFriend | savesGroup => cases dropped
    exact (moves.liveBlock_iff (live.blocks block member)).mp (all block remains) dropped
  · intro kept block member
    rcases moves.queued live member with old | new
    · exact (moves.liveBlock_iff (live.blocks block old)).mpr (kept block old)
    · exact new

theorem Moves.live {flight next : InFlight} {event : FlightEvent}
    (moves : Moves isURL serves flight event next) (live : flight.Live)
    (possible : flight.Possible event) (keeps : flight.KeepsRows event) : next.Live := by
  have saved : ∀ objects ∈ flight.saved, ∀ object ∈ objects, next.HasPhoto object := by
    intro objects listed object member
    refine moves.hasPhoto possible (live.saved objects listed object member) ?_
    intro friends same
    exact keeps.saved friends same objects listed object member
  refine ⟨?_, ?_, (moves.liveQueue_iff live).mpr keeps.blocks⟩
  · intro objects listed object member
    cases moves with
    | saves friends =>
        rcases List.mem_append.mp listed with old | new
        · exact saved objects old object member
        · rw [List.mem_singleton.mp new] at member
          obtain ⟨last, isLast⟩ := Option.isSome_iff_exists.mp
            (Table.latest_isSome_iff.mpr member)
          refine ⟨last, ?_, possible last (Table.mem_of_latest isLast)⟩
          exact (Table.find_upsertAll_empty friends.items object).trans isLast
    | starts taken started => exact saved objects (List.mem_of_mem_eraseIdx listed) object member
    | answers | completes | savesFriend | savesGroup => exact saved objects listed object member
  · intro url object member
    rcases moves.download_source member with old | ⟨_, friend, found, _⟩
    · refine (moves.friend_isSome_iff (live.downloads url object old)).mpr ?_
      exact fun friends same => keeps.downloads friends same url object old
    · exact Option.isSome_of_eq_some found

def drain (flight : InFlight) : List FlightEvent :=
  List.replicate flight.mainQueue.length .mainBlock

theorem mainBlock_isSome_iff {flight : InFlight} {block : Block} {mainQueue : List Block}
    (queue : flight.mainQueue = block :: mainQueue) :
    (step isURL serves flight .mainBlock).isSome ↔ flight.LiveBlock block := by
  rw [step, queue]
  cases block with
  | saveAvatarForUserID object image =>
      have same : { flight with mainQueue }.friend object = flight.friend object := rfl
      cases found : flight.friend object <;> simp [runBlock, same, LiveBlock, found]
      rfl
  | saveAvatarForGroupID object image =>
      have same : { flight with mainQueue }.group object = flight.group object := rfl
      cases found : flight.group object <;> simp [runBlock, same, LiveBlock, found]
      rfl

theorem Moves.mainQueue_tail {flight next : InFlight}
    (moves : Moves isURL serves flight .mainBlock next) {block : Block} {mainQueue : List Block}
    (queue : flight.mainQueue = block :: mainQueue) : next.mainQueue = mainQueue := by
  cases moves with
  | savesFriend queue' found => exact (List.cons.inj (queue'.symm.trans queue)).2
  | savesGroup queue' found => exact (List.cons.inj (queue'.symm.trans queue)).2

theorem drain_isSome_iff (flight : InFlight) :
    (run (step isURL serves) flight flight.drain).isSome ↔
      ∀ block ∈ flight.mainQueue, flight.LiveBlock block := by
  unfold drain
  induction queue : flight.mainQueue generalizing flight with
  | nil => simp
  | cons block mainQueue ih =>
      have first := @mainBlock_isSome_iff isURL serves flight block mainQueue queue
      rw [List.length_cons, List.replicate_succ, run_cons, List.forall_mem_cons, ← first]
      cases action : step isURL serves flight .mainBlock with
      | none => simp
      | some next =>
          have moves := step_eq_some_iff.mp action
          have rest := ih next (moves.mainQueue_tail queue)
          simp only [moves.liveBlock_mainBlock] at rest
          simpa using rest

theorem kept_rows_never_trap (store : Store) (events : List FlightEvent)
    (kept : Along (step isURL serves)
      (fun flight event => flight.Possible event ∧ flight.KeepsRows event) { store } events) :
    ∃ flight, run (step isURL serves) { store } events = some flight ∧
      ∀ event, flight.Possible event → ∃ next, step isURL serves flight event = some next ∧
        ((run (step isURL serves) next next.drain).isSome ↔
          ∀ block ∈ flight.mainQueue, ¬ Drops event block) := by
  have launch : ({ store } : InFlight).Live := ⟨by simp, by simp, by simp⟩
  have progress : ∀ flight event, flight.Live → flight.Possible event ∧ flight.KeepsRows event →
      (step isURL serves flight event).isSome :=
    fun _ _ live meets => step_isSome live meets.1
  have preserved : ∀ flight event next, flight.Live →
      flight.Possible event ∧ flight.KeepsRows event →
        step isURL serves flight event = some next → next.Live :=
    fun _ _ _ live meets action => (step_eq_some_iff.mp action).live live meets.1 meets.2
  obtain ⟨flight, ran, live⟩ := run_isSome_of_along progress preserved launch kept
  refine ⟨flight, ran, ?_⟩
  intro event possible
  obtain ⟨next, action⟩ := Option.isSome_iff_exists.mp (step_isSome live possible)
  refine ⟨next, action, ?_⟩
  rw [drain_isSome_iff]
  exact (step_eq_some_iff.mp action).liveQueue_iff live

theorem refresh_keeps_friend :
    ∃ flight, run (step (fun _ => true) (fun _ _ => true)) ⟨.empty, [], [], []⟩
        [.savingOperation (oneFriend "https://vk.com/1.jpg"), .downloadingAvatarsOperation 0,
          .savingOperation (oneFriend "https://vk.com/2.jpg"), .download 0 (some [7])] =
        some flight ∧
      ∀ event, flight.Possible event →
        ∃ next, step (fun _ => true) (fun _ _ => true) flight event = some next ∧
          ((run (step (fun _ => true) (fun _ _ => true)) next next.drain).isSome ↔
            ∀ block ∈ flight.mainQueue, ¬ Drops event block) := by
  have possible : ∀ url (flight : InFlight),
      flight.Possible (.savingOperation (oneFriend url)) := by
    intro url flight friend member
    rw [List.mem_singleton.mp member]
    rfl
  apply kept_rows_never_trap
  refine ⟨⟨possible _ _, by simp, by simp, by simp⟩, ?_⟩
  rintro _ ⟨⟩
  refine ⟨⟨Nat.zero_lt_one, by simp, by simp, by simp⟩, ?_⟩
  rintro _ ⟨⟩
  refine ⟨⟨possible _ _, ?_, ?_, ?_⟩, ?_⟩
  · intro block member
    cases member
  · intro friends _ objects member
    cases member
  · intro friends same url object member
    cases same
    change (url, object) ∈ [("https://vk.com/1.jpg", 1)] at member
    cases List.mem_singleton.mp member
    exact List.mem_singleton_self 1
  · rintro _ ⟨⟩
    exact ⟨⟨Nat.zero_lt_one, by simp, by simp, by simp⟩, fun _ _ => trivial⟩

end InFlight
end SocialApp.Network
