import SocialApp.Library.Machine
import SocialApp.Network.Avatars
import SocialApp.Realm.Decoding

/-!
# Refreshing the groups, with a callback and with a promise

`downloadUserGroups` saves the groups and loads their avatars in a completion that Alamofire calls
on the main queue. `promisingUserGroups` saves on the main queue as well, but loads the avatars on
a global one. On both paths each avatar is saved by a block on the main queue, which runs its
blocks in order. Realm ends the program where a row is read on a queue other than the one of its
Realm. The machine notes this in `raised` and goes on, so that the tables of the two paths can be
compared in any case.
-/

namespace SocialApp.Network
open Library Foundation Realm

section Requests
variable (parse : Data → Option Json)

/-- `JSONDecoder().decode(GroupData.self, from: data)`, where `parse` reads the text. -/
def decode (data : Data) : Option GroupData := (parse data).bind decoding

def groupsGet (value : Option Data) : Option (List Group) :=
  match value with
  | none => none
  | some data =>
      match decode parse data with
      | none => none
      | some groups => some groups.response.items

inductive Promise (α : Type)
  | fulfilled (value : α)
  | rejected

def groupsGetPromise (result : Option Data) : Promise (List Group) :=
  match result with
  | some data =>
      match decode parse data with
      | some groups => .fulfilled groups.response.items
      | none => .rejected
  | none => .rejected

def decodedGroups (value : Option Data) : Option (List Group) :=
  (value.bind (decode parse)).map fun groups => groups.response.items

structure GroupsResponse where
  value : Option Data
  nonNil : ∀ groups, decodedGroups parse value = some groups →
    ∀ group ∈ groups, group.photo50.isSome

end Requests

inductive DispatchQueue
  | main
  | global
  deriving DecidableEq

/-- A stored group in a closure or a list: the queue of its Realm and the row it stands for. -/
structure ManagedGroup where
  realm : DispatchQueue
  id : Int

def managed (realm : DispatchQueue) (group : Group) : ManagedGroup := ⟨realm, group.id⟩

inductive RefreshPath
  | downloadUserGroups
  | promisingUserGroups
  deriving DecidableEq

namespace RefreshPath

def queue : RefreshPath → DispatchQueue
  | downloadUserGroups => .main
  | promisingUserGroups => .global

/-- The argument of `downloadAvatars`: `Array(self.groups!)`, or the parsed list, whose objects
`realm.add` made rows of the Realm of the main queue. -/
def groupsData (path : RefreshPath) (parsedGroups : List Group) (store : Store) :
    List ManagedGroup :=
  match path with
  | downloadUserGroups => (groupsGetFromRealm store).rows.map (managed .main)
  | promisingUserGroups => parsedGroups.map (managed .main)

end RefreshPath

inductive RefreshStage
  | saving (groups : List Group)
  | downloading (groupsData : List ManagedGroup)
  | stopping
  | finished

structure GroupsRefresh where
  store : Store
  stage : RefreshStage
  mainQueue : List (ManagedGroup × Data) := []
  animating : Bool := true
  raised : Bool := false

inductive RefreshStep
  | proceed
  | mainBlock

namespace GroupsRefresh

def start (parse : Data → Option Json) (value : Option Data) (store : Store) :
    RefreshPath → GroupsRefresh
  | .downloadUserGroups =>
      match groupsGet parse value with
      | none => { store, stage := .finished }
      | some groupsArray => { store, stage := .saving groupsArray }
  | .promisingUserGroups =>
      match groupsGetPromise parse value with
      | .rejected => { store, stage := .finished }
      | .fulfilled parsedGroups => { store, stage := .saving parsedGroups }

def read (queue : DispatchQueue) (group : ManagedGroup) (refresh : GroupsRefresh) :
    Option (Group × GroupsRefresh) :=
  (refresh.store.groups.find group.id).map fun row =>
    (row, { refresh with raised := refresh.raised || decide (group.realm ≠ queue) })

variable (isURL : String → Bool) (contents : String → Option Data)

def downloadAvatar (queue : DispatchQueue) (group : ManagedGroup) (groupsData : List ManagedGroup)
    (refresh : GroupsRefresh) : Option GroupsRefresh := do
  let (row, refresh) ← refresh.read queue group
  let photo50 ← row.photo50
  let data := if isURL photo50 then contents photo50 else none
  return { refresh with
    stage := .downloading groupsData
    mainQueue := refresh.mainQueue ++ (data.map fun data => (group, data)).toList }

def saveAvatar (group : ManagedGroup) (data : Data) (mainQueue : List (ManagedGroup × Data))
    (refresh : GroupsRefresh) : Option GroupsRefresh := do
  let (row, refresh) ← refresh.read .main group
  let store ← saveAvatarForGroupID .commits (some data) row.id refresh.store
  return { refresh with store, mainQueue }

def mainOccupied (path : RefreshPath) (refresh : GroupsRefresh) : Bool :=
  match path.queue, refresh.stage with
  | .main, .downloading _ => true
  | _, _ => false

/-- The last closure of the promise waits for the blocks that stand before it. -/
def step (path : RefreshPath) : Machine GroupsRefresh RefreshStep
  | refresh, .proceed =>
      match refresh.stage with
      | .saving groups => do
          let store ← deleteGroupObjects .commits refresh.store
          let store ← saveGotGroupsInRealm .commits groups store
          let animating := match path with
            | .downloadUserGroups => false
            | .promisingUserGroups => refresh.animating
          return { refresh with
            store, animating, stage := .downloading (path.groupsData groups store) }
      | .downloading [] =>
          match path with
          | .downloadUserGroups => some { refresh with stage := .finished }
          | .promisingUserGroups => some { refresh with stage := .stopping }
      | .downloading (group :: groupsData) =>
          refresh.downloadAvatar isURL contents path.queue group groupsData
      | .stopping =>
          match refresh.mainQueue with
          | [] => some { refresh with animating := false, stage := .finished }
          | _ :: _ => none
      | .finished => none
  | refresh, .mainBlock =>
      match refresh.mainOccupied path, refresh.mainQueue with
      | false, (group, data) :: mainQueue => refresh.saveAvatar group data mainQueue
      | _, _ => none

/-! ## Specification -/

def Done (refresh : GroupsRefresh) : Prop := refresh.stage = .finished ∧ refresh.mainQueue = []

variable {parse : Data → Option Json} (response : GroupsResponse parse) (store : Store)

def Reached (path : RefreshPath) (refresh : GroupsRefresh) : Prop :=
  ∃ steps, Machine.run (step isURL contents path) (start parse response.value store path) steps =
    some refresh

structure TablesAgree : Prop where
  terminates : ∃ bound, ∀ path steps refresh,
    Machine.run (step isURL contents path) (start parse response.value store path) steps =
      some refresh → steps.length ≤ bound
  completes : ∀ path refresh, Reached isURL contents response store path refresh →
    Machine.Quiescent (step isURL contents path) refresh → refresh.Done
  equal : ∀ refresh promising,
    Reached isURL contents response store .downloadUserGroups refresh → refresh.Done →
      Reached isURL contents response store .promisingUserGroups promising → promising.Done →
        refresh.store.groups = promising.store.groups
  unchanged : decodedGroups parse response.value = none → ∀ path refresh,
    Reached isURL contents response store path refresh → refresh.store.groups = store.groups

structure RefreshesAgree : Prop extends TablesAgree isURL contents response store where
  confined : ∀ path refresh, Reached isURL contents response store path refresh →
    refresh.raised = false

section Steps
variable {isURL contents}

theorem read_some {queue : DispatchQueue} {group : ManagedGroup} {refresh next : GroupsRefresh}
    {row : Group} : refresh.read queue group = some (row, next) ↔
      refresh.store.groups.find group.id = some row ∧
        next = { refresh with raised := refresh.raised || decide (group.realm ≠ queue) } := by
  simp only [read, Option.map_eq_some_iff, Prod.mk.injEq]
  constructor
  · intro taken
    obtain ⟨_, found, rfl, rfl⟩ := taken
    exact ⟨found, rfl⟩
  · intro taken
    obtain ⟨found, rfl⟩ := taken
    exact ⟨row, found, rfl, rfl⟩

theorem downloadAvatar_eq {queue : DispatchQueue} {group : ManagedGroup}
    {groupsData : List ManagedGroup} {refresh : GroupsRefresh} {row : Group} {photo50 : String}
    (found : refresh.store.groups.find group.id = some row) (present : row.photo50 = some photo50) :
    refresh.downloadAvatar isURL contents queue group groupsData =
      some { refresh with
        raised := refresh.raised || decide (group.realm ≠ queue)
        stage := .downloading groupsData
        mainQueue := refresh.mainQueue ++
          ((if isURL photo50 then contents photo50 else none).map fun data =>
            (group, data)).toList } := by
  simp [downloadAvatar, read, found, present]

inductive Moves (isURL : String → Bool) (contents : String → Option Data) (path : RefreshPath)
    (refresh : GroupsRefresh) : GroupsRefresh → Prop
  | saves {groups} (stage : refresh.stage = .saving groups) (animating : Bool) :
      Moves isURL contents path refresh
        (let store := { refresh.store with groups := Table.empty.upsertAll groups }
         { refresh with store, animating, stage := .downloading (path.groupsData groups store) })
  | downloads {group groupsData row photo50}
      (stage : refresh.stage = .downloading (group :: groupsData))
      (found : refresh.store.groups.find group.id = some row)
      (present : row.photo50 = some photo50) :
      Moves isURL contents path refresh
        { refresh with
          raised := refresh.raised || decide (group.realm ≠ path.queue)
          stage := .downloading groupsData
          mainQueue := refresh.mainQueue ++
            ((if isURL photo50 then contents photo50 else none).map fun data =>
              (group, data)).toList }
  | loaded (stage : refresh.stage = .downloading []) (next : RefreshStage)
      (rest : next = .finished ∨ next = .stopping) :
      Moves isURL contents path refresh { refresh with stage := next }
  | stops (stage : refresh.stage = .stopping) :
      Moves isURL contents path refresh { refresh with animating := false, stage := .finished }
  | saved {group data mainQueue row} (block : refresh.mainQueue = (group, data) :: mainQueue)
      (found : refresh.store.groups.find group.id = some row) :
      Moves isURL contents path refresh
        { refresh with
          raised := refresh.raised || decide (group.realm ≠ .main)
          store := { refresh.store with
            groups := setGroupAvatar (some data) group.id refresh.store.groups }
          mainQueue }

theorem moves_of_downloadAvatar {path : RefreshPath} {refresh next : GroupsRefresh}
    {group : ManagedGroup} {groupsData : List ManagedGroup}
    (stage : refresh.stage = .downloading (group :: groupsData))
    (action : refresh.downloadAvatar isURL contents path.queue group groupsData = some next) :
    Moves isURL contents path refresh next := by
  obtain ⟨⟨row, refresh'⟩, taken, rest⟩ := Option.bind_eq_some_iff.mp action
  obtain ⟨found, rfl⟩ := read_some.mp taken
  obtain ⟨photo50, present, rest⟩ := Option.bind_eq_some_iff.mp rest
  cases rest
  exact .downloads stage found present

theorem moves_of_saveAvatar {path : RefreshPath} {refresh next : GroupsRefresh}
    {group : ManagedGroup} {data : Data} {mainQueue : List (ManagedGroup × Data)}
    (block : refresh.mainQueue = (group, data) :: mainQueue)
    (action : refresh.saveAvatar group data mainQueue = some next) :
    Moves isURL contents path refresh next := by
  obtain ⟨⟨row, refresh'⟩, taken, rest⟩ := Option.bind_eq_some_iff.mp action
  obtain ⟨found, rfl⟩ := read_some.mp taken
  have same : row.id = group.id := (Table.find_eq_some_iff.mp found).2
  simp only [same] at rest
  cases rest
  exact .saved block found

theorem moves_of_step {path : RefreshPath} {refresh next : GroupsRefresh} {event : RefreshStep}
    (action : step isURL contents path refresh event = some next) :
    Moves isURL contents path refresh next := by
  cases event with
  | proceed =>
      cases stage : refresh.stage with
      | saving groups =>
          simp only [step, stage] at action
          cases action
          exact .saves stage _
      | downloading groupsData =>
          cases groupsData with
          | nil =>
              simp only [step, stage] at action
              cases path <;> cases action
              · exact .loaded stage .finished (.inl rfl)
              · exact .loaded stage .stopping (.inr rfl)
          | cons group groupsData =>
              simp only [step, stage] at action
              exact moves_of_downloadAvatar stage action
      | stopping =>
          cases block : refresh.mainQueue with
          | nil =>
              simp only [step, stage, block, Option.some.injEq] at action
              rw [← action, ← block]
              exact .stops stage
          | cons block rest => simp [step, stage, block] at action
      | finished => simp [step, stage] at action
  | mainBlock =>
      cases occupied : refresh.mainOccupied path <;> cases block : refresh.mainQueue
      all_goals simp only [step, occupied, block, reduceCtorEq] at action
      exact moves_of_saveAvatar block action

end Steps

def savedGroups (groups : List Group) : Table Group.id := Table.empty.upsertAll groups

def image (groups : List Group) : Int → Option Data :=
  fetchedFor isURL Group.id Group.photo50 (fun _ => contents) (savedGroups groups).rows

end GroupsRefresh

def RefreshStage.groupsLeft : RefreshStage → Option (List ManagedGroup)
  | saving _ => none
  | downloading groupsData => some groupsData
  | stopping | finished => some []

def RefreshStage.work : RefreshStage → Nat
  | saving groups => 2 * groups.length + 3
  | downloading groupsData => 2 * groupsData.length + 2
  | stopping => 1
  | finished => 0

namespace GroupsRefresh

structure Underway (isURL : String → Bool) (contents : String → Option Data) (path : RefreshPath)
    (groups : List Group) (store : Store) (written : Int → Option Data)
    (groupsData : List ManagedGroup) (refresh : GroupsRefresh) : Prop where
  stage : refresh.stage.groupsLeft = some groupsData
  stored : refresh.store = { store with groups := groupsWithAvatars written (savedGroups groups) }
  left : ∀ group ∈ groupsData, group.realm = .main ∧ group.id ∈ (savedGroups groups).keys
  blocks : ∀ block ∈ refresh.mainQueue,
    block.1.realm = .main ∧ image isURL contents groups block.1.id = some block.2
  fetched : ∀ k data, written k = some data → image isURL contents groups k = some data
  complete : ∀ k, (image isURL contents groups k).isSome → (written k).isSome ∨
    (∃ block ∈ refresh.mainQueue, block.1.id = k) ∨ ∃ group ∈ groupsData, group.id = k
  confined : path.queue = .main ∨ groups = [] → refresh.raised = false

def Invariant (isURL : String → Bool) (contents : String → Option Data) (path : RefreshPath)
    (groups : List Group) (store : Store) (refresh : GroupsRefresh) : Prop :=
  refresh = { store, stage := .saving groups } ∨
    ∃ written groupsData, Underway isURL contents path groups store written groupsData refresh

section Invariant
variable {isURL : String → Bool} {contents : String → Option Data} {path : RefreshPath}
  {groups : List Group} {store : Store} {written : Int → Option Data}
  {groupsData : List ManagedGroup} {refresh : GroupsRefresh}

theorem key_of_image {k : Int} {data : Data} (fetched : image isURL contents groups k = some data) :
    k ∈ (savedGroups groups).keys := by
  obtain ⟨group, found, _⟩ := Option.bind_eq_some_iff.mp fetched
  exact Table.find_isSome_iff.mp (Option.isSome_iff_exists.mpr ⟨group, found⟩)

theorem groupsData_main {group : ManagedGroup}
    (member : group ∈ path.groupsData groups { store with groups := savedGroups groups }) :
    group.realm = .main ∧ group.id ∈ (savedGroups groups).keys := by
  cases path with
  | downloadUserGroups =>
      obtain ⟨row, stored, rfl⟩ := List.mem_map.mp member
      exact ⟨rfl, List.mem_map_of_mem stored⟩
  | promisingUserGroups =>
      obtain ⟨row, parsed, rfl⟩ := List.mem_map.mp member
      exact ⟨rfl, Table.mem_keys_upsertAll.mpr (Or.inl (List.mem_map_of_mem parsed))⟩

theorem groupsData_complete {k : Int} (key : k ∈ (savedGroups groups).keys) :
    ∃ group ∈ path.groupsData groups { store with groups := savedGroups groups }, group.id = k := by
  cases path with
  | downloadUserGroups =>
      obtain ⟨row, member, rfl⟩ := List.mem_map.mp key
      exact ⟨managed .main row, List.mem_map_of_mem member, rfl⟩
  | promisingUserGroups =>
      rcases Table.mem_keys_upsertAll.mp key with parsed | absent
      · obtain ⟨group, member, rfl⟩ := List.mem_map.mp parsed
        exact ⟨managed .main group, List.mem_map_of_mem member, rfl⟩
      · cases absent

theorem underway_saved (animating : Bool) :
    Underway isURL contents path groups store (fun _ => none)
      (path.groupsData groups { store with groups := savedGroups groups })
      { store := { store with groups := savedGroups groups }, animating,
        stage := .downloading (path.groupsData groups { store with groups := savedGroups groups }) }
    where
  stage := rfl
  stored := by rw [groupsWithAvatars, Table.rewrite_none]
  left _ member := groupsData_main member
  blocks _ member := by cases member
  fetched _ _ wrote := by cases wrote
  complete k fetched := by
    obtain ⟨data, fetched⟩ := Option.isSome_iff_exists.mp fetched
    exact Or.inr (Or.inr (groupsData_complete (key_of_image fetched)))
  confined _ := rfl

variable (underway : Underway isURL contents path groups store written groupsData refresh)
include underway

theorem image_eq {k : Int} {row : Group} {photo50 : String}
    (found : refresh.store.groups.find k = some row) (present : row.photo50 = some photo50) :
    image isURL contents groups k = if isURL photo50 then contents photo50 else none := by
  rw [underway.stored, groupsWithAvatars, Table.find_rewrite] at found
  obtain ⟨origin, saved, rfl⟩ := Option.map_eq_some_iff.mp found
  have read : origin.photo50 = some photo50 := by
    cases wrote : written k <;> simpa [wrote, withGroupAvatar] using present
  have fetched : image isURL contents groups k =
      fetched isURL Group.id Group.photo50 (fun _ => contents) origin := by
    show ((savedGroups groups).find k).bind _ = _
    rw [saved, Option.bind_some]
  rw [fetched, Network.fetched, read, Option.bind_some]

theorem exists_row (nonNil : ∀ group ∈ groups, group.photo50.isSome) {k : Int}
    (key : k ∈ (savedGroups groups).keys) :
    ∃ row photo50, refresh.store.groups.find k = some row ∧ row.photo50 = some photo50 := by
  obtain ⟨origin, saved⟩ := Option.isSome_iff_exists.mp (Table.find_isSome_iff.mpr key)
  have member := Table.mem_of_mem_upsertAll_empty (Table.find_eq_some_iff.mp saved).1
  obtain ⟨photo50, present⟩ := Option.isSome_iff_exists.mp (nonNil origin member)
  refine ⟨(written k).elim origin fun data => withGroupAvatar data origin, photo50, ?_, ?_⟩
  · rw [underway.stored, groupsWithAvatars, Table.find_rewrite, saved, Option.map_some]
  · cases written k <;> exact present

theorem underway_downloads {group : ManagedGroup} {rest : List ManagedGroup} {row : Group}
    {photo50 : String} (first : groupsData = group :: rest)
    (found : refresh.store.groups.find group.id = some row) (present : row.photo50 = some photo50) :
    Underway isURL contents path groups store written rest
      { refresh with
        raised := refresh.raised || decide (group.realm ≠ path.queue)
        stage := .downloading rest
        mainQueue := refresh.mainQueue ++
          ((if isURL photo50 then contents photo50 else none).map fun data =>
            (group, data)).toList } := by
  subst first
  rw [← image_eq underway found present]
  obtain ⟨onMain, key⟩ := underway.left group List.mem_cons_self
  constructor
  case stage => rfl
  case stored => exact underway.stored
  case left => exact fun other member => underway.left other (List.mem_cons_of_mem _ member)
  case fetched => exact underway.fetched
  case blocks =>
    intro block member
    rcases List.mem_append.mp member with waiting | new
    · exact underway.blocks block waiting
    · simp only [Option.mem_toList, Option.map_eq_some_iff] at new
      obtain ⟨data, fetched, rfl⟩ := new
      exact ⟨onMain, fetched⟩
  case complete =>
    -- The group that was read moves from the list into a block, if its download brings data.
    intro k fetched
    rcases underway.complete k fetched with wrote | ⟨block, member, here⟩ | ⟨other, member, here⟩
    · exact Or.inl wrote
    · exact Or.inr (Or.inl ⟨block, List.mem_append_left _ member, here⟩)
    · rcases List.mem_cons.mp member with rfl | later
      · obtain ⟨data, fetched⟩ := Option.isSome_iff_exists.mp fetched
        refine Or.inr (Or.inl ⟨(other, data), List.mem_append_right _ ?_, here⟩)
        simp [here, fetched]
      · exact Or.inr (Or.inr ⟨other, later, here⟩)
  case confined =>
    intro quiet
    have before := underway.confined quiet
    rcases quiet with main | rfl
    · simp [before, onMain, main]
    · cases key

theorem underway_saves {group : ManagedGroup} {data : Data} {rest : List (ManagedGroup × Data)}
    (block : refresh.mainQueue = (group, data) :: rest) :
    Underway isURL contents path groups store (Function.update written group.id (some data))
      groupsData
      { refresh with
        raised := refresh.raised || decide (group.realm ≠ .main)
        store := { refresh.store with
          groups := setGroupAvatar (some data) group.id refresh.store.groups }
        mainQueue := rest } := by
  have waiting : (group, data) ∈ refresh.mainQueue := block ▸ List.mem_cons_self
  obtain ⟨onMain, fetched⟩ :
      group.realm = .main ∧ image isURL contents groups group.id = some data :=
    underway.blocks _ waiting
  constructor
  case stage => exact underway.stage
  case left => exact underway.left
  case stored =>
    rw [underway.stored]
    have overwrites : ∀ d d' g, withGroupAvatar d (withGroupAvatar d' g) = withGroupAvatar d g :=
      fun _ _ _ => rfl
    simp only [groupsWithAvatars, ← Table.modify_rewrite overwrites]
    rfl
  case blocks =>
    intro other member
    exact underway.blocks other (block ▸ List.mem_cons_of_mem _ member)
  case fetched =>
    intro k d wrote
    rw [Function.update_apply] at wrote
    split at wrote
    · rename_i here
      rw [here, fetched, wrote]
    · exact underway.fetched k d wrote
  case complete =>
    intro k wanted
    by_cases here : k = group.id
    · simp [here]
    · rw [Function.update_of_ne here]
      rcases underway.complete k wanted with wrote | ⟨other, member, key⟩ | unread
      · exact Or.inl wrote
      · rw [block] at member
        rcases List.mem_cons.mp member with rfl | later
        · exact absurd key.symm here
        · exact Or.inr (Or.inl ⟨other, later, key⟩)
      · exact Or.inr (Or.inr unread)
  case confined =>
    intro quiet
    simp [underway.confined quiet, onMain]

theorem underway_step {next : GroupsRefresh} (moves : Moves isURL contents path refresh next) :
    ∃ written groupsData, Underway isURL contents path groups store written groupsData next := by
  have stage := underway.stage
  cases moves with
  | saves saving animating => simp [saving, RefreshStage.groupsLeft] at stage
  | downloads downloading found present =>
      rw [downloading, RefreshStage.groupsLeft, Option.some.injEq] at stage
      exact ⟨written, _, underway_downloads underway stage.symm found present⟩
  | loaded downloading next rest =>
      rw [downloading, RefreshStage.groupsLeft, Option.some.injEq] at stage
      refine ⟨written, groupsData, { underway with stage := ?_ }⟩
      rw [← stage]
      rcases rest with rfl | rfl <;> rfl
  | stops stopping =>
      rw [stopping] at stage
      exact ⟨written, groupsData, { underway with stage := stage }⟩
  | saved block _ => exact ⟨_, _, underway_saves underway block⟩

omit underway in
theorem main_free (left : ∀ groupsData, refresh.stage ≠ .downloading groupsData) :
    refresh.mainOccupied path = false := by
  unfold mainOccupied
  split
  · rename_i groupsData _ stage
    exact absurd stage (left groupsData)
  · rfl

theorem idle_of_quiescent (nonNil : ∀ group ∈ groups, group.photo50.isSome)
    (rests : Machine.Quiescent (step isURL contents path) refresh)
    (free : refresh.mainOccupied path = false) : refresh.mainQueue = [] := by
  cases waiting : refresh.mainQueue with
  | nil => rfl
  | cons block mainQueue =>
      obtain ⟨_, fetched⟩ := underway.blocks block (waiting ▸ List.mem_cons_self)
      obtain ⟨row, _, found, _⟩ := exists_row underway nonNil (key_of_image fetched)
      have blocked := rests .mainBlock
      simp [step, free, waiting, saveAvatar, read, found, saveAvatarForGroupID] at blocked

theorem done_of_quiescent (nonNil : ∀ group ∈ groups, group.photo50.isSome)
    (rests : Machine.Quiescent (step isURL contents path) refresh) : refresh.Done := by
  have blocked := rests .proceed
  cases stage : refresh.stage with
  | saving parsed =>
      have left := underway.stage
      simp [stage, RefreshStage.groupsLeft] at left
  | downloading rest =>
      cases rest with
      | nil => cases path <;> simp [step, stage] at blocked
      | cons group rest =>
          have left := underway.stage
          rw [stage, RefreshStage.groupsLeft, Option.some.injEq] at left
          obtain ⟨_, key⟩ := underway.left group (left ▸ List.mem_cons_self)
          obtain ⟨row, photo50, found, present⟩ := exists_row underway nonNil key
          simp [step, stage, downloadAvatar_eq found present] at blocked
  | stopping =>
      have free : refresh.mainOccupied path = false := main_free (by simp [stage])
      simp [step, stage, idle_of_quiescent underway nonNil rests free] at blocked
  | finished =>
      have free : refresh.mainOccupied path = false := main_free (by simp [stage])
      exact ⟨stage, idle_of_quiescent underway nonNil rests free⟩

theorem underway_written (done : refresh.Done) :
    refresh.store = { store with
      groups := groupsWithAvatars (image isURL contents groups) (savedGroups groups) } := by
  obtain ⟨finished, idle⟩ := done
  have none_left : groupsData = [] := by
    have stage := underway.stage
    rw [finished] at stage
    exact (Option.some.inj stage).symm
  have all : written = image isURL contents groups := by
    funext k
    cases fetched : image isURL contents groups k with
    | none =>
        cases wrote : written k with
        | none => rfl
        | some data => rw [underway.fetched k data wrote] at fetched; cases fetched
    | some data =>
        have reached := underway.complete k (by rw [fetched]; rfl)
        simp only [idle, none_left, List.not_mem_nil, false_and, exists_false, or_false] at reached
        obtain ⟨other, wrote⟩ := Option.isSome_iff_exists.mp reached
        rw [wrote, ← underway.fetched k other wrote, fetched]
  rw [underway.stored, all]

end Invariant

section Runs
variable {isURL : String → Bool} {contents : String → Option Data} {path : RefreshPath}
  {groups : List Group} {store : Store} {refresh next : GroupsRefresh}

theorem invariant_step {event : RefreshStep}
    (holds : Invariant isURL contents path groups store refresh)
    (action : step isURL contents path refresh event = some next) :
    Invariant isURL contents path groups store next := by
  have moves := moves_of_step action
  rcases holds with rfl | ⟨written, groupsData, underway⟩
  · cases moves with
    | saves saving animating =>
        cases saving
        exact Or.inr ⟨_, _, underway_saved animating⟩
    | downloads stage _ _ | loaded stage _ _ | stops stage => cases stage
    | saved block _ => cases block
  · exact Or.inr (underway_step underway moves)

theorem finished_step {event : RefreshStep} :
    step isURL contents path { store, stage := .finished } event = none := by
  cases event with
  | proceed => rfl
  | mainBlock => cases path <;> rfl

def work (refresh : GroupsRefresh) : Nat :=
  refresh.stage.work + refresh.mainQueue.length

theorem length_groupsData_le (path : RefreshPath) (groups : List Group) (store : Store) :
    (path.groupsData groups { store with groups := savedGroups groups }).length ≤
      groups.length := by
  cases path with
  | downloadUserGroups =>
      have bound := Table.length_upsertAll_le (Table.empty : Table Group.id) groups
      rw [Table.empty_rows, List.length_nil, Nat.zero_add] at bound
      exact (List.length_map _).trans_le bound
  | promisingUserGroups => exact (List.length_map _).le

theorem work_decreases {event : RefreshStep}
    (action : step isURL contents path refresh event = some next) : next.work < refresh.work := by
  unfold work
  cases moves_of_step action with
  | saves stage animating =>
      rename_i groups
      have bound := length_groupsData_le path groups refresh.store
      simp only [savedGroups] at bound
      simp only [stage, RefreshStage.work]
      omega
  | downloads stage found present =>
      rename_i group rest row photo50
      have added := Option.length_toList_le
        (o := (if isURL photo50 then contents photo50 else none).map fun data => (group, data))
      simp only [stage, RefreshStage.work, List.length_append, List.length_cons]
      omega
  | loaded stage next rest =>
      rcases rest with rfl | rfl <;> simp [stage, RefreshStage.work]
  | stops stage => simp [stage, RefreshStage.work]
  | saved block _ => simp [block]

theorem reached_invariant {steps : List RefreshStep}
    (ran : Machine.run (step isURL contents path) { store, stage := .saving groups } steps =
      some refresh) : Invariant isURL contents path groups store refresh :=
  Machine.run_invariant (fun _ _ _ holds action => invariant_step holds action) (Or.inl rfl) ran

theorem reached_finished {steps : List RefreshStep}
    (ran : Machine.run (step isURL contents path) { store, stage := .finished } steps =
      some refresh) : refresh = { store, stage := .finished } := by
  refine Machine.run_invariant (I := (· = { store, stage := .finished })) ?_ rfl ran
  intro _ event _ rfl action
  rw [finished_step] at action
  cases action

end Runs

section Both
variable {isURL : String → Bool} {contents : String → Option Data} {parse : Data → Option Json}
  {store : Store}

theorem start_eq (value : Option Data) (path : RefreshPath) :
    start parse value store path = match decodedGroups parse value with
      | none => { store, stage := .finished }
      | some groups => { store, stage := .saving groups } := by
  cases value with
  | none => cases path <;> rfl
  | some data =>
      cases decoded : decode parse data <;> cases path <;>
        simp [start, groupsGet, groupsGetPromise, decodedGroups, decoded]

variable {response : GroupsResponse parse} {path : RefreshPath} {refresh : GroupsRefresh}

theorem reached_of_none (failed : decodedGroups parse response.value = none)
    (reached : Reached isURL contents response store path refresh) :
    refresh = { store, stage := .finished } := by
  obtain ⟨steps, ran⟩ := reached
  rw [start_eq, failed] at ran
  exact reached_finished ran

theorem invariant_of_some {groups : List Group}
    (decoded : decodedGroups parse response.value = some groups)
    (reached : Reached isURL contents response store path refresh) :
    Invariant isURL contents path groups store refresh := by
  obtain ⟨steps, ran⟩ := reached
  rw [start_eq, decoded] at ran
  exact reached_invariant ran

theorem store_of_done {groups : List Group}
    (decoded : decodedGroups parse response.value = some groups)
    (reached : Reached isURL contents response store path refresh) (done : refresh.Done) :
    refresh.store = { store with
      groups := groupsWithAvatars (image isURL contents groups) (savedGroups groups) } := by
  rcases invariant_of_some decoded reached with rfl | ⟨_, _, underway⟩
  · cases done.1
  · exact underway_written underway done

theorem store_eq_runSaves {groups : List Group}
    (decoded : decodedGroups parse response.value = some groups)
    (reached : Reached isURL contents response store path refresh) (done : refresh.Done) :
    ∃ downloads, downloadAvatars isURL (savedGroups groups).rows = some downloads ∧
      ∀ order, order.Perm (Network.finished (fun _ => contents) downloads) →
        runSaves order { store with groups := savedGroups groups } = some refresh.store := by
  rw [store_of_done decoded reached done]
  refine downloadAvatars_delivered isURL (fun _ => contents) (savedGroups groups).nodup ?_ _
  intro group member
  exact response.nonNil groups decoded group (Table.mem_of_mem_upsertAll_empty member)

theorem done_of_reached (reached : Reached isURL contents response store path refresh)
    (rests : Machine.Quiescent (step isURL contents path) refresh) : refresh.Done := by
  cases decoded : decodedGroups parse response.value with
  | none =>
      rw [reached_of_none decoded reached]
      exact ⟨rfl, rfl⟩
  | some groups =>
      rcases invariant_of_some decoded reached with rfl | ⟨_, _, underway⟩
      · cases rests .proceed
      · exact done_of_quiescent underway (response.nonNil groups decoded) rests

variable (isURL contents response store) in
theorem tables_agree : TablesAgree isURL contents response store where
  terminates := by
    refine ⟨(start parse response.value store .downloadUserGroups).work, ?_⟩
    intro path steps refresh ran
    have bound := Machine.run_length_le work (fun _ _ _ action => work_decreases action) ran
    rw [start_eq] at bound ⊢
    exact bound
  completes _ _ := done_of_reached
  equal refresh promising reached done reached' done' := by
    cases decoded : decodedGroups parse response.value with
    | none => rw [reached_of_none decoded reached, reached_of_none decoded reached']
    | some groups =>
        rw [store_of_done decoded reached done, store_of_done decoded reached' done']
  unchanged failed path refresh reached := by rw [reached_of_none failed reached]

theorem confined_of_reached
    (quiet : path.queue = .main ∨ decodedGroups parse response.value = none ∨
      decodedGroups parse response.value = some [])
    (reached : Reached isURL contents response store path refresh) : refresh.raised = false := by
  cases decoded : decodedGroups parse response.value with
  | none => rw [reached_of_none decoded reached]
  | some groups =>
      have quiet : path.queue = .main ∨ groups = [] := by simpa [decoded] using quiet
      rcases invariant_of_some decoded reached with rfl | ⟨_, _, underway⟩
      · rfl
      · exact underway.confined quiet

variable (isURL contents store) in
theorem exists_raised {group : Group} {groups : List Group}
    (decoded : decodedGroups parse response.value = some (group :: groups)) :
    ∃ refresh, Reached isURL contents response store .promisingUserGroups refresh ∧
      refresh.raised = true := by
  let saved : GroupsRefresh :=
    { store := { store with groups := savedGroups (group :: groups) }
      stage := .downloading ((group :: groups).map (managed .main)) }
  have underway : Underway isURL contents .promisingUserGroups (group :: groups) store
      (fun _ => none) ((group :: groups).map (managed .main)) saved := underway_saved true
  obtain ⟨_, key⟩ := underway.left (managed .main group) List.mem_cons_self
  obtain ⟨row, photo50, found, present⟩ := exists_row underway (response.nonNil _ decoded) key
  obtain ⟨next, action, raised⟩ : ∃ next, saved.downloadAvatar isURL contents .global
      (managed .main group) (groups.map (managed .main)) = some next ∧ next.raised = true :=
    ⟨_, downloadAvatar_eq found present, rfl⟩
  refine ⟨next, ⟨[.proceed, .proceed], ?_⟩, raised⟩
  rw [start_eq, decoded]
  show (saved.downloadAvatar isURL contents .global _ _).bind some = some next
  rw [action, Option.bind_some]

theorem groups_refreshes_agree_iff (isURL : String → Bool) (contents : String → Option Data)
    (response : GroupsResponse parse) (store : Store) :
    RefreshesAgree isURL contents response store ↔
      decodedGroups parse response.value = none ∨ decodedGroups parse response.value = some [] := by
  constructor
  · intro agree
    cases decoded : decodedGroups parse response.value with
    | none => exact Or.inl rfl
    | some groups =>
        cases groups with
        | nil => exact Or.inr rfl
        | cons group groups =>
            obtain ⟨refresh, reached, raised⟩ := exists_raised isURL contents store decoded
            rw [agree.confined _ refresh reached] at raised
            cases raised
  · intro empty
    exact ⟨tables_agree isURL contents store response,
      fun _ _ reached => confined_of_reached (Or.inr empty) reached⟩

end Both

def clubText : Data :=
  ("\x7b\"response\":\x7b\"count\":1,\"items\":[" ++
    "\x7b\"id\":1,\"name\":\"Chess club\",\"photo_50\":\"https://g\"\x7d]\x7d\x7d").toUTF8.toList

def clubBody : Json :=
  .object [("response", .object [("count", .number 1), ("items", .array [.object [
    ("id", .number 1), ("name", .string "Chess club"), ("photo_50", .string "https://g")]])])]

def parseClub (data : Data) : Option Json := if data = clubText then some clubBody else none

theorem decodedGroups_club :
    decodedGroups parseClub (some clubText) =
      some [{ id := 1, name := "Chess club", activity := none, photo50 := some "https://g" }] := by
  have parsed : parseClub clubText = some clubBody := if_pos rfl
  rw [decodedGroups, Option.bind_some, decode, parsed, Option.bind_some]
  rfl

def clubResponse : GroupsResponse parseClub where
  value := some clubText
  nonNil := by simp [decodedGroups_club]

theorem promised_group_read_off_main :
    ¬ RefreshesAgree (fun _ => true) (fun _ => some [7]) clubResponse .empty := by
  intro agree
  have decoded : decodedGroups parseClub clubResponse.value = some _ := decodedGroups_club
  obtain ⟨refresh, reached, raised⟩ := exists_raised _ _ _ decoded
  rw [agree.confined _ refresh reached] at raised
  cases raised

end GroupsRefresh
end SocialApp.Network
