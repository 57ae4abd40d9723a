import SocialApp.Login.History

/-!
# The sessions in Firebase

Every redirect with a user id sets the value of a child of `userSessions`, which replaces what the
child had before. `FirebaseUserSession` writes such a value and reads it back from a snapshot.
-/

namespace SocialApp.Login
open Library Foundation Machine

abbrev AnyObject := Table (Prod.fst : String × DefaultsValue → String)

structure FirebaseUserSession where
  authDate : String
  userID : Int
  deriving DecidableEq

namespace FirebaseUserSession

def toAnyObject (session : FirebaseUserSession) : AnyObject where
  rows := [("userID", .number session.userID), ("authDate", .text session.authDate)]
  nodup := by simp

/-- `init?(snapshot:)` with the value of the snapshot. -/
def ofSnapshot (value : AnyObject) : Option FirebaseUserSession :=
  match (value.find "userID").map Prod.snd, (value.find "authDate").map Prod.snd with
  | some (.number userID), some (.text authDate) => some ⟨authDate, userID⟩
  | _, _ => none

end FirebaseUserSession

abbrev UserSessions := Table (Prod.fst : String × AnyObject → String)

structure Backend where
  app : App
  userSessions : UserSessions

structure TimedEvent where
  event : Event
  currentDate : String

/-- The records that an event adds are the values it sets, at its date. -/
def setValues (currentDate : String) (before after : App) (sessions : UserSessions) :
    UserSessions :=
  sessions.upsertAll ((after.firebase.drop before.firebase.length).map fun record =>
    (record.1, FirebaseUserSession.toAnyObject ⟨currentDate, record.2⟩))

def Backend.step : Machine Backend TimedEvent
  | backend, ⟨event, currentDate⟩ => do
      let app ← Login.step backend.app event
      return ⟨app, setValues currentDate backend.app app backend.userSessions⟩

/-! ## Specification -/

def TimedEvent.record (timed : TimedEvent) : Option (String × FirebaseUserSession) :=
  (userIDOf timed.event).bind fun userID =>
    (swiftInt userID).map fun userId => (userID, ⟨timed.currentDate, userId⟩)

def TimedEvent.sessionAt (child : String) (timed : TimedEvent) : Option FirebaseUserSession :=
  (timed.record.filter fun record => record.1 = child).map Prod.snd

def backendHistory (events : List TimedEvent) : Backend where
  app := history (events.map TimedEvent.event)
  userSessions := Table.empty.upsertAll ((events.filterMap TimedEvent.record).map fun record =>
    (record.1, record.2.toAnyObject))

theorem ofSnapshot_toAnyObject (session : FirebaseUserSession) :
    FirebaseUserSession.ofSnapshot session.toAnyObject = some session := rfl

theorem latest_eq_lastSome {β : Type} (rows : List (String × β)) (child : String) :
    Table.latest Prod.fst rows child =
      lastSome (fun row => (some row).filter fun row => row.1 = child) rows := by
  rw [Table.latest, lastSome, List.find?_eq_findSome?_guard]
  congr 1

theorem latest_records (events : List TimedEvent) (child : String) :
    Table.latest Prod.fst ((events.filterMap TimedEvent.record).map fun record =>
        (record.1, record.2.toAnyObject)) child =
      (lastSome (TimedEvent.sessionAt child) events).map fun session =>
        (child, session.toAnyObject) := by
  rw [latest_eq_lastSome, lastSome_list_map, lastSome_filterMap, ← lastSome_map]
  congr 1
  funext timed
  cases record : timed.record with
  | none => simp [TimedEvent.sessionAt, record]
  | some record' =>
      by_cases same : record'.1 = child <;>
        simp [TimedEvent.sessionAt, record, same, Option.filter_some]

theorem record_eq (timed : TimedEvent) :
    timed.record.map (fun record => (record.1, record.2.toAnyObject)) =
      ((userIDOf timed.event).bind firebaseRecord).map fun record =>
        (record.1, FirebaseUserSession.toAnyObject ⟨timed.currentDate, record.2⟩) := by
  unfold TimedEvent.record firebaseRecord
  cases userIDOf timed.event with
  | none => rfl
  | some userID =>
      rw [Option.bind_some, Option.bind_some]
      cases swiftInt userID <;> rfl

theorem setValues_history (before : List TimedEvent) (timed : TimedEvent) :
    setValues timed.currentDate (history (before.map TimedEvent.event))
        (history (before.map TimedEvent.event ++ [timed.event]))
        (backendHistory before).userSessions =
      (backendHistory (before ++ [timed])).userSessions := by
  have added : (history (before.map TimedEvent.event ++ [timed.event])).firebase =
      (history (before.map TimedEvent.event)).firebase ++
        ((userIDOf timed.event).bind firebaseRecord).toList := by
    simp only [history, List.filterMap_append, filterMap_singleton]
  have written : timed.record.toList.map (fun record => (record.1, record.2.toAnyObject)) =
      ((userIDOf timed.event).bind firebaseRecord).toList.map fun record =>
        (record.1, FirebaseUserSession.toAnyObject ⟨timed.currentDate, record.2⟩) := by
    rw [← Option.toList_map, record_eq, Option.toList_map]
  rw [setValues, added, List.drop_left]
  simp only [backendHistory, List.filterMap_append, filterMap_singleton, List.map_append, written,
    Table.upsertAll, List.foldl_append]

theorem passes_events {before : List TimedEvent}
    (passed : ∀ earlier timed later, before = earlier ++ timed :: later →
      Passes (earlier.map TimedEvent.event) timed.event) :
    ∀ earlier event later, before.map TimedEvent.event = earlier ++ event :: later →
      Passes earlier event := by
  rw [← List.filterMap_eq_map]
  apply prefixes_filterMap
  intro earlier timed later split event own
  cases own
  rw [List.filterMap_eq_map]
  exact passed earlier timed later split

theorem step_backendHistory {before : List TimedEvent} {timed : TimedEvent} {backend : Backend}
    (passed : ∀ earlier timed later, before = earlier ++ timed :: later →
      Passes (earlier.map TimedEvent.event) timed.event) :
    Backend.step (backendHistory before) timed = some backend ↔
      Passes (before.map TimedEvent.event) timed.event ∧
        backend = backendHistory (before ++ [timed]) := by
  have next : backendHistory (before ++ [timed]) =
      ⟨history (before.map TimedEvent.event ++ [timed.event]), setValues timed.currentDate
        (history (before.map TimedEvent.event))
        (history (before.map TimedEvent.event ++ [timed.event]))
        (backendHistory before).userSessions⟩ := by
    rw [setValues_history]
    simp [backendHistory]
  have moves : Login.step (history (before.map TimedEvent.event)) timed.event = some backend.app ↔
      Passes (before.map TimedEvent.event) timed.event ∧
        backend.app = history (before.map TimedEvent.event ++ [timed.event]) :=
    step_history (passes_events passed)
  rw [next]
  constructor
  · intro action
    obtain ⟨app, logged, action⟩ := Option.bind_eq_some_iff.mp action
    cases action
    obtain ⟨passes, same⟩ := moves.mp logged
    exact ⟨passes, by rw [← same]; rfl⟩
  · intro action
    obtain ⟨passes, rfl⟩ := action
    exact Option.bind_eq_some_iff.mpr ⟨_, moves.mpr ⟨passes, rfl⟩, rfl⟩

/-- A child holds a value if a login has named it, and is read as the last such login. -/
theorem firebase_reads_back {events : List TimedEvent} {backend : Backend}
    (ran : run Backend.step ⟨.initial, .empty⟩ events = some backend) (child : String) :
    (backend.userSessions.find child).map (fun row => FirebaseUserSession.ofSnapshot row.2) =
      (lastSome (TimedEvent.sessionAt child) events).map some := by
  have start : (⟨.initial, .empty⟩ : Backend) = backendHistory [] := by
    rw [initial_eq]
    rfl
  obtain ⟨_, rfl⟩ :=
    (run_some_iff_history start fun _ _ _ passed => step_backendHistory passed).mp ran
  rw [backendHistory, Table.find_upsertAll_empty, latest_records, Option.map_map]
  exact Option.map_congr fun session _ => ofSnapshot_toAnyObject session

def twoLogins : List TimedEvent := [
  ⟨redirect "access_token=t1&user_id=7", "2021-02-01T10:00:00Z"⟩,
  ⟨redirect "access_token=t2&user_id=7", "2021-02-02T10:00:00Z"⟩]

theorem second_login_replaces : ∃ backend,
    run Backend.step ⟨.initial, .empty⟩ twoLogins = some backend ∧
      (backend.userSessions.find "7").map (fun row => FirebaseUserSession.ofSnapshot row.2) =
        some (some ⟨"2021-02-02T10:00:00Z", 7⟩) := by
  obtain ⟨backend, ran⟩ := Option.isSome_iff_exists.mp
    (show (run Backend.step ⟨.initial, .empty⟩ twoLogins).isSome by decide)
  refine ⟨backend, ran, ?_⟩
  rw [firebase_reads_back ran "7"]
  decide

end SocialApp.Login
