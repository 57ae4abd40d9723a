import SocialApp.Foundation.Json
import SocialApp.Login.History

/-!
# The requests of the app

`NetworkManager` builds every request from the global session and force-unwraps its token. The
screens of the tab bar send theirs when they load, and the search of groups when its text changes.
Which requests a run sends, and whether one of them ends the program, is a matter of the redirects
that came before.
-/

namespace SocialApp.Network.Requests
open Library Foundation Login Machine

inductive ParameterValue
  | int (n : Int)
  | string (text : String)
  deriving DecidableEq

/-- A dictionary literal, which traps where a key is repeated. -/
abbrev Parameters := Table (Prod.fst : String × ParameterValue → String)

structure DataRequest where
  url : String
  parameters : Parameters

def friendsParameters (userId : Int) (token : String) : Parameters where
  rows := [
    ("user_id", .int userId),
    ("lang", .string "ru"),
    ("order", .string "name"),
    ("count", .int 500),
    ("name_case", .string "nom"),
    ("fields", .string ("domain,online,first_name,last_name,nickname,status,bdate,sex,relation," ++
      "photo_50,photo_max,city,country,occupation,last_seen")),
    ("access_token", .string token),
    ("v", .string "5.126")]
  nodup := by simp

def groupsParameters (userId : Int) (token : String) : Parameters where
  rows := [
    ("user_id", .int userId),
    ("lang", .string "ru"),
    ("extended", .int 1),
    ("fields", .string "activity,members_count,photo_50"),
    ("count", .int 500),
    ("access_token", .string token),
    ("v", .string "5.126")]
  nodup := by simp

def searchParameters (search token : String) : Parameters where
  rows := [
    ("lang", .string "ru"),
    ("q", .string search),
    ("sort", .int 0),
    ("count", .int 12),
    ("access_token", .string token),
    ("v", .string "5.126")]
  nodup := by simp

def photosParameters (userId : Int) (token : String) : Parameters where
  rows := [
    ("owner_id", .int userId),
    ("lang", .string "ru"),
    ("album_id", .string "profile"),
    ("extended", .int 1),
    ("photo_sizes", .int 1),
    ("count", .int 30),
    ("access_token", .string token),
    ("v", .string "5.126")]
  nodup := by simp

def newsfeedParameters (userID : Int) (nextFrom token : String) : Parameters where
  rows := [
    ("user_id", .int userID),
    ("return_banned", .int 0),
    ("filters", .string "post"),
    ("max_photos", .int 5),
    ("start_from", .string nextFrom),
    ("count", .int 50),
    ("fields", .string ""),
    ("access_token", .string token),
    ("v", .string "5.126")]
  nodup := by simp

section
variable (session : UserSession)

def friendsGet (userId : Int) : Option DataRequest :=
  session.token.map fun token =>
    ⟨"https://api.vk.com/method/friends.get", friendsParameters userId token⟩

def groupsSearch (search : String) : Option DataRequest :=
  session.token.map fun token =>
    ⟨"https://api.vk.com/method/groups.search", searchParameters search token⟩

def photosGetForProfile (userId : Int) : Option DataRequest :=
  session.token.map fun token =>
    ⟨"https://api.vk.com/method/photos.get", photosParameters userId token⟩

def groupsGet (userId : Int) : Option DataRequest :=
  session.token.map fun token =>
    ⟨"https://api.vk.com/method/groups.get", groupsParameters userId token⟩

/-- The variant that returns a promise puts its URL together. -/
def groupsGetPromise (userId : Int) : Option DataRequest :=
  let schemaURL := "https://"
  let baseURL := "api.vk.com"
  let pathURL := "/method/groups.get"
  session.token.map fun token => ⟨schemaURL ++ baseURL ++ pathURL, groupsParameters userId token⟩

def newsfeedGet (userID : Int) (nextFrom : String) : Option DataRequest :=
  session.token.map fun token =>
    ⟨"https://api.vk.com/method/newsfeed.get", newsfeedParameters userID nextFrom token⟩

def biuldRequest : Option DataRequest := do
  let userId ← session.userId
  let token ← session.token
  return ⟨"https://api.vk.com/method/friends.get", friendsParameters userId token⟩

def groupsGetRequest (userId : Int) : Option DataRequest :=
  session.token.map fun token =>
    ⟨"https://api.vk.com/method/groups.get", groupsParameters userId token⟩

end

inductive Screen
  | friends
  | groups
  | news
  | account
  | photoflow (userId : Option Int)
  | groupsSearch (searchText : String)

/-- The request that a screen sends; `none` is a trap on a missing token or id. -/
def Screen.request (session : UserSession) : Screen → Option DataRequest
  | friends | account => biuldRequest session
  | groups => session.userId.bind (groupsGet session)
  | news => session.userId.bind fun userId => newsfeedGet session userId ""
  | photoflow userId => userId.bind (photosGetForProfile session)
  | groupsSearch searchText => Requests.groupsSearch session searchText

structure Client where
  app : App
  sent : List DataRequest := []

inductive ClientEvent
  | login (event : Event)
  | screen (screen : Screen)
  | searchAnswered (value : Option Json)

/-- There is no screen on the login page. The answer to a search is printed as `respone.value!`. -/
def step : Machine Client ClientEvent
  | client, .login event => (Login.step client.app event).map fun app => { client with app }
  | client, .screen screen =>
      match client.app.root with
      | .webLogin => some client
      | .tabBar => (screen.request client.app.session).map fun request =>
          { client with sent := client.sent ++ [request] }
  | client, .searchAnswered value => value.map fun _ => client

/-! ## Specification -/

def ClientEvent.loginEvent : ClientEvent → Option Event
  | login event => some event
  | _ => none

def logins (events : List ClientEvent) : List Event := events.filterMap ClientEvent.loginEvent

def sends (before : List ClientEvent) : ClientEvent → Option DataRequest
  | .screen screen =>
      match (history (logins before)).root with
      | .webLogin => none
      | .tabBar => screen.request (lastSession (logins before))
  | _ => none

def sent (before : List ClientEvent) : List ClientEvent → List DataRequest
  | [] => []
  | event :: events => (sends before event).toList ++ sent (before ++ [event]) events

def clientHistory (events : List ClientEvent) : Client where
  app := history (logins events)
  sent := sent [] events

def Screen.Ready (session : UserSession) : Screen → Prop
  | friends | account | groups | news => session.userId.isSome
  | photoflow userId => userId.isSome
  | groupsSearch _ => True

def Serves (before : List ClientEvent) : ClientEvent → Prop
  | .login event => Passes (logins before) event
  | .screen screen => (history (logins before)).root = .tabBar →
      screen.Ready (lastSession (logins before))
  | .searchAnswered value => value.isSome

theorem biuldRequest_eq (session : UserSession) :
    biuldRequest session = session.userId.bind (friendsGet session) := by
  obtain ⟨token, userId⟩ := session
  cases token <;> cases userId <;> rfl

theorem groupsGet_variants (session : UserSession) (userId : Int) :
    groupsGetPromise session userId = groupsGet session userId ∧
      groupsGetRequest session userId = groupsGet session userId := by
  have url : "https://" ++ "api.vk.com" ++ "/method/groups.get" =
      "https://api.vk.com/method/groups.get" := by decide
  exact ⟨by rw [groupsGetPromise, url, groupsGet], rfl⟩

theorem request_isSome_iff {session : UserSession} (token : session.token.isSome)
    (screen : Screen) : (screen.request session).isSome ↔ screen.Ready session := by
  obtain ⟨text, present⟩ := Option.isSome_iff_exists.mp token
  cases screen with
  | friends | account =>
      rw [Screen.request, biuldRequest_eq]
      cases user : session.userId <;> simp [Screen.Ready, friendsGet, present, user]
  | groups => cases user : session.userId <;>
      simp [Screen.request, Screen.Ready, groupsGet, present, user]
  | news => cases user : session.userId <;>
      simp [Screen.request, Screen.Ready, newsfeedGet, present, user]
  | photoflow userId => cases userId <;>
      simp [Screen.request, Screen.Ready, photosGetForProfile, present]
  | groupsSearch searchText => simp [Screen.request, Screen.Ready, groupsSearch, present]

theorem request_token {session : UserSession} {screen : Screen} {request : DataRequest}
    (built : screen.request session = some request) :
    ∃ token, session.token = some token ∧
      request.parameters.find "access_token" = some ("access_token", .string token) := by
  cases screen with
  | friends | account =>
      rw [Screen.request, biuldRequest_eq] at built
      obtain ⟨userId, _, built⟩ := Option.bind_eq_some_iff.mp built
      obtain ⟨token, present, rfl⟩ := Option.map_eq_some_iff.mp built
      exact ⟨token, present, rfl⟩
  | groups | news | photoflow =>
      obtain ⟨userId, _, built⟩ := Option.bind_eq_some_iff.mp built
      obtain ⟨token, present, rfl⟩ := Option.map_eq_some_iff.mp built
      exact ⟨token, present, rfl⟩
  | groupsSearch searchText =>
      obtain ⟨token, present, rfl⟩ := Option.map_eq_some_iff.mp built
      exact ⟨token, present, rfl⟩

theorem logins_concat (before : List ClientEvent) (event : ClientEvent) :
    logins (before ++ [event]) = logins before ++ event.loginEvent.toList := by
  rw [logins, List.filterMap_append, filterMap_singleton]
  rfl

theorem sent_concat (before events : List ClientEvent) (event : ClientEvent) :
    sent before (events ++ [event]) =
      sent before events ++ (sends (before ++ events) event).toList := by
  induction events generalizing before with
  | nil => simp [sent]
  | cons first events ih => simp [sent, ih]

theorem passes_logins {before : List ClientEvent}
    (served : ∀ earlier event later, before = earlier ++ event :: later → Serves earlier event) :
    ∀ earlier event later, logins before = earlier ++ event :: later → Passes earlier event := by
  apply prefixes_filterMap
  intro earlier event later split login own
  have passes := served earlier event later split
  cases event with
  | login event =>
      cases own
      exact passes
  | screen screen => cases own
  | searchAnswered value => cases own

theorem step_clientHistory {before : List ClientEvent} {event : ClientEvent} {client : Client}
    (served : ∀ earlier event later, before = earlier ++ event :: later → Serves earlier event) :
    step (clientHistory before) event = some client ↔
      Serves before event ∧ client = clientHistory (before ++ [event]) := by
  have passed := passes_logins served
  have later : clientHistory (before ++ [event]) =
      ⟨history (logins before ++ event.loginEvent.toList),
        sent [] before ++ (sends before event).toList⟩ := by
    rw [clientHistory, logins_concat, sent_concat, List.nil_append]
  rw [later]
  cases event with
  | login event =>
      simp only [step, clientHistory, Option.map_eq_some_iff, step_history passed]
      constructor
      · intro moved
        obtain ⟨app, ⟨passes, rfl⟩, rfl⟩ := moved
        exact ⟨passes, by simp [ClientEvent.loginEvent, sends]⟩
      · intro moved
        obtain ⟨passes, rfl⟩ := moved
        exact ⟨_, ⟨passes, rfl⟩, by simp [ClientEvent.loginEvent, sends]⟩
  | screen screen =>
      simp only [step, clientHistory, Serves, sends, ClientEvent.loginEvent, Option.toList_none,
        List.append_nil]
      cases root : (history (logins before)).root with
      | webLogin => simp [eq_comm]
      | tabBar =>
          have token : (lastSession (logins before)).token.isSome := token_of_tabBar passed root
          rw [forall_prop_of_true rfl, ← request_isSome_iff token screen]
          show (screen.request (lastSession (logins before))).map _ = _ ↔ _
          cases screen.request (lastSession (logins before)) <;> simp [eq_comm]
  | searchAnswered value =>
      cases value <;> simp [step, Serves, ClientEvent.loginEvent, sends, clientHistory, eq_comm]

theorem run_eq_clientHistory (events : List ClientEvent) (client : Client) :
    run step ⟨.initial, []⟩ events = some client ↔
      (∀ before event after, events = before ++ event :: after → Serves before event) ∧
        client = clientHistory events := by
  have start : (⟨.initial, []⟩ : Client) = clientHistory [] := by rw [initial_eq]; rfl
  exact run_some_iff_history start fun _ _ _ served => step_clientHistory served

theorem mem_sent {before events : List ClientEvent} {request : DataRequest}
    (member : request ∈ sent before events) :
    ∃ earlier event, earlier <+: events ∧ sends (before ++ earlier) event = some request := by
  induction events generalizing before with
  | nil => cases member
  | cons event events ih =>
      rcases List.mem_append.mp member with now | later
      · exact ⟨[], event, List.nil_prefix, by simpa using now⟩
      · obtain ⟨earlier, other, front, built⟩ := ih later
        exact ⟨event :: earlier, other, List.cons_prefix_cons.mpr ⟨rfl, front⟩,
          by simpa using built⟩

theorem sends_token {before : List ClientEvent} {event : ClientEvent} {request : DataRequest}
    (built : sends before event = some request) :
    ∃ token, lastSome tokenOf (logins before) = some token ∧
      request.parameters.find "access_token" = some ("access_token", .string token) := by
  cases event with
  | login event => cases built
  | searchAnswered value => cases built
  | screen screen =>
      cases root : (history (logins before)).root with
      | webLogin => simp [sends, root] at built
      | tabBar => exact request_token (by simpa [sends, root] using built)

theorem client_is_history (events : List ClientEvent) :
    (∀ client, run step ⟨.initial, []⟩ events = some client ↔
      (∀ before event after, events = before ++ event :: after → Serves before event) ∧
        client = clientHistory events) ∧
      ∀ request ∈ (clientHistory events).sent, ∃ before token, before <+: events ∧
        lastSome tokenOf (logins before) = some token ∧
          request.parameters.find "access_token" = some ("access_token", .string token) := by
  refine ⟨run_eq_clientHistory events, ?_⟩
  intro request member
  obtain ⟨before, event, front, built⟩ := mem_sent member
  obtain ⟨token, last, carried⟩ := sends_token built
  exact ⟨before, token, front, last, carried⟩

end SocialApp.Network.Requests
