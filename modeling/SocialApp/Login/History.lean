import SocialApp.Library.Outlet
import SocialApp.Login.Fragment
import SocialApp.Login.TabBar

/-!
# The session as a record of the redirects

A run of redirects and sign outs leaves behind what the redirects carried: the session and its
copies in `UserDefaults` are those of the last token and the last user id, and Firebase has a record
of every user id. What the redirects of whole logins carry is read back in full.
-/

namespace SocialApp.Login
open Library Foundation Machine

/-! ## Specification -/

def credentialsOf : Event → Option Dictionary
  | .response response => response.blankFragment.bind params
  | .signOut => none

def tokenOf (event : Event) : Option String :=
  (credentialsOf event).bind fun d => d.get "access_token"

def userIDOf (event : Event) : Option String :=
  (credentialsOf event).bind fun d => d.get "user_id"

def rootOf : Event → Option RootController
  | .response response => (credentialsOf (.response response)).map fun _ => .tabBar
  | .signOut => some .webLogin

def firebaseRecord (userID : String) : Option (String × Int) :=
  (swiftInt userID).map fun userId => (userID, userId)

def UserSession.defaults (session : UserSession) : UserDefaults := fun key =>
  if key = "UserSessionToken" then session.token.map .text
  else if key = "UserSessionUserID" then session.userId.map .number
  else none

def lastSession (events : List Event) : UserSession :=
  ⟨lastSome tokenOf events, (lastSome userIDOf events).bind swiftInt⟩

def history (events : List Event) : App where
  session := lastSession events
  defaults := (lastSession events).defaults
  firebase := events.filterMap fun event => (userIDOf event).bind firebaseRecord
  root := (lastSome rootOf events).getD .webLogin

/-- A redirect is readable, and it or one before it carries a token. -/
def Passes (before : List Event) : Event → Prop
  | .signOut => True
  | .response response => ∀ fragment, response.blankFragment = some fragment →
      Readable fragment ∧ (lastSome tokenOf (before ++ [.response response])).isSome

def recorded (d : Dictionary) (app : App) : App where
  session := ⟨(d.get "access_token").or app.session.token,
    (d.get "user_id").elim app.session.userId swiftInt⟩
  defaults :=
    let stored := (d.get "access_token").elim app.defaults fun token =>
      app.defaults.set (some (.text token)) "UserSessionToken"
    (d.get "user_id").elim stored fun userID =>
      stored.set ((swiftInt userID).map .number) "UserSessionUserID"
  firebase := app.firebase ++ ((d.get "user_id").bind firebaseRecord).toList
  root := .tabBar

theorem storeUserID_eq {d : Dictionary} {app stored : App}
    (action : storeUserID d (storeToken d app) = some stored) :
    { stored with root := .tabBar } = recorded d app := by
  cases user : d.get "user_id" with
  | none =>
      simp only [storeUserID, user, Option.some.injEq] at action
      subst action
      cases token : d.get "access_token" <;> simp [storeToken, recorded, token, user]
  | some userID =>
      cases id : swiftInt userID with
      | none => simp [storeUserID, user, id] at action
      | some n =>
          simp only [storeUserID, user, id, sendUserSessionToFirebase, Option.bind_eq_bind,
            Option.bind_some, Option.pure_def, Option.some.injEq] at action
          subst action
          cases token : d.get "access_token" <;>
            simp [storeToken, recorded, token, user, id, firebaseRecord]

theorem redirect_some_iff {app app' : App} {response : NavigationResponse} {fragment : String}
    (blank : response.blankFragment = some fragment)
    (opened : app.root = .tabBar → app.session.token.isSome) :
    step app (.response response) = some app' ↔
      ∃ d, params fragment = some d ∧
        (∀ userID, d.get "user_id" = some userID → (swiftInt userID).isSome) ∧
        ((d.get "access_token").or app.session.token).isSome ∧ app' = recorded d app := by
  rw [step_blank blank]
  constructor
  · intro action
    obtain ⟨d, parsed, action⟩ := Option.bind_eq_some_iff.mp action
    obtain ⟨stored, action, launched⟩ := Option.bind_eq_some_iff.mp action
    obtain ⟨sameRoot, session⟩ := storeUserID_some action
    have readable := storeUserID_isSome_iff.mp (Option.isSome_of_eq_some action)
    refine ⟨d, parsed, readable, ?_⟩
    rw [← storeUserID_eq action]
    cases root : stored.root with
    | webLogin =>
        rw [launch_webLogin root] at launched
        obtain ⟨token, present, rfl⟩ := Option.map_eq_some_iff.mp launched
        rw [session, storeToken_session] at present
        exact ⟨Option.isSome_of_eq_some present, rfl⟩
    | tabBar =>
        rw [launch_tabBar root, Option.some.injEq] at launched
        have token := opened (by rw [← storeToken_root d app, ← sameRoot, root])
        refine ⟨by cases d.get "access_token" <;> simp [token], ?_⟩
        rw [← launched, ← root]
  · intro passes
    obtain ⟨d, parsed, readable, token, rfl⟩ := passes
    obtain ⟨stored, action⟩ := Option.isSome_iff_exists.mp
      (@storeUserID_isSome_iff d (storeToken d app) |>.mpr readable)
    obtain ⟨_, session⟩ := storeUserID_some action
    rw [parsed, Option.bind_some, action, Option.bind_some, ← storeUserID_eq action]
    cases root : stored.root with
    | webLogin =>
        rw [launch_webLogin root, session, storeToken_session]
        obtain ⟨text, present⟩ := Option.isSome_iff_exists.mp token
        rw [present, Option.map_some]
    | tabBar => rw [launch_tabBar root, ← root]

theorem set_token_defaults (session : UserSession) (token : String) :
    session.defaults.set (some (.text token)) "UserSessionToken" =
      UserSession.defaults { session with token := some token } := by
  funext key
  by_cases same : key = "UserSessionToken" <;> simp [UserDefaults.set, UserSession.defaults, same]

theorem set_userId_defaults (session : UserSession) (userId : Option Int) :
    session.defaults.set (userId.map .number) "UserSessionUserID" =
      UserSession.defaults { session with userId } := by
  funext key
  by_cases same : key = "UserSessionUserID" <;> simp [UserDefaults.set, UserSession.defaults, same]

theorem recorded_history {before : List Event} {response : NavigationResponse} {d : Dictionary}
    (read : credentialsOf (.response response) = some d) :
    recorded d (history before) = history (before ++ [.response response]) := by
  have token : tokenOf (.response response) = d.get "access_token" := by simp [tokenOf, read]
  have user : userIDOf (.response response) = d.get "user_id" := by simp [userIDOf, read]
  have session : lastSession (before ++ [.response response]) =
      ⟨(d.get "access_token").or (lastSession before).token,
        (d.get "user_id").elim (lastSession before).userId swiftInt⟩ := by
    simp only [lastSession, lastSome_concat, token, user]
    cases d.get "user_id" <;> rfl
  have defaults : (recorded d (history before)).defaults =
      (lastSession (before ++ [.response response])).defaults := by
    rw [session]
    simp only [recorded, history]
    cases d.get "access_token" <;> cases d.get "user_id" <;>
      simp [set_token_defaults, set_userId_defaults]
  have firebase : (recorded d (history before)).firebase =
      (history (before ++ [.response response])).firebase := by
    simp only [recorded, history, List.filterMap_append]
    cases sent : (d.get "user_id").bind firebaseRecord <;> simp [user, sent]
  have root : (history (before ++ [.response response])).root = .tabBar := by
    simp [history, lastSome_concat, rootOf, read]
  exact Eq.mpr (App.mk.injEq ..) ⟨session.symm, defaults, firebase, root.symm⟩

theorem history_signOut (before : List Event) :
    history (before ++ [.signOut]) = signOutButton (history before) := by
  have same : lastSession (before ++ [.signOut]) = lastSession before := by
    simp [lastSession, lastSome_concat, tokenOf, userIDOf, credentialsOf]
  have defaults : (signOutButton (history before)).defaults = (lastSession before).defaults := by
    funext key
    by_cases login : key = "userLogin"
    · simp [signOutButton, UserDefaults.set, UserSession.defaults, login]
    · by_cases password : key = "userPassword"
      · simp [signOutButton, UserDefaults.set, UserSession.defaults, password]
      · simp [signOutButton, UserDefaults.set, history, login, password]
  have firebase : (history (before ++ [.signOut])).firebase = (history before).firebase := by
    simp [history, userIDOf, credentialsOf]
  have root : (history (before ++ [.signOut])).root = .webLogin := by
    simp [history, lastSome_concat, rootOf]
  refine Eq.mpr (App.mk.injEq ..) ⟨same, ?_, firebase, root⟩
  rw [same]
  exact defaults.symm

theorem history_ignored {before : List Event} {response : NavigationResponse}
    (other : response.blankFragment = none) :
    history (before ++ [.response response]) = history before := by
  have nothing : credentialsOf (.response response) = none := by simp [credentialsOf, other]
  simp [history, lastSession, lastSome_concat, tokenOf, userIDOf, rootOf, nothing]

theorem initial_eq : App.initial = history [] := by
  have nothing : (fun _ => none) = (lastSession []).defaults := by
    funext key
    simp [UserSession.defaults, lastSession, lastSome]
  exact Eq.mpr (App.mk.injEq ..) ⟨rfl, nothing, rfl, rfl⟩

theorem token_of_tabBar {before : List Event}
    (passed : ∀ earlier event later, before = earlier ++ event :: later → Passes earlier event)
    (opened : (history before).root = .tabBar) : (history before).session.token.isSome := by
  induction before using List.reverseRecOn with
  | nil => cases opened
  | append_singleton before event ih =>
      cases event with
      | signOut =>
          rw [history_signOut] at opened
          cases opened
      | response response =>
          cases blank : response.blankFragment with
          | none =>
              rw [history_ignored blank] at opened ⊢
              refine ih ?_ opened
              intro earlier event later split
              exact passed earlier event (later ++ [.response response]) (by simp [split])
          | some fragment => exact (passed before _ [] rfl fragment blank).2

theorem step_history {before : List Event} {event : Event} {app : App}
    (passed : ∀ earlier event later, before = earlier ++ event :: later → Passes earlier event) :
    step (history before) event = some app ↔
      Passes before event ∧ app = history (before ++ [event]) := by
  cases event with
  | signOut =>
      rw [history_signOut]
      simp [step, Passes, eq_comm]
  | response response =>
      cases blank : response.blankFragment with
      | none =>
          have passes : Passes before (.response response) := by
            intro fragment same
            cases blank.symm.trans same
          rw [step_other blank, history_ignored blank, Option.some.injEq]
          exact ⟨fun same => ⟨passes, same.symm⟩, fun both => both.2.symm⟩
      | some fragment =>
          rw [redirect_some_iff blank (token_of_tabBar passed)]
          constructor
          · intro action
            obtain ⟨d, parsed, readable, token, rfl⟩ := action
            have read : credentialsOf (.response response) = some d := by
              simp [credentialsOf, blank, parsed]
            refine ⟨?_, recorded_history read⟩
            intro fragment' same
            cases blank.symm.trans same
            refine ⟨⟨d, parsed, readable⟩, ?_⟩
            rw [lastSome_concat, tokenOf, read]
            exact token
          · intro action
            obtain ⟨passes, rfl⟩ := action
            obtain ⟨⟨d, parsed, readable⟩, token⟩ := passes fragment blank
            have read : credentialsOf (.response response) = some d := by
              simp [credentialsOf, blank, parsed]
            refine ⟨d, parsed, readable, ?_, (recorded_history read).symm⟩
            rw [lastSome_concat, tokenOf, read] at token
            exact token

theorem run_is_history (events : List Event) (app : App) :
    run step App.initial events = some app ↔
      (∀ before event after, events = before ++ event :: after → Passes before event) ∧
        app = history events :=
  run_some_iff_history initial_eq fun _ _ _ passed => step_history passed

/-- A login that the service grants, with the parameters of its redirect. -/
structure Grant where
  token : String
  userId : Int
  parameters : List Parameter
  token_plain : '=' ∉ token.toList
  in_range : intMin ≤ userId ∧ userId ≤ intMax
  carries_token : lastValue parameters "access_token" = some token
  carries_user : lastValue parameters "user_id" = some (toString userId)

namespace Grant

def session (grant : Grant) : UserSession := ⟨some grant.token, some grant.userId⟩

def event : Option Grant → Event
  | some grant => redirect (encoded grant.parameters)
  | none => .signOut

theorem params_parameters (grant : Grant) : ∃ d, params (encoded grant.parameters) = some d ∧
    d.get "access_token" = some grant.token ∧ d.get "user_id" = some (toString grant.userId) := by
  have nonempty : grant.parameters ≠ [] := by
    intro empty
    have carries := grant.carries_token
    rw [empty] at carries
    cases carries
  obtain ⟨d, parsed, read⟩ := params_encoded nonempty
  have user : '=' ∉ (toString grant.userId).toList :=
    plain_toString _ (by decide) (by decide)
  refine ⟨d, parsed, ?_, ?_⟩
  · rw [read, grant.carries_token, Option.map_some, firstPart_eq_self_iff.mpr grant.token_plain]
  · rw [read, grant.carries_user, Option.map_some, firstPart_eq_self_iff.mpr user]

theorem credentialsOf_event (grant : Grant) : ∃ d, credentialsOf (event (some grant)) = some d ∧
    d.get "access_token" = some grant.token ∧ d.get "user_id" = some (toString grant.userId) :=
  grant.params_parameters

theorem tokenOf_event (visit : Option Grant) : tokenOf (event visit) = visit.map token := by
  cases visit with
  | none => rfl
  | some grant =>
      obtain ⟨d, read, token, _⟩ := grant.credentialsOf_event
      rw [tokenOf, read, Option.bind_some, token, Option.map_some]

theorem userIDOf_event (visit : Option Grant) :
    userIDOf (event visit) = visit.map fun grant => toString grant.userId := by
  cases visit with
  | none => rfl
  | some grant =>
      obtain ⟨d, read, _, user⟩ := grant.credentialsOf_event
      rw [userIDOf, read, Option.bind_some, user, Option.map_some]

theorem rootOf_event (visit : Option Grant) :
    rootOf (event visit) = some (visit.elim .webLogin fun _ => .tabBar) := by
  cases visit with
  | none => rfl
  | some grant =>
      obtain ⟨d, read, _⟩ := grant.credentialsOf_event
      show (credentialsOf (event (some grant))).map _ = _
      rw [read, Option.map_some, Option.elim_some]

theorem passes_event (before : List Event) (visit : Option Grant) :
    Passes before (event visit) := by
  cases visit with
  | none => trivial
  | some grant =>
      intro fragment blank
      cases blank
      obtain ⟨d, parsed, _, user⟩ := grant.params_parameters
      refine ⟨⟨d, parsed, ?_⟩, ?_⟩
      · intro userID same
        cases user.symm.trans same
        rw [swiftInt_toString grant.in_range]
        rfl
      · have token : tokenOf (.response ⟨some ⟨"/blank.html", some (encoded grant.parameters)⟩⟩) =
            some grant.token := tokenOf_event (some grant)
        rw [lastSome_concat, token]
        rfl

theorem lastSession_events (visits : List (Option Grant)) :
    lastSession (visits.map event) = (lastSome id visits).elim ⟨none, none⟩ session := by
  have tokens : lastSome tokenOf (visits.map event) = (lastSome id visits).map token := by
    simp only [lastSome_list_map, tokenOf_event]
    exact lastSome_map id token visits
  have users : lastSome userIDOf (visits.map event) =
      (lastSome id visits).map fun grant => toString grant.userId := by
    simp only [lastSome_list_map, userIDOf_event]
    exact lastSome_map id _ visits
  rw [lastSession, tokens, users]
  cases lastSome id visits with
  | none => rfl
  | some grant =>
      simp only [Option.map_some, Option.bind_some, swiftInt_toString grant.in_range]
      rfl

end Grant

theorem grants_read_back (visits : List (Option Grant)) :
    run step App.initial (visits.map Grant.event) = some
      { session := (lastSome id visits).elim ⟨none, none⟩ Grant.session
        defaults := ((lastSome id visits).elim ⟨none, none⟩ Grant.session).defaults
        firebase := visits.reduceOption.map fun grant => (toString grant.userId, grant.userId)
        root := visits.getLast?.join.elim .webLogin fun _ => .tabBar } := by
  apply (run_is_history _ _).mpr
  constructor
  · intro before event after split
    have member : event ∈ visits.map Grant.event := by simp [split]
    obtain ⟨visit, _, rfl⟩ := List.mem_map.mp member
    exact Grant.passes_event before visit
  · have firebase : (visits.map Grant.event).filterMap
        (fun event => (userIDOf event).bind firebaseRecord) =
          visits.reduceOption.map fun grant => (toString grant.userId, grant.userId) := by
      have granted : visits.reduceOption = visits.filterMap id := rfl
      rw [List.filterMap_map, granted, List.map_filterMap]
      congr 1
      funext visit
      cases visit with
      | none => rfl
      | some grant =>
          rw [Function.comp_apply, Grant.userIDOf_event, Option.map_some, Option.bind_some,
            firebaseRecord, swiftInt_toString grant.in_range]
          rfl
    have root : (lastSome rootOf (visits.map Grant.event)).getD .webLogin =
        visits.getLast?.join.elim .webLogin fun _ => .tabBar := by
      simp only [lastSome_list_map, Grant.rootOf_event]
      cases visits using List.reverseRecOn with
      | nil => rfl
      | append_singleton visits visit => simp [lastSome_concat]
    rw [history, Grant.lastSession_events, firebase, root]

example : Grant where
  token := "t1"
  userId := 7
  parameters := [
    ⟨"access_token", "t1", by decide, by decide⟩,
    ⟨"expires_in", "0", by decide, by decide⟩,
    ⟨"user_id", "7", by decide, by decide⟩]
  token_plain := by decide
  in_range := by decide
  carries_token := by decide
  carries_user := by decide

end SocialApp.Login
