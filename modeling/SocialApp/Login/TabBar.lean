import SocialApp.Login.Session

/-!
# When the tab bar opens

The tab bar may open only on a session that the latest redirect has filled. The code opens it
after every redirect, so this is a condition on the fragments that arrive on the login page.
-/

namespace SocialApp.Login
open Library Foundation

/-! ## Specification -/

def Installs (before after : App) : Prop := before.root = .webLogin ∧ after.root = .tabBar

def SessionFrom (event : Event) (session : UserSession) : Prop :=
  ∃ r fragment d token userId, event = .response r ∧ r.blankFragment = some fragment ∧
    params fragment = some d ∧ d.get "access_token" = some token ∧
    (d.get "user_id").bind swiftInt = some userId ∧ session = ⟨some token, some userId⟩

/-- The event does not trap, and opens the tab bar only on the session of its own fragment. -/
def Lawful (app : App) (event : Event) : Prop :=
  ∃ app', step app event = some app' ∧ (Installs app app' → SessionFrom event app'.session)

def Readable (fragment : String) : Prop :=
  ∃ d, params fragment = some d ∧ ∀ userID, d.get "user_id" = some userID → (swiftInt userID).isSome

def Complete (fragment : String) : Prop :=
  ∃ d, params fragment = some d ∧ (d.get "access_token").isSome ∧
    ((d.get "user_id").bind swiftInt).isSome

instance (fragment : String) : Decidable (Complete fragment) :=
  decidable_of_iff ((params fragment).any fun d =>
      (d.get "access_token").isSome && ((d.get "user_id").bind swiftInt).isSome) (by
    unfold Complete
    cases params fragment <;> simp)

/-- On the login page a redirect carries token and user id; elsewhere it is at least readable. -/
def Acceptable (app : App) : Event → Prop
  | .signOut => True
  | .response r => ∀ fragment, r.blankFragment = some fragment →
      match app.root with
      | .webLogin => Complete fragment
      | .tabBar => Readable fragment

@[simp] theorem storeToken_session (d : Dictionary) (app : App) :
    (storeToken d app).session =
      ⟨(d.get "access_token").or app.session.token, app.session.userId⟩ := by
  unfold storeToken
  cases d.get "access_token" <;> rfl

@[simp] theorem storeToken_root (d : Dictionary) (app : App) : (storeToken d app).root = app.root := by
  unfold storeToken
  cases d.get "access_token" <;> rfl

theorem storeUserID_some {d : Dictionary} {app app' : App} (stored : storeUserID d app = some app') :
    app'.root = app.root ∧ app'.session =
      ⟨app.session.token, (d.get "user_id").elim app.session.userId swiftInt⟩ := by
  unfold storeUserID at stored
  cases present : d.get "user_id" with
  | none =>
      simp only [present, Option.some.injEq] at stored
      exact stored ▸ ⟨rfl, rfl⟩
  | some userID =>
      simp only [present, sendUserSessionToFirebase, Option.bind_eq_bind, Option.bind_eq_some_iff,
        Option.pure_def, Option.some.injEq] at stored
      obtain ⟨_, _, _, _, rfl⟩ := stored
      exact ⟨rfl, rfl⟩

theorem storeUserID_isSome_iff {d : Dictionary} {app : App} :
    (storeUserID d app).isSome ↔
      ∀ userID, d.get "user_id" = some userID → (swiftInt userID).isSome := by
  unfold storeUserID
  cases d.get "user_id" with
  | none => simp
  | some userID => cases h : swiftInt userID <;> simp [sendUserSessionToFirebase, h]

theorem launch_webLogin {app : App} (root : app.root = .webLogin) :
    launchTabBarController app = app.session.token.map fun _ => { app with root := .tabBar } := by
  cases h : app.session.token <;> simp [launchTabBarController, tabBarViewDidLoad, root, h]

theorem launch_tabBar {app : App} (root : app.root = .tabBar) :
    launchTabBarController app = some app := by
  simp [launchTabBarController, root]

theorem step_blank {app : App} {r : NavigationResponse} {fragment : String}
    (blank : r.blankFragment = some fragment) :
    step app (.response r) = ((params fragment).bind fun d =>
      (storeUserID d (storeToken d app)).bind launchTabBarController) := by
  simp only [step, decidePolicyFor, blank, Option.map_bind, Function.comp_def, Option.bind_eq_bind,
    Option.pure_def, Option.map_some, Option.bind_fun_some]

theorem step_other {app : App} {r : NavigationResponse} (other : r.blankFragment = none) :
    step app (.response r) = some app := by
  simp [step, decidePolicyFor, other]

theorem lawful_tabBar {app : App} {r : NavigationResponse} {fragment : String}
    (blank : r.blankFragment = some fragment) (root : app.root = .tabBar) :
    Lawful app (.response r) ↔ Readable fragment := by
  unfold Lawful Readable
  rw [step_blank blank]
  constructor
  · intro lawful
    obtain ⟨app', action, _⟩ := lawful
    obtain ⟨d, parsed, action⟩ := Option.bind_eq_some_iff.mp action
    obtain ⟨stored, action, _⟩ := Option.bind_eq_some_iff.mp action
    exact ⟨d, parsed, storeUserID_isSome_iff.mp (Option.isSome_iff_exists.mpr ⟨stored, action⟩)⟩
  · intro readable
    obtain ⟨d, parsed, numeric⟩ := readable
    obtain ⟨stored, action⟩ := Option.isSome_iff_exists.mp
      (@storeUserID_isSome_iff d (storeToken d app) |>.mpr numeric)
    have still : stored.root = .tabBar := by simp [(storeUserID_some action).1, root]
    refine ⟨stored, by simp [parsed, action, launch_tabBar still], ?_⟩
    intro installs
    have login := installs.1
    rw [root] at login
    cases login

theorem login_complete {app : App} {r : NavigationResponse} {fragment : String}
    (blank : r.blankFragment = some fragment) (root : app.root = .webLogin)
    (complete : Complete fragment) :
    ∃ app', step app (.response r) = some app' ∧ app'.root = .tabBar ∧
      SessionFrom (.response r) app'.session := by
  obtain ⟨d, parsed, hasToken, hasUser⟩ := complete
  obtain ⟨token, hasToken⟩ := Option.isSome_iff_exists.mp hasToken
  obtain ⟨userId, hasUser⟩ := Option.isSome_iff_exists.mp hasUser
  obtain ⟨userID, present, numeric⟩ := Option.bind_eq_some_iff.mp hasUser
  have passes : (storeUserID d (storeToken d app)).isSome :=
    storeUserID_isSome_iff.mpr fun text same => by
      rw [present, Option.some.injEq] at same
      simp [← same, numeric]
  obtain ⟨stored, action⟩ := Option.isSome_iff_exists.mp passes
  obtain ⟨sameRoot, session⟩ := storeUserID_some action
  have still : stored.root = .webLogin := by simp [sameRoot, root]
  have filled : stored.session = ⟨some token, some userId⟩ := by
    simp [session, hasToken, present, numeric]
  refine ⟨{ stored with root := .tabBar }, ?_, rfl, ?_⟩
  · simp [step_blank blank, parsed, action, launch_webLogin still, filled]
  · exact ⟨r, fragment, d, token, userId, rfl, blank, parsed, hasToken, hasUser, filled⟩

theorem lawful_webLogin {app : App} {r : NavigationResponse} {fragment : String}
    (blank : r.blankFragment = some fragment) (root : app.root = .webLogin) :
    Lawful app (.response r) ↔ Complete fragment := by
  constructor
  · intro lawful
    obtain ⟨app', action, fromFragment⟩ := lawful
    rw [step_blank blank] at action
    obtain ⟨d, parsed, action⟩ := Option.bind_eq_some_iff.mp action
    obtain ⟨stored, action, launched⟩ := Option.bind_eq_some_iff.mp action
    have still : stored.root = .webLogin := by simp [(storeUserID_some action).1, root]
    rw [launch_webLogin still, Option.map_eq_some_iff] at launched
    obtain ⟨_, _, rfl⟩ := launched
    obtain ⟨r', fragment', d', token, userId, same, blank', parsed', hasToken, hasUser, _⟩ :=
      fromFragment ⟨root, rfl⟩
    cases same
    rw [blank, Option.some.injEq] at blank'
    subst blank'
    rw [parsed, Option.some.injEq] at parsed'
    subst parsed'
    exact ⟨d, parsed, by simp [hasToken], by simp [hasUser]⟩
  · intro complete
    obtain ⟨app', action, _, session⟩ := login_complete blank root complete
    exact ⟨app', action, fun _ => session⟩

theorem lawful_iff (app : App) (event : Event) : Lawful app event ↔ Acceptable app event := by
  cases event with
  | signOut =>
      refine ⟨fun _ => trivial, fun _ => ⟨signOutButton app, rfl, ?_⟩⟩
      intro installs
      cases installs.2
  | response r =>
      cases blank : r.blankFragment with
      | none =>
          simp only [Acceptable, blank, reduceCtorEq, false_implies, implies_true, iff_true]
          refine ⟨app, step_other blank, ?_⟩
          intro installs
          obtain ⟨login, tabBar⟩ := installs
          rw [login] at tabBar
          cases tabBar
      | some fragment =>
          simp only [Acceptable, blank, Option.some.injEq, forall_eq']
          cases root : app.root with
          | webLogin => exact lawful_webLogin blank root
          | tabBar => exact lawful_tabBar blank root

def redirect (fragment : String) : Event := .response ⟨some ⟨"/blank.html", some fragment⟩⟩

theorem tabBar_session_iff (events : List Event) :
    Machine.Along step Lawful App.initial events ↔
      Machine.Along step Acceptable App.initial events :=
  Machine.along_congr (I := fun _ => True) (fun _ _ _ _ _ => trivial)
    (fun app event _ => lawful_iff app event) trivial events

def staleRun : List Event :=
  [redirect "access_token=t1&user_id=7", .signOut, redirect "error=access_denied"]

theorem error_redirect_opens_tabBar :
    ¬ ∀ events, Machine.Along step Lawful App.initial events := by
  intro all
  obtain ⟨app, ran⟩ := Option.isSome_iff_exists.mp
    (show (Machine.run step App.initial
      [redirect "access_token=t1&user_id=7", .signOut]).isSome by decide)
  have root : app.root = .webLogin := by
    obtain ⟨_, _, rest⟩ := Option.bind_eq_some_iff.mp ran
    cases rest
    rfl
  have lawful := Machine.along_iff_prefix.mp (all staleRun) _ _ [] app rfl ran
  obtain ⟨d, parsed, hasToken, _⟩ := (lawful_webLogin rfl root).mp lawful
  have noToken : ((params "error=access_denied").bind fun d => d.get "access_token") = none := by
    decide
  simp [parsed] at noToken
  simp [noToken] at hasToken

example : (Machine.run step App.initial staleRun).map (fun app => (app.root, app.session)) =
    some (.tabBar, ⟨some "t1", some 7⟩) := by decide

end SocialApp.Login
