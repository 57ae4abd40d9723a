import SocialApp.Foundation.Text
import SocialApp.Library.Machine

/-!
# Login, sign out and the session they share

`WebLoginViewController` reads the token of the OAuth redirect into the global `UserSession` and
opens the tab bar; `AccountTableViewController` brings the login page back. A handler that traps
returns `none`. `firebase` lists the records written below `userSessions`: the child and its
`userID`.
-/

namespace SocialApp.Login
open Library Foundation

structure UserSession where
  token : Option String
  userId : Option Int
  deriving DecidableEq

inductive DefaultsValue
  | text (s : String)
  | number (n : Int)
  deriving DecidableEq

abbrev UserDefaults := String → Option DefaultsValue

def UserDefaults.set (d : UserDefaults) (value : Option DefaultsValue) (forKey : String) :
    UserDefaults := fun key => if key = forKey then value else d key

inductive RootController
  | webLogin
  | tabBar
  deriving DecidableEq

structure App where
  session : UserSession
  defaults : UserDefaults
  firebase : List (String × Int)
  root : RootController

def App.initial : App where
  session := ⟨none, none⟩
  defaults := fun _ => none
  firebase := []
  root := .webLogin

structure URL where
  path : String
  fragment : Option String
  deriving DecidableEq

structure NavigationResponse where
  url : Option URL
  deriving DecidableEq

def NavigationResponse.blankFragment (response : NavigationResponse) : Option String :=
  match response.url with
  | some url => if url.path = "/blank.html" then url.fragment else none
  | none => none

/-- The closure of `reduce`; `none` is the index `param[1]` out of range. -/
def addParam (result : Dictionary) (param : List String) : Option Dictionary := do
  let key ← param[0]?
  let value ← param[1]?
  return result.set key value

def params (fragment : String) : Option Dictionary :=
  ((components '&' fragment).map (components '=')).foldlM addParam Table.empty

def storeToken (params : Dictionary) (app : App) : App :=
  match params.get "access_token" with
  | some token =>
      { app with
        session := { app.session with token := some token }
        defaults := app.defaults.set (some (.text token)) "UserSessionToken" }
  | none => app

def sendUserSessionToFirebase (userID : String) (app : App) : Option App := do
  let userId ← app.session.userId
  return { app with firebase := app.firebase ++ [(userID, userId)] }

/-- `if let userID = params["user_id"]`; `userId!` traps where the text is no `Int`. -/
def storeUserID (params : Dictionary) (app : App) : Option App :=
  match params.get "user_id" with
  | some userID => do
      let stored := { app with
        session := { app.session with userId := swiftInt userID }
        defaults := app.defaults.set ((swiftInt userID).map .number) "UserSessionUserID" }
      let _ ← stored.session.userId
      sendUserSessionToFirebase userID stored
  | none => some app

def tabBarViewDidLoad (app : App) : Option App := do
  let _ ← app.session.token
  return app

/-- The login view has a window only while its controller is the root. -/
def launchTabBarController (app : App) : Option App :=
  match app.root with
  | .webLogin => tabBarViewDidLoad { app with root := .tabBar }
  | .tabBar => some app

inductive Policy
  | allow
  | cancel
  deriving DecidableEq

def decidePolicyFor (response : NavigationResponse) (app : App) : Option (Policy × App) :=
  match response.blankFragment with
  | none => some (.allow, app)
  | some fragment => do
      let params ← params fragment
      let app ← storeUserID params (storeToken params app)
      let app ← launchTabBarController app
      return (.cancel, app)

def signOutButton (app : App) : App :=
  { app with
    defaults := (app.defaults.set none "userLogin").set none "userPassword"
    root := .webLogin }

inductive Event
  | response (r : NavigationResponse)
  | signOut
  deriving DecidableEq

def step : Machine App Event
  | app, .response r => (decidePolicyFor r app).map Prod.snd
  | app, .signOut => some (signOutButton app)

end SocialApp.Login
