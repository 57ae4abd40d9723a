import SocialApp.Foundation.Text

/-!
# The classes stored in Realm
-/

namespace SocialApp.Realm
open Library Foundation

structure Friend where
  firstName : String := ""
  id : Int := 0
  lastName : String := ""
  isClosed : Bool := false
  canAccessClosed : Bool := false
  sex : Int := 0
  photo50 : Option String := some ""
  online : Int := 0
  nickname : Option String := some ""
  domain : Option String := some ""
  bdate : Option String := some ""
  city : Option String := some ""
  country : Option String := some ""
  photoMax : Option String := some ""
  status : Option String := some ""
  lastSeen : Int := 0
  occupationName : Option String := some ""
  occupationType : Option String := some ""
  relation : Int := 0
  avatar : Option Data := none
  deriving DecidableEq

structure Group where
  id : Int := 0
  name : String := ""
  activity : Option String := some ""
  membersCount : Int := 0
  photo50 : Option String := some ""
  avatar : Option Data := none
  deriving DecidableEq

structure PhotoSizes where
  height : Int := 0
  type : Option String := some ""
  url : Option String := some ""
  width : Int := 0
  deriving DecidableEq

structure Photo where
  date : Int := 0
  id : Int := 0
  owner_id : Int := 0
  text : String := ""
  sizes : List PhotoSizes := []
  deriving DecidableEq

structure Photoflow where
  id : Int := 0
  ownerID : Int := 0
  data : Option Data := none
  deriving DecidableEq

structure Store where
  friends : Table Friend.id
  groups : Table Group.id
  photos : Table Photo.id
  photoflow : Table Photoflow.id
  deriving DecidableEq

def Store.empty : Store := ⟨.empty, .empty, .empty, .empty⟩

end SocialApp.Realm
