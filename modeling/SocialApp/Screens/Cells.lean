import SocialApp.Foundation.Text

/-!
# Table view cells

A cell holds the attributes of its outlets that one of its methods assigns. What the storyboard
gives them before `awakeFromNib` is the caller's; the drawing of images and the formatting of
dates are parameters. `heart.fill` also starts an animation, which leaves the attributes alone.
-/

namespace SocialApp.Screens
open Foundation

inductive Color
  | systemGreen
  | systemGray
  | systemRed
  | label
  | custom (name : String)
  deriving DecidableEq

structure UIKit (Image : Type) where
  imageData : Data → Option Image
  imageNamed : String → Option Image
  imageSystemName : String → Option Image
  localDate : Int → String

variable {Image : Type} (ui : UIKit Image)

structure FriendsTableViewCell (Image : Type) where
  friendName : Option String
  friendImage : Option Image
  friendLastSeen : Option String
  friendLastSeenColor : Color
  friendOccupation : Option String
  deriving DecidableEq

structure FriendRow where
  fullName : String
  lastSeen : Option Int
  occupation : Option String
  avatar : Option Data
  online : Option Int

def FriendsTableViewCell.configureCell (cell : FriendsTableViewCell Image) (row : FriendRow) :
    FriendsTableViewCell Image :=
  let cell := { cell with
    friendName := some row.fullName
    friendOccupation := some (row.occupation.getD "") }
  let cell := match row.avatar with
    | some avatar => { cell with friendImage := ui.imageData avatar }
    | none => cell
  match row.online with
  | some 1 => { cell with friendLastSeen := some "Online", friendLastSeenColor := .systemGreen }
  | _ => match row.lastSeen with
    | some lastSeenTime =>
        { cell with
          friendLastSeen := some ("Last seen " ++ ui.localDate lastSeenTime)
          friendLastSeenColor := .systemGray }
    | none => { cell with friendLastSeen := some "Deleted or banned profile" }

structure GroupsTableViewCell (Image : Type) where
  groupImage : Option Image
  groupName : Option String
  groupFollowers : Option String
  groupSubscriptionHidden : Bool
  groupDescription : Option String
  deriving DecidableEq

structure GroupRow where
  name : String
  image : Option Data
  followersCount : Option Int
  activity : Option String

/-- `none` is `followersCount!` of `nil`. -/
def GroupsTableViewCell.configureCell (cell : GroupsTableViewCell Image) (row : GroupRow) :
    Option (GroupsTableViewCell Image) := do
  let followersCount ← row.followersCount
  let cell := { cell with
    groupName := some row.name
    groupFollowers := some (toString followersCount ++ " subscribers")
    groupDescription := row.activity
    groupSubscriptionHidden := false }
  match row.image with
  | some image => return { cell with groupImage := ui.imageData image }
  | none => return cell

structure NewsHeaderTableViewCell (Image : Type) where
  avatar : Option Image
  author : Option String
  time : Option String
  deriving DecidableEq

structure NewsHeaderRow where
  avatar : Option Data
  author : Option String
  time : Option Int

def NewsHeaderTableViewCell.awakeFromNib (cell : NewsHeaderTableViewCell Image) :
    NewsHeaderTableViewCell Image :=
  { cell with avatar := ui.imageNamed "camera" }

def NewsHeaderTableViewCell.configureCell (cell : NewsHeaderTableViewCell Image)
    (row : NewsHeaderRow) : NewsHeaderTableViewCell Image where
  author := match row.author with
    | some author => some author
    | none => cell.author
  avatar := match row.avatar with
    | some avatar => ui.imageData avatar
    | none => cell.avatar
  time := match row.time with
    | some time => some ("Posted " ++ ui.localDate time)
    | none => cell.time

structure NewsTextTableViewCell where
  postedText : Option String
  postedTextNumberOfLines : Nat
  deriving DecidableEq

def NewsTextTableViewCell.configureCell (cell : NewsTextTableViewCell) (text : Option String) :
    NewsTextTableViewCell :=
  match text with
  | some text => { cell with postedText := some text }
  | none => cell

def NewsTextTableViewCell.expandText (cell : NewsTextTableViewCell) : NewsTextTableViewCell :=
  { cell with postedTextNumberOfLines := 0 }

structure NewsFooterTableViewCell (Image : Type) where
  likeButtonImage : Option Image
  likeButtonTint : Color
  likeCount : Option String
  commentCount : Option String
  reviewCount : Option String
  deriving DecidableEq

structure NewsFooterRow where
  likes : Option Int
  comments : Option Int
  reviews : Option Int
  userLiked : Option Int

def countText (count : Option Int) (text : Option String) : Option String :=
  match count with
  | some count => some (toString count)
  | none => text

def NewsFooterTableViewCell.configureCell (cell : NewsFooterTableViewCell Image)
    (row : NewsFooterRow) : NewsFooterTableViewCell Image :=
  let cell := { cell with
    likeCount := countText row.likes cell.likeCount
    commentCount := countText row.comments cell.commentCount
    reviewCount := countText row.reviews cell.reviewCount }
  if row.userLiked = some 1 then
    { cell with
      likeButtonImage := ui.imageSystemName "heart.fill"
      likeButtonTint := .systemRed }
  else if row.userLiked = some 0 then
    { cell with
      likeButtonImage := ui.imageSystemName "heart"
      likeButtonTint := .label }
  else cell

structure FriendProfileDetailsTableViewCell where
  status : Option String
  idProfile : Option String
  birthday : Option String
  city : Option String
  work : Option String
  marriage : Option String
  deriving DecidableEq

structure FriendProfileRow where
  status : Option String
  id : Option Int
  birthday : Option String
  city : Option String
  country : Option String
  occupation : Option String
  relation : Option Int

def marriageText : Int → Option String
  | 0 => some "no info"
  | 1 => some "Not married"
  | 2 => some "Has a friend"
  | 3 => some "Engaged"
  | 4 => some "Married"
  | 5 => some "Complicated"
  | 6 => some "In active search"
  | 7 => some "Fallen in love"
  | 8 => some "In civil marriage"
  | _ => none

/-- `self.city.text ?? "" + country` reads the text that the line before it assigned. -/
def cityText (city country : Option String) : Option String :=
  if city ≠ none ∧ city ≠ some "" ∧ country ≠ none ∧ country ≠ some "" then
    some (city.getD "" ++ ", " ++ country.getD "")
  else
    let text := some (city.getD "")
    some (text.getD ("" ++ country.getD ""))

/-- `none` is `id!` of `nil`. -/
def FriendProfileDetailsTableViewCell.configureCell (cell : FriendProfileDetailsTableViewCell)
    (row : FriendProfileRow) : Option FriendProfileDetailsTableViewCell := do
  let id ← row.id
  return {
    idProfile := some ("id" ++ toString id)
    status := some (row.status.getD "")
    birthday := some (row.birthday.getD "no info")
    city := cityText row.city row.country
    work := some (row.occupation.getD "no info")
    marriage := (row.relation.bind marriageText).or cell.marriage }

end SocialApp.Screens
