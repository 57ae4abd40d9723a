import SocialApp.Library.Outlet
import SocialApp.Screens.Cells

/-!
# Reused cells

What a cell shows after a sequence of calls against what a fresh cell shows after the last of
them. The two agree on every attribute that the last call assigns; an attribute that it leaves
alone still holds what the last earlier call that assigned it wrote.
-/

namespace SocialApp.Screens
open Foundation Library Machine

variable {Image : Type} (ui : UIKit Image)

namespace FriendsTableViewCell

abbrev step : Machine (FriendsTableViewCell Image) FriendRow :=
  fun cell row => some (cell.configureCell ui row)

def assignedColor (row : FriendRow) : Option Color :=
  if row.online = some 1 then some .systemGreen else row.lastSeen.map fun _ => .systemGray

def lastSeenText (row : FriendRow) : String :=
  if row.online = some 1 then "Online"
  else row.lastSeen.elim "Deleted or banned profile" fun time => "Last seen " ++ ui.localDate time

theorem configureCell_eq (cell : FriendsTableViewCell Image) (row : FriendRow) :
    cell.configureCell ui row = {
      friendName := some row.fullName
      friendImage := (row.avatar.map ui.imageData).getD cell.friendImage
      friendLastSeen := some (lastSeenText ui row)
      friendLastSeenColor := (assignedColor row).getD cell.friendLastSeenColor
      friendOccupation := some (row.occupation.getD "") } := by
  obtain ⟨fullName, lastSeen, occupation, avatar, online⟩ := row
  cases avatar <;> cases lastSeen <;> by_cases isOnline : online = some 1 <;>
    simp [configureCell, lastSeenText, assignedColor, isOnline]

def image : Outlet (step ui) (Option Image) where
  value := friendImage
  assigned row := row.avatar.map ui.imageData
  writes action := by
    cases action
    rw [configureCell_eq]

def lastSeenColor : Outlet (step ui) Color where
  value := friendLastSeenColor
  assigned := assignedColor
  writes action := by
    cases action
    rw [configureCell_eq]

theorem reuse_iff {awakened : FriendsTableViewCell Image} {rows : List FriendRow}
    {last : FriendRow} :
    LeavesNoTrace (step ui) awakened rows last ↔
      (image ui).Clean awakened rows last ∧ (lastSeenColor ui).Clean awakened rows last := by
  apply leavesNoTrace_iff_of_total (fun _ _ => rfl)
  intro cell ran
  rw [(image ui).clean_iff ran, (lastSeenColor ui).clean_iff ran]
  simp [configureCell_eq, image, lastSeenColor]

end FriendsTableViewCell

namespace GroupsTableViewCell

abbrev step : Machine (GroupsTableViewCell Image) GroupRow :=
  fun cell row => cell.configureCell ui row

theorem configureCell_eq (cell : GroupsTableViewCell Image) (row : GroupRow) :
    cell.configureCell ui row = row.followersCount.map fun followersCount => {
      groupImage := (row.image.map ui.imageData).getD cell.groupImage
      groupName := some row.name
      groupFollowers := some (toString followersCount ++ " subscribers")
      groupSubscriptionHidden := false
      groupDescription := row.activity } := by
  obtain ⟨name, image, followersCount, activity⟩ := row
  cases followersCount <;> cases image <;> rfl

def image : Outlet (step ui) (Option Image) where
  value := groupImage
  assigned row := row.image.map ui.imageData
  writes {_ row _} action := by
    simp only [step, configureCell_eq, Option.map_eq_some_iff] at action
    obtain ⟨_, _, rfl⟩ := action
    rfl

theorem reuse_iff {awakened : GroupsTableViewCell Image} {rows : List GroupRow} {last : GroupRow} :
    LeavesNoTrace (step ui) awakened rows last ↔
      (∀ row ∈ rows ++ [last], row.followersCount.isSome) ∧ (image ui).Clean awakened rows last := by
  apply leavesNoTrace_iff (fun cell row => by simp [step, configureCell_eq])
  intro counted cell ran
  obtain ⟨followersCount, counted⟩ := Option.isSome_iff_exists.mp counted
  rw [(image ui).clean_iff ran]
  simp [step, configureCell_eq, image, counted]

end GroupsTableViewCell

namespace NewsHeaderTableViewCell

abbrev step : Machine (NewsHeaderTableViewCell Image) NewsHeaderRow :=
  fun cell row => some (cell.configureCell ui row)

def assignedTime (row : NewsHeaderRow) : Option (Option String) :=
  row.time.map fun time => some ("Posted " ++ ui.localDate time)

theorem configureCell_eq (cell : NewsHeaderTableViewCell Image) (row : NewsHeaderRow) :
    cell.configureCell ui row = {
      avatar := (row.avatar.map ui.imageData).getD cell.avatar
      author := (row.author.map some).getD cell.author
      time := (assignedTime ui row).getD cell.time } := by
  obtain ⟨avatar, author, time⟩ := row
  cases avatar <;> cases author <;> cases time <;> rfl

def image : Outlet (step ui) (Option Image) where
  value := avatar
  assigned row := row.avatar.map ui.imageData
  writes action := by
    cases action
    rw [configureCell_eq]

def authorText : Outlet (step ui) (Option String) where
  value := author
  assigned row := row.author.map some
  writes action := by
    cases action
    rw [configureCell_eq]

def timeText : Outlet (step ui) (Option String) where
  value := time
  assigned := assignedTime ui
  writes action := by
    cases action
    rw [configureCell_eq]

theorem reuse_iff {awakened : NewsHeaderTableViewCell Image} {rows : List NewsHeaderRow}
    {last : NewsHeaderRow} :
    LeavesNoTrace (step ui) awakened rows last ↔
      (image ui).Clean awakened rows last ∧ (authorText ui).Clean awakened rows last ∧
        (timeText ui).Clean awakened rows last := by
  apply leavesNoTrace_iff_of_total (fun _ _ => rfl)
  intro cell ran
  rw [(image ui).clean_iff ran, (authorText ui).clean_iff ran, (timeText ui).clean_iff ran]
  simp [configureCell_eq, image, authorText, timeText]

end NewsHeaderTableViewCell

namespace NewsTextTableViewCell

inductive Call
  | configureCell (text : Option String)
  | expandText

def step : Machine NewsTextTableViewCell Call
  | cell, .configureCell text => some (cell.configureCell text)
  | cell, .expandText => some cell.expandText

theorem configureCell_eq (cell : NewsTextTableViewCell) (text : Option String) :
    cell.configureCell text = { cell with postedText := (text.map some).getD cell.postedText } := by
  cases text <;> rfl

def text : Outlet step (Option String) where
  value := postedText
  assigned
    | .configureCell text => text.map some
    | .expandText => none
  writes {_ call _} action := by
    cases call with
    | configureCell text => cases action; rw [configureCell_eq]
    | expandText => cases action; rfl

def numberOfLines : Outlet step Nat where
  value := postedTextNumberOfLines
  assigned
    | .configureCell _ => none
    | .expandText => some 0
  writes {_ call _} action := by
    cases call with
    | configureCell text => cases action; rw [configureCell_eq]; rfl
    | expandText => cases action; rfl

theorem reuse_iff {awakened : NewsTextTableViewCell} {calls : List Call} {last : Option String} :
    LeavesNoTrace step awakened calls (.configureCell last) ↔
      text.Clean awakened calls (.configureCell last) ∧
        numberOfLines.Clean awakened calls (.configureCell last) := by
  apply leavesNoTrace_iff_of_total (fun _ call => by cases call <;> rfl)
  intro cell ran
  rw [text.clean_iff ran, numberOfLines.clean_iff ran]
  simp [step, configureCell_eq, text, numberOfLines]

end NewsTextTableViewCell

namespace NewsFooterTableViewCell

abbrev step : Machine (NewsFooterTableViewCell Image) NewsFooterRow :=
  fun cell row => some (cell.configureCell ui row)

def assignedHeart (row : NewsFooterRow) : Option (Option Image × Color) :=
  if row.userLiked = some 1 then some (ui.imageSystemName "heart.fill", .systemRed)
  else if row.userLiked = some 0 then some (ui.imageSystemName "heart", .label)
  else none

def assignedCount (count : Option Int) : Option (Option String) :=
  count.map fun n => some (toString n)

theorem configureCell_eq (cell : NewsFooterTableViewCell Image) (row : NewsFooterRow) :
    cell.configureCell ui row = {
      likeButtonImage := ((assignedHeart ui row).getD (cell.likeButtonImage, cell.likeButtonTint)).1
      likeButtonTint := ((assignedHeart ui row).getD (cell.likeButtonImage, cell.likeButtonTint)).2
      likeCount := (assignedCount row.likes).getD cell.likeCount
      commentCount := (assignedCount row.comments).getD cell.commentCount
      reviewCount := (assignedCount row.reviews).getD cell.reviewCount } := by
  have count : ∀ n text, countText n text = (assignedCount n).getD text := by
    intro n text
    cases n <;> rfl
  simp only [configureCell, assignedHeart, count]
  split
  · rfl
  · split <;> rfl

def heart : Outlet (step ui) (Option Image × Color) where
  value cell := (cell.likeButtonImage, cell.likeButtonTint)
  assigned := assignedHeart ui
  writes action := by
    cases action
    rw [configureCell_eq]

def likes : Outlet (step ui) (Option String) where
  value := likeCount
  assigned row := assignedCount row.likes
  writes action := by
    cases action
    rw [configureCell_eq]

def comments : Outlet (step ui) (Option String) where
  value := commentCount
  assigned row := assignedCount row.comments
  writes action := by
    cases action
    rw [configureCell_eq]

def reviews : Outlet (step ui) (Option String) where
  value := reviewCount
  assigned row := assignedCount row.reviews
  writes action := by
    cases action
    rw [configureCell_eq]

theorem reuse_iff {awakened : NewsFooterTableViewCell Image} {rows : List NewsFooterRow}
    {last : NewsFooterRow} :
    LeavesNoTrace (step ui) awakened rows last ↔
      (heart ui).Clean awakened rows last ∧ (likes ui).Clean awakened rows last ∧
        (comments ui).Clean awakened rows last ∧ (reviews ui).Clean awakened rows last := by
  apply leavesNoTrace_iff_of_total (fun _ _ => rfl)
  intro cell ran
  rw [(heart ui).clean_iff ran, (likes ui).clean_iff ran, (comments ui).clean_iff ran,
    (reviews ui).clean_iff ran]
  simp [configureCell_eq, heart, likes, comments, reviews, Prod.ext_iff, and_assoc]

end NewsFooterTableViewCell

namespace FriendProfileDetailsTableViewCell

abbrev step : Machine FriendProfileDetailsTableViewCell FriendProfileRow :=
  fun cell row => cell.configureCell row

def assignedMarriage (row : FriendProfileRow) : Option (Option String) :=
  (row.relation.bind marriageText).map some

theorem configureCell_eq (cell : FriendProfileDetailsTableViewCell) (row : FriendProfileRow) :
    cell.configureCell row = row.id.map fun id => {
      status := some (row.status.getD "")
      idProfile := some ("id" ++ toString id)
      birthday := some (row.birthday.getD "no info")
      city := cityText row.city row.country
      work := some (row.occupation.getD "no info")
      marriage := (assignedMarriage row).getD cell.marriage } := by
  cases id : row.id <;> cases text : row.relation.bind marriageText <;>
    simp [configureCell, assignedMarriage, id, text]

def marriageLabel : Outlet step (Option String) where
  value := marriage
  assigned := assignedMarriage
  writes action := by
    simp only [step, configureCell_eq, Option.map_eq_some_iff] at action
    obtain ⟨_, _, rfl⟩ := action
    rfl

theorem reuse_iff {awakened : FriendProfileDetailsTableViewCell} {rows : List FriendProfileRow}
    {last : FriendProfileRow} :
    LeavesNoTrace step awakened rows last ↔
      (∀ row ∈ rows ++ [last], row.id.isSome) ∧ marriageLabel.Clean awakened rows last := by
  apply leavesNoTrace_iff (fun cell row => by simp [step, configureCell_eq])
  intro identified cell ran
  obtain ⟨id, identified⟩ := Option.isSome_iff_exists.mp identified
  rw [marriageLabel.clean_iff ran]
  simp [step, configureCell_eq, marriageLabel, identified]

end FriendProfileDetailsTableViewCell

theorem cells_reuse_iff :
    (∀ awakened rows last, LeavesNoTrace (FriendsTableViewCell.step ui) awakened rows last ↔
      (FriendsTableViewCell.image ui).Clean awakened rows last ∧
        (FriendsTableViewCell.lastSeenColor ui).Clean awakened rows last) ∧
    (∀ awakened rows last, LeavesNoTrace (GroupsTableViewCell.step ui) awakened rows last ↔
      (∀ row ∈ rows ++ [last], row.followersCount.isSome) ∧
        (GroupsTableViewCell.image ui).Clean awakened rows last) ∧
    (∀ nib : NewsHeaderTableViewCell Image, ∀ rows last,
      LeavesNoTrace (NewsHeaderTableViewCell.step ui) (nib.awakeFromNib ui) rows last ↔
        (NewsHeaderTableViewCell.image ui).Clean (nib.awakeFromNib ui) rows last ∧
          (NewsHeaderTableViewCell.authorText ui).Clean (nib.awakeFromNib ui) rows last ∧
            (NewsHeaderTableViewCell.timeText ui).Clean (nib.awakeFromNib ui) rows last) ∧
    (∀ awakened calls last,
      LeavesNoTrace NewsTextTableViewCell.step awakened calls (.configureCell last) ↔
        NewsTextTableViewCell.text.Clean awakened calls (.configureCell last) ∧
          NewsTextTableViewCell.numberOfLines.Clean awakened calls (.configureCell last)) ∧
    (∀ awakened rows last, LeavesNoTrace (NewsFooterTableViewCell.step ui) awakened rows last ↔
      (NewsFooterTableViewCell.heart ui).Clean awakened rows last ∧
        (NewsFooterTableViewCell.likes ui).Clean awakened rows last ∧
          (NewsFooterTableViewCell.comments ui).Clean awakened rows last ∧
            (NewsFooterTableViewCell.reviews ui).Clean awakened rows last) ∧
    (∀ awakened rows last, LeavesNoTrace FriendProfileDetailsTableViewCell.step awakened rows last ↔
      (∀ row ∈ rows ++ [last], row.id.isSome) ∧
        FriendProfileDetailsTableViewCell.marriageLabel.Clean awakened rows last) :=
  ⟨fun _ _ _ => FriendsTableViewCell.reuse_iff ui, fun _ _ _ => GroupsTableViewCell.reuse_iff ui,
    fun _ _ _ => NewsHeaderTableViewCell.reuse_iff ui, fun _ _ _ => NewsTextTableViewCell.reuse_iff,
    fun _ _ _ => NewsFooterTableViewCell.reuse_iff ui,
    fun _ _ _ => FriendProfileDetailsTableViewCell.reuse_iff⟩

def pictures : UIKit String where
  imageData _ := some "downloaded"
  imageNamed := some
  imageSystemName := some
  localDate _ := "12 Jan 2021 at 10:00"

def friendPrototype : FriendsTableViewCell String where
  friendName := some "Friend Name"
  friendImage := some "person.circle"
  friendLastSeen := some "Friend Last Seen"
  friendLastSeenColor := .custom "gray"
  friendOccupation := some "Moscow, 31 y.o., Softluxe JSC"

def footerPrototype : NewsFooterTableViewCell String where
  likeButtonImage := some "heart"
  likeButtonTint := .label
  likeCount := some "1234K"
  commentCount := some "1234K"
  reviewCount := some "1234K"

theorem cells_keep_traces :
    ¬ LeavesNoTrace (FriendsTableViewCell.step pictures) friendPrototype
        [⟨"First Friend", some 1610000000, none, some [255], some 1⟩]
        ⟨"Second Friend", none, none, none, some 0⟩ ∧
      ¬ LeavesNoTrace (NewsFooterTableViewCell.step pictures) footerPrototype
        [⟨some 5, some 2, some 100, some 1⟩] ⟨none, none, none, none⟩ := by
  constructor
  · intro traceless
    obtain ⟨cell, alone, ran⟩ := traceless
    have same := alone.trans ran.symm
    revert same
    decide
  · intro traceless
    obtain ⟨cell, alone, ran⟩ := traceless
    have same := alone.trans ran.symm
    revert same
    decide

end SocialApp.Screens
