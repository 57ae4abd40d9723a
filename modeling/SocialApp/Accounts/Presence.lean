import SocialApp.Accounts.Consumers

/-!
# Profile data from the answer to the screen

Whether a friend is online, when they were seen last and where they live, from the JSON object
through `Friend` to the labels. `Friend.lastSeen` is an `Int` that is 0 where no time was sent, so
that the list never comes to its line for deleted profiles; and the location without a city
leaves the country out.
-/

namespace SocialApp.Accounts
open Foundation Realm Screens Json

structure AcceptedFriend where
  item : Json
  friend : Friend
  accepted : Friend.decoding item = some friend

def onlinePath : List String := ["online"]
def timePath : List String := ["last_seen", "time"]
def cityPath : List String := ["city", "title"]
def countryPath : List String := ["country", "title"]

/-! ## Specification -/

def IsOnline (item : Json) : Prop := item.valueAt Int onlinePath = some 1

variable {Image : Type} (ui : UIKit Image)

structure LastSeenShown (item : Json) (text : Option String) : Prop where
  online : text = some "Online" ↔ IsOnline item
  time : ¬ IsOnline item → ∀ t, item.valueAt Int timePath = some t →
    text = some ("Last seen " ++ ui.localDate t)
  lastSeen : ¬ IsOnline item →
    ((∃ t, text = some ("Last seen " ++ ui.localDate t)) ↔ (item.valueAt Int timePath).isSome)
  deleted : ¬ IsOnline item →
    (text = some "Deleted or banned profile" ↔ item.valueAt Int timePath = none)

def Contains (text : Option String) (title : String) : Prop :=
  ∃ shown, text = some shown ∧ title.toList <:+: shown.toList

def SentTitle (item : Json) (path : List String) (title : String) : Prop :=
  item.valueAt String path = some title ∧ title ≠ ""

structure LocationShown (item : Json) (text : Option String) : Prop where
  city : ∀ title, SentTitle item cityPath title → Contains text title
  country : ∀ title, SentTitle item countryPath title → Contains text title

theorem lastSeen_ne {time text : String} (other : text.toList.head? ≠ some 'L') :
    "Last seen " ++ time ≠ text := by
  intro same
  apply other
  rw [← same, String.toList_append]
  rfl

theorem online_iff {accepted : AcceptedFriend} :
    accepted.friend.online = 1 ↔ IsOnline accepted.item := by
  rw [friend_described accepted.accepted, IsOnline, onlinePath, describedFriend]
  cases accepted.item.valueAt Int ["online"] <;> simp

theorem friendLastSeen_eq (accepted : AcceptedFriend) (cell : FriendsTableViewCell Image) :
    (cell.configureCell ui (friendRow accepted.friend)).friendLastSeen =
      some (if accepted.friend.online = 1 then "Online"
        else "Last seen " ++ ui.localDate accepted.friend.lastSeen) := by
  rw [FriendsTableViewCell.configureCell_eq]
  simp [FriendsTableViewCell.lastSeenText, friendRow]

theorem lastSeenShown_iff (accepted : AcceptedFriend) (cell : FriendsTableViewCell Image) :
    LastSeenShown ui accepted.item
        (cell.configureCell ui (friendRow accepted.friend)).friendLastSeen ↔
      IsOnline accepted.item ∨ (accepted.item.valueAt Int timePath).isSome := by
  rw [friendLastSeen_eq]
  by_cases online : accepted.friend.online = 1
  · have isOnline := online_iff.mp online
    rw [if_pos online]
    exact iff_of_true ⟨iff_of_true rfl isOnline, absurd isOnline, absurd isOnline, absurd isOnline⟩
      (Or.inl isOnline)
  · have offline : ¬ IsOnline accepted.item := online_iff.not.mp online
    rw [if_neg online]
    constructor
    · intro shown
      exact Or.inr ((shown.lastSeen offline).mp ⟨_, rfl⟩)
    · intro sent
      obtain ⟨t, sent⟩ := Option.isSome_iff_exists.mp (sent.resolve_left offline)
      have lastSeen : accepted.friend.lastSeen = t := by
        rw [friend_described accepted.accepted]
        show (accepted.item.valueAt Int timePath).getD 0 = t
        rw [sent, Option.getD_some]
      rw [lastSeen]
      constructor
      · have other : some ("Last seen " ++ ui.localDate t) ≠ some "Online" := by
          rw [ne_eq, Option.some_inj]
          exact lastSeen_ne (by decide)
        exact iff_of_false other offline
      · intro _ t' sent'
        rw [Option.some.inj (sent.symm.trans sent')]
      · intro _
        exact iff_of_true ⟨t, rfl⟩ (Option.isSome_of_eq_some sent)
      · intro _
        have other : some ("Last seen " ++ ui.localDate t) ≠ some "Deleted or banned profile" := by
          rw [ne_eq, Option.some_inj]
          exact lastSeen_ne (by decide)
        exact iff_of_false other (by simp [sent])

theorem contains_left (title rest : String) : Contains (some (title ++ rest)) title := by
  refine ⟨_, rfl, ?_⟩
  rw [String.toList_append]
  exact (List.prefix_append _ _).isInfix

theorem contains_right (rest title : String) : Contains (some (rest ++ title)) title := by
  refine ⟨_, rfl, ?_⟩
  rw [String.toList_append]
  exact (List.suffix_append _ _).isInfix

theorem not_contains_empty {title : String} (nonempty : title ≠ "") :
    ¬ Contains (some "") title := by
  intro contains
  obtain ⟨shown, eq, inside⟩ := contains
  cases eq
  exact nonempty (String.toList_eq_nil_iff.mp (List.infix_nil.mp inside))

theorem cityText_both {city country : String} (sentCity : city ≠ "") (sentCountry : country ≠ "") :
    cityText (some city) (some country) = some (city ++ ", " ++ country) := by
  simp [cityText, sentCity, sentCountry]

theorem cityText_else {city country : Option String}
    (missing : ¬ (city ≠ none ∧ city ≠ some "" ∧ country ≠ none ∧ country ≠ some "")) :
    cityText city country = some (city.getD "") := by
  rw [cityText, if_neg missing]
  rfl

theorem contains_city {city : String} (sent : city ≠ "") (country : Option String) :
    Contains (cityText (some city) country) city := by
  by_cases both : country ≠ none ∧ country ≠ some ""
  · obtain ⟨title, rfl⟩ := Option.ne_none_iff_exists'.mp both.1
    rw [cityText_both sent (by simpa using both.2), String.append_assoc]
    exact contains_left city _
  · rw [cityText_else fun all => both all.2.2]
    simpa using contains_left city ""

theorem contains_country_iff {city : Option String} {country : String} (sent : country ≠ "") :
    Contains (cityText city (some country)) country ↔ city ≠ none ∧ city ≠ some "" := by
  by_cases present : city ≠ none ∧ city ≠ some ""
  · obtain ⟨title, rfl⟩ := Option.ne_none_iff_exists'.mp present.1
    rw [cityText_both (by simpa using present.2) sent]
    exact iff_of_true (contains_right _ country) present
  · rw [cityText_else fun all => present ⟨all.1, all.2.1⟩]
    have empty : city.getD "" = "" := by
      cases city with
      | none => rfl
      | some title => simpa using present
    rw [empty]
    exact iff_of_false (not_contains_empty sent) present

theorem sentTitle_iff {item : Json} {path : List String} :
    (∃ title, SentTitle item path title) ↔
      item.valueAt String path ≠ none ∧ item.valueAt String path ≠ some "" := by
  cases sent : item.valueAt String path <;> simp [SentTitle, sent]

theorem locationShown_iff (item : Json) :
    LocationShown item (cityText (item.valueAt String cityPath) (item.valueAt String countryPath)) ↔
      ((∃ country, SentTitle item countryPath country) → ∃ city, SentTitle item cityPath city) := by
  constructor
  · intro shown sent
    obtain ⟨country, sent⟩ := sent
    have contains := shown.country country sent
    rw [sent.1] at contains
    exact sentTitle_iff.mpr ((contains_country_iff sent.2).mp contains)
  · intro together
    constructor
    · intro city sent
      rw [sent.1]
      exact contains_city sent.2 _
    · intro country sent
      rw [sent.1]
      exact (contains_country_iff sent.2).mpr (sentTitle_iff.mp (together ⟨country, sent⟩))

theorem profile_data_survives_iff (accepted : AcceptedFriend) (cell : FriendsTableViewCell Image)
    (details : FriendProfileDetailsTableViewCell) :
    ∃ shown, details.configureCell (friendProfileRow (some accepted.friend)) = some shown ∧
      (LastSeenShown ui accepted.item
            (cell.configureCell ui (friendRow accepted.friend)).friendLastSeen ∧
          LocationShown accepted.item shown.city ↔
        (IsOnline accepted.item ∨ (accepted.item.valueAt Int timePath).isSome) ∧
          ((∃ country, SentTitle accepted.item countryPath country) →
            ∃ city, SentTitle accepted.item cityPath city)) := by
  refine ⟨_, rfl, ?_⟩
  apply and_congr (lastSeenShown_iff ui accepted cell)
  rw [← locationShown_iff]
  have city : accepted.friend.city = accepted.item.valueAt String cityPath := by
    rw [friend_described accepted.accepted]
    rfl
  have country : accepted.friend.country = accepted.item.valueAt String countryPath := by
    rw [friend_described accepted.accepted]
    rfl
  simp only [friendProfileRow, Option.bind_some, city, country]

def neverSeen : AcceptedFriend where
  item := .object [("id", .number 1), ("first_name", .string "DELETED"), ("last_name", .string ""),
    ("country", .object [("title", .string "Russia")])]
  friend := {
    id := 1, firstName := "DELETED", nickname := none, domain := none, bdate := none, city := none
    country := some "Russia", photoMax := none, status := none, occupationName := none
    occupationType := none }
  accepted := by rfl

def detailsPrototype : FriendProfileDetailsTableViewCell where
  status := some "Status"
  idProfile := some "id"
  birthday := some "Birthday"
  city := some "City"
  work := some "Work"
  marriage := some "Marriage"

theorem profile_data_lost :
    ¬ LastSeenShown pictures neverSeen.item
        (friendPrototype.configureCell pictures (friendRow neverSeen.friend)).friendLastSeen ∧
      ¬ ∃ shown, detailsPrototype.configureCell (friendProfileRow (some neverSeen.friend)) =
          some shown ∧ LocationShown neverSeen.item shown.city := by
  constructor
  · intro shown
    have offline : ¬ IsOnline neverSeen.item := by
      unfold IsOnline
      decide
    have deleted := (shown.deleted offline).mpr (by decide)
    revert deleted
    decide
  · intro located
    obtain ⟨shown, configured, location⟩ := located
    cases configured
    obtain ⟨text, eq, inside⟩ := location.country "Russia" ⟨by decide, by decide⟩
    cases eq
    revert inside
    decide

end SocialApp.Accounts
