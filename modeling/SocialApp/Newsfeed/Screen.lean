import SocialApp.Newsfeed.Feed

/-!
# `NewsTableViewController`

The controller and its builder share the `News` objects, so that one list stands for both feeds.
Each built page starts a pass over the avatars and one over the photos; a pass walks the feed as
it is when the pass runs. A download brings the same bytes for the same URL or never any.
-/

namespace SocialApp.Newsfeed
open Foundation Library Realm

structure NewsTableViewController where
  newsFeed : List News := []
  avatarPasses : Nat := 0
  photosPasses : Nat := 0
  deriving DecidableEq

inductive RowHeight
  | zero
  | width
  | halfWidth
  | estimatedRowHeight
  deriving DecidableEq

def heightForRowAt (newsFeed : List News) (indexSection row : Nat) : Option RowHeight :=
  match row with
  | 2 => do
      let news ← newsFeed[indexSection]?
      let count := (news.photosURL.map List.length).getD 0
      return if 0 = count then .zero else if 1 = count then .width else .halfWidth
  | _ => some .estimatedRowHeight

def likeButtonPressed (tag : Nat) (newsFeed : List News) : Option (List News) := do
  let news ← newsFeed[tag]?
  let likeCount ← news.likeCount
  if 1 = news.liked.getD 0 then
    let likeCount ← checked (likeCount - 1)
    return newsFeed.set tag { news with likeCount := some likeCount, liked := some 0 }
  else
    let likeCount ← checked (likeCount + 1)
    return newsFeed.set tag { news with likeCount := some likeCount, liked := some 1 }

theorem likeButtonPressed_some {tag : Nat} {newsFeed next : List News}
    (pressed : likeButtonPressed tag newsFeed = some next) :
    ∃ news likeCount liked, newsFeed[tag]? = some news ∧
      next = newsFeed.set tag { news with likeCount := some likeCount, liked := some liked } := by
  simp only [likeButtonPressed, Option.bind_eq_bind, Option.bind_eq_some_iff] at pressed
  obtain ⟨news, here, likeCount, _, pressed⟩ := pressed
  split at pressed
  · obtain ⟨count, _, eq⟩ := Option.bind_eq_some_iff.mp pressed
    cases eq
    exact ⟨news, count, 0, here, rfl⟩
  · obtain ⟨count, _, eq⟩ := Option.bind_eq_some_iff.mp pressed
    cases eq
    exact ⟨news, count, 1, here, rfl⟩

structure Web where
  isURL : String → Bool
  contents : String → Option Data

variable (web : Web)

/-- `URL(string:)`, then `try? Data(contentsOf:)`. -/
def Web.download (urlString : String) : Option Data :=
  if web.isURL urlString then web.contents urlString else none

def downloadAvatar (news : News) : News :=
  match news.avatarURL.bind web.download with
  | some data => { news with avatar := some data }
  | none => news

def appendPhoto (news : News) (urlString : String) : News :=
  match web.download urlString with
  | some data => { news with photos := news.photos.map (· ++ [data]) }
  | none => news

/-- The message after the loop over the URLs unwraps the author. -/
def downloadPhotosOf (news : News) : Option News := do
  let news := (news.photosURL.getD []).foldl (appendPhoto web) news
  let _ ← news.author
  return news

def downloadPhotos : List News → Option (List News)
  | [] => some []
  | news :: newsFeed => do
      let news ← downloadPhotosOf web news
      let newsFeed ← downloadPhotos newsFeed
      return news :: newsFeed

inductive Event
  | biuldNewsFeed (response : PostResponse)
  | avatarsPass
  | photosPass
  | likeButtonPressed (tag : Nat)

def biuldNewsFeed (response : PostResponse) (screen : NewsTableViewController) :
    Option NewsTableViewController := do
  let (_, newsFeed) ← buildNewsFeed ⟨screen.newsFeed⟩ response
  return {
    newsFeed := newsFeed
    avatarPasses := screen.avatarPasses + 1
    photosPasses := screen.photosPasses + 1 }

def step : Machine NewsTableViewController Event
  | screen, .biuldNewsFeed response => biuldNewsFeed response screen
  | screen, .avatarsPass =>
      match screen.avatarPasses with
      | 0 => none
      | avatarPasses + 1 => some { screen with
          avatarPasses := avatarPasses
          newsFeed := screen.newsFeed.map (downloadAvatar web) }
  | screen, .photosPass =>
      match screen.photosPasses with
      | 0 => none
      | photosPasses + 1 => do
          let newsFeed ← downloadPhotos web screen.newsFeed
          return { screen with photosPasses := photosPasses, newsFeed := newsFeed }
  | screen, .likeButtonPressed tag => do
      let newsFeed ← likeButtonPressed tag screen.newsFeed
      return { screen with newsFeed := newsFeed }

end SocialApp.Newsfeed
