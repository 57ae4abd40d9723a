import Mathlib.Algebra.Ring.Parity
import SocialApp.Newsfeed.Media

/-!
# Like buttons

A footer cell stores the section it is configured for in the tag of its like button and is reused
for other sections. A tap goes to the section in the tag, whatever pages came in between; they
are appended, so that a section keeps its post. To a post a tap is a switch.
-/

namespace SocialApp.Newsfeed
open Foundation Library Machine

structure Likes where
  count : Int
  liked : Bool

namespace Likes

def userLikes (likes : Likes) : Int := if likes.liked then 1 else 0

def tap (likes : Likes) : Likes :=
  if likes.liked then ⟨likes.count - 1, false⟩ else ⟨likes.count + 1, true⟩

@[simp] theorem userLikes_false (count : Int) : userLikes ⟨count, false⟩ = 0 := rfl

@[simp] theorem userLikes_true (count : Int) : userLikes ⟨count, true⟩ = 1 := rfl

@[simp] theorem tap_false (count : Int) : tap ⟨count, false⟩ = ⟨count + 1, true⟩ := rfl

@[simp] theorem tap_true (count : Int) : tap ⟨count, true⟩ = ⟨count - 1, false⟩ := rfl

theorem tap_involutive : Function.Involutive tap := by
  intro likes
  obtain ⟨count, liked⟩ := likes
  cases liked <;> simp

theorem balance_tap (likes : Likes) :
    likes.tap.count - likes.tap.userLikes = likes.count - likes.userLikes := by
  obtain ⟨count, liked⟩ := likes
  cases liked <;> simp

theorem balance_iterate (n : Nat) (likes : Likes) :
    (tap^[n] likes).count - (tap^[n] likes).userLikes = likes.count - likes.userLikes := by
  induction n generalizing likes with
  | zero => rfl
  | succ n ih => rw [Function.iterate_succ_apply, ih, balance_tap]

theorem userLikes_cases (likes : Likes) : likes.userLikes = 0 ∨ likes.userLikes = 1 := by
  unfold userLikes
  split
  · exact Or.inr rfl
  · exact Or.inl rfl

end Likes

structure NewsTable where
  controller : NewsTableViewController := {}
  likeButtonTags : Nat → Option Nat := fun _ => none

inductive TableEvent
  | biuldNewsFeed (response : PostResponse)
  | avatarsPass
  | photosPass
  | cellForRowAt (cell indexSection : Nat)
  | likeButtonPressed (cell : Nat)

variable (web : Web)

def NewsTable.send (table : NewsTable) (event : Event) : Option NewsTable := do
  let controller ← step web table.controller event
  return { table with controller := controller }

/-- `cellForRowAt` is its branch for the footer. -/
def tableStep : Machine NewsTable TableEvent
  | table, .biuldNewsFeed response => table.send web (.biuldNewsFeed response)
  | table, .avatarsPass => table.send web .avatarsPass
  | table, .photosPass => table.send web .photosPass
  | table, .cellForRowAt cell indexSection => do
      let _ ← table.controller.newsFeed[indexSection]?
      return { table with
        likeButtonTags := Function.update table.likeButtonTags cell (some indexSection) }
  | table, .likeButtonPressed cell => do
      let tag ← table.likeButtonTags cell
      table.send web (.likeButtonPressed tag)

structure Post where
  response : PostResponse
  item : PostItem

def pagePosts (response : PostResponse) : List Post :=
  (response.items.getD []).map fun item => ⟨response, item⟩

def Event.posts : Event → List Post
  | biuldNewsFeed response => pagePosts response
  | _ => []

def constant (news : News) : News :=
  { news with avatar := none, photos := none, likeCount := none, liked := none }

def Post.news (post : Post) : News := translatedItem post.response post.item

structure Shows (news : News) (likes : Likes) : Prop where
  likeCount : news.likeCount = some likes.count
  liked : news.liked = some likes.userLikes

structure Sent (item : PostItem) (likes : Likes) : Prop where
  count : item.likes.bind PostLikes.count = some likes.count
  user_likes : item.likes.bind PostLikes.user_likes = some likes.userLikes

theorem shows_news {post : Post} {likes : Likes} (sent : Sent post.item likes) :
    Shows post.news likes := ⟨sent.count, sent.user_likes⟩

def Event.taps (indexSection : Nat) : Event → Bool
  | likeButtonPressed tag => tag == indexSection
  | _ => false

theorem likeButtonPressed_shows {newsFeed : List News} {tag : Nat} {news : News} {likes : Likes}
    (here : newsFeed[tag]? = some news) (shows : Shows news likes) :
    likeButtonPressed tag newsFeed = (checked likes.tap.count).map fun count =>
      newsFeed.set tag
        { news with likeCount := some count, liked := some likes.tap.userLikes } := by
  obtain ⟨count, liked⟩ := likes
  have counted : news.likeCount = some count := shows.likeCount
  cases liked with
  | false =>
      have state : news.liked = some 0 := shows.liked
      simp [likeButtonPressed, here, counted, state, Option.map_eq_bind]
  | true =>
      have state : news.liked = some 1 := shows.liked
      simp [likeButtonPressed, here, counted, state, Option.map_eq_bind]

theorem likeButtonPressed_other {newsFeed next : List News} {tag i : Nat}
    (pressed : likeButtonPressed tag newsFeed = some next) (other : i ≠ tag) :
    next[i]? = newsFeed[i]? := by
  obtain ⟨news, likeCount, liked, _, rfl⟩ := likeButtonPressed_some pressed
  exact List.getElem?_set_ne other.symm

theorem eq_of_checked {value result : Int} (passed : checked value = some result) :
    result = value := by
  unfold checked at passed
  split at passed
  · exact (Option.some.inj passed).symm
  · cases passed

theorem constant_downloadAvatar (news : News) :
    constant (downloadAvatar web news) = constant news := by
  unfold downloadAvatar
  split <;> rfl

theorem shows_downloadAvatar {news : News} {likes : Likes} (shows : Shows news likes) :
    Shows (downloadAvatar web news) likes := by
  unfold downloadAvatar
  split
  · exact ⟨shows.likeCount, shows.liked⟩
  · exact shows

theorem step_post {s s' : NewsTableViewController} {event : Event}
    (action : step web s event = some s') {i : Nat} {news : News}
    (here : s.newsFeed[i]? = some news) {likes : Likes} (shows : Shows news likes) :
    ∃ news', s'.newsFeed[i]? = some news' ∧ constant news' = constant news ∧
      Shows news' (if event.taps i then likes.tap else likes) := by
  have changed := step_newsFeed web action
  cases event with
  | biuldNewsFeed response =>
      obtain ⟨items, _, feed⟩ := changed
      obtain ⟨bound, _⟩ := List.getElem?_eq_some_iff.mp here
      refine ⟨news, ?_, rfl, shows⟩
      rw [feed, List.getElem?_append_left bound, here]
  | avatarsPass =>
      refine ⟨downloadAvatar web news, ?_, constant_downloadAvatar web news,
        shows_downloadAvatar web shows⟩
      rw [changed, List.getElem?_map, here, Option.map_some]
  | photosPass =>
      refine ⟨withPhotos web news, ?_, rfl, shows.likeCount, shows.liked⟩
      rw [changed, List.getElem?_map, here, Option.map_some]
  | likeButtonPressed tag =>
      have pressed : likeButtonPressed tag s.newsFeed = some s'.newsFeed := changed
      by_cases same : tag = i
      · subst same
        rw [likeButtonPressed_shows here shows, Option.map_eq_some_iff] at pressed
        obtain ⟨count, passed, feed⟩ := pressed
        obtain ⟨bound, _⟩ := List.getElem?_eq_some_iff.mp here
        rw [← feed]
        refine ⟨_, List.getElem?_set_self bound, rfl, ?_⟩
        simp only [Event.taps, beq_self_eq_true, if_true]
        exact ⟨congrArg some (eq_of_checked passed), rfl⟩
      · have other : s'.newsFeed[i]? = s.newsFeed[i]? :=
          likeButtonPressed_other pressed (Ne.symm same)
        refine ⟨news, other.trans here, rfl, ?_⟩
        simpa [Event.taps, same] using shows

theorem step_appends {s s' : NewsTableViewController} {event : Event}
    (action : step web s event = some s') :
    s'.newsFeed.length = s.newsFeed.length + event.posts.length ∧
      s'.newsFeed.drop s.newsFeed.length = event.posts.map Post.news := by
  have changed := step_newsFeed web action
  cases event with
  | biuldNewsFeed response =>
      obtain ⟨items, present, feed⟩ := changed
      simp [feed, Event.posts, pagePosts, present, Post.news, Function.comp_def]
  | avatarsPass => simp [changed, Event.posts]
  | photosPass => simp [changed, Event.posts]
  | likeButtonPressed tag =>
      obtain ⟨news, likeCount, liked, _, feed⟩ := likeButtonPressed_some changed
      simp [feed, Event.posts]

theorem step_tap_other {s s' : NewsTableViewController} {tag j : Nat}
    (action : step web s (.likeButtonPressed tag) = some s') (other : j ≠ tag) :
    s'.newsFeed[j]? = s.newsFeed[j]? :=
  likeButtonPressed_other (step_newsFeed web action) other

theorem step_tap_isSome_iff {s : NewsTableViewController} {tag : Nat} {news : News} {likes : Likes}
    (here : s.newsFeed[tag]? = some news) (shows : Shows news likes) :
    (step web s (.likeButtonPressed tag)).isSome ↔ (checked likes.tap.count).isSome := by
  cases passed : checked likes.tap.count <;>
    simp [step, likeButtonPressed_shows here shows, passed]

theorem taps_new {s s' : NewsTableViewController} {event : Event}
    (action : step web s event = some s') {i : Nat} (new : s.newsFeed.length ≤ i) :
    event.taps i = false := by
  cases event with
  | likeButtonPressed tag =>
      have pressed : likeButtonPressed tag s.newsFeed = some s'.newsFeed := step_newsFeed web action
      obtain ⟨news, likeCount, liked, here, _⟩ := likeButtonPressed_some pressed
      obtain ⟨bound, _⟩ := List.getElem?_eq_some_iff.mp here
      have other : tag ≠ i := by omega
      simpa [Event.taps] using other
  | _ => rfl

theorem run_post {s s' : NewsTableViewController} {events : List Event}
    (ran : run (step web) s events = some s') {i : Nat} {news : News}
    (here : s.newsFeed[i]? = some news) {likes : Likes} (shows : Shows news likes) :
    ∃ news', s'.newsFeed[i]? = some news' ∧ constant news' = constant news ∧
      Shows news' (Likes.tap^[events.countP (Event.taps i)] likes) := by
  induction events generalizing s news likes with
  | nil =>
      simp only [run_nil, Option.some.injEq] at ran
      subst ran
      exact ⟨news, here, rfl, shows⟩
  | cons event events ih =>
      obtain ⟨t, action, rest⟩ := Option.bind_eq_some_iff.mp ran
      obtain ⟨next, here, same, shows⟩ := step_post web action here shows
      obtain ⟨last, here, later, shows⟩ := ih rest here shows
      refine ⟨last, here, later.trans same, ?_⟩
      cases taps : event.taps i with
      | false => simpa [List.countP_cons, taps] using shows
      | true => simpa [List.countP_cons, taps, Function.iterate_succ_apply] using shows

theorem run_posted {s s' : NewsTableViewController} {events : List Event}
    (ran : run (step web) s events = some s') {n : Nat} {post : Post}
    (posted : (events.flatMap Event.posts)[n]? = some post) {likes : Likes}
    (sent : Sent post.item likes) :
    ∃ news, s'.newsFeed[s.newsFeed.length + n]? = some news ∧
      constant news = constant post.news ∧
      Shows news (Likes.tap^[events.countP (Event.taps (s.newsFeed.length + n))] likes) := by
  induction events generalizing s n with
  | nil => simp at posted
  | cons event events ih =>
      obtain ⟨t, action, rest⟩ := Option.bind_eq_some_iff.mp ran
      obtain ⟨length, appended⟩ := step_appends web action
      have untapped : event.taps (s.newsFeed.length + n) = false := taps_new web action (by omega)
      rw [List.countP_cons, untapped]
      rw [List.flatMap_cons, List.getElem?_append] at posted
      split at posted
      · have here : t.newsFeed[s.newsFeed.length + n]? = some post.news := by
          rw [← List.getElem?_drop, appended, List.getElem?_map, posted, Option.map_some]
        exact run_post web rest here (shows_news sent)
      · have index : t.newsFeed.length + (n - event.posts.length) = s.newsFeed.length + n := by
          omega
        have later := ih rest posted
        rw [index] at later
        exact later

theorem length_run {s s' : NewsTableViewController} {events : List Event}
    (ran : run (step web) s events = some s') :
    s'.newsFeed.length = s.newsFeed.length + (events.flatMap Event.posts).length := by
  induction events generalizing s with
  | nil =>
      simp only [run_nil, Option.some.injEq] at ran
      simp [ran]
  | cons event events ih =>
      obtain ⟨t, action, rest⟩ := Option.bind_eq_some_iff.mp ran
      rw [ih rest, (step_appends web action).1, List.flatMap_cons, List.length_append,
        Nat.add_assoc]

def sentEvents : (Nat → Option Nat) → List TableEvent → List Event
  | _, [] => []
  | tags, .biuldNewsFeed response :: events => .biuldNewsFeed response :: sentEvents tags events
  | tags, .avatarsPass :: events => .avatarsPass :: sentEvents tags events
  | tags, .photosPass :: events => .photosPass :: sentEvents tags events
  | tags, .cellForRowAt cell indexSection :: events =>
      sentEvents (Function.update tags cell (some indexSection)) events
  | tags, .likeButtonPressed cell :: events =>
      ((tags cell).map .likeButtonPressed).toList ++ sentEvents tags events

def tapsOn (indexSection : Nat) (table : NewsTable) (events : List TableEvent) : Nat :=
  (sentEvents table.likeButtonTags events).countP (Event.taps indexSection)

def TableEvent.posts : TableEvent → List Post
  | biuldNewsFeed response => pagePosts response
  | _ => []

def posts (events : List TableEvent) : List Post := events.flatMap TableEvent.posts

theorem send_some {table next : NewsTable} {event : Event}
    (sent : table.send web event = some next) :
    step web table.controller event = some next.controller ∧
      next.likeButtonTags = table.likeButtonTags := by
  obtain ⟨controller, action, eq⟩ := Option.bind_eq_some_iff.mp sent
  cases eq
  exact ⟨action, rfl⟩

theorem send_isSome_iff {table : NewsTable} {event : Event} :
    (table.send web event).isSome ↔ (step web table.controller event).isSome := by
  cases action : step web table.controller event <;> simp [NewsTable.send, action]

theorem tableStep_some {table next : NewsTable} {event : TableEvent}
    (action : tableStep web table event = some next) (events : List TableEvent) :
    ∃ sent, run (step web) table.controller sent = some next.controller ∧
      sentEvents table.likeButtonTags (event :: events) =
        sent ++ sentEvents next.likeButtonTags events ∧
      sent.flatMap Event.posts = event.posts := by
  have direct : ∀ e : Event, table.send web e = some next →
      run (step web) table.controller [e] = some next.controller ∧
        next.likeButtonTags = table.likeButtonTags := by
    intro e sent
    obtain ⟨moved, tags⟩ := send_some web sent
    exact ⟨by simp [moved], tags⟩
  cases event with
  | biuldNewsFeed response =>
      obtain ⟨ran, tags⟩ := direct _ action
      exact ⟨_, ran, by rw [tags]; rfl, by simp [Event.posts, TableEvent.posts]⟩
  | avatarsPass =>
      obtain ⟨ran, tags⟩ := direct _ action
      exact ⟨_, ran, by rw [tags]; rfl, rfl⟩
  | photosPass =>
      obtain ⟨ran, tags⟩ := direct _ action
      exact ⟨_, ran, by rw [tags]; rfl, rfl⟩
  | cellForRowAt cell indexSection =>
      obtain ⟨_, _, eq⟩ := Option.bind_eq_some_iff.mp action
      cases eq
      exact ⟨[], rfl, rfl, rfl⟩
  | likeButtonPressed cell =>
      obtain ⟨tag, tagged, action⟩ := Option.bind_eq_some_iff.mp action
      obtain ⟨ran, tags⟩ := direct _ action
      exact ⟨_, ran, by rw [tags, sentEvents, tagged]; rfl, rfl⟩

theorem run_table {table final : NewsTable} {events : List TableEvent}
    (ran : run (tableStep web) table events = some final) :
    run (step web) table.controller (sentEvents table.likeButtonTags events) =
        some final.controller ∧
      (sentEvents table.likeButtonTags events).flatMap Event.posts = posts events := by
  induction events generalizing table with
  | nil =>
      simp only [run_nil, Option.some.injEq] at ran
      subst ran
      exact ⟨rfl, rfl⟩
  | cons event events ih =>
      obtain ⟨next, action, rest⟩ := Option.bind_eq_some_iff.mp ran
      obtain ⟨sent, moved, split, same⟩ := tableStep_some web action events
      obtain ⟨later, others⟩ := ih rest
      rw [split, run_append, moved, Option.bind_some, List.flatMap_append, same, others]
      exact ⟨later, rfl⟩

theorem tag_kept {table final : NewsTable} {cell : Nat} {events : List TableEvent}
    (ran : run (tableStep web) table events = some final)
    (kept : ∀ i, .cellForRowAt cell i ∉ events) :
    final.likeButtonTags cell = table.likeButtonTags cell := by
  induction events generalizing table with
  | nil =>
      simp only [run_nil, Option.some.injEq] at ran
      rw [ran]
  | cons event events ih =>
      obtain ⟨next, action, rest⟩ := Option.bind_eq_some_iff.mp ran
      rw [ih rest fun i member => kept i (List.mem_cons_of_mem _ member)]
      cases event with
      | cellForRowAt other indexSection =>
          obtain ⟨_, _, eq⟩ := Option.bind_eq_some_iff.mp action
          cases eq
          have different : cell ≠ other := by
            intro same
            exact kept indexSection (same ▸ List.mem_cons_self)
          exact Function.update_of_ne different _ _
      | likeButtonPressed other =>
          obtain ⟨tag, _, action⟩ := Option.bind_eq_some_iff.mp action
          rw [(send_some web action).2]
      | biuldNewsFeed response => rw [(send_some web action).2]
      | avatarsPass => rw [(send_some web action).2]
      | photosPass => rw [(send_some web action).2]

def Tagged (table : NewsTable) : Prop :=
  ∀ cell i, table.likeButtonTags cell = some i → i < table.controller.newsFeed.length

theorem tagged_send {table next : NewsTable} {event : Event} (tagged : Tagged table)
    (sent : table.send web event = some next) : Tagged next := by
  obtain ⟨action, tags⟩ := send_some web sent
  intro cell i tag
  rw [tags] at tag
  have bound := tagged cell i tag
  have length := (step_appends web action).1
  omega

theorem tagged_step {table next : NewsTable} {event : TableEvent} (tagged : Tagged table)
    (action : tableStep web table event = some next) : Tagged next := by
  cases event with
  | cellForRowAt cell indexSection =>
      obtain ⟨news, here, eq⟩ := Option.bind_eq_some_iff.mp action
      cases eq
      obtain ⟨bound, _⟩ := List.getElem?_eq_some_iff.mp here
      intro other i tag
      by_cases same : other = cell
      · subst same
        simp only [Function.update_self, Option.some.injEq] at tag
        exact tag ▸ bound
      · exact tagged other i (by simpa [Function.update_of_ne same] using tag)
  | likeButtonPressed cell =>
      obtain ⟨tag, _, action⟩ := Option.bind_eq_some_iff.mp action
      exact tagged_send web tagged action
  | biuldNewsFeed response => exact tagged_send web tagged action
  | avatarsPass => exact tagged_send web tagged action
  | photosPass => exact tagged_send web tagged action

def PostItem.HasLikes (item : PostItem) : Prop :=
  ∃ count userLikes, item.likes.bind PostLikes.count = some count ∧
    item.likes.bind PostLikes.user_likes = some userLikes ∧ (userLikes = 0 ∨ userLikes = 1)

theorem exists_sent {item : PostItem} (hasLikes : item.HasLikes) : ∃ likes, Sent item likes := by
  obtain ⟨count, userLikes, counted, state, bit⟩ := hasLikes
  cases bit with
  | inl unliked =>
      subst unliked
      exact ⟨⟨count, false⟩, counted, state⟩
  | inr liked =>
      subst liked
      exact ⟨⟨count, true⟩, counted, state⟩

/-- A run of the table in which no counter has left the range of `Int`. -/
structure LikesRun where
  events : List TableEvent
  final : NewsTable
  ran : run (tableStep web) {} events = some final
  hasLikes : ∀ response, .biuldNewsFeed response ∈ events →
    ∀ item ∈ response.items.getD [], item.HasLikes

def Balanced (item : PostItem) (news : News) : Prop :=
  ∃ count userLikes likeCount liked, item.likes.bind PostLikes.count = some count ∧
    item.likes.bind PostLikes.user_likes = some userLikes ∧ news.likeCount = some likeCount ∧
    news.liked = some liked ∧ (liked = 0 ∨ liked = 1) ∧ likeCount - liked = count - userLikes

structure TapsShown (shown waiting : List TableEvent) (cell i : Nat) (before next : NewsTable) :
    Prop where
  same : ∃ post, (posts shown)[i]? = some post ∧ (posts (shown ++ waiting))[i]? = some post
  tag : before.likeButtonTags cell = some i
  others : ∀ j ≠ i, next.controller.newsFeed[j]? = before.controller.newsFeed[j]?

structure LikesBalanced (likesRun : LikesRun web) : Prop where
  length : likesRun.final.controller.newsFeed.length = (posts likesRun.events).length
  balanced : ∀ (i : Nat) (post : Post), (posts likesRun.events)[i]? = some post →
    ∃ news, likesRun.final.controller.newsFeed[i]? = some news ∧
      constant news = constant post.news ∧ Balanced post.item news
  restored : ∀ before after, likesRun.events = before ++ after →
    ∃ table, run (tableStep web) {} before = some table ∧
      ∀ i news, table.controller.newsFeed[i]? = some news → Even (tapsOn i table after) →
        ∃ news', likesRun.final.controller.newsFeed[i]? = some news' ∧
          news'.likeCount = news.likeCount ∧ news'.liked = news.liked
  tapped : ∀ shown cell i waiting after,
    likesRun.events =
      shown ++ .cellForRowAt cell i :: (waiting ++ .likeButtonPressed cell :: after) →
    (∀ j, .cellForRowAt cell j ∉ waiting) →
      ∃ before next, run (tableStep web) {} (shown ++ .cellForRowAt cell i :: waiting) =
          some before ∧ tableStep web before (.likeButtonPressed cell) = some next ∧
        TapsShown shown (.cellForRowAt cell i :: waiting) cell i before next
  traps : ∀ cell i, likesRun.final.likeButtonTags cell = some i →
    ∃ news likeCount liked, likesRun.final.controller.newsFeed[i]? = some news ∧
      news.likeCount = some likeCount ∧ news.liked = some liked ∧
      ((tableStep web likesRun.final (.likeButtonPressed cell)).isSome ↔
        (checked (if liked = 1 then likeCount - 1 else likeCount + 1)).isSome)

variable {web}

theorem LikesRun.split (likesRun : LikesRun web) {before after : List TableEvent}
    (eq : likesRun.events = before ++ after) :
    ∃ earlier : LikesRun web, earlier.events = before ∧
      run (tableStep web) earlier.final after = some likesRun.final := by
  have ran := likesRun.ran
  rw [eq, run_append] at ran
  obtain ⟨table, first, rest⟩ := Option.bind_eq_some_iff.mp ran
  refine ⟨⟨before, table, first, ?_⟩, rfl, rest⟩
  intro response member
  exact likesRun.hasLikes response (eq ▸ List.mem_append_left _ member)

theorem LikesRun.feed (likesRun : LikesRun web) :
    likesRun.final.controller.newsFeed.length = (posts likesRun.events).length := by
  obtain ⟨ran, same⟩ := run_table web likesRun.ran
  rw [length_run web ran, same]
  exact Nat.zero_add _

theorem LikesRun.post_hasLikes (likesRun : LikesRun web) {post : Post}
    (member : post ∈ posts likesRun.events) : post.item.HasLikes := by
  obtain ⟨event, listed, member⟩ := List.mem_flatMap.mp member
  cases event with
  | biuldNewsFeed response =>
      obtain ⟨item, sent, rfl⟩ := List.mem_map.mp member
      exact likesRun.hasLikes response listed item sent
  | _ => cases member

theorem LikesRun.shows (likesRun : LikesRun web) {i : Nat} {post : Post}
    (posted : (posts likesRun.events)[i]? = some post) :
    ∃ news likes n, likesRun.final.controller.newsFeed[i]? = some news ∧
      constant news = constant post.news ∧ Sent post.item likes ∧
        Shows news (Likes.tap^[n] likes) := by
  obtain ⟨likes, sent⟩ := exists_sent (likesRun.post_hasLikes (List.mem_of_getElem? posted))
  obtain ⟨ran, same⟩ := run_table web likesRun.ran
  rw [← same] at posted
  obtain ⟨news, here, fixed, shows⟩ := run_posted web ran posted sent
  have first : ({} : NewsTable).controller.newsFeed.length + i = i := Nat.zero_add i
  rw [first] at here
  exact ⟨news, likes, _, here, fixed, sent, shows⟩

theorem LikesRun.shows_news (likesRun : LikesRun web) {i : Nat} {news : News}
    (here : likesRun.final.controller.newsFeed[i]? = some news) : ∃ likes, Shows news likes := by
  obtain ⟨bound, _⟩ := List.getElem?_eq_some_iff.mp here
  rw [likesRun.feed] at bound
  obtain ⟨news', likes, n, here', _, _, shows⟩ := likesRun.shows (List.getElem?_eq_getElem bound)
  rw [here, Option.some.injEq] at here'
  exact ⟨_, here' ▸ shows⟩

theorem LikesRun.balanced (likesRun : LikesRun web) {i : Nat} {post : Post}
    (posted : (posts likesRun.events)[i]? = some post) :
    ∃ news, likesRun.final.controller.newsFeed[i]? = some news ∧
      constant news = constant post.news ∧ Balanced post.item news := by
  obtain ⟨news, likes, n, here, fixed, sent, shows⟩ := likesRun.shows posted
  refine ⟨news, here, fixed, likes.count, likes.userLikes, _, _, sent.count, sent.user_likes,
    shows.likeCount, shows.liked, Likes.userLikes_cases _, Likes.balance_iterate n likes⟩

theorem LikesRun.restored (likesRun : LikesRun web) {before after : List TableEvent}
    (eq : likesRun.events = before ++ after) :
    ∃ table, run (tableStep web) {} before = some table ∧
      ∀ i news, table.controller.newsFeed[i]? = some news → Even (tapsOn i table after) →
        ∃ news', likesRun.final.controller.newsFeed[i]? = some news' ∧
          news'.likeCount = news.likeCount ∧ news'.liked = news.liked := by
  obtain ⟨earlier, rfl, rest⟩ := likesRun.split eq
  refine ⟨earlier.final, earlier.ran, ?_⟩
  intro i news here even
  obtain ⟨likes, shows⟩ := earlier.shows_news here
  obtain ⟨news', here', _, shows'⟩ := run_post web (run_table web rest).1 here shows
  have twice : Likes.tap^[(sentEvents earlier.final.likeButtonTags after).countP (Event.taps i)] =
      id := Likes.tap_involutive.iterate_even even
  rw [twice, id] at shows'
  exact ⟨news', here', shows'.likeCount.trans shows.likeCount.symm,
    shows'.liked.trans shows.liked.symm⟩

theorem LikesRun.tapped (likesRun : LikesRun web) {shown waiting after : List TableEvent}
    {cell i : Nat} (eq : likesRun.events =
      shown ++ .cellForRowAt cell i :: (waiting ++ .likeButtonPressed cell :: after))
    (kept : ∀ j, .cellForRowAt cell j ∉ waiting) :
    ∃ before next, run (tableStep web) {} (shown ++ .cellForRowAt cell i :: waiting) =
        some before ∧ tableStep web before (.likeButtonPressed cell) = some next ∧
      TapsShown shown (.cellForRowAt cell i :: waiting) cell i before next := by
  obtain ⟨first, rfl, rest⟩ := likesRun.split eq
  rw [run_cons, Option.bind_eq_some_iff] at rest
  obtain ⟨configured, configuration, rest⟩ := rest
  rw [run_append, Option.bind_eq_some_iff] at rest
  obtain ⟨before, waited, rest⟩ := rest
  obtain ⟨next, tap, _⟩ := Option.bind_eq_some_iff.mp rest
  have ran : run (tableStep web) {} (first.events ++ .cellForRowAt cell i :: waiting) =
      some before := by
    rw [run_append, first.ran, Option.bind_some, run_cons, configuration, Option.bind_some, waited]
  obtain ⟨_, displayed, tagged⟩ := Option.bind_eq_some_iff.mp configuration
  cases tagged
  have tag : before.likeButtonTags cell = some i := by
    rw [tag_kept web waited kept]
    exact Function.update_self cell (some i) first.final.likeButtonTags
  obtain ⟨bound, _⟩ := List.getElem?_eq_some_iff.mp displayed
  rw [first.feed] at bound
  refine ⟨before, next, ran, tap, ?_, tag, ?_⟩
  · refine ⟨_, List.getElem?_eq_getElem bound, ?_⟩
    rw [posts, List.flatMap_append, ← posts, List.getElem?_append_left bound,
      List.getElem?_eq_getElem bound]
  · intro j other
    simp only [tableStep, tag, Option.bind_eq_bind, Option.bind_some] at tap
    exact step_tap_other web (send_some web tap).1 other

theorem LikesRun.traps (likesRun : LikesRun web) {cell i : Nat}
    (tag : likesRun.final.likeButtonTags cell = some i) :
    ∃ news likeCount liked, likesRun.final.controller.newsFeed[i]? = some news ∧
      news.likeCount = some likeCount ∧ news.liked = some liked ∧
      ((tableStep web likesRun.final (.likeButtonPressed cell)).isSome ↔
        (checked (if liked = 1 then likeCount - 1 else likeCount + 1)).isSome) := by
  have tagged : Tagged likesRun.final :=
    run_invariant (fun _ _ _ => tagged_step web) (fun _ _ none => by cases none) likesRun.ran
  have here := List.getElem?_eq_getElem (tagged cell i tag)
  obtain ⟨⟨count, liked⟩, shows⟩ := likesRun.shows_news here
  refine ⟨_, _, _, here, shows.likeCount, shows.liked, ?_⟩
  have pressed := step_tap_isSome_iff web here shows
  simp only [tableStep, tag, Option.bind_eq_bind, Option.bind_some]
  rw [send_isSome_iff, pressed]
  cases liked <;> rfl

theorem likes_stay_balanced (likesRun : LikesRun web) : LikesBalanced web likesRun where
  length := likesRun.feed
  balanced _ _ posted := likesRun.balanced posted
  restored _ _ eq := likesRun.restored eq
  tapped _ _ _ _ _ eq kept := likesRun.tapped eq kept
  traps _ _ tag := likesRun.traps tag

def likedPage (count : Int) : PostResponse where
  items := some [{
    source_id := some 1
    likes := some { count := some count, user_likes := some 0 } }]

def noPictures : Web := ⟨fun _ => false, fun _ => none⟩

def tapAfterPage : List TableEvent :=
  [.biuldNewsFeed (likedPage 3), .cellForRowAt 4 0, .biuldNewsFeed (likedPage 8), .avatarsPass,
    .likeButtonPressed 4]

def tappedFeed : LikesRun noPictures where
  events := tapAfterPage
  final := (run (tableStep noPictures) {} tapAfterPage).getD {}
  ran := rfl
  hasLikes response member item listed := by
    simp only [tapAfterPage, List.mem_cons, TableEvent.biuldNewsFeed.injEq, reduceCtorEq, false_or,
      List.not_mem_nil, or_false] at member
    obtain rfl | rfl := member
    · simp only [likedPage, Option.getD_some, List.mem_singleton] at listed
      exact ⟨3, 0, listed ▸ rfl, listed ▸ rfl, Or.inl rfl⟩
    · simp only [likedPage, Option.getD_some, List.mem_singleton] at listed
      exact ⟨8, 0, listed ▸ rfl, listed ▸ rfl, Or.inl rfl⟩

theorem tap_after_page_balanced :
    tappedFeed.final.controller.newsFeed.map (fun news => (news.likeCount, news.liked)) =
        [(some 4, some 1), (some 8, some 0)] ∧
      LikesBalanced noPictures tappedFeed :=
  ⟨by decide, likes_stay_balanced tappedFeed⟩

end SocialApp.Newsfeed
