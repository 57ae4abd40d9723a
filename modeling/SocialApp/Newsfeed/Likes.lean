import SocialApp.Newsfeed.Screen

/-!
# From an accepted body to taps on the like buttons

Every property of a post is optional for the decoder. The builder needs the source of each post,
a like button the counter of its post, and neither may overflow; a tap turns the counter back, so
that only the first tap on a section can trap.
-/

namespace SocialApp.Newsfeed
open Foundation Library Machine

/-- The completion handler of `newsfeedGet`. -/
def downloadNews (response : Option PostResponse) (screen : NewsTableViewController) :
    Option NewsTableViewController :=
  match response with
  | none => some screen
  | some response =>
      match response.items with
      | none => some screen
      | some _ => biuldNewsFeed response screen

structure AcceptedPosts where
  body : Json
  data : PostData
  accepted : decoding body = some data
  items : List PostItem
  present : data.response.items = some items

variable (web : Web)

/-- The page of the body, then taps on sections of its feed. -/
def outcome (posts : AcceptedPosts) (taps : List (Fin posts.items.length)) :
    Option NewsTableViewController :=
  (downloadNews (some posts.data.response) {}).bind fun screen =>
    run (step web) screen ((taps.map Fin.val).map .likeButtonPressed)

def PostItem.Likeable (item : PostItem) : Prop :=
  ∃ likes count, item.likes = some likes ∧ likes.count = some count ∧
    if likes.user_likes = some 1 then intMin < count else count < intMax

def Tappable (news : News) : Prop :=
  ∃ count, news.likeCount = some count ∧
    if 1 = news.liked.getD 0 then intMin < count else count < intMax

theorem checked_pred {count : Int} (fits : intMin ≤ count ∧ count ≤ intMax) :
    checked (count - 1) = if intMin < count then some (count - 1) else none := by
  have bounds : (intMin ≤ count - 1 ∧ count - 1 ≤ intMax) ↔ intMin < count := by omega
  simp only [checked, bounds]

theorem checked_succ {count : Int} (fits : intMin ≤ count ∧ count ≤ intMax) :
    checked (count + 1) = if count < intMax then some (count + 1) else none := by
  have bounds : (intMin ≤ count + 1 ∧ count + 1 ≤ intMax) ↔ count < intMax := by omega
  simp only [checked, bounds]

def liked (news : News) (count : Int) : News :=
  if 1 = news.liked.getD 0 then { news with likeCount := some (count - 1), liked := some 0 }
  else { news with likeCount := some (count + 1), liked := some 1 }

theorem likeButtonPressed_eq {tag : Nat} {newsFeed : List News} {news : News}
    (here : newsFeed[tag]? = some news) {count : Int} (counted : news.likeCount = some count)
    (fits : intMin ≤ count ∧ count ≤ intMax) :
    likeButtonPressed tag newsFeed =
      if (if 1 = news.liked.getD 0 then intMin < count else count < intMax) then
        some (newsFeed.set tag (liked news count))
      else none := by
  simp only [likeButtonPressed, here, counted, Option.bind_eq_bind, Option.bind_some,
    checked_pred fits, checked_succ fits, liked, Option.pure_def]
  split
  · split <;> rfl
  · split <;> rfl

theorem liked_tappable {news : News} {count : Int} (fits : intMin ≤ count ∧ count ≤ intMax)
    (room : if 1 = news.liked.getD 0 then intMin < count else count < intMax) :
    Tappable (liked news count) ∧ Fits (liked news count).likeCount := by
  unfold liked
  split at room
  · rename_i was
    rw [if_pos was]
    refine ⟨⟨count - 1, rfl, ?_⟩, ?_⟩
    · show count - 1 < intMax
      omega
    · intro n eq
      cases eq
      omega
  · rename_i was
    rw [if_neg was]
    refine ⟨⟨count + 1, rfl, ?_⟩, ?_⟩
    · show intMin < count + 1
      omega
    · intro n eq
      cases eq
      omega

def Counted (newsFeed : List News) : Prop := ∀ news ∈ newsFeed, Fits news.likeCount

theorem likeButtonPressed_isSome_iff {newsFeed : List News} (counted : Counted newsFeed)
    {tag : Nat} :
    (likeButtonPressed tag newsFeed).isSome ↔
      ∃ news, newsFeed[tag]? = some news ∧ Tappable news := by
  cases here : newsFeed[tag]? with
  | none => simp [likeButtonPressed, here]
  | some news =>
      cases count : news.likeCount with
      | none => simp [likeButtonPressed, here, count, Tappable]
      | some n =>
          have fits := counted news (List.mem_of_getElem? here) n count
          rw [likeButtonPressed_eq here count fits]
          simp only [Tappable, Option.some.injEq, exists_eq_left', count]
          by_cases room : if 1 = news.liked.getD 0 then intMin < n else n < intMax
          · simp [room]
          · simp [room]

theorem likeButtonPressed_tappable {newsFeed next : List News} (counted : Counted newsFeed) {tag : Nat}
    (pressed : likeButtonPressed tag newsFeed = some next) :
    ∃ changed, Tappable changed ∧ Fits changed.likeCount ∧ tag < newsFeed.length ∧
      next = newsFeed.set tag changed := by
  obtain ⟨news, here, n, count, room⟩ :=
    (likeButtonPressed_isSome_iff counted).mp (Option.isSome_of_eq_some pressed)
  have fits := counted news (List.mem_of_getElem? here) n count
  rw [likeButtonPressed_eq here count fits, if_pos room, Option.some_inj] at pressed
  obtain ⟨bound, _⟩ := List.getElem?_eq_some_iff.mp here
  obtain ⟨tappable, still⟩ := liked_tappable fits room
  exact ⟨liked news n, tappable, still, bound, pressed.symm⟩

theorem counted_set {newsFeed : List News} (counted : Counted newsFeed) {changed : News}
    (fits : Fits changed.likeCount) (tag : Nat) : Counted (newsFeed.set tag changed) := by
  intro news member
  obtain old | rfl := List.mem_or_eq_of_mem_set member
  · exact counted news old
  · exact fits

theorem tappable_set_iff {newsFeed : List News} {tag : Nat} {changed : News}
    (before : ∃ news, newsFeed[tag]? = some news ∧ Tappable news) (tappable : Tappable changed)
    (bound : tag < newsFeed.length) (other : Nat) :
    (∃ news, (newsFeed.set tag changed)[other]? = some news ∧ Tappable news) ↔
      ∃ news, newsFeed[other]? = some news ∧ Tappable news := by
  by_cases here : other = tag
  · subst here
    have now : (newsFeed.set other changed)[other]? = some changed := by simp [bound]
    exact iff_of_true ⟨changed, now, tappable⟩ before
  · rw [List.getElem?_set_ne (Ne.symm here)]

theorem run_taps_isSome_iff {screen : NewsTableViewController} (counted : Counted screen.newsFeed)
    (taps : List Nat) :
    (run (step web) screen (taps.map .likeButtonPressed)).isSome ↔
      ∀ tag ∈ taps, ∃ news, screen.newsFeed[tag]? = some news ∧ Tappable news := by
  induction taps generalizing screen with
  | nil => simp
  | cons tag taps ih =>
      have first : (likeButtonPressed tag screen.newsFeed).isSome ↔ _ :=
        likeButtonPressed_isSome_iff counted
      cases pressed : likeButtonPressed tag screen.newsFeed with
      | none =>
          simp only [pressed, Option.isSome_none, Bool.false_eq_true, false_iff] at first
          simp [step, pressed, first]
      | some next =>
          simp only [pressed, Option.isSome_some, true_iff] at first
          obtain ⟨changed, tappable, fits, bound, rfl⟩ := likeButtonPressed_tappable counted pressed
          have rest := @ih { screen with newsFeed := screen.newsFeed.set tag changed }
            (counted_set counted fits tag)
          simp only [tappable_set_iff first tappable bound] at rest
          simp [step, pressed, first, rest]

theorem translatedItem_tappable_iff {response : PostResponse} {item : PostItem} :
    Tappable (translatedItem response item) ↔ item.Likeable := by
  cases present : item.likes with
  | none => simp [Tappable, PostItem.Likeable, translatedItem, translated, present]
  | some likes =>
      have state : (1 = likes.user_likes.getD 0) ↔ likes.user_likes = some 1 := by
        cases likes.user_likes <;> simp [eq_comm]
      simp [Tappable, PostItem.Likeable, translatedItem, translated, present, state]

theorem built_counted (posts : AcceptedPosts) :
    Counted (posts.items.map (translatedItem posts.data.response)) := by
  intro news member
  obtain ⟨item, listed, rfl⟩ := List.mem_map.mp member
  intro n count
  obtain ⟨likes, present, count⟩ := Option.bind_eq_some_iff.mp count
  exact (items_inRange posts.accepted posts.present item listed).likes likes present n count

theorem outcome_isSome_iff (posts : AcceptedPosts) (taps : List (Fin posts.items.length)) :
    (outcome web posts taps).isSome ↔
      (∀ item ∈ posts.items, item.Sourced posts.data.response) ∧
        ∀ tag ∈ taps, posts.items[tag].Likeable := by
  by_cases sourced : ∀ item ∈ posts.items, item.Sourced posts.data.response
  · have built : buildNewsFeed ⟨[]⟩ posts.data.response =
        some (⟨posts.items.map (translatedItem posts.data.response)⟩,
          posts.items.map (translatedItem posts.data.response)) :=
      buildNewsFeed_some_iff.mpr ⟨posts.items, posts.present, sourced, rfl, rfl⟩
    simp only [outcome, downloadNews, posts.present, biuldNewsFeed, built, Option.bind_eq_bind,
      Option.bind_some, Option.pure_def]
    rw [run_taps_isSome_iff web (built_counted posts)]
    simp only [List.forall_mem_map, List.getElem?_map, Fin.getElem_fin,
      List.getElem?_eq_getElem, Fin.is_lt, Option.map_some, Option.some.injEq, exists_eq_left',
      translatedItem_tappable_iff]
    exact (and_iff_right sourced).symm
  · have stuck : buildNewsFeed ⟨[]⟩ posts.data.response = none := by
      rw [← Option.not_isSome_iff_eq_none]
      intro built
      obtain ⟨⟨next, newsFeed⟩, built⟩ := Option.isSome_iff_exists.mp built
      obtain ⟨items, present, all, _⟩ := buildNewsFeed_some_iff.mp built
      rw [posts.present, Option.some_inj] at present
      exact sourced (present ▸ all)
    simp [outcome, downloadNews, posts.present, biuldNewsFeed, stuck, sourced]

def postWithoutKeys : AcceptedPosts where
  body := .object [("response", .object [("items", .array [.object []])])]
  data := ⟨{ items := some [{}] }⟩
  accepted := by rfl
  items := [{}]
  present := rfl

def postWithoutLikes : AcceptedPosts where
  body := .object [("response", .object [("items", .array [.object [("source_id", .number 1)]])])]
  data := ⟨{ items := some [{ source_id := some 1 }] }⟩
  accepted := by rfl
  items := [{ source_id := some 1 }]
  present := rfl

theorem accepted_posts_trap :
    ¬ (outcome ⟨fun _ => true, fun _ => none⟩ postWithoutKeys []).isSome ∧
      ¬ (outcome ⟨fun _ => true, fun _ => none⟩ postWithoutLikes [⟨0, by decide⟩]).isSome := by
  decide

end SocialApp.Newsfeed
