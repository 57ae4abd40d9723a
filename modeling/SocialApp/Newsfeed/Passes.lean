import Mathlib.Algebra.BigOperators.Group.List.Basic
import Mathlib.Algebra.Order.Group.Multiset
import Mathlib.Tactic.Abel
import SocialApp.Newsfeed.Media

/-!
# Download passes that overlap

Every page of the newsfeed starts a loop over the avatars and one over the photos, on global queues.
The loops walk the posts that the feed has when they start, one step after another, while other
loops, taps and pages come in between. When all loops have ended the feed is what it would be if
every loop had run at once when it started, up to the order of the photos of a post.
-/

namespace SocialApp.Newsfeed
open Foundation Library Machine Realm

/-- A running loop: the posts still to be visited, and for the photos the post it is at with the
URLs still to be loaded. A post keeps its section, since pages are appended. -/
inductive Pass
  | avatars (remaining : List Nat)
  | photos (visiting : Option (Nat × List String)) (remaining : List Nat)

structure OverlappingPasses where
  screen : NewsTableViewController := {}
  running : List Pass := []

inductive PassEvent
  | biuldNewsFeed (response : PostResponse)
  | likeButtonPressed (tag : Nat)
  | startAvatars
  | startPhotos
  | advance (index : Nat)

variable (web : Web)

def Pass.advance (newsFeed : List News) : Pass → Option (Pass × List News)
  | .avatars [] => none
  | .avatars (indexSection :: remaining) => do
      let news ← newsFeed[indexSection]?
      return (.avatars remaining, newsFeed.set indexSection (downloadAvatar web news))
  | .photos none [] => none
  | .photos none (indexSection :: remaining) => do
      let news ← newsFeed[indexSection]?
      return (.photos (some (indexSection, news.photosURL.getD [])) remaining, newsFeed)
  | .photos (some (indexSection, [])) remaining => do
      let news ← newsFeed[indexSection]?
      let _ ← news.author
      return (.photos none remaining, newsFeed)
  | .photos (some (indexSection, urlString :: urlStrings)) remaining => do
      let news ← newsFeed[indexSection]?
      return (.photos (some (indexSection, urlStrings)) remaining,
        newsFeed.set indexSection (appendPhoto web news urlString))

def OverlappingPasses.step : Machine OverlappingPasses PassEvent
  | state, .biuldNewsFeed response =>
      (biuldNewsFeed response state.screen).map fun screen => { state with screen }
  | state, .likeButtonPressed tag =>
      (likeButtonPressed tag state.screen.newsFeed).map fun newsFeed =>
        { state with screen := { state.screen with newsFeed } }
  | state, .startAvatars =>
      match state.screen.avatarPasses with
      | 0 => none
      | avatarPasses + 1 => some {
          screen := { state.screen with avatarPasses }
          running := state.running ++ [.avatars (List.range state.screen.newsFeed.length)] }
  | state, .startPhotos =>
      match state.screen.photosPasses with
      | 0 => none
      | photosPasses + 1 => some {
          screen := { state.screen with photosPasses }
          running := state.running ++ [.photos none (List.range state.screen.newsFeed.length)] }
  | state, .advance index => do
      let pass ← state.running[index]?
      let (pass, newsFeed) ← pass.advance web state.screen.newsFeed
      return {
        screen := { state.screen with newsFeed }
        running := state.running.set index pass }

/-! ## Specification -/

def Pass.Ended : Pass → Prop
  | avatars remaining => remaining = []
  | photos visiting remaining => visiting = none ∧ remaining = []

def PassEvent.event : PassEvent → Option Event
  | biuldNewsFeed response => some (.biuldNewsFeed response)
  | likeButtonPressed tag => some (.likeButtonPressed tag)
  | startAvatars => some .avatarsPass
  | startPhotos => some .photosPass
  | advance _ => none

def view (news : News) : News × Option (Multiset Data) :=
  ({ news with photos := none },
    news.photos.map fun photos : List Data => (photos : Multiset Data))

def prospect (avatar : Bool) (more : Multiset Data) (news : News) :
    News × Option (Multiset Data) :=
  ({ (if avatar then downloadAvatar web news else news) with photos := none },
    news.photos.map fun photos : List Data => (photos : Multiset Data) + more)

theorem prospect_nothing (news : News) : prospect web false 0 news = view news := by
  simp [prospect, view]

theorem prospect_downloadAvatar (avatar : Bool) (more : Multiset Data) (news : News) :
    prospect web avatar more (downloadAvatar web news) = prospect web true more news := by
  cases avatar <;> cases got : news.avatarURL.bind web.download <;>
    simp [prospect, downloadAvatar, got]

theorem downloadAvatar_prospect (avatar : Bool) (more : Multiset Data) (news : News) :
    (downloadAvatar web (prospect web avatar more news).1, (prospect web avatar more news).2) =
      prospect web true more news := by
  cases avatar <;> cases got : news.avatarURL.bind web.download <;>
    simp [prospect, downloadAvatar, got]

theorem prospect_appendPhoto (avatar : Bool) (more : Multiset Data) (news : News)
    (urlString : String) :
    prospect web avatar more (appendPhoto web news urlString) =
      prospect web avatar ((web.download urlString).toList + more) news := by
  cases photo : web.download urlString with
  | none => simp [appendPhoto, photo]
  | some data =>
      have added : ∀ photos : List Data,
          ((photos ++ [data] : List Data) : Multiset Data) + more = photos + ([data] + more) := by
        intro photos
        rw [← Multiset.coe_add, add_assoc]
      cases avatar <;> cases got : news.avatarURL.bind web.download <;>
        cases existing : news.photos <;>
          simp only [prospect, appendPhoto, downloadAvatar, photo, got, existing, Option.map_none,
            Option.map_some, Option.toList_some, added, if_true, if_false, Bool.false_eq_true]

theorem prospect_more (avatar : Bool) (more photos : Multiset Data) (news : News) :
    ((prospect web avatar more news).1, (prospect web avatar more news).2.map (· + photos)) =
      prospect web avatar (more + photos) news := by
  simp [prospect, Function.comp_def, add_assoc]

theorem prospect_likes (avatar : Bool) (more : Multiset Data) (news : News)
    (likeCount liked : Option Int) :
    prospect web avatar more { news with likeCount, liked } =
      ({ (prospect web avatar more news).1 with likeCount, liked },
        (prospect web avatar more news).2) := by
  cases avatar <;> cases got : news.avatarURL.bind web.download <;>
    simp [prospect, downloadAvatar, got]

namespace Pass

def awaitsAvatar (indexSection : Nat) : Pass → Bool
  | avatars remaining => indexSection ∈ remaining
  | photos _ _ => false

def awaitedPhotos (fetched : List Data) (indexSection : Nat) : Pass → Multiset Data
  | avatars _ => 0
  | photos visiting remaining =>
      (visiting.elim 0 fun here =>
        if here.1 = indexSection then (here.2.filterMap web.download : Multiset Data) else 0) +
      remaining.count indexSection • (fetched : Multiset Data)

def Within (length : Nat) : Pass → Prop
  | avatars remaining => ∀ indexSection ∈ remaining, indexSection < length
  | photos visiting remaining => (∀ here ∈ visiting, here.1 < length) ∧
      ∀ indexSection ∈ remaining, indexSection < length

end Pass

def settled (running : List Pass) (indexSection : Nat) (news : News) :
    News × Option (Multiset Data) :=
  prospect web (running.any (Pass.awaitsAvatar indexSection))
    (running.map (Pass.awaitedPhotos web (fetchedPhotos web news) indexSection)).sum news

theorem settled_of_within {running : List Pass} {length : Nat}
    (within : ∀ pass ∈ running, pass.Within length) {indexSection : Nat}
    (beyond : length ≤ indexSection) (news : News) :
    settled web running indexSection news = view news := by
  have avatar : running.any (Pass.awaitsAvatar indexSection) = false := by
    rw [List.any_eq_false]
    intro pass member
    have bounded := within pass member
    cases pass with
    | avatars remaining =>
        have absent : indexSection ∉ remaining := fun present =>
          Nat.not_lt.mpr beyond (bounded indexSection present)
        simpa [Pass.awaitsAvatar] using absent
    | photos visiting remaining => simp [Pass.awaitsAvatar]
  have more : (running.map (Pass.awaitedPhotos web (fetchedPhotos web news) indexSection)).sum =
      0 := by
    apply List.sum_eq_zero
    intro photos awaited
    obtain ⟨pass, member, rfl⟩ := List.mem_map.mp awaited
    have bounded := within pass member
    cases pass with
    | avatars remaining => rfl
    | photos visiting remaining =>
        obtain ⟨here, later⟩ := bounded
        have absent : remaining.count indexSection = 0 := List.count_eq_zero.mpr fun present =>
          Nat.not_lt.mpr beyond (later indexSection present)
        cases visiting with
        | none => simp [Pass.awaitedPhotos, absent]
        | some post =>
            have other : post.1 ≠ indexSection := by
              have inside := here post rfl
              omega
            simp [Pass.awaitedPhotos, absent, other]
  rw [settled, avatar, more, prospect_nothing]

theorem ended_within {pass : Pass} (ended : pass.Ended) : pass.Within 0 := by
  cases pass with
  | avatars remaining =>
      cases ended
      simp [Pass.Within]
  | photos visiting remaining =>
      obtain ⟨rfl, rfl⟩ := ended
      simp [Pass.Within]

theorem Pass.Within.mono {pass : Pass} {length longer : Nat} (within : pass.Within length)
    (grown : length ≤ longer) : pass.Within longer := by
  cases pass with
  | avatars remaining =>
      exact fun indexSection member => Nat.lt_of_lt_of_le (within indexSection member) grown
  | photos visiting remaining =>
      obtain ⟨here, later⟩ := within
      exact ⟨fun post present => Nat.lt_of_lt_of_le (here post present) grown,
        fun indexSection member => Nat.lt_of_lt_of_le (later indexSection member) grown⟩

inductive Pass.Moves (newsFeed : List News) : Pass → Pass → List News → Prop
  | avatar {indexSection : Nat} {remaining : List Nat} {news : News}
      (here : newsFeed[indexSection]? = some news) :
      Moves newsFeed (.avatars (indexSection :: remaining)) (.avatars remaining)
        (newsFeed.set indexSection (downloadAvatar web news))
  | visit {indexSection : Nat} {remaining : List Nat} {news : News}
      (here : newsFeed[indexSection]? = some news) :
      Moves newsFeed (.photos none (indexSection :: remaining))
        (.photos (some (indexSection, news.photosURL.getD [])) remaining) newsFeed
  | photo {indexSection : Nat} {urlString : String} {urlStrings : List String}
      {remaining : List Nat} {news : News} (here : newsFeed[indexSection]? = some news) :
      Moves newsFeed (.photos (some (indexSection, urlString :: urlStrings)) remaining)
        (.photos (some (indexSection, urlStrings)) remaining)
        (newsFeed.set indexSection (appendPhoto web news urlString))
  | leave {indexSection : Nat} {remaining : List Nat} :
      Moves newsFeed (.photos (some (indexSection, [])) remaining) (.photos none remaining) newsFeed

theorem moves_of_advance {pass next : Pass} {newsFeed later : List News}
    (advanced : pass.advance web newsFeed = some (next, later)) :
    Pass.Moves web newsFeed pass next later := by
  cases pass with
  | avatars remaining =>
      cases remaining with
      | nil => cases advanced
      | cons indexSection remaining =>
          obtain ⟨news, here, advanced⟩ := Option.bind_eq_some_iff.mp advanced
          cases advanced
          exact .avatar here
  | photos visiting remaining =>
      cases visiting with
      | none =>
          cases remaining with
          | nil => cases advanced
          | cons indexSection remaining =>
              obtain ⟨news, here, advanced⟩ := Option.bind_eq_some_iff.mp advanced
              cases advanced
              exact .visit here
      | some post =>
          obtain ⟨indexSection, urlStrings⟩ := post
          cases urlStrings with
          | nil =>
              obtain ⟨_, _, advanced⟩ := Option.bind_eq_some_iff.mp advanced
              obtain ⟨_, _, advanced⟩ := Option.bind_eq_some_iff.mp advanced
              cases advanced
              exact .leave
          | cons urlString urlStrings =>
              obtain ⟨news, here, advanced⟩ := Option.bind_eq_some_iff.mp advanced
              cases advanced
              exact .photo here

theorem settled_split (before after : List Pass) (pass : Pass) (indexSection : Nat) :
    settled web (before ++ pass :: after) indexSection = fun news =>
      prospect web ((before ++ after).any (Pass.awaitsAvatar indexSection) ||
          pass.awaitsAvatar indexSection)
        (((before ++ after).map
            (Pass.awaitedPhotos web (fetchedPhotos web news) indexSection)).sum +
          pass.awaitedPhotos web (fetchedPhotos web news) indexSection) news := by
  funext news
  rw [settled]
  congr 1
  · simp only [List.any_append, List.any_cons]
    cases before.any (Pass.awaitsAvatar indexSection) <;>
      cases pass.awaitsAvatar indexSection <;> simp
  · simp only [List.map_append, List.map_cons, List.sum_append, List.sum_cons]
    abel

theorem fetchedPhotos_downloadAvatar (news : News) :
    fetchedPhotos web (downloadAvatar web news) = fetchedPhotos web news := by
  cases got : news.avatarURL.bind web.download <;> simp [fetchedPhotos, downloadAvatar, got]

theorem fetchedPhotos_appendPhoto (news : News) (urlString : String) :
    fetchedPhotos web (appendPhoto web news urlString) = fetchedPhotos web news := by
  cases photo : web.download urlString <;> simp [fetchedPhotos, appendPhoto, photo]

theorem filterMap_cons_coe (urlString : String) (urlStrings : List String) :
    ((urlString :: urlStrings).filterMap web.download : Multiset Data) =
      (web.download urlString).toList + urlStrings.filterMap web.download := by
  cases photo : web.download urlString <;> simp [photo]

theorem settled_moves {pass next : Pass} {newsFeed later : List News}
    (moves : pass.Moves web newsFeed next later) (before after : List Pass) (indexSection : Nat) :
    (later[indexSection]?).map (settled web (before ++ next :: after) indexSection) =
      (newsFeed[indexSection]?).map (settled web (before ++ pass :: after) indexSection) := by
  simp only [settled_split]
  cases moves with
  | @avatar visited remaining news here =>
      have inside := (List.getElem?_eq_some_iff.mp here).1
      by_cases own : visited = indexSection
      · subst own
        rw [List.getElem?_set_self inside, here]
        simp [Pass.awaitsAvatar, Pass.awaitedPhotos, prospect_downloadAvatar,
          fetchedPhotos_downloadAvatar]
      · simp [List.getElem?_set_ne own, Pass.awaitsAvatar, Pass.awaitedPhotos, Ne.symm own]
  | @visit visited remaining news here =>
      by_cases own : visited = indexSection
      · subst own
        simp [here, Pass.awaitsAvatar, Pass.awaitedPhotos, fetchedPhotos, succ_nsmul', add_comm]
      · simp [Pass.awaitsAvatar, Pass.awaitedPhotos, own]
  | @photo visited urlString urlStrings remaining news here =>
      have inside := (List.getElem?_eq_some_iff.mp here).1
      by_cases own : visited = indexSection
      · subst own
        rw [List.getElem?_set_self inside, here]
        simp only [Option.map_some, Pass.awaitsAvatar, Pass.awaitedPhotos,
          prospect_appendPhoto, fetchedPhotos_appendPhoto, Option.elim_some, if_true]
        rw [filterMap_cons_coe, add_left_comm, add_assoc]
      · simp [List.getElem?_set_ne own, Pass.awaitsAvatar, Pass.awaitedPhotos, own]
  | leave => simp [Pass.awaitsAvatar, Pass.awaitedPhotos]

theorem within_moves {pass next : Pass} {newsFeed later : List News} {length : Nat}
    (moves : pass.Moves web newsFeed next later) (within : pass.Within length) :
    next.Within length ∧ later.length = newsFeed.length := by
  cases moves with
  | avatar here => exact ⟨(List.forall_mem_cons.mp within).2, List.length_set⟩
  | visit here =>
      obtain ⟨first, rest⟩ := List.forall_mem_cons.mp within.2
      exact ⟨⟨by simpa using first, rest⟩, rfl⟩
  | @photo visited urlString urlStrings remaining news here =>
      have inside : visited < length := within.1 _ rfl
      exact ⟨⟨by simpa using inside, within.2⟩, List.length_set⟩
  | leave => exact ⟨⟨by simp, within.2⟩, rfl⟩

structure Follows (state : OverlappingPasses) (screen : NewsTableViewController) : Prop where
  avatarPasses : screen.avatarPasses = state.screen.avatarPasses
  photosPasses : screen.photosPasses = state.screen.photosPasses
  length : state.screen.newsFeed.length = screen.newsFeed.length
  feed : ∀ indexSection, (state.screen.newsFeed[indexSection]?).map
    (settled web state.running indexSection) = (screen.newsFeed[indexSection]?).map view
  within : ∀ pass ∈ state.running, pass.Within state.screen.newsFeed.length
  authored : ∀ news ∈ screen.newsFeed, news.author.isSome

theorem exists_split_of_getElem? {α : Type} {l : List α} {i : Nat} {a : α} (here : l[i]? = some a) :
    ∃ before after, l = before ++ a :: after ∧ ∀ b, l.set i b = before ++ b :: after := by
  induction l generalizing i with
  | nil => cases here
  | cons c l ih =>
      cases i with
      | zero =>
          cases here
          exact ⟨[], l, rfl, fun _ => rfl⟩
      | succ i =>
          obtain ⟨before, after, split, replaced⟩ := ih here
          refine ⟨c :: before, after, by rw [split, List.cons_append], fun b => ?_⟩
          rw [List.set_cons_succ, replaced, List.cons_append]

theorem Follows.advance {state next : OverlappingPasses} {screen : NewsTableViewController}
    {index : Nat} (follows : Follows web state screen)
    (action : OverlappingPasses.step web state (.advance index) = some next) :
    Follows web next screen := by
  obtain ⟨pass, here, action⟩ := Option.bind_eq_some_iff.mp action
  obtain ⟨⟨moved, newsFeed⟩, advanced, action⟩ := Option.bind_eq_some_iff.mp action
  cases action
  obtain ⟨before, after, split, replaced⟩ := exists_split_of_getElem? here
  have bounded := follows.within pass (List.mem_of_getElem? here)
  have moves := moves_of_advance web advanced
  obtain ⟨within, same⟩ := within_moves web moves bounded
  refine { follows with length := same.trans follows.length, feed := ?_, within := ?_ }
  · intro indexSection
    rw [replaced, settled_moves web moves, ← split]
    exact follows.feed indexSection
  · intro other member
    rw [same]
    rcases List.mem_or_eq_of_mem_set member with old | rfl
    · exact follows.within other old
    · exact within

theorem biuldNewsFeed_some_iff {response : PostResponse} {screen next : NewsTableViewController} :
    biuldNewsFeed response screen = some next ↔
      ∃ items, response.items = some items ∧ (∀ item ∈ items, item.Sourced response) ∧
        next = {
          newsFeed := screen.newsFeed ++ items.map (translatedItem response)
          avatarPasses := screen.avatarPasses + 1
          photosPasses := screen.photosPasses + 1 } := by
  constructor
  · intro built
    obtain ⟨⟨biulder, newsFeed⟩, page, eq⟩ := Option.bind_eq_some_iff.mp built
    cases eq
    obtain ⟨items, present, sourced, rfl, _⟩ := buildNewsFeed_some_iff.mp page
    exact ⟨items, present, sourced, rfl⟩
  · intro page
    obtain ⟨items, present, sourced, rfl⟩ := page
    have built : buildNewsFeed ⟨screen.newsFeed⟩ response = some (⟨_⟩, _) :=
      buildNewsFeed_some_iff.mpr ⟨items, present, sourced, rfl, rfl⟩
    exact Option.bind_eq_some_iff.mpr ⟨_, built, rfl⟩

theorem Follows.biuldNewsFeed {state next : OverlappingPasses} {screen : NewsTableViewController}
    {response : PostResponse} (follows : Follows web state screen)
    (action : OverlappingPasses.step web state (.biuldNewsFeed response) = some next) :
    ∃ later, Newsfeed.step web screen (.biuldNewsFeed response) = some later ∧
      Follows web next later := by
  obtain ⟨built, page, rfl⟩ := Option.map_eq_some_iff.mp action
  obtain ⟨items, present, sourced, rfl⟩ := biuldNewsFeed_some_iff.mp page
  refine ⟨_, biuldNewsFeed_some_iff.mpr ⟨items, present, sourced, rfl⟩, ?_⟩
  refine {
    avatarPasses := congrArg (· + 1) follows.avatarPasses
    photosPasses := congrArg (· + 1) follows.photosPasses
    length := by simp [follows.length]
    feed := ?_
    within := ?_
    authored := ?_ }
  · intro indexSection
    by_cases old : indexSection < state.screen.newsFeed.length
    · have old' := follows.length ▸ old
      rw [List.getElem?_append_left old, List.getElem?_append_left old']
      exact follows.feed indexSection
    · have new := Nat.le_of_not_lt old
      have new' := follows.length ▸ new
      rw [List.getElem?_append_right new, List.getElem?_append_right new', follows.length]
      congr 1
      funext news
      exact settled_of_within web follows.within new news
  · intro pass member
    exact (follows.within pass member).mono (by simp)
  · intro news member
    rcases List.mem_append.mp member with old | new
    · exact follows.authored news old
    · obtain ⟨item, _, rfl⟩ := List.mem_map.mp new
      rfl

theorem Follows.at {state : OverlappingPasses} {screen : NewsTableViewController}
    (follows : Follows web state screen) {indexSection : Nat} {news : News}
    (here : state.screen.newsFeed[indexSection]? = some news) :
    ∃ news', screen.newsFeed[indexSection]? = some news' ∧
      settled web state.running indexSection news = view news' := by
  have same := follows.feed indexSection
  rw [here, Option.map_some] at same
  obtain ⟨news', here', eq⟩ := Option.map_eq_some_iff.mp same.symm
  exact ⟨news', here', eq.symm⟩

theorem map_getElem?_eq {γ : Type} {newsFeed other : List News} {f g : News → γ}
    (length : newsFeed.length = other.length) {indexSection : Nat}
    (same : ∀ news, newsFeed[indexSection]? = some news →
      ∃ news', other[indexSection]? = some news' ∧ f news = g news') :
    (newsFeed[indexSection]?).map f = (other[indexSection]?).map g := by
  cases here : newsFeed[indexSection]? with
  | none =>
      rw [List.getElem?_eq_none_iff, length] at here
      rw [List.getElem?_eq_none here]
      rfl
  | some news =>
      obtain ⟨news', here', eq⟩ := same news here
      rw [here', Option.map_some, Option.map_some, eq]

theorem view_downloadAvatar (news : News) :
    view (downloadAvatar web news) = (downloadAvatar web (view news).1, (view news).2) := by
  rw [← prospect_nothing web, ← prospect_nothing web, prospect_downloadAvatar,
    downloadAvatar_prospect]

theorem view_withPhotos (news : News) : view (withPhotos web news) =
    ((view news).1, (view news).2.map (· + (fetchedPhotos web news : Multiset Data))) := by
  simp [view, withPhotos, Function.comp_def]

theorem settled_fields (running : List Pass) (indexSection : Nat) (news : News) :
    (settled web running indexSection news).1.photosURL = news.photosURL ∧
      (settled web running indexSection news).1.likeCount = news.likeCount ∧
      (settled web running indexSection news).1.liked = news.liked := by
  simp only [settled, prospect]
  split
  · cases got : news.avatarURL.bind web.download <;> simp [downloadAvatar, got]
  · exact ⟨rfl, rfl, rfl⟩

theorem settled_concat (running : List Pass) (pass : Pass) (indexSection : Nat) (news : News) :
    settled web (running ++ [pass]) indexSection news =
      prospect web (running.any (Pass.awaitsAvatar indexSection) || pass.awaitsAvatar indexSection)
        ((running.map (Pass.awaitedPhotos web (fetchedPhotos web news) indexSection)).sum +
          pass.awaitedPhotos web (fetchedPhotos web news) indexSection) news := by
  simp [settled]

theorem settled_startAvatars (running : List Pass) {length indexSection : Nat}
    (inside : indexSection < length) (news : News) :
    settled web (running ++ [.avatars (List.range length)]) indexSection news =
      (downloadAvatar web (settled web running indexSection news).1,
        (settled web running indexSection news).2) := by
  rw [settled_concat, settled, downloadAvatar_prospect]
  simp [Pass.awaitsAvatar, Pass.awaitedPhotos, inside]

theorem settled_startPhotos (running : List Pass) {length indexSection : Nat}
    (inside : indexSection < length) (news : News) :
    settled web (running ++ [.photos none (List.range length)]) indexSection news =
      ((settled web running indexSection news).1,
        (settled web running indexSection news).2.map
          (· + (fetchedPhotos web news : Multiset Data))) := by
  have once : (List.range length).count indexSection = 1 :=
    List.count_eq_one_of_mem List.nodup_range (List.mem_range.mpr inside)
  have awaited : Pass.awaitedPhotos web (fetchedPhotos web news) indexSection
      (.photos none (List.range length)) = fetchedPhotos web news := by
    rw [Pass.awaitedPhotos, once, one_nsmul, Option.elim_none, zero_add]
  rw [settled_concat, settled, prospect_more, awaited]
  simp [Pass.awaitsAvatar]

theorem within_concat {running : List Pass} {pass : Pass} {length : Nat}
    (within : ∀ pass ∈ running, pass.Within length) (new : pass.Within length) :
    ∀ other ∈ running ++ [pass], other.Within length := by
  intro other member
  rcases List.mem_append.mp member with old | last
  · exact within other old
  · exact List.mem_singleton.mp last ▸ new

theorem author_downloadAvatar (news : News) : (downloadAvatar web news).author = news.author := by
  cases got : news.avatarURL.bind web.download <;> simp [downloadAvatar, got]

theorem Follows.startAvatars {state next : OverlappingPasses} {screen : NewsTableViewController}
    (follows : Follows web state screen)
    (action : OverlappingPasses.step web state .startAvatars = some next) :
    ∃ later, Newsfeed.step web screen .avatarsPass = some later ∧ Follows web next later := by
  obtain ⟨⟨newsFeed, avatarPasses, photosPasses⟩, running⟩ := state
  cases avatarPasses with
  | zero => cases action
  | succ avatarPasses =>
      cases action
      obtain ⟨newsFeed', avatarPasses', photosPasses'⟩ := screen
      cases follows.avatarPasses
      refine ⟨_, rfl, ?_⟩
      refine {
        avatarPasses := rfl
        photosPasses := follows.photosPasses
        length := by simpa using follows.length
        feed := ?_
        within := within_concat follows.within fun _ member => List.mem_range.mp member
        authored := ?_ }
      · intro indexSection
        rw [List.getElem?_map, Option.map_map]
        refine map_getElem?_eq follows.length fun news here => ?_
        obtain ⟨news', here', same⟩ := follows.at web here
        have inside := (List.getElem?_eq_some_iff.mp here).1
        refine ⟨news', here', ?_⟩
        rw [Function.comp_apply, view_downloadAvatar, ← same]
        exact settled_startAvatars web running inside news
      · intro news member
        obtain ⟨before, old, rfl⟩ := List.mem_map.mp member
        rw [author_downloadAvatar]
        exact follows.authored before old

theorem downloadPhotos_authored {newsFeed : List News}
    (authored : ∀ news ∈ newsFeed, news.author.isSome) :
    downloadPhotos web newsFeed = some (newsFeed.map (withPhotos web)) := by
  induction newsFeed with
  | nil => rfl
  | cons news newsFeed ih =>
      obtain ⟨author, named⟩ := Option.isSome_iff_exists.mp (authored news List.mem_cons_self)
      have rest := ih fun other member => authored other (List.mem_cons_of_mem _ member)
      have first : downloadPhotosOf web news = some (withPhotos web news) := by
        simp [downloadPhotosOf, foldl_appendPhoto, named, withPhotos, fetchedPhotos]
      simp [downloadPhotos, first, rest]

theorem Follows.startPhotos {state next : OverlappingPasses} {screen : NewsTableViewController}
    (follows : Follows web state screen)
    (action : OverlappingPasses.step web state .startPhotos = some next) :
    ∃ later, Newsfeed.step web screen .photosPass = some later ∧ Follows web next later := by
  obtain ⟨⟨newsFeed, avatarPasses, photosPasses⟩, running⟩ := state
  cases photosPasses with
  | zero => cases action
  | succ photosPasses =>
      cases action
      obtain ⟨newsFeed', avatarPasses', photosPasses'⟩ := screen
      cases follows.photosPasses
      have walked := downloadPhotos_authored web follows.authored
      refine ⟨_, Option.bind_eq_some_iff.mpr ⟨_, walked, rfl⟩, ?_⟩
      refine {
        avatarPasses := follows.avatarPasses
        photosPasses := rfl
        length := by simpa using follows.length
        feed := ?_
        within := within_concat follows.within ⟨by simp, fun _ member => List.mem_range.mp member⟩
        authored := ?_ }
      · intro indexSection
        rw [List.getElem?_map, Option.map_map]
        refine map_getElem?_eq follows.length fun news here => ?_
        obtain ⟨news', here', same⟩ := follows.at web here
        have inside := (List.getElem?_eq_some_iff.mp here).1
        have urls : news.photosURL = news'.photosURL := by
          rw [← (settled_fields web running indexSection news).1, same]
          rfl
        refine ⟨news', here', ?_⟩
        rw [Function.comp_apply, view_withPhotos, ← same,
          show fetchedPhotos web news' = fetchedPhotos web news by rw [fetchedPhotos, ← urls]; rfl]
        exact settled_startPhotos web running inside news
      · intro news member
        obtain ⟨before, old, rfl⟩ := List.mem_map.mp member
        exact follows.authored before old

def tapped (likeCount liked : Option Int) : Option (Int × Int) := do
  let likeCount ← likeCount
  if 1 = liked.getD 0 then (checked (likeCount - 1)).map fun count => (count, 0)
  else (checked (likeCount + 1)).map fun count => (count, 1)

theorem likeButtonPressed_bind (tag : Nat) (newsFeed : List News) :
    likeButtonPressed tag newsFeed = (newsFeed[tag]?).bind fun news =>
      (tapped news.likeCount news.liked).map fun likes =>
        newsFeed.set tag { news with likeCount := some likes.1, liked := some likes.2 } := by
  unfold likeButtonPressed tapped
  cases newsFeed[tag]? with
  | none => rfl
  | some news =>
      cases count : news.likeCount with
      | none => simp [count]
      | some likeCount =>
          by_cases liked : 1 = news.liked.getD 0
          · simp only [count, if_pos liked, Option.bind_eq_bind, Option.bind_some, Option.map_map]
            exact Option.map_eq_bind.symm
          · simp only [count, if_neg liked, Option.bind_eq_bind, Option.bind_some, Option.map_map]
            exact Option.map_eq_bind.symm

theorem settled_likes (running : List Pass) (indexSection : Nat) (news : News)
    (likeCount liked : Option Int) :
    settled web running indexSection { news with likeCount, liked } =
      ({ (settled web running indexSection news).1 with likeCount, liked },
        (settled web running indexSection news).2) :=
  prospect_likes web _ _ news likeCount liked

theorem Follows.likeButtonPressed {state next : OverlappingPasses}
    {screen : NewsTableViewController} {tag : Nat} (follows : Follows web state screen)
    (action : OverlappingPasses.step web state (.likeButtonPressed tag) = some next) :
    ∃ later, Newsfeed.step web screen (.likeButtonPressed tag) = some later ∧
      Follows web next later := by
  obtain ⟨newsFeed, pressed, rfl⟩ := Option.map_eq_some_iff.mp action
  rw [likeButtonPressed_bind] at pressed
  obtain ⟨news, here, pressed⟩ := Option.bind_eq_some_iff.mp pressed
  obtain ⟨likes, taps, rfl⟩ := Option.map_eq_some_iff.mp pressed
  obtain ⟨news', here', same⟩ := follows.at web here
  obtain ⟨_, likeCount, liked⟩ := settled_fields web state.running tag news
  have taps' : tapped news'.likeCount news'.liked = some likes := by
    rw [← taps, ← likeCount, ← liked, same]
    rfl
  have pressed' : Newsfeed.likeButtonPressed tag screen.newsFeed = some (screen.newsFeed.set tag
      { news' with likeCount := some likes.1, liked := some likes.2 }) := by
    rw [likeButtonPressed_bind, here', Option.bind_some, taps', Option.map_some]
  refine ⟨_, Option.bind_eq_some_iff.mpr ⟨_, pressed', rfl⟩, ?_⟩
  refine { follows with
    length := by simpa using follows.length
    feed := ?_
    within := ?_
    authored := ?_ }
  · intro indexSection
    by_cases own : tag = indexSection
    · subst own
      rw [List.getElem?_set_self (List.getElem?_eq_some_iff.mp here).1,
        List.getElem?_set_self (List.getElem?_eq_some_iff.mp here').1, Option.map_some,
        Option.map_some, settled_likes, same]
      rfl
    · rw [List.getElem?_set_ne own, List.getElem?_set_ne own]
      exact follows.feed indexSection
  · rw [List.length_set]
    exact follows.within
  · intro other member
    rcases List.mem_or_eq_of_mem_set member with old | rfl
    · exact follows.authored other old
    · exact follows.authored news' (List.mem_of_getElem? here')

theorem Follows.step {state next : OverlappingPasses} {screen : NewsTableViewController}
    {event : PassEvent} (follows : Follows web state screen)
    (action : OverlappingPasses.step web state event = some next) :
    ∃ later, run (Newsfeed.step web) screen event.event.toList = some later ∧
      Follows web next later := by
  cases event with
  | advance index => exact ⟨screen, rfl, follows.advance web action⟩
  | biuldNewsFeed response =>
      obtain ⟨later, stepped, follows⟩ := follows.biuldNewsFeed web action
      exact ⟨later, by simp [PassEvent.event, stepped], follows⟩
  | likeButtonPressed tag =>
      obtain ⟨later, stepped, follows⟩ := follows.likeButtonPressed web action
      exact ⟨later, by simp [PassEvent.event, stepped], follows⟩
  | startAvatars =>
      obtain ⟨later, stepped, follows⟩ := follows.startAvatars web action
      exact ⟨later, by simp [PassEvent.event, stepped], follows⟩
  | startPhotos =>
      obtain ⟨later, stepped, follows⟩ := follows.startPhotos web action
      exact ⟨later, by simp [PassEvent.event, stepped], follows⟩

theorem follows_of_run {events : List PassEvent} {state : OverlappingPasses}
    (ran : run (OverlappingPasses.step web) {} events = some state) :
    ∃ screen, run (Newsfeed.step web) {} (events.filterMap PassEvent.event) = some screen ∧
      Follows web state screen := by
  induction events using List.reverseRecOn generalizing state with
  | nil =>
      cases ran
      exact ⟨{}, rfl, rfl, rfl, rfl, fun _ => rfl, by simp, by simp⟩
  | append_singleton events event ih =>
      obtain ⟨before, reached, action⟩ := run_concat_some _ |>.mp ran
      obtain ⟨screen, followed, follows⟩ := ih reached
      obtain ⟨later, moved, follows⟩ := follows.step web action
      refine ⟨later, ?_, follows⟩
      rw [List.filterMap_append, filterMap_singleton, run_append, followed, Option.bind_some, moved]

/-- However the loops overlap, the feed at their end is that of loops that run as a whole, up to
the order of the photos of a post. -/
theorem passes_run_as_whole {events : List PassEvent} {state : OverlappingPasses}
    (ran : run (OverlappingPasses.step web) {} events = some state)
    (ended : ∀ pass ∈ state.running, pass.Ended) :
    ∃ screen, run (Newsfeed.step web) {} (events.filterMap PassEvent.event) = some screen ∧
      state.screen.newsFeed.map view = screen.newsFeed.map view := by
  obtain ⟨screen, followed, follows⟩ := follows_of_run web ran
  refine ⟨screen, followed, List.ext_getElem? fun indexSection => ?_⟩
  rw [List.getElem?_map, List.getElem?_map, ← follows.feed indexSection]
  congr 1
  funext news
  exact (settled_of_within web (fun pass member => ended_within (ended pass member))
    (Nat.zero_le indexSection) news).symm

def overlapping : List PassEvent :=
  [.biuldNewsFeed onePicture, .startPhotos, .startAvatars, .advance 0, .biuldNewsFeed onePicture,
    .startPhotos, .advance 2, .advance 2, .advance 0, .advance 1, .advance 2, .advance 0,
    .advance 2, .advance 2, .advance 2]

def overlapped : OverlappingPasses where
  screen := {
    newsFeed := [
      { author := some " ", photosURL := some ["https://a"], photos := some [[255], [255]] },
      { author := some " ", photosURL := some ["https://a"], photos := some [[255]] }]
    avatarPasses := 1 }
  running := [.photos none [], .avatars [], .photos none []]

theorem second_page_overlaps : ∃ screen,
    run (Newsfeed.step everyPicture) {} (overlapping.filterMap PassEvent.event) = some screen ∧
      overlapped.screen.newsFeed.map view = screen.newsFeed.map view := by
  have ran : run (OverlappingPasses.step everyPicture) {} overlapping = some overlapped := rfl
  have ended : ∀ pass ∈ overlapped.running, pass.Ended := by simp [overlapped, Pass.Ended]
  exact passes_run_as_whole everyPicture ran ended

end SocialApp.Newsfeed
