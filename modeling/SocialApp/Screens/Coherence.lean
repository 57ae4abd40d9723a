import SocialApp.Screens.SearchList

/-!
# What a list shows and what the store holds

While the user searches, the list is the array that the last search left. A commit does not
recompute it, so the list is right exactly as long as commits leave the hits of the text alone.
-/

namespace SocialApp.Screens
open Library Foundation Realm

variable {ρ : Type} {key : ρ → Int} {accepts : String → ρ → Bool}

/-! ## Specification -/

def Listing.current (accepts : String → ρ → Bool) (listing : Listing key) : List ρ :=
  if listing.screen.searchField.isFiltering then
    listing.results.rows.filter (accepts listing.screen.searchField.text)
  else listing.results.rows

def Reflects (accepts : String → ρ → Bool) (listing : Listing key) : Prop :=
  listing.screen.rowsShown listing.results = (listing.current accepts).map some

def KeepsHits (accepts : String → ρ → Bool) (listing : Listing key) : ListEvent key → Prop
  | .search _ => True
  | .commit after => listing.screen.searchField.isFiltering →
      (after.rows.filter (accepts listing.screen.searchField.text)).map key =
        (listing.results.rows.filter (accepts listing.screen.searchField.text)).map key

theorem reflects_iff_searched (listing : Listing key) :
    Reflects accepts listing ↔ (listing.screen.searchField.isFiltering →
      listing.screen.searched =
        (ListScreen.hits accepts listing.screen.searchField.text listing.results).map key) := by
  unfold Reflects Listing.current
  rw [ListScreen.rowsShown_eq]
  by_cases filtering : listing.screen.searchField.isFiltering
  · simp only [filtering, if_true, true_implies]
    exact ListScreen.map_find_eq_iff fun row => ListScreen.mem_hits
  · simp [filtering]

theorem reflects_after_search (event : SearchEvent) (listing : Listing key) :
    Reflects accepts
      { listing with screen := listing.screen.search accepts event listing.results } :=
  (reflects_iff_searched _).mpr fun _ => ListScreen.search_searched event listing.results _

theorem reflects_step {listing next : Listing key} {event : ListEvent key}
    (reflects : Reflects accepts listing) (action : listing.step accepts event = some next) :
    Reflects accepts next ↔ KeepsHits accepts listing event := by
  cases event with
  | search event =>
      simp only [Listing.step, Option.some.injEq] at action
      subst action
      exact iff_of_true (reflects_after_search event listing) trivial
  | commit after =>
      simp only [Listing.step, Option.some.injEq] at action
      subst action
      rw [reflects_iff_searched] at reflects ⊢
      apply forall_congr'
      intro filtering
      rw [reflects filtering]
      exact eq_comm

theorem keepsHits_modify {listing : Listing key} {f : ρ → ρ} (keeps : ∀ row, key (f row) = key row)
    (same : ∀ text row, accepts text (f row) = accepts text row) (k : Int) :
    KeepsHits accepts listing (.commit (listing.results.modify k f keeps)) := by
  intro _
  have matching : ∀ text row, accepts text (if key row = k then f row else row) =
      accepts text row := fun text row => by split <;> simp only [same]
  have keys : ∀ row, key (if key row = k then f row else row) = key row :=
    fun row => by split <;> simp only [keeps]
  rw [Table.modify_rows, List.filter_map, List.map_map]
  simp only [Function.comp_def, matching, keys]

theorem friendAvatar_keepsHits (ops : TextOperations) (listing : Listing Friend.id)
    (data : Option Data) (userID : Int) :
    KeepsHits (friendMatches ops) listing
      (.commit (setFriendAvatar data userID listing.results)) := by
  unfold setFriendAvatar
  apply keepsHits_modify
  intro text friend
  rfl

theorem groupAvatar_keepsHits (ops : TextOperations) (listing : Listing Group.id)
    (data : Option Data) (groupID : Int) :
    KeepsHits (groupMatches ops) listing
      (.commit (setGroupAvatar data groupID listing.results)) := by
  unfold setGroupAvatar
  apply keepsHits_modify
  intro text group
  rfl

theorem reflects_along_iff (rows : Table key) (events : List (ListEvent key)) :
    Machine.Visits (Listing.step accepts) (Reflects accepts) ⟨rows, {}⟩ events ↔
      Machine.Along (Listing.step accepts) (KeepsHits accepts) ⟨rows, {}⟩ events := by
  refine Machine.visits_iff_along (fun _ _ _ => reflects_step) ?_ ?_ events
  · intro listing event disabled
    cases event <;> cases disabled
  · exact (reflects_iff_searched _).mpr fun filtering => absurd filtering Bool.false_ne_true

variable (ops : TextOperations)

theorem lists_reflect_iff (friends : Table Friend.id) (friendsRun : List (ListEvent Friend.id))
    (groups : Table Group.id) (groupsRun : List (ListEvent Group.id)) :
    (Machine.Visits (Listing.step (friendMatches ops)) (Reflects (friendMatches ops))
        ⟨friends, {}⟩ friendsRun ↔
      Machine.Along (Listing.step (friendMatches ops)) (KeepsHits (friendMatches ops))
        ⟨friends, {}⟩ friendsRun) ∧
    (Machine.Visits (Listing.step (groupMatches ops)) (Reflects (groupMatches ops))
        ⟨groups, {}⟩ groupsRun ↔
      Machine.Along (Listing.step (groupMatches ops)) (KeepsHits (groupMatches ops))
        ⟨groups, {}⟩ groupsRun) :=
  ⟨reflects_along_iff friends friendsRun, reflects_along_iff groups groupsRun⟩

theorem commit_during_search_missing :
    ¬ ∀ (ops : TextOperations) (friends : Table Friend.id) (events : List (ListEvent Friend.id)),
      Machine.Visits (Listing.step (friendMatches ops)) (Reflects (friendMatches ops))
        ⟨friends, {}⟩ events := by
  intro all
  have reflects := all ascii .empty
    [.search .activated, .search (.textChanged "an"),
      .commit (Table.empty.upsert { id := 1, firstName := "Anna" })]
  obtain ⟨_, reflects⟩ := reflects
  obtain ⟨_, reflects⟩ := reflects _ rfl
  obtain ⟨_, reflects⟩ := reflects _ rfl
  have shown := reflects _ rfl
  exact absurd shown (by unfold Machine.Visits Reflects; decide)

end SocialApp.Screens
