import SocialApp.Library.Machine
import SocialApp.Realm.Manager

/-!
# The friends list and the groups list

Both screens show the live `Results` of one table or, while the user searches, an array of objects
that the last search found. An object of that array is a reference to its row, here the primary
key, so reading it needs the row to be in the table. UIKit keeps the text of a search bar non-nil
and clears it when the search is cancelled.
-/

namespace SocialApp.Screens
open Library Foundation Realm

structure SearchController where
  isActive : Bool := false
  text : String := ""
  deriving DecidableEq

def SearchController.searchBarIsEmpty (searchField : SearchController) : Bool :=
  searchField.text = ""

def SearchController.isFiltering (searchField : SearchController) : Bool :=
  searchField.isActive && !searchField.searchBarIsEmpty

inductive SearchEvent
  | textChanged (text : String)
  | activated
  | cancelled
  deriving DecidableEq

def SearchEvent.apply : SearchEvent → SearchController → SearchController
  | textChanged text, searchField => { searchField with text := text }
  | activated, searchField => { searchField with isActive := true }
  | cancelled, _ => { isActive := false, text := "" }

/-- The fields of `FriendsTableViewController` and of `GroupsTableViewController`; `searched` is
`searchedFriend` or `searchedGroup`. -/
structure ListScreen where
  searchField : SearchController := {}
  searched : List Int := []
  deriving DecidableEq

section Filters
variable (ops : TextOperations)

def friendMatches (searchText : String) (friend : Friend) : Bool :=
  ops.contains (ops.lowercased friend.lastName) (ops.lowercased searchText) ||
    ops.contains (ops.lowercased friend.firstName) (ops.lowercased searchText)

def groupMatches (searchText : String) (group : Group) : Bool :=
  ops.contains (ops.lowercased group.name) (ops.lowercased searchText)

end Filters

namespace ListScreen
variable {ρ : Type} {key : ρ → Int} (accepts : String → ρ → Bool)

def hits (searchText : String) (rows : Table key) : List ρ := rows.rows.filter (accepts searchText)

def filterContentForSearchText (searchText : String) (rows : Table key) (screen : ListScreen) :
    ListScreen :=
  { screen with searched := (hits accepts searchText rows).map key }

def search (event : SearchEvent) (rows : Table key) (screen : ListScreen) : ListScreen :=
  let searchField := event.apply screen.searchField
  filterContentForSearchText accepts searchField.text rows { screen with searchField }

def numberOfRowsInSection (rows : Table key) (screen : ListScreen) : Nat :=
  if screen.searchField.isFiltering then screen.searched.length else rows.rows.length

def cellForRowAt (rows : Table key) (screen : ListScreen) (row : Nat) : Option ρ :=
  if screen.searchField.isFiltering then screen.searched[row]?.bind rows.find else rows.rows[row]?

def rowsShown (rows : Table key) (screen : ListScreen) : List (Option ρ) :=
  (List.range (screen.numberOfRowsInSection rows)).map (screen.cellForRowAt rows)

theorem map_range_bind {α β : Type} (xs : List α) (read : α → Option β) :
    ((List.range xs.length).map fun i => xs[i]?.bind read) = xs.map read := by
  induction xs with
  | nil => rfl
  | cons x xs ih =>
      simp only [List.length_cons, List.range_succ_eq_map, List.map_cons, List.map_map,
        Function.comp_def, List.getElem?_cons_zero, List.getElem?_cons_succ, ih, Option.bind_some]

theorem rowsShown_eq (rows : Table key) (screen : ListScreen) :
    screen.rowsShown rows =
      if screen.searchField.isFiltering then screen.searched.map rows.find
      else rows.rows.map some := by
  unfold rowsShown numberOfRowsInSection cellForRowAt
  by_cases filtering : screen.searchField.isFiltering
  · simp only [filtering, if_true]
    exact map_range_bind screen.searched rows.find
  · simp only [filtering, Bool.false_eq_true, if_false]
    simpa using map_range_bind rows.rows some

variable {accepts}

theorem search_searched (event : SearchEvent) (rows : Table key) (screen : ListScreen) :
    (screen.search accepts event rows).searched =
      (hits accepts (event.apply screen.searchField).text rows).map key := rfl

theorem mem_hits {searchText : String} {rows : Table key} {row : ρ}
    (member : row ∈ hits accepts searchText rows) : row ∈ rows.rows :=
  (List.mem_filter.mp member).1

theorem search_live (event : SearchEvent) (rows : Table key) (screen : ListScreen) {id : Int}
    (member : id ∈ (screen.search accepts event rows).searched) : id ∈ rows.keys := by
  rw [search_searched] at member
  obtain ⟨row, hit, rfl⟩ := List.mem_map.mp member
  exact List.mem_map_of_mem (mem_hits hit)

theorem eq_map_key_of_find {rows : Table key} {ids : List Int} {shown : List ρ}
    (same : ids.map rows.find = shown.map some) : ids = shown.map key := by
  induction ids generalizing shown with
  | nil =>
      cases shown with
      | nil => rfl
      | cons row shown => simp at same
  | cons id ids ih =>
      cases shown with
      | nil => simp at same
      | cons row shown =>
          simp only [List.map_cons, List.cons.injEq] at same ⊢
          exact ⟨(Table.find_eq_some_iff.mp same.1).2.symm, ih same.2⟩

theorem map_find_eq_iff {rows : Table key} {ids : List Int} {shown : List ρ}
    (members : ∀ row ∈ shown, row ∈ rows.rows) :
    ids.map rows.find = shown.map some ↔ ids = shown.map key :=
  ⟨eq_map_key_of_find, fun same => same ▸ Table.map_find_keys members⟩

end ListScreen

structure Listing {ρ : Type} (key : ρ → Int) where
  results : Table key
  screen : ListScreen := {}

inductive ListEvent {ρ : Type} (key : ρ → Int)
  | search (event : SearchEvent)
  | commit (after : Table key)

def Listing.step {ρ : Type} {key : ρ → Int} (accepts : String → ρ → Bool) :
    Machine (Listing key) (ListEvent key)
  | listing, .search event =>
      some { listing with screen := listing.screen.search accepts event listing.results }
  | listing, .commit after => some { listing with results := after }

end SocialApp.Screens
