import SocialApp.Screens.SearchList

/-!
# Batch updates of the table view

A table view knows how many rows it has from its last reload or batch update. The observe callback
feeds it change sets that speak about the `Results`, whatever the data source answers.
-/

namespace SocialApp.Screens
open Library Foundation Realm

variable {ρ : Type} {key : ρ → Int}

structure ChangeSet where
  deletions : List Nat
  insertions : List Nat
  modifications : List Nat
  deriving DecidableEq

structure ChangeSet.Fits (changes : ChangeSet) (before after : Nat) : Prop where
  count : after + changes.deletions.length = before + changes.insertions.length
  deletions : ∀ index ∈ changes.deletions, index < before
  insertions : ∀ index ∈ changes.insertions, index < after
  modifications : ∀ index ∈ changes.modifications, index < before

instance (changes : ChangeSet) (before after : Nat) : Decidable (changes.Fits before after) :=
  decidable_of_iff
    ((after + changes.deletions.length = before + changes.insertions.length ∧
      ∀ index ∈ changes.deletions, index < before) ∧
      (∀ index ∈ changes.insertions, index < after) ∧
        ∀ index ∈ changes.modifications, index < before)
    ⟨fun ⟨⟨c, d⟩, i, m⟩ => ⟨c, d, i, m⟩, fun ⟨c, d, i, m⟩ => ⟨⟨c, d⟩, i, m⟩⟩

structure TableScreen (key : ρ → Int) where
  listing : Listing key
  rowCount : Nat
  observed : Option Nat

inductive TableEvent (key : ρ → Int)
  | search (event : SearchEvent)
  | commit (after : Table key)
  | initial
  | update (changes : ChangeSet)

namespace TableScreen

def load (rows : Table key) : TableScreen key := ⟨⟨rows, {}⟩, rows.rows.length, none⟩

def numberOfRowsInSection (table : TableScreen key) : Nat :=
  table.listing.screen.numberOfRowsInSection table.listing.results

theorem numberOfRows_filtering {table : TableScreen key}
    (filtering : table.listing.screen.searchField.isFiltering) :
    table.numberOfRowsInSection = table.listing.screen.searched.length := if_pos filtering

theorem numberOfRows_unfiltered {table : TableScreen key}
    (unfiltered : ¬ table.listing.screen.searchField.isFiltering) :
    table.numberOfRowsInSection = table.listing.results.rows.length := if_neg unfiltered

def reloaded (table : TableScreen key) : TableScreen key :=
  { table with rowCount := table.numberOfRowsInSection }

/-- The first call of the observer is `.initial`, which reloads; every later one is `.update` with
the changes since the one before. -/
def step (accepts : String → ρ → Bool) : Machine (TableScreen key) (TableEvent key)
  | table, .search event => (table.listing.step accepts (.search event)).map fun listing =>
      reloaded { table with listing }
  | table, .commit after => (table.listing.step accepts (.commit after)).map fun listing =>
      { table with listing }
  | table, .initial =>
      if table.observed = none then
        some (reloaded { table with observed := some table.listing.results.rows.length })
      else none
  | table, .update changes =>
      match table.observed with
      | none => none
      | some observed =>
          if changes.Fits observed table.listing.results.rows.length then
            some (reloaded { table with observed := some table.listing.results.rows.length })
          else none

end TableScreen

/-! ## Specification -/

def UpdateFits (accepts : String → ρ → Bool) (table : TableScreen key) : TableEvent key → Prop
  | .update changes => ∀ next, table.step accepts (.update changes) = some next →
      changes.Fits table.rowCount next.numberOfRowsInSection
  | _ => True

/-- Without a search the table view was last loaded with the rows of the last notification. During
a search the change set deletes as many rows as it inserts and stays within the hits. -/
def InStep (table : TableScreen key) : TableEvent key → Prop
  | .update changes => ∀ observed, table.observed = some observed →
      changes.Fits observed table.listing.results.rows.length →
      if table.listing.screen.searchField.isFiltering then
        changes.deletions.length = changes.insertions.length ∧
          ∀ index ∈ changes.deletions ++ changes.insertions ++ changes.modifications,
            index < table.listing.screen.searched.length
      else table.rowCount = observed
  | _ => True

def ShowsHits (table : TableScreen key) : Prop :=
  table.listing.screen.searchField.isFiltering →
    table.rowCount = table.listing.screen.searched.length

variable {accepts : String → ρ → Bool}

theorem showsHits_reloaded (table : TableScreen key) : ShowsHits table.reloaded := by
  intro filtering
  exact @TableScreen.numberOfRows_filtering _ _ table filtering

theorem step_update {table next : TableScreen key} {changes : ChangeSet} :
    table.step accepts (.update changes) = some next ↔
      ∃ observed, table.observed = some observed ∧
        changes.Fits observed table.listing.results.rows.length ∧
        next = TableScreen.reloaded
          { table with observed := some table.listing.results.rows.length } := by
  cases observed : table.observed with
  | none => simp [TableScreen.step, observed]
  | some before =>
      simp only [TableScreen.step, observed, Option.ite_none_right_eq_some, Option.some.injEq,
        exists_eq_left']
      exact and_congr_right fun _ => eq_comm

theorem showsHits_step (table : TableScreen key) (event : TableEvent key) (next : TableScreen key)
    (shows : ShowsHits table) (action : table.step accepts event = some next) :
    ShowsHits next := by
  cases event with
  | search event =>
      simp only [TableScreen.step, Listing.step, Option.map_some, Option.some.injEq] at action
      exact action ▸ showsHits_reloaded _
  | commit after =>
      simp only [TableScreen.step, Listing.step, Option.map_some, Option.some.injEq] at action
      exact action ▸ shows
  | initial =>
      simp only [TableScreen.step, Option.ite_none_right_eq_some, Option.some.injEq] at action
      exact action.2 ▸ showsHits_reloaded _
  | update changes =>
      obtain ⟨_, _, _, rfl⟩ := step_update.mp action
      exact showsHits_reloaded _

theorem fits_same_iff {changes : ChangeSet} {rows : Nat} :
    changes.Fits rows rows ↔ changes.deletions.length = changes.insertions.length ∧
      ∀ index ∈ changes.deletions ++ changes.insertions ++ changes.modifications, index < rows := by
  simp only [List.mem_append, or_imp, forall_and]
  constructor
  · intro fits
    obtain ⟨count, deletions, insertions, modifications⟩ := fits
    exact ⟨by omega, ⟨deletions, insertions⟩, modifications⟩
  · intro balanced
    obtain ⟨count, ⟨deletions, insertions⟩, modifications⟩ := balanced
    exact ⟨by omega, deletions, insertions, modifications⟩

theorem fits_iff_eq {changes : ChangeSet} {observed after rows : Nat}
    (fits : changes.Fits observed after) : changes.Fits rows after ↔ rows = observed := by
  constructor
  · intro other
    have first := fits.count
    have second := other.count
    omega
  · rintro rfl
    exact fits

theorem fits_rowCount_iff {table : TableScreen key} {changes : ChangeSet} {observed : Nat}
    (shows : ShowsHits table) (correct : changes.Fits observed table.listing.results.rows.length) :
    changes.Fits table.rowCount table.numberOfRowsInSection ↔
      if table.listing.screen.searchField.isFiltering then
        changes.deletions.length = changes.insertions.length ∧
          ∀ index ∈ changes.deletions ++ changes.insertions ++ changes.modifications,
            index < table.listing.screen.searched.length
      else table.rowCount = observed := by
  by_cases filtering : table.listing.screen.searchField.isFiltering
  · rw [shows filtering, TableScreen.numberOfRows_filtering filtering, if_pos filtering]
    exact fits_same_iff
  · rw [TableScreen.numberOfRows_unfiltered filtering, if_neg filtering]
    exact fits_iff_eq correct

theorem updateFits_iff (table : TableScreen key) (event : TableEvent key)
    (shows : ShowsHits table) : UpdateFits accepts table event ↔ InStep table event := by
  cases event with
  | search event => exact Iff.rfl
  | commit after => exact Iff.rfl
  | initial => exact Iff.rfl
  | update changes =>
      simp only [UpdateFits, InStep, step_update, forall_exists_index, and_imp]
      constructor
      · intro fits observed known correct
        have after := fits _ observed known correct rfl
        exact (fits_rowCount_iff shows correct).mp after
      · rintro inStep next observed known correct rfl
        exact (fits_rowCount_iff shows correct).mpr (inStep observed known correct)

def Unsearched : TableEvent key → Prop
  | .search _ => False
  | _ => True

structure Settled (table : TableScreen key) : Prop where
  unfiltered : ¬ table.listing.screen.searchField.isFiltering
  rowCount : ∀ observed, table.observed = some observed → table.rowCount = observed

theorem settled_reloaded {table : TableScreen key}
    (unfiltered : ¬ table.listing.screen.searchField.isFiltering) :
    Settled (TableScreen.reloaded
      { table with observed := some table.listing.results.rows.length }) where
  unfiltered := unfiltered
  rowCount observed same := by
    have rows := @TableScreen.numberOfRows_unfiltered _ _ table unfiltered
    exact rows.trans (Option.some.inj same)

theorem settled_step (table : TableScreen key) (event : TableEvent key) (next : TableScreen key)
    (settled : Settled table) (unsearched : Unsearched event)
    (action : table.step accepts event = some next) : Settled next := by
  cases event with
  | search event => exact unsearched.elim
  | commit after =>
      cases action
      exact ⟨settled.unfiltered, settled.rowCount⟩
  | initial =>
      simp only [TableScreen.step, Option.ite_none_right_eq_some, Option.some.injEq] at action
      exact action.2 ▸ settled_reloaded settled.unfiltered
  | update changes =>
      obtain ⟨_, _, _, rfl⟩ := step_update.mp action
      exact settled_reloaded settled.unfiltered

/-- Commits and notifications alone never break a batch update. -/
theorem unsearched_updates_fit (rows : Table key) {events : List (TableEvent key)}
    (unsearched : ∀ event ∈ events, Unsearched event) :
    Machine.Along (TableScreen.step accepts) (UpdateFits accepts) (.load rows) events := by
  have start : Settled (TableScreen.load rows) :=
    ⟨Bool.false_ne_true, fun _ none => by cases none⟩
  refine Machine.along_of_invariant settled_step ?_ start unsearched
  intro table event settled other
  have shows : ShowsHits table := fun filtering => absurd filtering settled.unfiltered
  apply (updateFits_iff table event shows).mpr
  cases event with
  | update changes =>
      intro observed known correct
      rw [if_neg settled.unfiltered]
      exact settled.rowCount observed known
  | _ => trivial

theorem updates_along_iff (rows : Table key) (events : List (TableEvent key)) :
    Machine.Along (TableScreen.step accepts) (UpdateFits accepts) (.load rows) events ↔
      Machine.Along (TableScreen.step accepts) InStep (.load rows) events := by
  have start : ShowsHits (TableScreen.load rows) := fun filtering =>
    absurd filtering Bool.false_ne_true
  exact Machine.along_congr showsHits_step updateFits_iff start events

theorem table_updates_iff (ops : TextOperations)
    (friends : Table Friend.id) (friendsRun : List (TableEvent Friend.id))
    (groups : Table Group.id) (groupsRun : List (TableEvent Group.id)) :
    (Machine.Along (TableScreen.step (friendMatches ops)) (UpdateFits (friendMatches ops))
        (.load friends) friendsRun ↔
      Machine.Along (TableScreen.step (friendMatches ops)) InStep (.load friends) friendsRun) ∧
    (Machine.Along (TableScreen.step (groupMatches ops)) (UpdateFits (groupMatches ops))
        (.load groups) groupsRun ↔
      Machine.Along (TableScreen.step (groupMatches ops)) InStep (.load groups) groupsRun) :=
  ⟨updates_along_iff friends friendsRun, updates_along_iff groups groupsRun⟩

theorem insertion_during_search_inconsistent :
    ¬ ∀ (ops : TextOperations) (friends : Table Friend.id) (events : List (TableEvent Friend.id)),
      Machine.Along (TableScreen.step (friendMatches ops)) (UpdateFits (friendMatches ops))
        (.load friends) events := by
  intro all
  have along := (updates_along_iff _ _).mp (all ascii .empty
    [.initial, .search .activated, .search (.textChanged "an"),
      .commit (Table.empty.upsert { id := 1, firstName := "Anna" }), .update ⟨[], [0], []⟩])
  have inStep := Machine.along_iff_prefix.mp along
    [.initial, .search .activated, .search (.textChanged "an"),
      .commit (Table.empty.upsert { id := 1, firstName := "Anna" })] (.update ⟨[], [0], []⟩) []
    _ rfl rfl
  have balanced := inStep 0 rfl (by decide)
  exact absurd balanced (by decide)

end SocialApp.Screens
