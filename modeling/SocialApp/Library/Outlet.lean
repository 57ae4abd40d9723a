import SocialApp.Library.Machine

/-!
# Parts of a state that some events assign and others leave alone

An outlet names such a part and says what each event assigns to it. After a run it holds what was
assigned last, or what it held at the start.
-/

namespace SocialApp.Library
open Machine

def lastSome {α β : Type*} (f : α → Option β) (events : List α) : Option β :=
  events.reverse.findSome? f

theorem lastSome_cons {α β : Type*} (f : α → Option β) (a : α) (events : List α) :
    lastSome f (a :: events) = (lastSome f events).or (f a) := by
  cases h : f a <;> simp [lastSome, List.findSome?_append, h]

theorem lastSome_concat {α β : Type*} (f : α → Option β) (events : List α) (a : α) :
    lastSome f (events ++ [a]) = (f a).or (lastSome f events) := by
  cases h : f a <;> simp [lastSome, h]

theorem lastSome_map {α β γ : Type*} (f : α → Option β) (g : β → γ) (events : List α) :
    lastSome (fun a => (f a).map g) events = (lastSome f events).map g := by
  induction events with
  | nil => rfl
  | cons a events ih =>
      rw [lastSome_cons, lastSome_cons, ih]
      cases lastSome f events <;> rfl

theorem lastSome_list_map {α β γ : Type*} (f : β → Option γ) (g : α → β) (events : List α) :
    lastSome f (events.map g) = lastSome (fun a => f (g a)) events := by
  simp only [lastSome, ← List.map_reverse, List.findSome?_map, Function.comp_def]

theorem lastSome_filterMap {α β γ : Type*} (f : β → Option γ) (g : α → Option β) (events : List α) :
    lastSome f (events.filterMap g) = lastSome (fun a => (g a).bind f) events := by
  induction events with
  | nil => rfl
  | cons a events ih =>
      rw [lastSome_cons, ← ih]
      cases h : g a with
      | none => rw [List.filterMap_cons_none h, Option.bind_none, Option.or_none]
      | some b => rw [List.filterMap_cons_some h, lastSome_cons, Option.bind_some]

structure Outlet {σ α : Type*} (step : Machine σ α) (β : Type*) where
  value : σ → β
  assigned : α → Option β
  writes : ∀ {s a s'}, step s a = some s' → value s' = (assigned a).getD (value s)

namespace Outlet
variable {σ α β : Type*} {step : Machine σ α} (outlet : Outlet step β)

theorem value_run {s s' : σ} {events : List α} (ran : run step s events = some s') :
    outlet.value s' = (lastSome outlet.assigned events).getD (outlet.value s) := by
  induction events generalizing s with
  | nil =>
      simp only [run_nil, Option.some.injEq] at ran
      rw [ran]
      rfl
  | cons a events ih =>
      obtain ⟨t, action, rest⟩ := Option.bind_eq_some_iff.mp ran
      rw [ih rest, outlet.writes action, lastSome_cons]
      cases lastSome outlet.assigned events <;> rfl

/-- What `last` does not assign is unassigned or was assigned last what it held at the start. -/
def Clean (s : σ) (events : List α) (last : α) : Prop :=
  outlet.assigned last = none → ∀ v, lastSome outlet.assigned events = some v → v = outlet.value s

theorem clean_iff {s s' : σ} {events : List α} {last : α} (ran : run step s events = some s') :
    outlet.Clean s events last ↔
      (outlet.assigned last).getD (outlet.value s') =
        (outlet.assigned last).getD (outlet.value s) := by
  rw [outlet.value_run ran, Clean]
  cases outlet.assigned last <;> cases lastSome outlet.assigned events <;> simp

end Outlet

/-- After `events` the event `last` leads where it leads from the start. -/
def LeavesNoTrace {σ α : Type*} (step : Machine σ α) (s : σ) (events : List α) (last : α) : Prop :=
  ∃ s', step s last = some s' ∧ run step s (events ++ [last]) = some s'

section
variable {σ α : Type*} {step : Machine σ α} {enabled : α → Prop}
  (steps : ∀ s a, (step s a).isSome ↔ enabled a)
include steps

theorem leavesNoTrace_iff {s : σ} {events : List α} {last : α} {P : Prop}
    (agree : enabled last → ∀ s', run step s events = some s' → (step s' last = step s last ↔ P)) :
    LeavesNoTrace step s events last ↔ (∀ a ∈ events ++ [last], enabled a) ∧ P := by
  constructor
  · intro traceless
    obtain ⟨s', alone, ran⟩ := traceless
    have all := (run_isSome_iff steps).mp (Option.isSome_of_eq_some ran)
    obtain ⟨t, before, action⟩ := run_concat_some step |>.mp ran
    exact ⟨all, (agree (all last (by simp)) t before).mp (action.trans alone.symm)⟩
  · intro clean
    obtain ⟨all, same⟩ := clean
    obtain ⟨s', ran⟩ := Option.isSome_iff_exists.mp ((run_isSome_iff steps (s := s)).mpr all)
    obtain ⟨t, before, action⟩ := run_concat_some step |>.mp ran
    exact ⟨s', (agree (all last (by simp)) t before).mpr same ▸ action, ran⟩

end

theorem leavesNoTrace_iff_of_total {σ α : Type*} {step : Machine σ α}
    (total : ∀ s a, (step s a).isSome) {s : σ} {events : List α} {last : α} {P : Prop}
    (agree : ∀ s', run step s events = some s' → (step s' last = step s last ↔ P)) :
    LeavesNoTrace step s events last ↔ P := by
  have steps : ∀ s a, (step s a).isSome ↔ True := by simp [total]
  rw [leavesNoTrace_iff steps fun _ => agree]
  simp

end SocialApp.Library
