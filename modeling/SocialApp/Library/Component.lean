import Mathlib.Data.List.Basic
import SocialApp.Library.Machine

/-!
# Components of a state

A component is a part of the state on which each event has an effect of its own, whatever the rest
of the state is. A run leaves in it what the effects of its events make of it, one after another.
Two runs in which each component meets the same effects end alike, however the events of different
components are interleaved.
-/

namespace SocialApp.Library
open Machine

structure Component {σ ε : Type*} (step : Machine σ ε) (β : Type*) where
  value : σ → β
  effect : ε → Option (β → β)
  moves : ∀ {s e s'}, step s e = some s' → value s' = (effect e).elim (value s) (· (value s))

namespace Component
variable {σ ε β : Type*} {step : Machine σ ε} (component : Component step β)

def replay (b : β) (events : List ε) : β :=
  (events.filterMap component.effect).foldl (fun b effect => effect b) b

theorem replay_cons (b : β) (e : ε) (events : List ε) :
    component.replay b (e :: events) =
      component.replay ((component.effect e).elim b (· b)) events := by
  unfold replay
  cases action : component.effect e with
  | none => rw [List.filterMap_cons_none action, Option.elim_none]
  | some effect => rw [List.filterMap_cons_some action, List.foldl_cons, Option.elim_some]

theorem value_run {s s' : σ} {events : List ε} (ran : run step s events = some s') :
    component.value s' = component.replay (component.value s) events := by
  induction events generalizing s with
  | nil =>
      simp only [run_nil, Option.some.injEq] at ran
      rw [ran]
      rfl
  | cons e events ih =>
      obtain ⟨t, action, rest⟩ := Option.bind_eq_some_iff.mp ran
      rw [ih rest, component.moves action, replay_cons]

/-- The events that have an effect on the component. -/
def touching (events : List ε) : List ε :=
  events.filter fun e => (component.effect e).isSome

theorem replay_touching (b : β) (events : List ε) :
    component.replay b (component.touching events) = component.replay b events := by
  have same : (component.touching events).filterMap component.effect =
      events.filterMap component.effect := by
    rw [touching, List.filterMap_filter]
    apply List.filterMap_congr
    intro e _
    cases component.effect e <;> rfl
  rw [replay, replay, same]

theorem value_congr {s t u : σ} {events others : List ε}
    (same : component.touching events = component.touching others)
    (ran : run step s events = some t) (ran' : run step s others = some u) :
    component.value t = component.value u := by
  rw [component.value_run ran, component.value_run ran', ← component.replay_touching, same,
    component.replay_touching]

end Component
end SocialApp.Library
