import Mathlib.Data.List.Chain

/-!
# Runs of partial step functions

A machine steps on events; `none` says that the event cannot happen in that state (or that it
ends the run). Properties of whole runs are stated in three ways: of every step taken (`Along`),
of every state visited (`Visits`), and of the list of states itself (`visited`).
-/

namespace SocialApp.Library

abbrev Machine (σ ε : Type*) := σ → ε → Option σ

namespace Machine
variable {σ ε ο : Type*} (step : Machine σ ε)

def run : σ → List ε → Option σ
  | s, [] => some s
  | s, e :: es => (step s e).bind fun s' => run s' es

@[simp] theorem run_nil (s : σ) : run step s [] = some s := rfl

@[simp] theorem run_cons (s : σ) (e : ε) (es : List ε) :
    run step s (e :: es) = (step s e).bind fun s' => run step s' es := rfl

theorem run_append (s : σ) (es fs : List ε) :
    run step s (es ++ fs) = (run step s es).bind fun s' => run step s' fs := by
  induction es generalizing s with
  | nil => rfl
  | cons e es ih => simp only [List.cons_append, run_cons, ih, Option.bind_assoc]

theorem run_map {δ : Type*} (f : δ → ε) (s : σ) (ds : List δ) :
    run step s (ds.map f) = run (fun s d => step s (f d)) s ds := by
  induction ds generalizing s with
  | nil => rfl
  | cons d ds ih => simp only [List.map_cons, run_cons, ih]

theorem run_concat_some {s u : σ} {es : List ε} {e : ε} :
    run step s (es ++ [e]) = some u ↔ ∃ t, run step s es = some t ∧ step t e = some u := by
  simp [run_append, Option.bind_eq_some_iff]

theorem run_eq_foldlM (s : σ) (es : List ε) : run step s es = es.foldlM step s := by
  induction es generalizing s with
  | nil => rfl
  | cons e es ih =>
      rw [run_cons, List.foldlM_cons, Option.bind_eq_bind]
      exact Option.bind_congr fun s' _ => ih s'

variable {step} in
theorem run_congr {other : Machine σ ε} {es : List ε}
    (same : ∀ s, ∀ e ∈ es, step s e = other s e) (s : σ) : run step s es = run other s es := by
  induction es generalizing s with
  | nil => rfl
  | cons e es ih =>
      rw [run_cons, run_cons, same s e List.mem_cons_self]
      apply Option.bind_congr
      intro t _
      exact ih (fun s f member => same s f (List.mem_cons_of_mem e member)) t

def Along (P : σ → ε → Prop) : σ → List ε → Prop
  | _, [] => True
  | s, e :: es => P s e ∧ ∀ s', step s e = some s' → Along P s' es

/-- Every state of the run satisfies `P`, the first and the last included. -/
def Visits (P : σ → Prop) : σ → List ε → Prop
  | s, [] => P s
  | s, e :: es => P s ∧ ∀ s', step s e = some s' → Visits P s' es

def visited : σ → List ε → List σ
  | s, [] => [s]
  | s, e :: es => s :: (step s e).elim [] fun s' => visited s' es

variable {step}

/-- A machine that never blocks but on events that are not enabled. -/
theorem run_isSome_iff {enabled : ε → Prop} (steps : ∀ s e, (step s e).isSome ↔ enabled e) {s : σ}
    {es : List ε} : (run step s es).isSome ↔ ∀ e ∈ es, enabled e := by
  induction es generalizing s with
  | nil => simp
  | cons e es ih =>
      have first := steps s e
      cases action : step s e with
      | none =>
          simp only [action, Option.isSome_none, Bool.false_eq_true, false_iff] at first
          simp [action, first]
      | some t =>
          simp only [action, Option.isSome_some, true_iff] at first
          simp [action, first, ih]

/-! ## Invariants -/

theorem run_invariant {I : σ → Prop} (preserved : ∀ s e s', I s → step s e = some s' → I s')
    {s s' : σ} {es : List ε} (holds : I s) (ran : run step s es = some s') : I s' := by
  induction es generalizing s with
  | nil => simp only [run_nil, Option.some.injEq] at ran; exact ran ▸ holds
  | cons e es ih =>
      obtain ⟨t, action, rest⟩ := Option.bind_eq_some_iff.mp ran
      exact ih (preserved s e t holds action) rest

theorem run_invariant_along {I : σ → Prop} {P : σ → ε → Prop}
    (preserved : ∀ s e s', I s → P s e → step s e = some s' → I s') {s s' : σ} {es : List ε}
    (holds : I s) (along : Along step P s es) (ran : run step s es = some s') : I s' := by
  induction es generalizing s with
  | nil => simp only [run_nil, Option.some.injEq] at ran; exact ran ▸ holds
  | cons e es ih =>
      obtain ⟨first, later⟩ := along
      obtain ⟨t, action, rest⟩ := Option.bind_eq_some_iff.mp ran
      exact ih (preserved s e t holds first action) (later t action) rest

theorem along_of_invariant {I : σ → Prop} {E : ε → Prop} {P : σ → ε → Prop}
    (preserved : ∀ s e s', I s → E e → step s e = some s' → I s')
    (meets : ∀ s e, I s → E e → P s e) {s : σ} (holds : I s) {es : List ε}
    (events : ∀ e ∈ es, E e) : Along step P s es := by
  induction es generalizing s with
  | nil => trivial
  | cons e es ih =>
      have first := events e List.mem_cons_self
      refine ⟨meets s e holds first, ?_⟩
      intro s' action
      exact ih (preserved s e s' holds first action) fun f member =>
        events f (List.mem_cons_of_mem _ member)

theorem run_isSome_of_along {I : σ → Prop} {P : σ → ε → Prop}
    (progress : ∀ s e, I s → P s e → (step s e).isSome)
    (preserved : ∀ s e s', I s → P s e → step s e = some s' → I s') {s : σ} {es : List ε}
    (holds : I s) (along : Along step P s es) :
    ∃ s', run step s es = some s' ∧ I s' := by
  induction es generalizing s with
  | nil => exact ⟨s, rfl, holds⟩
  | cons e es ih =>
      obtain ⟨first, later⟩ := along
      obtain ⟨t, action⟩ := Option.isSome_iff_exists.mp (progress s e holds first)
      obtain ⟨u, ran, kept⟩ := ih (preserved s e t holds first action) (later t action)
      exact ⟨u, by simp [action, ran], kept⟩

theorem along_congr {I : σ → Prop} {P Q : σ → ε → Prop}
    (preserved : ∀ s e s', I s → step s e = some s' → I s')
    (agree : ∀ s e, I s → (P s e ↔ Q s e)) {s : σ} (holds : I s) (es : List ε) :
    Along step P s es ↔ Along step Q s es := by
  induction es generalizing s with
  | nil => exact Iff.rfl
  | cons e es ih =>
      simp only [Along, agree s e holds]
      refine and_congr_right fun _ => forall_congr' fun s' => ?_
      exact forall_congr' fun action => ih (preserved s e s' holds action)

/-- Where `P` survives exactly the steps that meet `Q`, it holds all along exactly the runs
that meet `Q` at every step. -/
theorem visits_iff_along {P : σ → Prop} {Q : σ → ε → Prop}
    (survives : ∀ s e s', P s → step s e = some s' → (P s' ↔ Q s e))
    (disabled : ∀ s e, step s e = none → Q s e) {s : σ} (holds : P s) (es : List ε) :
    Visits step P s es ↔ Along step Q s es := by
  induction es generalizing s with
  | nil => exact ⟨fun _ => trivial, fun _ => holds⟩
  | cons e es ih =>
      simp only [Visits, Along, holds, true_and]
      cases action : step s e with
      | none => simp [disabled s e action]
      | some t =>
          simp only [Option.some.injEq, forall_eq']
          constructor
          · intro visits
            have here : P t := by cases es <;> first | exact visits | exact visits.1
            exact ⟨(survives s e t holds action).mp here, (ih here).mp visits⟩
          · intro run
            obtain ⟨meets, along⟩ := run
            exact (ih ((survives s e t holds action).mpr meets)).mpr along

theorem along_iff_prefix {P : σ → ε → Prop} {s : σ} {es : List ε} :
    Along step P s es ↔
      ∀ before e after s', es = before ++ e :: after → run step s before = some s' → P s' e := by
  induction es generalizing s with
  | nil => simp [Along]
  | cons f fs ih =>
      simp only [Along, ih]
      constructor
      · intro along before e after s' split ran
        obtain ⟨first, later⟩ := along
        cases before with
        | nil =>
            simp only [List.nil_append, List.cons.injEq] at split
            simp only [run_nil, Option.some.injEq] at ran
            exact ran ▸ split.1 ▸ first
        | cons g before =>
            simp only [List.cons_append, List.cons.injEq] at split
            obtain ⟨rfl, tail⟩ := split
            obtain ⟨t, action, rest⟩ := Option.bind_eq_some_iff.mp ran
            exact later t action before e after s' tail rest
      · intro all
        refine ⟨all [] f fs s rfl rfl, ?_⟩
        intro t action before e after s' split ran
        exact all (f :: before) e after s' (by simp [split]) (by simp [action, ran])

/-! ## States read off the events -/

theorem filterMap_singleton {α β : Type*} (f : α → Option β) (a : α) :
    [a].filterMap f = (f a).toList := by
  cases value : f a with
  | none => rw [List.filterMap_cons_none value, List.filterMap_nil, Option.toList_none]
  | some b => rw [List.filterMap_cons_some value, List.filterMap_nil, Option.toList_some]

theorem prefixes_concat {P : List ε → ε → Prop} {es : List ε} {e : ε} :
    (∀ before f after, es ++ [e] = before ++ f :: after → P before f) ↔
      (∀ before f after, es = before ++ f :: after → P before f) ∧ P es e := by
  constructor
  · intro all
    refine ⟨?_, all es e [] rfl⟩
    intro before f after split
    exact all before f (after ++ [e]) (by simp [split])
  · intro both before f after split
    rcases List.eq_nil_or_concat after with rfl | ⟨after', last, rfl⟩
    · obtain ⟨rfl, same⟩ := List.append_inj' split rfl
      cases same
      exact both.2
    · rw [List.concat_eq_append, ← List.cons_append, ← List.append_assoc] at split
      exact both.1 before f after' (List.append_inj' split rfl).1

theorem prefixes_filterMap {α β : Type*} {f : α → Option β} {P : List β → β → Prop} {as : List α}
    (all : ∀ before a after, as = before ++ a :: after →
      ∀ b, f a = some b → P (before.filterMap f) b) :
    ∀ before b after, as.filterMap f = before ++ b :: after → P before b := by
  induction as using List.reverseRecOn with
  | nil => simp
  | append_singleton as a ih =>
      obtain ⟨earlier, last⟩ := prefixes_concat.mp all
      rw [List.filterMap_append, filterMap_singleton]
      cases value : f a with
      | none => simpa using ih earlier
      | some b => exact prefixes_concat.mpr ⟨ih earlier, last b value⟩

/-- Where each step leads to the state of a longer history, so do whole runs. -/
theorem run_some_iff_history {h : List ε → σ} {P : List ε → ε → Prop} {s t : σ} (start : s = h [])
    (steps : ∀ before e t, (∀ earlier f later, before = earlier ++ f :: later → P earlier f) →
      (step (h before) e = some t ↔ P before e ∧ t = h (before ++ [e]))) {es : List ε} :
    run step s es = some t ↔
      (∀ before e after, es = before ++ e :: after → P before e) ∧ t = h es := by
  induction es using List.reverseRecOn generalizing t with
  | nil => simp [start, eq_comm]
  | append_singleton es e ih =>
      rw [run_concat_some, prefixes_concat]
      constructor
      · intro ran
        obtain ⟨u, before, action⟩ := ran
        obtain ⟨passed, rfl⟩ := ih.mp before
        obtain ⟨passes, final⟩ := (steps es e t passed).mp action
        exact ⟨⟨passed, passes⟩, final⟩
      · intro passed
        obtain ⟨⟨passed, passes⟩, final⟩ := passed
        exact ⟨h es, ih.mpr ⟨passed, rfl⟩, (steps es e t passed).mpr ⟨passes, final⟩⟩

/-! ## The visited states -/

theorem isChain_visited_iff {R : σ → σ → Prop} {s : σ} {es : List ε} :
    (visited step s es).IsChain R ↔
      Along step (fun s e => ∀ s', step s e = some s' → R s s') s es := by
  induction es generalizing s with
  | nil => simp [visited, Along]
  | cons e es ih =>
      cases action : step s e with
      | none => simp [visited, Along, action]
      | some t =>
          have head : visited step s (e :: es) = s :: visited step t es := by simp [visited, action]
          obtain ⟨rest, later⟩ : ∃ rest, visited step t es = t :: rest := by
            cases es <;> exact ⟨_, rfl⟩
          simp only [Along, action, Option.some.injEq, forall_eq', ← ih, head, later,
            List.isChain_cons_cons]

/-! ## Quiescence -/

variable (step) in
def Quiescent (s : σ) : Prop := ∀ e, step s e = none

theorem exists_quiescent (measure : σ → Nat)
    (decreases : ∀ s e s', step s e = some s' → measure s' < measure s) (s : σ) :
    ∃ es s', run step s es = some s' ∧ Quiescent step s' := by
  induction h : measure s using Nat.strongRecOn generalizing s with
  | ind n ih =>
      by_cases rest : Quiescent step s
      · exact ⟨[], s, rfl, rest⟩
      · simp only [Quiescent, not_forall, ← ne_eq, Option.ne_none_iff_exists'] at rest
        obtain ⟨e, t, action⟩ := rest
        obtain ⟨es, u, ran, rests⟩ := ih _ (h ▸ decreases s e t action) t rfl
        exact ⟨e :: es, u, by simp [action, ran], rests⟩

theorem run_length_le (measure : σ → Nat)
    (decreases : ∀ s e s', step s e = some s' → measure s' < measure s) {s s' : σ} {es : List ε}
    (ran : run step s es = some s') : es.length ≤ measure s := by
  induction es generalizing s with
  | nil => exact Nat.zero_le _
  | cons e es ih =>
      obtain ⟨t, action, rest⟩ := Option.bind_eq_some_iff.mp ran
      have first := decreases s e t action
      have later := ih rest
      rw [List.length_cons]
      omega

/-! ## Observations of two runs -/

def observations (step : Machine σ ε) (observe : σ → ο) (s : σ) (es : List ε) : List ο :=
  (visited step s es).map observe

theorem observations_congr {observe : σ → ο} {R : σ → σ → Prop}
    (same : ∀ s t, R s t → observe s = observe t)
    (simulates : ∀ s t e, R s t → Option.Rel R (step s e) (step t e))
    {s t : σ} (related : R s t) (es : List ε) :
    observations step observe s es = observations step observe t es := by
  induction es generalizing s t with
  | nil => simp [observations, visited, same s t related]
  | cons e es ih =>
      have stepped := simulates s t e related
      simp only [observations, visited, List.map_cons, same s t related]
      congr 1
      cases hs : step s e with
      | none =>
          rw [hs] at stepped
          cases ht : step t e with
          | none => rfl
          | some t' => rw [ht] at stepped; cases stepped
      | some s' =>
          rw [hs] at stepped
          cases ht : step t e with
          | none => rw [ht] at stepped; cases stepped
          | some t' =>
              rw [ht] at stepped
              cases stepped with
              | some next => simpa [observations] using ih next

end Machine
end SocialApp.Library
