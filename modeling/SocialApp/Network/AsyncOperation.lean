import SocialApp.Foundation.Text
import SocialApp.Library.Machine

/-!
# The life cycle of an asynchronous operation

`start` tests for cancellation, calls `main` and only then sets `.executing`. The response callback
of a `NetworkOperation` sets `.finished` on another queue, and `cancel` may come at any time.
-/

namespace SocialApp.Network
open Library Foundation

inductive OperationState
  | ready
  | executing
  | finished
  deriving DecidableEq

def OperationState.rank : OperationState → Nat
  | ready => 0
  | executing => 1
  | finished => 2

inductive StartPhase
  | notStarted
  | notCancelled
  | cancelled
  | mainReturned
  | returned
  deriving DecidableEq

inductive CallbackPhase
  | unregistered
  | registered
  | dataStored
  | returned
  deriving DecidableEq

structure AsyncOperation where
  state : OperationState := .ready
  isCancelled : Bool := false
  start : StartPhase := .notStarted
  callback : CallbackPhase := .unregistered
  data : Option Data := none
  deriving DecidableEq

/-- `AsyncOperation` and its subclasses. They override `start` and `cancel` with the same bodies. -/
inductive OperationClass
  | async
  | network
  | downloadingAvatars
  deriving DecidableEq

def OperationClass.main : OperationClass → AsyncOperation → AsyncOperation
  | network, operation => { operation with callback := .registered }
  | async, operation | downloadingAvatars, operation => operation

inductive OperationStep
  | testIsCancelled
  | setFinished
  | runMain
  | setExecuting
  | storeData (data : Option Data)
  | callbackFinishes
  | cancel
  deriving DecidableEq

def OperationClass.step (cls : OperationClass) : Machine AsyncOperation OperationStep
  | operation, .testIsCancelled =>
      if operation.start = .notStarted then
        some { operation with start := if operation.isCancelled then .cancelled else .notCancelled }
      else none
  | operation, .setFinished =>
      if operation.start = .cancelled then
        some { operation with start := .returned, state := .finished }
      else none
  | operation, .runMain =>
      if operation.start = .notCancelled then
        some { cls.main operation with start := .mainReturned }
      else none
  | operation, .setExecuting =>
      if operation.start = .mainReturned then
        some { operation with start := .returned, state := .executing }
      else none
  | operation, .storeData data =>
      if operation.callback = .registered then
        some { operation with data := data, callback := .dataStored }
      else none
  | operation, .callbackFinishes =>
      if operation.callback = .dataStored then
        some { operation with callback := .returned, state := .finished }
      else none
  | operation, .cancel => some { operation with isCancelled := true, state := .finished }

variable (cls : OperationClass)

@[simp] theorem main_state (operation : AsyncOperation) :
    (cls.main operation).state = operation.state := by cases cls <;> rfl

variable {cls} in
theorem step_some {operation next : AsyncOperation} {step : OperationStep}
    (action : cls.step operation step = some next) :
    match step with
    | .testIsCancelled => operation.start = .notStarted ∧
        next = { operation with start := if operation.isCancelled then .cancelled else .notCancelled }
    | .setFinished => operation.start = .cancelled ∧
        next = { operation with start := .returned, state := .finished }
    | .runMain => operation.start = .notCancelled ∧
        next = { cls.main operation with start := .mainReturned }
    | .setExecuting => operation.start = .mainReturned ∧
        next = { operation with start := .returned, state := .executing }
    | .storeData data => operation.callback = .registered ∧
        next = { operation with data := data, callback := .dataStored }
    | .callbackFinishes => operation.callback = .dataStored ∧
        next = { operation with callback := .returned, state := .finished }
    | .cancel => next = { operation with isCancelled := true, state := .finished } := by
  cases step with
  | cancel => exact (Option.some.inj action).symm
  | _ =>
      simp only [OperationClass.step, Option.ite_none_right_eq_some, Option.some.injEq] at action
      exact ⟨action.1, action.2.symm⟩

/-! ## Specification -/

def NeverBack (steps : List OperationStep) : Prop :=
  ((Machine.visited cls.step {} steps).map fun operation => operation.state.rank).Pairwise (· ≤ ·)

/-- Between the test of `isCancelled` and the last step of `start`, neither does the callback
finish the operation nor is it cancelled. -/
def Undisturbed (steps : List OperationStep) : Prop :=
  ∀ before during after, steps = before ++ .testIsCancelled :: (during ++ .setExecuting :: after) →
    .callbackFinishes ∉ during ∧ .cancel ∉ during

structure History (steps : List OperationStep) (operation : AsyncOperation) : Prop where
  notStarted : operation.start = .notStarted → .testIsCancelled ∉ steps ∧
    operation.callback = .unregistered ∧ (operation.state = .finished → operation.isCancelled)
  inStart : operation.start = .notCancelled ∨ operation.start = .mainReturned →
    ∃ before during, steps = before ++ .testIsCancelled :: during ∧
      .testIsCancelled ∉ before ∧ .testIsCancelled ∉ during ∧
      (operation.state = .finished ↔ .callbackFinishes ∈ during ∨ .cancel ∈ during)

variable {cls}

theorem History.later {steps : List OperationStep} {operation next : AsyncOperation}
    {step : OperationStep} (history : History steps operation)
    (same : next.start = .notCancelled ∨ next.start = .mainReturned →
      operation.start = .notCancelled ∨ operation.start = .mainReturned)
    (other : step ≠ .testIsCancelled)
    (finishes : next.state = .finished ↔
      operation.state = .finished ∨ step = .callbackFinishes ∨ step = .cancel) :
    next.start = .notCancelled ∨ next.start = .mainReturned →
      ∃ before during, steps ++ [step] = before ++ .testIsCancelled :: during ∧
        .testIsCancelled ∉ before ∧ .testIsCancelled ∉ during ∧
        (next.state = .finished ↔ .callbackFinishes ∈ during ∨ .cancel ∈ during) := by
  intro inside
  obtain ⟨before, during, split, fresh, only, state⟩ := history.inStart (same inside)
  refine ⟨before, during ++ [step], by simp [split], fresh, by simp [only, other.symm], ?_⟩
  rw [finishes, state]
  simp only [List.mem_append, List.mem_singleton, @eq_comm _ step]
  exact or_or_or_comm

theorem History.step {steps : List OperationStep} {operation next : AsyncOperation}
    {step : OperationStep} (history : History steps operation)
    (action : cls.step operation step = some next) : History (steps ++ [step]) next := by
  cases step with
  | testIsCancelled =>
      obtain ⟨start, rfl⟩ := step_some action
      obtain ⟨fresh, _, cancelled⟩ := history.notStarted start
      refine ⟨by cases operation.isCancelled <;> simp, fun inside => ?_⟩
      refine ⟨steps, [], rfl, fresh, by simp, ?_⟩
      have running : operation.isCancelled = false := by
        cases h : operation.isCancelled
        · rfl
        · simp [h] at inside
      have open_state : operation.state ≠ .finished := by
        intro finished
        rw [running] at cancelled
        cases cancelled finished
      simp [open_state]
  | setFinished =>
      obtain ⟨_, rfl⟩ := step_some action
      exact ⟨by simp, by simp⟩
  | runMain =>
      obtain ⟨start, rfl⟩ := step_some action
      exact ⟨by simp, history.later (fun _ => Or.inl start) (by simp) (by simp)⟩
  | setExecuting =>
      obtain ⟨_, rfl⟩ := step_some action
      exact ⟨by simp, by simp⟩
  | storeData data =>
      obtain ⟨registered, rfl⟩ := step_some action
      refine ⟨fun start => ?_, history.later id (by simp) (by simp)⟩
      simp [(history.notStarted start).2.1] at registered
  | callbackFinishes =>
      obtain ⟨stored, rfl⟩ := step_some action
      refine ⟨fun start => ?_, history.later id (by simp) (by simp)⟩
      simp [(history.notStarted start).2.1] at stored
  | cancel =>
      cases action
      refine ⟨fun start => ?_, history.later id (by simp) (by simp)⟩
      obtain ⟨fresh, callback, _⟩ := history.notStarted start
      exact ⟨by simp [fresh], callback, fun _ => rfl⟩

theorem history_of_run {steps : List OperationStep} {operation : AsyncOperation}
    (ran : Machine.run cls.step {} steps = some operation) : History steps operation := by
  induction steps using List.reverseRecOn generalizing operation with
  | nil =>
      simp only [Machine.run_nil, Option.some.injEq] at ran
      subst ran
      exact ⟨by simp, by simp⟩
  | append_singleton steps step ih =>
      obtain ⟨previous, ran, action⟩ := (Machine.run_concat_some cls.step).mp ran
      exact (ih ran).step action

theorem forward_iff {operation next : AsyncOperation} {step : OperationStep}
    (action : cls.step operation step = some next) :
    operation.state.rank ≤ next.state.rank ↔
      (step = .setExecuting → operation.state ≠ .finished) := by
  cases step with
  | testIsCancelled | runMain | storeData data =>
      obtain ⟨_, rfl⟩ := step_some action
      simp
  | setFinished | callbackFinishes | setExecuting =>
      obtain ⟨_, rfl⟩ := step_some action
      cases operation.state <;> simp [OperationState.rank]
  | cancel =>
      cases action
      cases operation.state <;> simp [OperationState.rank]

theorem neverBack_iff {steps : List OperationStep} :
    NeverBack cls steps ↔ ∀ before step after operation next,
      steps = before ++ step :: after → Machine.run cls.step {} before = some operation →
        cls.step operation step = some next → step = .setExecuting → operation.state ≠ .finished := by
  rw [NeverBack, ← List.isChain_iff_pairwise, List.isChain_map, Machine.isChain_visited_iff,
    Machine.along_iff_prefix]
  constructor
  · intro along before step after operation next split ran action
    exact (forward_iff action).mp (along before step after operation split ran next action)
  · intro all before step after operation split ran next action
    exact (forward_iff action).mpr (all before step after operation next split ran action)

theorem finished_iff_disturbed {before during : List OperationStep} {operation : AsyncOperation}
    (ran : Machine.run cls.step {} (before ++ .testIsCancelled :: during) = some operation)
    (start : operation.start = .mainReturned) :
    operation.state = .finished ↔ .callbackFinishes ∈ during ∨ .cancel ∈ during := by
  obtain ⟨before', during', split, fresh, only, state⟩ := (history_of_run ran).inStart (Or.inr start)
  obtain ⟨_, _, rfl⟩ := (List.append_cons_inj_of_notMem fresh only).mp split.symm
  exact state

theorem life_cycle_iff {steps : List OperationStep} {last : AsyncOperation}
    (ran : Machine.run cls.step {} steps = some last) :
    NeverBack cls steps ↔ Undisturbed steps := by
  rw [neverBack_iff]
  constructor
  · intro forward before during after split
    have split' : steps = (before ++ .testIsCancelled :: during) ++ .setExecuting :: after := by
      simp [split]
    rw [split', Machine.run_append] at ran
    obtain ⟨operation, inside, rest⟩ := Option.bind_eq_some_iff.mp ran
    obtain ⟨next, action, _⟩ := Option.bind_eq_some_iff.mp rest
    have start : operation.start = .mainReturned := by
      by_contra other
      simp [OperationClass.step, other] at action
    have open_state := forward _ _ _ _ _ split' inside action rfl
    rw [ne_eq, finished_iff_disturbed inside start, not_or] at open_state
    exact open_state
  · rintro undisturbed before step after operation next split inside action rfl
    have start : operation.start = .mainReturned := by
      by_contra other
      simp [OperationClass.step, other] at action
    obtain ⟨before', during, rfl, _⟩ := (history_of_run inside).inStart (Or.inr start)
    rw [ne_eq, finished_iff_disturbed inside start, not_or]
    exact undisturbed before' during after (by simp [split])

def quietRun : List OperationStep :=
  [.testIsCancelled, .runMain, .setExecuting, .storeData none, .callbackFinishes]

theorem life_cycle_quiet : Undisturbed quietRun := by
  have ran : Machine.run OperationClass.network.step {} quietRun =
      some { state := .finished, start := .returned, callback := .returned } := by decide
  exact (life_cycle_iff ran).mp (by unfold NeverBack; decide)

theorem early_response_moves_back :
    ¬ ∀ (cls : OperationClass) (steps : List OperationStep) (last : AsyncOperation),
      Machine.run cls.step {} steps = some last → NeverBack cls steps := by
  intro all
  have forward := all .network
    [.testIsCancelled, .runMain, .storeData none, .callbackFinishes, .setExecuting]
    { state := .executing, start := .returned, callback := .returned } (by decide)
  exact absurd forward (by unfold NeverBack; decide)

end SocialApp.Network
