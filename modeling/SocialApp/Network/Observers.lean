import Mathlib.Logic.Function.Basic
import SocialApp.Network.AsyncOperation

/-!
# What the observers of an operation are told

The setter of `state` announces a change of two key paths, stores the new value and reports the
change, and observers then read the properties. `start`, the response callback and `cancel` run on
threads of their own, so that the setter of one may run in the middle of another's.
-/

namespace SocialApp.Network
open Library Foundation

namespace OperationState

def rawValue : OperationState → String
  | ready => "ready"
  | executing => "executing"
  | finished => "finished"

def keyPath (state : OperationState) : String := "is" ++ state.rawValue.capitalize

def value (superIsReady : Bool) (state : OperationState) (key : String) : Bool :=
  if key = "isReady" then superIsReady && state = .ready
  else if key = "isExecuting" then state = .executing
  else if key = "isFinished" then state = .finished
  else false

theorem value_of_ne {superIsReady : Bool} {state : OperationState} {key : String}
    (other : key ≠ state.keyPath) : state.value superIsReady key = false := by
  have ready : OperationState.ready.keyPath = "isReady" := by decide
  have executing : OperationState.executing.keyPath = "isExecuting" := by decide
  have finished : OperationState.finished.keyPath = "isFinished" := by decide
  cases state <;> simp_all [value]

theorem value_updates (superIsReady : Bool) (oldValue newValue : OperationState) :
    Function.update
      (Function.update (oldValue.value superIsReady) newValue.keyPath
        (newValue.value superIsReady newValue.keyPath))
      oldValue.keyPath (newValue.value superIsReady oldValue.keyPath) =
    newValue.value superIsReady := by
  funext key
  by_cases old : key = oldValue.keyPath
  · rw [old, Function.update_self]
  · rw [Function.update_of_ne old]
    by_cases new : key = newValue.keyPath
    · rw [new, Function.update_self]
    · rw [Function.update_of_ne new, value_of_ne old, value_of_ne new]

theorem value_finished {superIsReady : Bool} {state : OperationState} :
    state.value superIsReady "isFinished" ↔ state = .finished := by
  cases state <;> simp [value]

end OperationState

/-- `cancel` may be called any number of times. -/
inductive Thread
  | start
  | callback
  | cancel (call : Nat)
  deriving DecidableEq

inductive SetterPhase
  | entered
  | oldAnnounced
  | newAnnounced
  | stored
  | newReported
  deriving DecidableEq

def SetterPhase.hasStored : SetterPhase → Bool
  | entered | oldAnnounced | newAnnounced => false
  | stored | newReported => true

structure Setter where
  oldValue : OperationState
  newValue : OperationState
  phase : SetterPhase := .entered

def Setter.pending (running : Setter) : List String :=
  match running.phase with
  | .entered => []
  | .oldAnnounced | .newReported => [running.oldValue.keyPath]
  | .newAnnounced | .stored => [running.newValue.keyPath, running.oldValue.keyPath]

def OperationStep.setsState : OperationStep → Bool
  | testIsCancelled | runMain | storeData _ => false
  | setFinished | setExecuting | callbackFinishes | cancel => true

/-- For each key, `told` is what an observer read last and `announced` counts the announced changes
that are not reported yet. -/
structure Observed where
  operation : AsyncOperation
  setters : Thread → Option Setter
  announced : String → Int
  told : String → Bool

inductive ObservedStep
  | step (step : OperationStep)
  | superCancel
  | assign (thread : Thread)
  | proceed (thread : Thread)

namespace AsyncOperation

def assigns (operation : AsyncOperation) : Thread → Option OperationState
  | .start =>
      match operation.start with
      | .cancelled => some .finished
      | .mainReturned => some .executing
      | _ => none
  | .callback => if operation.callback = .dataStored then some .finished else none
  | .cancel _ => if operation.isCancelled then some .finished else none

def stores (operation : AsyncOperation) (newValue : OperationState) : Thread → AsyncOperation
  | .start => { operation with state := newValue, start := .returned }
  | .callback => { operation with state := newValue, callback := .returned }
  | .cancel _ => { operation with state := newValue }

@[simp] theorem stores_state (operation : AsyncOperation) (newValue : OperationState)
    (thread : Thread) : (operation.stores newValue thread).state = newValue := by
  cases thread <;> rfl

theorem assigns_stores {operation : AsyncOperation} {newValue : OperationState}
    {thread other : Thread} (apart : other ≠ thread) :
    (operation.stores newValue thread).assigns other = operation.assigns other := by
  cases thread <;> cases other <;> first | rfl | exact absurd rfl apart

end AsyncOperation

namespace Observed

def initial (superIsReady : Bool) : Observed where
  operation := {}
  setters := fun _ => none
  announced := fun _ => 0
  told := OperationState.ready.value superIsReady

def willChangeValue (forKey : String) (observed : Observed) : Observed :=
  { observed with
    announced := Function.update observed.announced forKey (observed.announced forKey + 1) }

variable (superIsReady : Bool) (cls : OperationClass)

def didChangeValue (forKey : String) (observed : Observed) : Observed :=
  { observed with
    announced := Function.update observed.announced forKey (observed.announced forKey - 1)
    told := Function.update observed.told forKey
      (observed.operation.state.value superIsReady forKey) }

@[simp] theorem didChangeValue_told (key : String) (observed : Observed) :
    (didChangeValue superIsReady key observed).told =
      Function.update observed.told key (observed.operation.state.value superIsReady key) := rfl

def setter (thread : Thread) (setter : Option Setter) (observed : Observed) : Observed :=
  { observed with setters := Function.update observed.setters thread setter }

/-- `willSet`, the assignment and `didSet`, one call after the other. -/
def proceed (thread : Thread) (observed : Observed) (running : Setter) : Observed :=
  match running.phase with
  | .entered =>
      (observed.willChangeValue observed.operation.state.keyPath).setter thread
        (some { running with phase := .oldAnnounced })
  | .oldAnnounced =>
      (observed.willChangeValue running.newValue.keyPath).setter thread
        (some { running with phase := .newAnnounced })
  | .newAnnounced =>
      { observed with operation := observed.operation.stores running.newValue thread }.setter thread
        (some { running with phase := .stored })
  | .stored =>
      (didChangeValue superIsReady observed.operation.state.keyPath observed).setter thread
        (some { running with phase := .newReported })
  | .newReported =>
      (didChangeValue superIsReady running.oldValue.keyPath observed).setter thread none

def step : Machine Observed ObservedStep
  | observed, .step step =>
      if step.setsState then none
      else (cls.step observed.operation step).map fun operation => { observed with operation }
  | observed, .superCancel =>
      some { observed with operation := { observed.operation with isCancelled := true } }
  | observed, .assign thread =>
      if (observed.setters thread).isSome then none
      else (observed.operation.assigns thread).map fun newValue =>
        observed.setter thread (some { oldValue := observed.operation.state, newValue })
  | observed, .proceed thread =>
      (observed.setters thread).map (observed.proceed superIsReady thread)

/-! ## Specification -/

def Quiet (observed : Observed) : Prop := ∀ thread, observed.setters thread = none

def Excused (operation : AsyncOperation) : Prop :=
  operation.callback = .dataStored ∨ operation.callback = .returned ∨ operation.isCancelled

def OneByOne (observed : Observed) : ObservedStep → Prop
  | .assign _ => observed.Quiet
  | _ => True

structure UpToDate (observed : Observed) : Prop where
  told : observed.told = observed.operation.state.value superIsReady
  announced : observed.announced = fun _ => 0

inductive Moves (observed : Observed) : ObservedStep → Observed → Prop
  | step {step : OperationStep} {operation : AsyncOperation} (plain : step.setsState = false)
      (action : cls.step observed.operation step = some operation) :
      Moves observed (.step step) { observed with operation }
  | superCancel :
      Moves observed .superCancel
        { observed with operation := { observed.operation with isCancelled := true } }
  | assign {thread : Thread} {newValue : OperationState} (free : observed.setters thread = none)
      (assigns : observed.operation.assigns thread = some newValue) :
      Moves observed (.assign thread)
        (observed.setter thread (some { oldValue := observed.operation.state, newValue }))
  | proceed {thread : Thread} {running : Setter} (runs : observed.setters thread = some running) :
      Moves observed (.proceed thread) (observed.proceed superIsReady thread running)

theorem moves_of_step {observed next : Observed} {step : ObservedStep}
    (action : Observed.step superIsReady cls observed step = some next) :
    Moves superIsReady cls observed step next := by
  cases step with
  | step step =>
      simp only [Observed.step, Option.ite_none_left_eq_some, Bool.not_eq_true] at action
      obtain ⟨plain, action⟩ := action
      obtain ⟨operation, moved, rfl⟩ := Option.map_eq_some_iff.mp action
      exact .step plain moved
  | superCancel =>
      cases action
      exact .superCancel
  | assign thread =>
      simp only [Observed.step, Option.ite_none_left_eq_some, Option.not_isSome_iff_eq_none]
        at action
      obtain ⟨free, action⟩ := action
      obtain ⟨newValue, assigns, rfl⟩ := Option.map_eq_some_iff.mp action
      exact .assign free assigns
  | proceed thread =>
      obtain ⟨running, runs, rfl⟩ := Option.map_eq_some_iff.mp action
      exact .proceed runs

variable {superIsReady cls}

theorem setters_setter {observed : Observed} {thread other : Thread} {setter : Option Setter}
    {running : Setter} (runs : (observed.setter thread setter).setters other = some running) :
    (other = thread ∧ setter = some running) ∨
      (other ≠ thread ∧ observed.setters other = some running) := by
  by_cases same : other = thread
  · subst same
    exact Or.inl ⟨rfl, by simpa [Observed.setter] using runs⟩
  · exact Or.inr ⟨same, by simpa [Observed.setter, same] using runs⟩

structure Started (operation : AsyncOperation) : Prop where
  unregistered : operation.start = .notStarted ∨ operation.start = .notCancelled →
    operation.callback = .unregistered
  cancelled : operation.start = .cancelled → operation.isCancelled

theorem started_plain {operation next : AsyncOperation} {step : OperationStep}
    (plain : step.setsState = false) (action : cls.step operation step = some next)
    (started : Started operation) :
    Started next ∧ next.state = operation.state ∧ (Excused operation → Excused next) ∧
      ∀ thread value, operation.assigns thread = some value → next.assigns thread = some value := by
  cases step with
  | testIsCancelled =>
      obtain ⟨start, rfl⟩ := step_some action
      have unregistered := started.unregistered (Or.inl start)
      refine ⟨⟨fun _ => unregistered, fun skips => ?_⟩, rfl, id, ?_⟩
      · cases cancelled : operation.isCancelled with
        | false => simp [cancelled] at skips
        | true => rfl
      · intro thread value assigns
        cases thread with
        | start => simp [AsyncOperation.assigns, start] at assigns
        | callback | cancel call => exact assigns
  | runMain =>
      obtain ⟨start, rfl⟩ := step_some action
      have unregistered := started.unregistered (Or.inr start)
      have cancels : (cls.main operation).isCancelled = operation.isCancelled := by
        cases cls <;> rfl
      refine ⟨⟨by simp, by simp⟩, main_state cls operation, ?_, ?_⟩
      · intro excused
        obtain stored | returned | cancelled := excused
        · simp [unregistered] at stored
        · simp [unregistered] at returned
        · exact Or.inr (Or.inr (cancels.trans cancelled))
      · intro thread value assigns
        cases thread with
        | start => simp [AsyncOperation.assigns, start] at assigns
        | callback => simp [AsyncOperation.assigns, unregistered] at assigns
        | cancel call => simpa only [AsyncOperation.assigns, cancels] using assigns
  | storeData data =>
      obtain ⟨registered, rfl⟩ := step_some action
      refine ⟨⟨fun early => ?_, started.cancelled⟩, rfl, fun _ => Or.inl rfl, ?_⟩
      · rw [started.unregistered early] at registered
        cases registered
      · intro thread value assigns
        cases thread with
        | callback => simp [AsyncOperation.assigns, registered] at assigns
        | start | cancel call => exact assigns
  | setFinished | setExecuting | callbackFinishes | cancel => cases plain

theorem started_stores {operation : AsyncOperation} {thread : Thread} {newValue : OperationState}
    (started : Started operation) (assigns : operation.assigns thread = some newValue) :
    Started (operation.stores newValue thread) := by
  cases thread with
  | start => exact ⟨by simp [AsyncOperation.stores], by simp [AsyncOperation.stores]⟩
  | callback =>
      refine ⟨fun early => ?_, started.cancelled⟩
      simp [AsyncOperation.assigns, started.unregistered early] at assigns
  | cancel call => exact ⟨started.unregistered, started.cancelled⟩

theorem excused_of_assigns {operation : AsyncOperation} {thread : Thread}
    (started : Started operation) (assigns : operation.assigns thread = some .finished) :
    Excused operation := by
  cases thread with
  | start =>
      cases phase : operation.start with
      | cancelled => exact Or.inr (Or.inr (started.cancelled phase))
      | _ => simp [AsyncOperation.assigns, phase] at assigns
  | callback =>
      by_cases stored : operation.callback = .dataStored
      · exact Or.inl stored
      · simp [AsyncOperation.assigns, stored] at assigns
  | cancel call =>
      by_cases cancelled : operation.isCancelled
      · exact Or.inr (Or.inr cancelled)
      · simp [AsyncOperation.assigns, cancelled] at assigns

theorem excused_stores {operation : AsyncOperation} (excused : Excused operation)
    (newValue : OperationState) (thread : Thread) :
    Excused (operation.stores newValue thread) := by
  cases thread with
  | start | cancel call => exact excused
  | callback => exact Or.inr (Or.inl rfl)

def Assigned (observed : Observed) : Prop :=
  ∀ thread running, observed.setters thread = some running → running.phase.hasStored = false →
    observed.operation.assigns thread = some running.newValue

theorem Assigned.setter {observed : Observed} {thread : Thread} {setter : Option Setter}
    (assigned : Assigned observed)
    (fresh : ∀ running, setter = some running → running.phase.hasStored = false →
      observed.operation.assigns thread = some running.newValue) :
    Assigned (observed.setter thread setter) := by
  intro other running runs early
  obtain ⟨rfl, new⟩ | ⟨_, old⟩ := setters_setter runs
  · exact fresh running new early
  · exact assigned other running old early

def Reporting (observed : Observed) : Prop :=
  ∃ thread running, observed.setters thread = some running ∧ running.phase = .stored

theorem Reporting.setter {observed : Observed} {thread : Thread}
    (reporting : Reporting observed) (setter : Option Setter)
    (other : ∀ running, observed.setters thread = some running → running.phase ≠ .stored) :
    Reporting (observed.setter thread setter) := by
  obtain ⟨reporter, stored, reports, phase⟩ := reporting
  have apart : reporter ≠ thread := by
    rintro rfl
    exact other stored reports phase
  exact ⟨reporter, stored, by simpa [Observed.setter, apart] using reports, phase⟩

def Current (superIsReady : Bool) (observed : Observed) : Prop :=
  observed.told observed.operation.state.keyPath =
    observed.operation.state.value superIsReady observed.operation.state.keyPath

theorem current_didChangeValue (observed : Observed) : Current superIsReady
    (observed.didChangeValue superIsReady observed.operation.state.keyPath) := by
  simp [Current, Observed.didChangeValue]

theorem Current.didChangeValue {observed : Observed} (current : Current superIsReady observed)
    (key : String) : Current superIsReady (observed.didChangeValue superIsReady key) := by
  by_cases same : observed.operation.state.keyPath = key
  · simp [Current, Observed.didChangeValue, same]
  · simpa [Current, Observed.didChangeValue, same] using current

structure Told (superIsReady : Bool) (observed : Observed) : Prop where
  started : Started observed.operation
  assigned : Assigned observed
  finished : observed.operation.state = .finished → Excused observed.operation
  told : observed.told "isFinished" → Excused observed.operation
  current : Reporting observed ∨ Current superIsReady observed

theorem Told.willChangeValue {observed : Observed} (known : Told superIsReady observed)
    (key : String) : Told superIsReady (observed.willChangeValue key) :=
  ⟨known.started, known.assigned, known.finished, known.told, known.current⟩

theorem Told.didChangeValue {observed : Observed} (known : Told superIsReady observed)
    (key : String) : Told superIsReady (observed.didChangeValue superIsReady key) := by
  refine ⟨known.started, known.assigned, known.finished, ?_,
    known.current.imp_right fun current => current.didChangeValue key⟩
  intro told
  by_cases same : "isFinished" = key
  · subst same
    rw [didChangeValue_told, Function.update_self] at told
    exact known.finished (OperationState.value_finished.mp told)
  · rw [didChangeValue_told, Function.update_of_ne same] at told
    exact known.told told

theorem Told.setter {observed : Observed} {thread : Thread} {setter : Option Setter}
    (known : Told superIsReady observed)
    (fresh : ∀ running, setter = some running → running.phase.hasStored = false →
      observed.operation.assigns thread = some running.newValue)
    (current : Current superIsReady observed ∨
      ∀ running, observed.setters thread = some running → running.phase ≠ .stored) :
    Told superIsReady (observed.setter thread setter) := by
  refine ⟨known.started, known.assigned.setter fresh, known.finished, known.told, ?_⟩
  obtain current | other := current
  · exact Or.inr current
  · exact known.current.imp_left fun reporting => reporting.setter setter other

theorem told_proceed {observed : Observed} {thread : Thread} {running : Setter}
    (runs : observed.setters thread = some running) (known : Told superIsReady observed) :
    Told superIsReady (observed.proceed superIsReady thread running) := by
  obtain ⟨oldValue, newValue, phase⟩ := running
  have assigned : phase.hasStored = false → observed.operation.assigns thread = some newValue :=
    known.assigned thread _ runs
  have inPhase : ∀ other, observed.setters thread = some other → other.phase = phase := by
    intro other runs'
    rw [runs] at runs'
    cases runs'
    rfl
  cases phase with
  | entered | oldAnnounced =>
      refine (known.willChangeValue _).setter ?_ (Or.inr ?_)
      · rintro _ ⟨⟩ _
        exact assigned rfl
      · intro other runs'
        simp [inPhase other runs']
  | newAnnounced =>
      have assigns := assigned rfl
      have excused : newValue = .finished → Excused observed.operation := by
        rintro rfl
        exact excused_of_assigns known.started assigns
      refine ⟨started_stores known.started assigns, ?_, ?_, ?_, Or.inl ?_⟩
      · intro other running runs' early
        obtain ⟨_, new⟩ | ⟨apart, old⟩ := setters_setter runs'
        · cases new
          cases early
        · exact (AsyncOperation.assigns_stores apart).trans (known.assigned other running old early)
      · intro finished
        exact excused_stores (excused ((AsyncOperation.stores_state _ _ _).symm.trans finished)) _ _
      · intro told
        exact excused_stores (known.told told) _ _
      · exact ⟨thread, ⟨oldValue, newValue, .stored⟩, Function.update_self .., rfl⟩
  | stored =>
      refine (known.didChangeValue _).setter ?_ (Or.inl (current_didChangeValue observed))
      rintro _ ⟨⟩ ⟨⟩
  | newReported =>
      refine (known.didChangeValue _).setter ?_ (Or.inr ?_)
      · rintro _ ⟨⟩
      · intro other runs'
        simp [inPhase other runs']

theorem told_moves {observed next : Observed} {step : ObservedStep}
    (moves : Moves superIsReady cls observed step next) (known : Told superIsReady observed) :
    Told superIsReady next := by
  cases moves with
  | step plain action =>
      obtain ⟨started, same, excuses, keeps⟩ := started_plain plain action known.started
      refine ⟨started, ?_, ?_, fun told => excuses (known.told told), ?_⟩
      · intro thread running runs early
        exact keeps _ _ (known.assigned thread running runs early)
      · intro finished
        exact excuses (known.finished (same.symm.trans finished))
      · have current := known.current
        simpa only [Reporting, Current, same] using current
  | superCancel =>
      refine ⟨⟨known.started.unregistered, fun _ => rfl⟩, ?_, fun _ => Or.inr (Or.inr rfl),
        fun _ => Or.inr (Or.inr rfl), known.current⟩
      intro thread running runs early
      have assigns := known.assigned thread running runs early
      cases thread with
      | start | callback => exact assigns
      | cancel call =>
          by_cases cancelled : observed.operation.isCancelled
          · simpa [AsyncOperation.assigns, cancelled] using assigns
          · simp [AsyncOperation.assigns, cancelled] at assigns
  | @assign thread newValue free assigns =>
      refine known.setter ?_ (Or.inr ?_)
      · rintro _ ⟨⟩ _
        exact assigns
      · intro running runs
        rw [free] at runs
        cases runs
  | proceed runs => exact told_proceed runs known

theorem step_stores {operation : AsyncOperation} {thread : Thread} {newValue : OperationState}
    (assigns : operation.assigns thread = some newValue) :
    ∃ step, cls.step operation step = some (operation.stores newValue thread) := by
  cases thread with
  | start =>
      cases phase : operation.start with
      | cancelled =>
          obtain rfl : .finished = newValue := by
            simpa [AsyncOperation.assigns, phase] using assigns
          exact ⟨.setFinished, if_pos phase⟩
      | mainReturned =>
          obtain rfl : .executing = newValue := by
            simpa [AsyncOperation.assigns, phase] using assigns
          exact ⟨.setExecuting, if_pos phase⟩
      | notStarted | notCancelled | returned =>
          simp [AsyncOperation.assigns, phase] at assigns
  | callback =>
      obtain ⟨stored, ⟨⟩⟩ := Option.ite_none_right_eq_some.mp assigns
      exact ⟨.callbackFinishes, if_pos stored⟩
  | cancel call =>
      obtain ⟨cancelled, ⟨⟩⟩ := Option.ite_none_right_eq_some.mp assigns
      refine ⟨.cancel, ?_⟩
      simp [OperationClass.step, AsyncOperation.stores, cancelled]

theorem operation_moves {observed next : Observed} {step : ObservedStep}
    (moves : Moves superIsReady cls observed step next) (assigned : Assigned observed) :
    next.operation = observed.operation ∨ step = .superCancel ∨
      ∃ step, cls.step observed.operation step = some next.operation := by
  cases moves with
  | step _ action => exact Or.inr (Or.inr ⟨_, action⟩)
  | superCancel => exact Or.inr (Or.inl rfl)
  | assign => exact Or.inl rfl
  | @proceed thread running runs =>
      obtain ⟨oldValue, newValue, phase⟩ := running
      cases phase with
      | entered | oldAnnounced | stored | newReported => exact Or.inl rfl
      | newAnnounced => exact Or.inr (Or.inr (step_stores (assigned thread _ runs rfl)))

structure Midway (superIsReady : Bool) (running : Setter) (observed : Observed) : Prop where
  state : observed.operation.state =
    if running.phase.hasStored then running.newValue else running.oldValue
  announced : observed.announced = fun key => (running.pending.count key : Int)
  told : observed.told =
    if running.phase = .newReported then
      Function.update (running.oldValue.value superIsReady) running.newValue.keyPath
        (running.newValue.value superIsReady running.newValue.keyPath)
    else running.oldValue.value superIsReady

inductive Serial (superIsReady : Bool) (observed : Observed) : Prop
  | quiet (free : observed.Quiet) (upToDate : UpToDate superIsReady observed)
  | setting {thread : Thread} {running : Setter} (runs : observed.setters thread = some running)
      (alone : ∀ other, other ≠ thread → observed.setters other = none)
      (midway : Midway superIsReady running observed)

theorem Serial.operate {observed : Observed} {operation : AsyncOperation}
    (same : operation.state = observed.operation.state) (serial : Serial superIsReady observed) :
    Serial superIsReady { observed with operation } := by
  cases serial with
  | quiet free upToDate =>
      refine .quiet free ⟨?_, upToDate.announced⟩
      rw [same]
      exact upToDate.told
  | setting runs alone midway =>
      exact .setting runs alone ⟨same.trans midway.state, midway.announced, midway.told⟩

theorem alone_setter {observed : Observed} {thread : Thread}
    (alone : ∀ other, other ≠ thread → observed.setters other = none) (setter : Option Setter) :
    ∀ other, other ≠ thread → (observed.setter thread setter).setters other = none := by
  intro other apart
  exact (Function.update_of_ne apart ..).trans (alone other apart)

theorem announced_willChangeValue {observed : Observed} {keys : List String}
    (announced : observed.announced = fun key => (keys.count key : Int)) (key : String) :
    (observed.willChangeValue key).announced = fun other => ((key :: keys).count other : Int) := by
  funext other
  by_cases same : other = key
  · simp [willChangeValue, announced, same]
  · simp [willChangeValue, announced, same, Ne.symm same]

theorem serial_setter {observed : Observed} {thread : Thread} {running : Setter}
    (alone : ∀ other, other ≠ thread → observed.setters other = none)
    (midway : Midway superIsReady running observed) :
    Serial superIsReady (observed.setter thread (some running)) :=
  .setting (Function.update_self ..) (alone_setter alone _)
    ⟨midway.state, midway.announced, midway.told⟩

variable (superIsReady) in
theorem announced_didChangeValue {observed : Observed} {keys : List String} {key : String}
    (announced : observed.announced = fun other => ((key :: keys).count other : Int)) :
    (observed.didChangeValue superIsReady key).announced =
      fun other => (keys.count other : Int) := by
  funext other
  by_cases same : other = key
  · simp [didChangeValue, announced, same]
  · simp [didChangeValue, announced, same, Ne.symm same]

theorem told_didChangeValue {observed : Observed} {told : String → Bool} {key : String}
    (holds : observed.told = told) :
    (observed.didChangeValue superIsReady key).told =
      Function.update told key (observed.operation.state.value superIsReady key) := by
  rw [didChangeValue_told, holds]

theorem serial_proceed {observed : Observed} {thread : Thread} {running : Setter}
    (alone : ∀ other, other ≠ thread → observed.setters other = none)
    (midway : Midway superIsReady running observed) :
    Serial superIsReady (observed.proceed superIsReady thread running) := by
  obtain ⟨oldValue, newValue, phase⟩ := running
  obtain ⟨state, announced, told⟩ := midway
  cases phase with
  | entered =>
      have held : observed.operation.state = oldValue := state
      subst held
      exact serial_setter alone ⟨state, announced_willChangeValue announced _, told⟩
  | oldAnnounced =>
      exact serial_setter alone ⟨state, announced_willChangeValue announced _, told⟩
  | newAnnounced =>
      exact serial_setter alone ⟨AsyncOperation.stores_state .., announced, told⟩
  | stored =>
      have holds : observed.operation.state = newValue := state
      subst holds
      exact serial_setter alone ⟨rfl, announced_didChangeValue superIsReady announced,
        told_didChangeValue told⟩
  | newReported =>
      have holds : observed.operation.state = newValue := state
      subst holds
      refine .quiet ?_ ⟨?_, announced_didChangeValue superIsReady announced⟩
      · intro other
        by_cases same : other = thread
        · subst same
          exact Function.update_self ..
        · exact alone_setter alone none other same
      · exact (told_didChangeValue told).trans (OperationState.value_updates ..)

theorem serial_moves {observed next : Observed} {step : ObservedStep}
    (moves : Moves superIsReady cls observed step next) (started : Started observed.operation)
    (oneByOne : observed.OneByOne step) (serial : Serial superIsReady observed) :
    Serial superIsReady next := by
  cases moves with
  | step plain action => exact serial.operate (started_plain plain action started).2.1
  | superCancel => exact serial.operate rfl
  | assign free assigns =>
      cases serial with
      | quiet quiet upToDate =>
          exact serial_setter (fun other _ => quiet other)
            ⟨rfl, upToDate.announced, upToDate.told⟩
      | setting runs alone midway =>
          rw [oneByOne] at runs
          cases runs
  | @proceed thread running runs =>
      cases serial with
      | quiet quiet upToDate =>
          rw [quiet] at runs
          cases runs
      | @setting active setter runs' alone midway =>
          obtain rfl : thread = active := by
            by_contra apart
            rw [alone thread apart] at runs
            cases runs
          rw [runs'] at runs
          cases runs
          exact serial_proceed alone midway

theorem told_initial : Told superIsReady (initial superIsReady) where
  started := ⟨fun _ => rfl, by simp [initial]⟩
  assigned := by simp [Assigned, initial]
  finished := by simp [initial]
  told := by simp [initial, OperationState.value]
  current := Or.inr (by simp only [Current, initial])

theorem told_of_run {steps : List ObservedStep} {last : Observed}
    (ran : Machine.run (Observed.step superIsReady cls) (initial superIsReady) steps = some last) :
    Told superIsReady last :=
  Machine.run_invariant (fun _ _ _ known action => told_moves (moves_of_step _ _ action) known)
    told_initial ran

theorem operation_of_run {steps : List ObservedStep} {last : Observed}
    (ran : Machine.run (Observed.step superIsReady cls) (initial superIsReady) steps = some last)
    (uncancelled : .superCancel ∉ steps) :
    ∃ taken, Machine.run cls.step {} taken = some last.operation := by
  induction steps using List.reverseRecOn generalizing last with
  | nil =>
      cases ran
      exact ⟨[], rfl⟩
  | append_singleton steps step ih =>
      obtain ⟨observed, ran, action⟩ := (Machine.run_concat_some _).mp ran
      simp only [List.mem_append, List.mem_singleton, not_or] at uncancelled
      obtain ⟨taken, run⟩ := ih ran uncancelled.1
      obtain same | superCancel | ⟨next, moved⟩ :=
        operation_moves (moves_of_step _ _ action) (told_of_run ran).assigned
      · exact ⟨taken, by rw [run, same]⟩
      · exact absurd superCancel.symm uncancelled.2
      · exact ⟨taken ++ [next], (Machine.run_concat_some _).mpr ⟨_, run, moved⟩⟩

theorem serial_of_run {steps : List ObservedStep} {last : Observed}
    (ran : Machine.run (Observed.step superIsReady cls) (initial superIsReady) steps = some last)
    (oneByOne : Machine.Along (Observed.step superIsReady cls) OneByOne (initial superIsReady)
      steps) : Serial superIsReady last := by
  have start : Told superIsReady (initial superIsReady) ∧
      Serial superIsReady (initial superIsReady) :=
    ⟨told_initial, .quiet (fun _ => rfl) ⟨rfl, rfl⟩⟩
  refine (Machine.run_invariant_along
    (I := fun observed => Told superIsReady observed ∧ Serial superIsReady observed)
    ?_ start oneByOne ran).2
  intro observed step next both first action
  obtain ⟨known, serial⟩ := both
  have moves := moves_of_step _ _ action
  exact ⟨told_moves moves known, serial_moves moves known.started first serial⟩

end Observed

theorem observers_told {superIsReady : Bool} {cls : OperationClass} {steps : List ObservedStep}
    {last : Observed}
    (ran : Machine.run (Observed.step superIsReady cls) (.initial superIsReady) steps = some last) :
    (last.told "isFinished" → Observed.Excused last.operation) ∧
      (last.Quiet → last.told last.operation.state.keyPath =
        last.operation.state.value superIsReady last.operation.state.keyPath) ∧
      (Machine.Along (Observed.step superIsReady cls) Observed.OneByOne (.initial superIsReady)
        steps → last.Quiet → last.UpToDate superIsReady) := by
  have known := Observed.told_of_run ran
  refine ⟨known.told, ?_, ?_⟩
  · intro quiet
    obtain ⟨reporter, running, reports, _⟩ | current := known.current
    · rw [quiet] at reports
      cases reports
    · exact current
  · intro oneByOne quiet
    cases Observed.serial_of_run ran oneByOne with
    | quiet _ upToDate => exact upToDate
    | setting runs =>
        rw [quiet] at runs
        cases runs

def cancelRun : List ObservedStep :=
  .superCancel :: .assign (.cancel 0) :: List.replicate 5 (.proceed (.cancel 0))

def cancelled : Observed :=
  (Machine.run (Observed.step true .network) (.initial true) cancelRun).getD (.initial true)

theorem cancel_told : cancelled.operation.state = .finished ∧ cancelled.UpToDate true := by
  have ran : Machine.run (Observed.step true .network) (.initial true) cancelRun =
      some cancelled := rfl
  have oneByOne : Machine.Along (Observed.step true .network) Observed.OneByOne (.initial true)
      cancelRun := by
    refine ⟨trivial, ?_⟩
    rintro _ ⟨⟩
    refine ⟨fun _ => rfl, ?_⟩
    rintro _ ⟨⟩
    exact ⟨trivial, fun _ _ => ⟨trivial, fun _ _ => ⟨trivial, fun _ _ =>
      ⟨trivial, fun _ _ => ⟨trivial, fun _ _ => trivial⟩⟩⟩⟩⟩
  refine ⟨rfl, (observers_told ran).2.2 oneByOne ?_⟩
  intro thread
  cases thread with
  | start | callback => rfl
  | cancel call => cases call <;> rfl

/-- The response finishes the operation while `start` is still setting `.executing`. -/
example : (Machine.run (Observed.step true .network) (.initial true)
    ([.step .testIsCancelled, .step .runMain, .assign .start, .step (.storeData none),
      .assign .callback] ++ List.replicate 5 (.proceed .start) ++
      List.replicate 5 (.proceed .callback))).map
    (fun last => (last.operation.state, last.told "isExecuting")) = some (.finished, true) := by
  decide +kernel

end SocialApp.Network
