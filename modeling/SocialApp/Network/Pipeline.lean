import SocialApp.Network.AsyncOperation

/-!
# The operations of several friends refreshes

Every call of `downloadUserFriendsWithOperations` has a queue of its own for its first two
operations and puts the other two on `OperationQueue.main`, which all calls share. The state of the
queues is what each operation has reached, and which operation the main queue started last. The
`images` of a call are the requests of its `DownloadingAvatarsOperation` that are still to be
answered.
-/

namespace SocialApp.Network
open Library Foundation

inductive PlainState
  | waiting
  | executing
  | finished
  deriving DecidableEq

structure Call where
  networkOperation : AsyncOperation := {}
  parsingOperation : PlainState := .waiting
  savingOperation : PlainState := .waiting
  downloadingOperation : AsyncOperation := {}
  images : Nat
  deriving DecidableEq

inductive MainOperation
  | saving
  | downloadingAvatars
  deriving DecidableEq

inductive CallStep
  | network (step : OperationStep)
  | startParsing
  | parsingReturns
  | startSaving
  | savingReturns
  | startDownloading
  | downloading (step : OperationStep)
  | imageAnswered
  deriving DecidableEq

namespace Call

def isFinished (call : Call) : MainOperation → Bool
  | .saving => call.savingOperation = .finished
  | .downloadingAvatars => call.downloadingOperation.state = .finished

def Requested (call : Call) : Prop :=
  call.downloadingOperation.start = .mainReturned ∨ call.downloadingOperation.start = .returned

instance (call : Call) : Decidable call.Requested := inferInstanceAs (Decidable (_ ∨ _))

/-- The dependencies order the four operations; `mainQueueFree` says that the operation which the
main queue started last is finished. Nothing cancels an operation. -/
def step (mainQueueFree : Bool) : Machine Call CallStep
  | call, .network step =>
      if step ≠ .cancel then
        (OperationClass.network.step call.networkOperation step).map fun operation =>
          { call with networkOperation := operation }
      else none
  | call, .startParsing =>
      if call.networkOperation.state = .finished ∧ call.parsingOperation = .waiting then
        some { call with parsingOperation := .executing }
      else none
  | call, .parsingReturns =>
      if call.parsingOperation = .executing then
        some { call with parsingOperation := .finished }
      else none
  | call, .startSaving =>
      if call.parsingOperation = .finished ∧ call.savingOperation = .waiting ∧ mainQueueFree then
        some { call with savingOperation := .executing }
      else none
  | call, .savingReturns =>
      if call.savingOperation = .executing then
        some { call with savingOperation := .finished }
      else none
  | call, .startDownloading =>
      if call.savingOperation = .finished ∧ mainQueueFree then
        (OperationClass.downloadingAvatars.step call.downloadingOperation .testIsCancelled).map
          fun operation => { call with downloadingOperation := operation }
      else none
  | call, .downloading step =>
      if step ≠ .testIsCancelled ∧ step ≠ .cancel then
        (OperationClass.downloadingAvatars.step call.downloadingOperation step).map
          fun operation => { call with downloadingOperation := operation }
      else none
  | call, .imageAnswered =>
      if call.Requested ∧ 0 < call.images then
        some { call with images := call.images - 1 }
      else none

theorem step_some {mainQueueFree : Bool} {call next : Call} {step : CallStep}
    (action : call.step mainQueueFree step = some next) :
    match step with
    | .network step => step ≠ .cancel ∧ ∃ operation,
        OperationClass.network.step call.networkOperation step = some operation ∧
          next = { call with networkOperation := operation }
    | .startParsing =>
        (call.networkOperation.state = .finished ∧ call.parsingOperation = .waiting) ∧
          next = { call with parsingOperation := .executing }
    | .parsingReturns => call.parsingOperation = .executing ∧
        next = { call with parsingOperation := .finished }
    | .startSaving =>
        (call.parsingOperation = .finished ∧ call.savingOperation = .waiting ∧ mainQueueFree) ∧
          next = { call with savingOperation := .executing }
    | .savingReturns => call.savingOperation = .executing ∧
        next = { call with savingOperation := .finished }
    | .startDownloading => (call.savingOperation = .finished ∧ mainQueueFree) ∧ ∃ operation,
        OperationClass.downloadingAvatars.step call.downloadingOperation .testIsCancelled =
          some operation ∧ next = { call with downloadingOperation := operation }
    | .downloading step => (step ≠ .testIsCancelled ∧ step ≠ .cancel) ∧ ∃ operation,
        OperationClass.downloadingAvatars.step call.downloadingOperation step = some operation ∧
          next = { call with downloadingOperation := operation }
    | .imageAnswered => (call.Requested ∧ 0 < call.images) ∧
        next = { call with images := call.images - 1 } := by
  cases step with
  | network step | startDownloading | downloading step =>
      simp only [Call.step, Option.ite_none_right_eq_some, Option.map_eq_some_iff] at action
      obtain ⟨enabled, operation, stepped, same⟩ := action
      exact ⟨enabled, operation, stepped, same.symm⟩
  | _ =>
      simp only [Call.step, Option.ite_none_right_eq_some, Option.some.injEq] at action
      exact ⟨action.1, action.2.symm⟩

structure AllFinished (call : Call) : Prop where
  network : call.networkOperation.state = .finished
  parsing : call.parsingOperation = .finished
  saving : call.savingOperation = .finished
  downloading : call.downloadingOperation.state = .finished

end Call

def CallStep.starts : CallStep → Option MainOperation
  | startSaving => some .saving
  | startDownloading => some .downloadingAvatars
  | _ => none

structure Queues where
  calls : List Call := []
  lastStarted : Option (Nat × MainOperation) := none
  deriving DecidableEq

inductive QueueEvent
  | downloadUserFriendsWithOperations (images : Nat)
  | call (index : Nat) (step : CallStep)
  deriving DecidableEq

namespace Queues

def mainQueueFree (queues : Queues) : Bool :=
  queues.lastStarted.all fun (index, operation) =>
    queues.calls[index]?.all fun call => call.isFinished operation

def step : Machine Queues QueueEvent
  | queues, .downloadUserFriendsWithOperations images =>
      some { queues with calls := queues.calls ++ [{ images }] }
  | queues, .call index step => do
      let call ← queues.calls[index]?
      let next ← call.step queues.mainQueueFree step
      return {
        calls := queues.calls.set index next
        lastStarted := (step.starts.map fun operation => (index, operation)).or queues.lastStarted }

def AtRest (queues : Queues) : Prop := ∀ index step, Queues.step queues (.call index step) = none

def AllFinished (queues : Queues) : Prop := ∀ call ∈ queues.calls, call.AllFinished

theorem step_call {queues next : Queues} {index : Nat} {step : CallStep}
    (action : queues.step (.call index step) = some next) :
    ∃ call after, queues.calls[index]? = some call ∧
      call.step queues.mainQueueFree step = some after ∧
      next = {
        calls := queues.calls.set index after
        lastStarted := (step.starts.map fun operation => (index, operation)).or
          queues.lastStarted } := by
  simp only [Queues.step, Option.bind_eq_bind, Option.bind_eq_some_iff, Option.pure_def,
    Option.some.injEq] at action
  obtain ⟨call, found, after, stepped, rfl⟩ := action
  exact ⟨call, after, found, stepped, rfl⟩

end Queues

structure Unreported (operation : AsyncOperation) : Prop where
  notCancelled : operation.isCancelled = false
  proceeds : operation.start ≠ .cancelled
  unregistered : operation.callback = .unregistered
  unfinished : operation.state ≠ .finished

theorem Unreported.preserved {operation next : AsyncOperation} {step : OperationStep}
    (unreported : Unreported operation) (notCancel : step ≠ .cancel)
    (action : OperationClass.downloadingAvatars.step operation step = some next) :
    Unreported next := by
  obtain ⟨notCancelled, proceeds, unregistered, unfinished⟩ := unreported
  cases step with
  | cancel => exact absurd rfl notCancel
  | setFinished =>
      simp [OperationClass.step, proceeds] at action
  | storeData data => simp [OperationClass.step, unregistered] at action
  | callbackFinishes => simp [OperationClass.step, unregistered] at action
  | testIsCancelled =>
      obtain ⟨_, rfl⟩ := step_some action
      exact ⟨notCancelled, by simp [notCancelled], unregistered, unfinished⟩
  | runMain =>
      obtain ⟨_, rfl⟩ := step_some action
      exact ⟨notCancelled, by simp, unregistered, unfinished⟩
  | setExecuting =>
      obtain ⟨_, rfl⟩ := step_some action
      exact ⟨notCancelled, by simp, unregistered, by simp⟩

theorem unreported_step {mainQueueFree : Bool} {call next : Call} {step : CallStep}
    (unreported : Unreported call.downloadingOperation)
    (action : call.step mainQueueFree step = some next) :
    Unreported next.downloadingOperation := by
  cases step with
  | startDownloading =>
      obtain ⟨_, operation, started, rfl⟩ := Call.step_some action
      exact unreported.preserved (by simp) started
  | downloading step =>
      obtain ⟨⟨_, notCancel⟩, operation, stepped, rfl⟩ := Call.step_some action
      exact unreported.preserved notCancel stepped
  | network step =>
      obtain ⟨_, operation, _, rfl⟩ := Call.step_some action
      exact unreported
  | startParsing | parsingReturns | startSaving | savingReturns | imageAnswered =>
      obtain ⟨_, rfl⟩ := Call.step_some action
      exact unreported

namespace Queues

def Unreported (queues : Queues) : Prop :=
  ∀ call ∈ queues.calls, Network.Unreported call.downloadingOperation

theorem unreported_preserved (queues : Queues) (event : QueueEvent) (next : Queues)
    (unreported : queues.Unreported) (action : queues.step event = some next) :
    next.Unreported := by
  cases event with
  | downloadUserFriendsWithOperations images =>
      simp only [Queues.step, Option.some.injEq] at action
      subst action
      intro call member
      rcases List.mem_append.mp member with old | new
      · exact unreported call old
      · rw [List.mem_singleton.mp new]
        constructor <;> simp
  | call index step =>
      obtain ⟨call, after, found, stepped, rfl⟩ := step_call action
      intro other member
      rcases List.mem_or_eq_of_mem_set member with old | rfl
      · exact unreported other old
      · exact unreported_step (unreported call (List.mem_of_getElem? found)) stepped

theorem unreported_of_run {events : List QueueEvent} {queues : Queues}
    (ran : Machine.run Queues.step {} events = some queues) : queues.Unreported :=
  Machine.run_invariant unreported_preserved (by simp [Unreported]) ran

end Queues

def StartPhase.work : StartPhase → Nat
  | notStarted => 5
  | notCancelled => 4
  | cancelled | mainReturned => 1
  | returned => 0

def CallbackPhase.work : CallbackPhase → Nat
  | registered => 2
  | dataStored => 1
  | unregistered | returned => 0

def AsyncOperation.work (operation : AsyncOperation) : Nat :=
  operation.start.work + operation.callback.work

def PlainState.work : PlainState → Nat
  | waiting => 2
  | executing => 1
  | finished => 0

def Call.work (call : Call) : Nat :=
  call.networkOperation.work + call.parsingOperation.work + call.savingOperation.work +
    call.downloadingOperation.work + call.images

theorem AsyncOperation.work_step {cls : OperationClass} {operation next : AsyncOperation}
    {step : OperationStep} (notCancel : step ≠ .cancel)
    (action : cls.step operation step = some next) : next.work < operation.work := by
  cases step with
  | cancel => exact absurd rfl notCancel
  | testIsCancelled =>
      obtain ⟨start, rfl⟩ := step_some action
      cases h : operation.isCancelled <;> simp [work, start, StartPhase.work]
  | runMain =>
      obtain ⟨start, rfl⟩ := step_some action
      cases cls <;> simp only [work, start, OperationClass.main, StartPhase.work, CallbackPhase.work]
      all_goals omega
  | setFinished | setExecuting | storeData | callbackFinishes =>
      obtain ⟨phase, rfl⟩ := step_some action
      simp [work, phase, StartPhase.work, CallbackPhase.work]

theorem Call.work_step {mainQueueFree : Bool} {call next : Call} {step : CallStep}
    (action : call.step mainQueueFree step = some next) : next.work < call.work := by
  cases step with
  | network step =>
      obtain ⟨notCancel, operation, stepped, rfl⟩ := Call.step_some action
      have less := AsyncOperation.work_step notCancel stepped
      simp only [work]
      omega
  | startDownloading =>
      obtain ⟨_, operation, started, rfl⟩ := Call.step_some action
      have less := AsyncOperation.work_step (by simp) started
      simp only [work]
      omega
  | downloading step =>
      obtain ⟨⟨_, notCancel⟩, operation, stepped, rfl⟩ := Call.step_some action
      have less := AsyncOperation.work_step notCancel stepped
      simp only [work]
      omega
  | startParsing | parsingReturns | startSaving | savingReturns | imageAnswered =>
      obtain ⟨enabled, rfl⟩ := Call.step_some action
      simp only [work, enabled, PlainState.work]
      omega

namespace Queues

def callsWork : List Call → Nat
  | [] => 0
  | call :: calls => call.work + callsWork calls

theorem callsWork_set_lt {calls : List Call} {index : Nat} {call next : Call}
    (found : calls[index]? = some call) (less : next.work < call.work) :
    callsWork (calls.set index next) < callsWork calls := by
  induction calls generalizing index with
  | nil => simp at found
  | cons first rest ih =>
      cases index with
      | zero =>
          simp only [List.getElem?_cons_zero, Option.some.injEq] at found
          subst found
          simp only [List.set_cons_zero, callsWork]
          omega
      | succ index =>
          simp only [List.getElem?_cons_succ] at found
          have smaller := ih found
          simp only [List.set_cons_succ, callsWork]
          omega

theorem comes_to_rest (queues : Queues) :
    ∃ (steps : List (Nat × CallStep)) (later : Queues),
      Machine.run Queues.step queues (steps.map fun s => .call s.1 s.2) = some later ∧
        later.AtRest := by
  have decreases : ∀ (queues : Queues) (s : Nat × CallStep) (next : Queues),
      queues.step (.call s.1 s.2) = some next → callsWork next.calls < callsWork queues.calls := by
    intro queues s next action
    obtain ⟨call, after, found, stepped, rfl⟩ := step_call action
    exact callsWork_set_lt found (Call.work_step stepped)
  obtain ⟨steps, later, ran, rests⟩ :=
    Machine.exists_quiescent (fun queues => callsWork queues.calls) decreases queues
  exact ⟨steps, later, by rw [Machine.run_map, ran], fun index step => rests (index, step)⟩

end Queues

namespace Queues

def Occupied (queues : Queues) (index : Nat) : Prop :=
  queues.lastStarted = some (index, .downloadingAvatars) ∧ index < queues.calls.length

theorem Occupied.not_free {queues : Queues} {index : Nat} (occupied : queues.Occupied index)
    (unreported : queues.Unreported) : queues.mainQueueFree = false := by
  obtain ⟨last, bound⟩ := occupied
  have unfinished := (unreported _ (List.getElem_mem bound)).unfinished
  simp [mainQueueFree, last, List.getElem?_eq_getElem bound, Call.isFinished, unfinished]

theorem starts_none {call next : Call} {step : CallStep}
    (action : call.step false step = some next) : step.starts = none := by
  cases step <;> first | rfl | simp [Call.step] at action

theorem waiting_step {call next : Call} {step : CallStep}
    (action : call.step false step = some next) (waiting : call.savingOperation = .waiting) :
    next.savingOperation = .waiting := by
  cases step with
  | startSaving | startDownloading => simp [Call.step] at action
  | savingReturns => simp [Call.step, waiting] at action
  | network step | downloading step =>
      obtain ⟨_, operation, _, rfl⟩ := Call.step_some action
      exact waiting
  | startParsing | parsingReturns | imageAnswered =>
      obtain ⟨_, rfl⟩ := Call.step_some action
      exact waiting

def Waits (queues : Queues) (index : Nat) : Prop :=
  ∃ call, queues.calls[index]? = some call ∧ call.savingOperation = .waiting

theorem occupied_preserved {index other : Nat} (queues : Queues) (event : QueueEvent)
    (next : Queues) (holds : queues.Unreported ∧ queues.Occupied index ∧ queues.Waits other)
    (action : queues.step event = some next) :
    next.Unreported ∧ next.Occupied index ∧ next.Waits other := by
  obtain ⟨unreported, occupied, call, found, waiting⟩ := holds
  refine ⟨unreported_preserved queues event next unreported action, ?_⟩
  have busy := occupied.not_free unreported
  obtain ⟨last, bound⟩ := occupied
  cases event with
  | downloadUserFriendsWithOperations images =>
      simp only [Queues.step, Option.some.injEq] at action
      subst action
      refine ⟨⟨last, by simp only [List.length_append]; omega⟩, call, ?_, waiting⟩
      rw [List.getElem?_append_left (List.getElem?_eq_some_iff.mp found).1, found]
  | call moved step =>
      obtain ⟨before, after, place, stepped, rfl⟩ := step_call action
      rw [busy] at stepped
      refine ⟨⟨by simp [starts_none stepped, last], by simpa using bound⟩, ?_⟩
      by_cases same : moved = other
      · subst same
        rw [place, Option.some.injEq] at found
        subst found
        have inside := (List.getElem?_eq_some_iff.mp place).1
        exact ⟨after, by simp [inside], waiting_step stepped waiting⟩
      · exact ⟨call, by simp [List.getElem?_set_ne same, found], waiting⟩

/-- Once avatars have been requested for one call, the friends of no other call are saved. -/
theorem saving_starves {before after : List QueueEvent} {queues later : Queues} {index other : Nat}
    (reached : Machine.run Queues.step {} before = some queues) (occupied : queues.Occupied index)
    (waits : queues.Waits other) (ran : Machine.run Queues.step queues after = some later) :
    later.Waits other :=
  (Machine.run_invariant occupied_preserved ⟨unreported_of_run reached, occupied, waits⟩ ran).2.2

end Queues

def Queues.Drains (queues : Queues) : Prop :=
  ∀ (steps : List (Nat × CallStep)) (later : Queues),
    Machine.run Queues.step queues (steps.map fun s => .call s.1 s.2) = some later →
      later.AtRest → later.AllFinished

theorem Queues.calls_ne_nil {queues later : Queues} {steps : List (Nat × CallStep)}
    (called : queues.calls ≠ [])
    (ran : Machine.run Queues.step queues (steps.map fun s => .call s.1 s.2) = some later) :
    later.calls ≠ [] := by
  rw [Machine.run_map] at ran
  refine Machine.run_invariant (I := fun queues => queues.calls ≠ []) ?_ called ran
  intro queues s next called action
  obtain ⟨call, after, _, _, rfl⟩ := step_call action
  simpa using called

theorem pipeline_drains_iff {events : List QueueEvent} {queues : Queues}
    (ran : Machine.run Queues.step {} events = some queues) :
    queues.Drains ↔ queues.calls = [] := by
  constructor
  · intro drains
    by_contra called
    obtain ⟨steps, later, rest, rests⟩ := queues.comes_to_rest
    obtain ⟨call, member⟩ := List.exists_mem_of_ne_nil _ (Queues.calls_ne_nil called rest)
    have unreported := Queues.unreported_of_run (Machine.run_append Queues.step {} events _ ▸
      Option.bind_eq_some_iff.mpr ⟨queues, ran, rest⟩)
    exact (unreported call member).unfinished (drains steps later rest rests call member).downloading
  · intro noCall steps later rest _ call member
    cases steps with
    | nil =>
        simp only [List.map_nil, Machine.run_nil, Option.some.injEq] at rest
        simp [← rest, noCall] at member
    | cons s steps => simp [Queues.step, noCall] at rest

def fetching (index : Nat) : List QueueEvent :=
  [.network .testIsCancelled, .network .runMain, .network .setExecuting,
    .network (.storeData none), .network .callbackFinishes, .startParsing,
    .parsingReturns].map (.call index)

def requesting (index : Nat) : List QueueEvent :=
  [.startSaving, .savingReturns, .startDownloading, .downloading .runMain,
    .downloading .setExecuting].map (.call index)

def requestedCall : Call where
  networkOperation := { state := .finished, start := .returned, callback := .returned }
  parsingOperation := .finished
  savingOperation := .finished
  downloadingOperation := { state := .executing, start := .returned }
  images := 0

def oneScreen : List QueueEvent :=
  .downloadUserFriendsWithOperations 0 :: (fetching 0 ++ requesting 0)

theorem oneScreen_never_drains :
    ¬ Queues.Drains ⟨[requestedCall], some (0, .downloadingAvatars)⟩ := by
  have ran : Machine.run Queues.step {} oneScreen =
      some ⟨[requestedCall], some (0, .downloadingAvatars)⟩ := by decide
  exact fun drains => List.cons_ne_nil _ _ ((pipeline_drains_iff ran).mp drains)

theorem second_screen_starves :
    ¬ ∀ (events : List QueueEvent) (queues : Queues),
      Machine.run Queues.step {} events = some queues → queues.AtRest → queues.AllFinished := by
  intro all
  let starving : Call :=
    { requestedCall with savingOperation := .waiting, downloadingOperation := {} }
  have finished := all
    ([.downloadUserFriendsWithOperations 0, .downloadUserFriendsWithOperations 0] ++
      fetching 0 ++ requesting 0 ++ fetching 1)
    ⟨[requestedCall, starving], some (0, .downloadingAvatars)⟩ (by decide) ?_
  · exact absurd (finished starving (by simp)).saving (by decide)
  · rintro (_ | _ | index) step
    · cases step with
      | network step | downloading step => cases step <;> rfl
      | _ => rfl
    · cases step with
      | network step | downloading step => cases step <;> rfl
      | _ => rfl
    · rfl

end SocialApp.Network
