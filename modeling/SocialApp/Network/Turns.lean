import Mathlib.Logic.Function.Basic
import SocialApp.Network.FriendsRefresh
import SocialApp.Network.Pipeline
import SocialApp.Realm.Calls

/-!
# The friends refreshes take turns

The operations of many calls of `downloadUserFriendsWithOperations` overlap, and other blocks of the
main queue use the Realm in between. What they leave in the Realm is what the calls leave whose
`SavingOperation` has returned, run from beginning to end one after another in the order of these
returns, each with the response that its own `NetworkOperation` got. `DownloadingAvatarsOperation`
reads the objects of its call, and the program ends there if a later refresh has removed the row of
one; here the run goes on, so that every run of the program is among these.
-/

namespace SocialApp.Network
open Library Foundation Realm

structure Pipelines where
  queues : Queues := {}
  parsing : Nat → ParsingOperation := fun _ => ⟨none, []⟩
  store : Store

/-- A step of a call, or another block of the main queue that writes to the Realm. -/
inductive PipelineEvent
  | queue (event : QueueEvent)
  | attempt (write : Attempt)

namespace Pipelines

variable (decode : Data → Option (List Friend)) (deletion saving : Nat → Access)

/-- `main` of a `ParsingOperation` and of a `SavingOperation` takes effect when it returns. -/
def parsed (state : Pipelines) : QueueEvent → Nat → ParsingOperation
  | .call index .parsingReturns =>
      let networkOperation := state.queues.calls[index]?.map fun call =>
        ⟨call.networkOperation.data⟩
      Function.update state.parsing index (ParsingOperation.main decode ⟨networkOperation, []⟩)
  | _ => state.parsing

def saved (state : Pipelines) : QueueEvent → Option Store
  | .call index .savingReturns => do
      let (_, store) ← SavingOperation.main (deletion index) (saving index)
        ⟨some (state.parsing index), []⟩ state.store
      return store
  | _ => some state.store

def step : Machine Pipelines PipelineEvent
  | state, .attempt write =>
      (Attempt.step state.store write).map fun store => { state with store }
  | state, .queue event => do
      let queues ← state.queues.step event
      let store ← state.saved deletion saving event
      return { queues, parsing := state.parsed decode event, store }

end Pipelines

/-! ## Specification -/

def Queues.response (queues : Queues) (index : Nat) : Option Data :=
  queues.calls[index]?.bind fun call => call.networkOperation.data

inductive Turn
  | refresh (index : Nat)
  | attempt (write : Attempt)

def QueueEvent.saved : QueueEvent → Option Nat
  | .call index .savingReturns => some index
  | _ => none

namespace PipelineEvent

def queueEvent : PipelineEvent → Option QueueEvent
  | queue event => some event
  | attempt _ => none

def turn : PipelineEvent → Option Turn
  | queue event => event.saved.map .refresh
  | attempt write => some (.attempt write)

end PipelineEvent

section
variable (decode : Data → Option (List Friend)) (deletion saving : Nat → Access)

def Turn.take (queues : Queues) : Machine Store Turn
  | store, .refresh index => (downloadUserFriendsWithOperations decode (deletion index) (saving index)
      (queues.response index) store).map Prod.snd
  | store, .attempt write => Attempt.step store write

def inTurns (store : Store) (events : List PipelineEvent) : Option (Queues × Store) :=
  (Machine.run Queues.step {} (events.filterMap PipelineEvent.queueEvent)).bind fun queues =>
    (Machine.run (Turn.take decode deletion saving queues) store
      (events.filterMap PipelineEvent.turn)).map fun store => (queues, store)

end

def Queues.Saved (queues : Queues) (index : Nat) : Prop :=
  ∃ call, queues.calls[index]? = some call ∧ call.savingOperation = .finished

structure Answered (call : Call) : Prop where
  notCancelled : call.networkOperation.isCancelled = false
  proceeds : call.networkOperation.start ≠ .cancelled
  unregistered : call.networkOperation.start = .notStarted ∨
    call.networkOperation.start = .notCancelled → call.networkOperation.callback = .unregistered
  finished : call.networkOperation.state = .finished → call.networkOperation.callback = .returned
  parsed : call.parsingOperation ≠ .waiting → call.networkOperation.callback = .returned
  saved : call.savingOperation ≠ .waiting → call.parsingOperation = .finished

theorem Answered.network {call : Call} {operation : AsyncOperation} {step : OperationStep}
    (answered : Answered call) (notCancel : step ≠ .cancel)
    (action : OperationClass.network.step call.networkOperation step = some operation) :
    Answered { call with networkOperation := operation } := by
  obtain ⟨notCancelled, proceeds, unregistered, finished, parsed, saved⟩ := answered
  cases step with
  | cancel => exact absurd rfl notCancel
  | setFinished =>
      obtain ⟨cancelled, _⟩ := step_some action
      exact absurd cancelled proceeds
  | testIsCancelled =>
      obtain ⟨start, rfl⟩ := step_some action
      have fresh := unregistered (.inl start)
      exact ⟨notCancelled, by simp [notCancelled], fun _ => fresh, finished, parsed, saved⟩
  | runMain =>
      obtain ⟨start, rfl⟩ := step_some action
      have fresh := unregistered (.inr start)
      have unfinished : call.networkOperation.state ≠ .finished := fun state => by
        rw [finished state] at fresh
        cases fresh
      have unparsed : call.parsingOperation = .waiting := by
        by_contra parsing
        rw [parsed parsing] at fresh
        cases fresh
      refine ⟨notCancelled, by simp, by simp, ?_, fun parsing => absurd unparsed parsing, saved⟩
      intro state
      exact absurd state unfinished
  | setExecuting =>
      obtain ⟨start, rfl⟩ := step_some action
      exact ⟨notCancelled, by simp, by simp, by simp, parsed, saved⟩
  | storeData data =>
      obtain ⟨callback, rfl⟩ := step_some action
      refine ⟨notCancelled, proceeds, ?_, ?_, ?_, saved⟩
      · intro start
        cases callback.symm.trans (unregistered start)
      · intro state
        cases callback.symm.trans (finished state)
      · intro parsing
        cases callback.symm.trans (parsed parsing)
  | callbackFinishes =>
      obtain ⟨callback, rfl⟩ := step_some action
      refine ⟨notCancelled, proceeds, ?_, fun _ => rfl, fun _ => rfl, saved⟩
      intro start
      cases callback.symm.trans (unregistered start)

theorem Answered.step {mainQueueFree : Bool} {call next : Call} {step : CallStep}
    (answered : Answered call) (action : call.step mainQueueFree step = some next) :
    Answered next := by
  cases step with
  | network step =>
      obtain ⟨notCancel, operation, stepped, rfl⟩ := Call.step_some action
      exact answered.network notCancel stepped
  | startParsing =>
      obtain ⟨⟨finished, waiting⟩, rfl⟩ := Call.step_some action
      refine { answered with
        parsed := fun _ => answered.finished finished
        saved := ?_ }
      intro saving
      cases waiting.symm.trans (answered.saved saving)
  | parsingReturns =>
      obtain ⟨executing, rfl⟩ := Call.step_some action
      exact { answered with
        parsed := fun _ => answered.parsed (by simp [executing])
        saved := fun _ => rfl }
  | startSaving =>
      obtain ⟨⟨parsed, _⟩, rfl⟩ := Call.step_some action
      exact { answered with saved := fun _ => parsed }
  | savingReturns =>
      obtain ⟨executing, rfl⟩ := Call.step_some action
      exact { answered with saved := fun _ => answered.saved (by simp [executing]) }
  | startDownloading | downloading step =>
      obtain ⟨_, operation, _, rfl⟩ := Call.step_some action
      exact { answered with }
  | imageAnswered =>
      obtain ⟨_, rfl⟩ := Call.step_some action
      exact { answered with }

theorem response_kept {mainQueueFree : Bool} {call next : Call} {step : CallStep}
    (answered : Answered call) (parsing : call.parsingOperation ≠ .waiting)
    (action : call.step mainQueueFree step = some next) :
    next.networkOperation.data = call.networkOperation.data := by
  have returned := answered.parsed parsing
  cases step with
  | network step =>
      obtain ⟨_, operation, stepped, rfl⟩ := Call.step_some action
      cases step with
      | storeData data =>
          obtain ⟨registered, _⟩ := step_some stepped
          cases returned.symm.trans registered
      | cancel =>
          rw [step_some stepped]
      | _ =>
          obtain ⟨_, rfl⟩ := step_some stepped
          rfl
  | startDownloading | downloading step =>
      obtain ⟨_, operation, _, rfl⟩ := Call.step_some action
      rfl
  | _ =>
      obtain ⟨_, rfl⟩ := Call.step_some action
      rfl

theorem parsing_finished_iff {mainQueueFree : Bool} {call next : Call} {step : CallStep}
    (action : call.step mainQueueFree step = some next) :
    next.parsingOperation = .finished ↔
      call.parsingOperation = .finished ∨ step = .parsingReturns := by
  cases step with
  | startParsing =>
      obtain ⟨⟨_, waiting⟩, rfl⟩ := Call.step_some action
      simp [waiting]
  | parsingReturns =>
      obtain ⟨_, rfl⟩ := Call.step_some action
      simp
  | network step | startDownloading | downloading step =>
      obtain ⟨_, operation, _, rfl⟩ := Call.step_some action
      simp
  | startSaving | savingReturns | imageAnswered =>
      obtain ⟨_, rfl⟩ := Call.step_some action
      simp

theorem saving_finished_iff {mainQueueFree : Bool} {call next : Call} {step : CallStep}
    (action : call.step mainQueueFree step = some next) :
    next.savingOperation = .finished ↔
      call.savingOperation = .finished ∨ step = .savingReturns := by
  cases step with
  | startSaving =>
      obtain ⟨⟨_, waiting, _⟩, rfl⟩ := Call.step_some action
      simp [waiting]
  | savingReturns =>
      obtain ⟨_, rfl⟩ := Call.step_some action
      simp
  | network step | startDownloading | downloading step =>
      obtain ⟨_, operation, _, rfl⟩ := Call.step_some action
      simp
  | startParsing | parsingReturns | imageAnswered =>
      obtain ⟨_, rfl⟩ := Call.step_some action
      simp

namespace Queues

inductive CallMoves (queues : Queues) (event : QueueEvent) (next : Queues) (index : Nat) : Prop
  | stays (other : ∀ step, event ≠ .call index step)
      (same : next.calls[index]? = queues.calls[index]?)
  | begins (images : Nat) (other : ∀ step, event ≠ .call index step)
      (fresh : queues.calls[index]? = none) (now : next.calls[index]? = some { images })
  | moves {call after : Call} {step : CallStep} (own : event = .call index step)
      (found : queues.calls[index]? = some call)
      (stepped : call.step queues.mainQueueFree step = some after)
      (now : next.calls[index]? = some after)

theorem callMoves_of_step {queues next : Queues} {event : QueueEvent}
    (action : queues.step event = some next) (index : Nat) :
    CallMoves queues event next index := by
  cases event with
  | downloadUserFriendsWithOperations images =>
      cases action
      rcases Nat.lt_trichotomy index queues.calls.length with old | rfl | beyond
      · exact .stays (by simp) (List.getElem?_append_left old)
      · exact .begins images (by simp) (by simp) (by simp)
      · refine .stays (by simp) ?_
        have old := List.getElem?_eq_none (Nat.le_of_lt beyond)
        rw [old, List.getElem?_eq_none]
        simpa using Nat.succ_le_of_lt beyond
  | call moved step =>
      obtain ⟨call, after, found, stepped, rfl⟩ := step_call action
      by_cases own : moved = index
      · subst own
        have inside := (List.getElem?_eq_some_iff.mp found).1
        exact .moves rfl found stepped (by simp [inside])
      · exact .stays (by simpa using own) (List.getElem?_set_ne own)

def AllAnswered (queues : Queues) : Prop :=
  ∀ (index : Nat) (call : Call), queues.calls[index]? = some call → Answered call

theorem AllAnswered.step {queues next : Queues} {event : QueueEvent}
    (answered : queues.AllAnswered) (action : queues.step event = some next) :
    next.AllAnswered := by
  intro index call present
  cases callMoves_of_step action index with
  | stays _ same => exact answered index call (same ▸ present)
  | begins images _ _ now =>
      cases now.symm.trans present
      constructor <;> simp
  | moves own found stepped now =>
      cases now.symm.trans present
      exact (answered index _ found).step stepped

theorem answered_of_run {events : List QueueEvent} {queues : Queues}
    (ran : Machine.run Queues.step {} events = some queues) : queues.AllAnswered :=
  Machine.run_invariant (fun _ _ _ answered action => AllAnswered.step answered action)
    (by simp [AllAnswered]) ran

theorem response_of_step {queues next : Queues} {event : QueueEvent} {index : Nat}
    (answered : queues.AllAnswered) (saved : queues.Saved index) (action : queues.step event = some next) :
    next.response index = queues.response index := by
  obtain ⟨call, present, finished⟩ := saved
  cases callMoves_of_step action index with
  | stays _ same => rw [response, response, same]
  | begins images _ fresh _ => cases fresh.symm.trans present
  | moves own found stepped now =>
      cases found.symm.trans present
      have reads := (answered index call found).saved (by simp [finished])
      rw [response, response, now, found]
      exact response_kept (answered index call found) (by simp [reads]) stepped

theorem saved_of_step {queues next : Queues} {event : QueueEvent}
    (action : queues.step event = some next) (index : Nat) :
    next.Saved index ↔ queues.Saved index ∨ event = .call index .savingReturns := by
  unfold Saved
  cases callMoves_of_step action index with
  | stays other same => simp [same, other]
  | begins images other fresh now => simp [now, fresh, other]
  | moves own found stepped now =>
      simp [now, found, own, saving_finished_iff stepped]

theorem unsaved_of_step {queues next : Queues} {index : Nat}
    (action : queues.step (.call index .savingReturns) = some next) : ¬ queues.Saved index := by
  obtain ⟨call, _, found, stepped, _⟩ := step_call action
  obtain ⟨executing, _⟩ := Call.step_some stepped
  simp [Saved, found, executing]

theorem saved_of_run {events : List QueueEvent} {queues : Queues}
    (ran : Machine.run Queues.step {} events = some queues) :
    (events.filterMap QueueEvent.saved).Nodup ∧
      ∀ index, index ∈ events.filterMap QueueEvent.saved ↔ queues.Saved index := by
  induction events using List.reverseRecOn generalizing queues with
  | nil =>
      cases ran
      simp [Saved]
  | append_singleton events event ih =>
      obtain ⟨before, reached, action⟩ := Machine.run_concat_some Queues.step |>.mp ran
      obtain ⟨once, saved⟩ := ih reached
      have now := saved_of_step action
      rw [List.filterMap_append]
      cases returns : event.saved with
      | none =>
          have other : ∀ index, event ≠ .call index .savingReturns := by
            rintro index rfl
            cases returns
          simp only [List.filterMap_cons_none returns, List.filterMap_nil, List.append_nil, now,
            other, or_false]
          exact ⟨once, saved⟩
      | some index =>
          have own : event = .call index .savingReturns := by
            unfold QueueEvent.saved at returns
            split at returns
            · cases returns
              rfl
            · cases returns
          subst own
          rw [List.filterMap_cons_some returns, List.filterMap_nil]
          constructor
          · rw [List.nodup_append]
            refine ⟨once, List.nodup_singleton index, ?_⟩
            intro other member last final same
            rw [List.mem_singleton.mp final] at same
            rw [same] at member
            exact unsaved_of_step action ((saved index).mp member)
          · intro other
            rw [List.mem_append, saved, now]
            simp [eq_comm]

end Queues

namespace Pipelines

variable {decode : Data → Option (List Friend)} {deletion saving : Nat → Access}

theorem step_queue {state next : Pipelines} {event : QueueEvent}
    (action : step decode deletion saving state (.queue event) = some next) :
    state.queues.step event = some next.queues ∧ next.parsing = state.parsed decode event := by
  obtain ⟨queues, stepped, action⟩ := Option.bind_eq_some_iff.mp action
  obtain ⟨store, _, action⟩ := Option.bind_eq_some_iff.mp action
  cases action
  exact ⟨stepped, rfl⟩

theorem step_attempt {state next : Pipelines} {write : Attempt}
    (action : step decode deletion saving state (.attempt write) = some next) :
    next.queues = state.queues ∧ next.parsing = state.parsing := by
  obtain ⟨store, _, rfl⟩ := Option.map_eq_some_iff.mp action
  exact ⟨rfl, rfl⟩

theorem parsed_other {state : Pipelines} {event : QueueEvent} {index : Nat}
    (other : event ≠ .call index .parsingReturns) :
    state.parsed decode event index = state.parsing index := by
  unfold parsed
  split
  · rename_i moved
    exact Function.update_of_ne (by rintro rfl; exact other rfl) _ _
  · rfl

structure Traced (decode : Data → Option (List Friend)) (state : Pipelines) : Prop where
  answered : state.queues.AllAnswered
  parsing : ∀ (index : Nat) (call : Call), state.queues.calls[index]? = some call →
    call.parsingOperation = .finished → state.parsing index =
      ParsingOperation.main decode ⟨some ⟨call.networkOperation.data⟩, []⟩

theorem Traced.queue {state next : Pipelines} {event : QueueEvent} (traced : Traced decode state)
    (action : step decode deletion saving state (.queue event) = some next) :
    Traced decode next := by
  obtain ⟨stepped, parsing⟩ := step_queue action
  refine ⟨traced.answered.step stepped, ?_⟩
  intro index call present finished
  rw [parsing]
  cases Queues.callMoves_of_step stepped index with
  | stays other same =>
      rw [parsed_other (other _)]
      exact traced.parsing index call (same ▸ present) finished
  | begins images _ _ now =>
      cases now.symm.trans present
      cases finished
  | moves own found moved now =>
      cases now.symm.trans present
      rename_i before callStep
      subst own
      by_cases returns : callStep = .parsingReturns
      · subst returns
        obtain ⟨_, rfl⟩ := Call.step_some moved
        simp only [parsed, found, Option.map_some, Function.update_self]
      · have earlier : before.parsingOperation = .finished := by
          simpa [returns] using (parsing_finished_iff moved).mp finished
        rw [parsed_other (by simpa using returns), traced.parsing index before found earlier,
          response_kept (traced.answered index before found) (by simp [earlier]) moved]

theorem traced_of_run {store : Store} {events : List PipelineEvent} {state : Pipelines}
    (ran : Machine.run (step decode deletion saving) { store } events = some state) :
    Traced decode state := by
  refine Machine.run_invariant ?_ ⟨by simp [Queues.AllAnswered], by simp⟩ ran
  intro state event next traced action
  cases event with
  | queue event => exact traced.queue action
  | attempt write =>
      obtain ⟨queues, parsing⟩ := step_attempt action
      exact ⟨queues ▸ traced.answered, queues ▸ parsing ▸ traced.parsing⟩

theorem take_of_step {queues next : Queues} {event : QueueEvent} {index : Nat}
    (answered : queues.AllAnswered) (saved : queues.Saved index)
    (action : queues.step event = some next) (store : Store) :
    Turn.take decode deletion saving next store (.refresh index) =
      Turn.take decode deletion saving queues store (.refresh index) := by
  simp only [Turn.take, Queues.response_of_step answered saved action]

theorem saved_eq_take {state : Pipelines} {queues : Queues} {event : QueueEvent}
    (traced : Traced decode state) (action : state.queues.step event = some queues) :
    state.saved deletion saving event =
      Machine.run (Turn.take decode deletion saving queues) state.store
        (event.saved.map Turn.refresh).toList := by
  unfold saved QueueEvent.saved
  split
  · rename_i index
    obtain ⟨call, _, found, stepped, rfl⟩ := Queues.step_call action
    obtain ⟨executing, rfl⟩ := Call.step_some stepped
    have reads := (traced.answered index call found).saved (by simp [executing])
    have inside := (List.getElem?_eq_some_iff.mp found).1
    have response : Queues.response
        { calls := state.queues.calls.set index { call with savingOperation := .finished }
          lastStarted := (CallStep.savingReturns.starts.map fun operation => (index, operation)).or
            state.queues.lastStarted } index = call.networkOperation.data := by
      simp [Queues.response, inside]
    rw [traced.parsing index call found reads, Option.map_some, Option.toList_some,
      Machine.run_cons, Turn.take, response]
    simp only [Machine.run_nil, Option.bind_eq_bind, Option.pure_def, Option.bind_fun_some]
    exact Option.map_eq_bind.symm
  · rfl

theorem saved_of_turn {event : PipelineEvent} {index : Nat}
    (taken : event.turn = some (.refresh index)) :
    event.queueEvent.bind QueueEvent.saved = some index := by
  cases event with
  | attempt write => cases taken
  | queue event =>
      obtain ⟨_, returns, same⟩ := Option.map_eq_some_iff.mp taken
      cases same
      exact returns

theorem turns_of_step {queues next : Queues} {events : List PipelineEvent} {event : PipelineEvent}
    (ran : Machine.run Queues.step {} (events.filterMap PipelineEvent.queueEvent) = some queues)
    (moved : Machine.run Queues.step queues event.queueEvent.toList = some next) (store : Store) :
    Machine.run (Turn.take decode deletion saving next) store
        (events.filterMap PipelineEvent.turn) =
      Machine.run (Turn.take decode deletion saving queues) store
        (events.filterMap PipelineEvent.turn) := by
  cases event with
  | attempt write =>
      cases moved
      rfl
  | queue event =>
      obtain ⟨_, action, rest⟩ := Option.bind_eq_some_iff.mp moved
      cases rest
      apply Machine.run_congr
      intro store turn member
      cases turn with
      | attempt write => rfl
      | refresh index =>
          obtain ⟨_, present, taken⟩ := List.mem_filterMap.mp member
          have saved : queues.Saved index := by
            apply ((Queues.saved_of_run ran).2 index).mp
            rw [List.filterMap_filterMap, List.mem_filterMap]
            exact ⟨_, present, saved_of_turn taken⟩
          exact take_of_step (Queues.answered_of_run ran) saved action store

variable (decode deletion saving) in
def turnOf (queues : Queues) (store : Store) (event : PipelineEvent) : Option (Queues × Store) :=
  (Machine.run Queues.step queues event.queueEvent.toList).bind fun next =>
    (Machine.run (Turn.take decode deletion saving next) store event.turn.toList).map fun store =>
      (next, store)

theorem step_eq_turn {state : Pipelines} (traced : Traced decode state) (event : PipelineEvent) :
    (step decode deletion saving state event).map (fun state => (state.queues, state.store)) =
      turnOf decode deletion saving state.queues state.store event := by
  cases event with
  | attempt write =>
      simp only [step, turnOf, PipelineEvent.queueEvent, PipelineEvent.turn]
      cases written : Attempt.step state.store write <;> simp [Turn.take, written]
  | queue event =>
      simp only [step, turnOf, PipelineEvent.queueEvent, PipelineEvent.turn]
      cases action : state.queues.step event with
      | none => simp [action]
      | some queues =>
          simp only [Option.bind_eq_bind, Option.bind_some, Option.toList_some, Machine.run_cons,
            Machine.run_nil, action, saved_eq_take traced action]
          cases Machine.run (Turn.take decode deletion saving queues) state.store
            (event.saved.map Turn.refresh).toList <;> rfl

theorem inTurns_concat (store : Store) (events : List PipelineEvent) (event : PipelineEvent) :
    inTurns decode deletion saving store (events ++ [event]) =
      (inTurns decode deletion saving store events).bind fun reached =>
        turnOf decode deletion saving reached.1 reached.2 event := by
  simp only [inTurns, List.filterMap_append, Machine.filterMap_singleton, Machine.run_append,
    Option.bind_assoc]
  apply Option.bind_congr
  intro queues ran
  cases taken : Machine.run (Turn.take decode deletion saving queues) store
      (events.filterMap PipelineEvent.turn) with
  | none =>
      rw [Option.map_none, Option.bind_none, Option.bind_eq_none_iff]
      intro next moved
      rw [turns_of_step ran moved, taken]
      rfl
  | some stored =>
      rw [Option.map_some, Option.bind_some]
      apply Option.bind_congr
      intro next moved
      rw [turns_of_step ran moved, taken]
      rfl

theorem run_eq_inTurns (store : Store) (events : List PipelineEvent) :
    (Machine.run (step decode deletion saving) { store } events).map
        (fun state => (state.queues, state.store)) =
      inTurns decode deletion saving store events := by
  induction events using List.reverseRecOn with
  | nil => rfl
  | append_singleton events event ih =>
      rw [inTurns_concat, ← ih, Machine.run_append]
      cases ran : Machine.run (step decode deletion saving) { store } events with
      | none => rfl
      | some state =>
          rw [Option.map_some, Option.bind_some, Option.bind_some,
            ← step_eq_turn (traced_of_run ran), Machine.run_cons]
          simp only [Machine.run_nil, Option.bind_fun_some]

variable (decode deletion saving) in
theorem pipelines_take_turns (store : Store) (events : List PipelineEvent) :
    (Machine.run (step decode deletion saving) { store } events).map
        (fun state => (state.queues, state.store)) = inTurns decode deletion saving store events ∧
      ∀ queues, Machine.run Queues.step {} (events.filterMap PipelineEvent.queueEvent) =
          some queues →
        ((events.filterMap PipelineEvent.queueEvent).filterMap QueueEvent.saved).Nodup ∧
          ∀ index, index ∈ (events.filterMap PipelineEvent.queueEvent).filterMap
            QueueEvent.saved ↔ queues.Saved index := by
  refine ⟨run_eq_inTurns store events, ?_⟩
  intro queues ran
  exact Queues.saved_of_run ran

end Pipelines

end SocialApp.Network
