import OtelFleet.Semantics.Run
import OtelFleet.Webhooks.Dispatcher

/-! # The event queue

`Publish` finds the queue full and drops the oldest event in two channel operations.
What leaves the queue in between makes it drop an event of a queue with room.
-/

namespace OtelFleet.Webhooks.Publishing

open Semantics

variable {state next : Publishing}

/-- No event is received while another call has found the queue full. -/
@[grind] def Undisturbed (state : Publishing) : Operation → Prop
  | .call _ => True
  | .advance call => ∀ (event waiting : Event) (other : Nat), state.calls[call]? = some (event, .full) →
      state.calls[other]? = some (waiting, .full) → other = call
  | .consume => ∀ (waiting : Event) (other : Nat), state.calls[other]? ≠ some (waiting, .full)

structure Sound (state : Publishing) : Prop where
  /-- An event is dropped from a full queue only. -/
  dropped : ∀ removal ∈ state.removed, removal.dropped → removal.waiting = queueSize
  /-- The events leave in the order in which they entered, each of them once. -/
  inOrder : state.removed.map (·.entry) ++ state.queue = state.entered
  /-- The calls that have returned are those that have put their event. -/
  put : ∀ entry, entry ∈ state.entered ↔ state.calls[entry.1]? = some (entry.2, .returned)
  once : (state.entered.map Prod.fst).Nodup
  bounded : state.queue.length ≤ queueSize
  full : ∀ (call : Nat) (event : Event), state.calls[call]? = some (event, .full) → state.queue.length = queueSize

theorem Sound.perform {operation : Operation} (sound : Sound state)
    (undisturbed : Undisturbed state operation) (performed : state.perform operation = some next) : Sound next := by
  obtain ⟨dropped, inOrder, put, once, bounded, full⟩ := sound
  cases operation with
  | call event =>
    cases performed
    exact ⟨dropped, inOrder, by grind, once, bounded, by grind⟩
  | consume =>
    simp only [Publishing.perform, Publishing.receive] at performed
    split at performed
    · cases performed
    · cases performed
      exact ⟨by grind, by grind, put, once, by grind, by grind⟩
  | advance call =>
    simp only [Publishing.perform] at performed
    split at performed
    · rename_i event sending
      split at performed
      · cases performed
        exact ⟨dropped, by grind, by grind, by grind, by grind, by grind⟩
      · cases performed
        exact ⟨dropped, inOrder, by grind, once, bounded, by grind⟩
    · rename_i event found
      have isFull := full call event found
      cases queued : state.queue with
      | nil => simp [queued, queueSize] at isFull
      | cons oldest rest =>
        simp only [Publishing.receive, queued] at performed
        cases performed
        exact ⟨by grind, by grind, by grind, once, by grind, by grind⟩
    · cases performed

/-! ## The consumer and a call alone -/

def taken (state : Publishing) : List (Nat × Event) := (state.removed.filter (!·.dropped)).map (·.entry)

theorem consumes (state : Publishing) :
    ∃ last, performAll perform state (.replicate state.queue.length .consume) = some last ∧
      last.taken = state.taken ++ state.queue := by
  induction queued : state.queue generalizing state with
  | nil => exact ⟨state, rfl, (List.append_nil _).symm⟩
  | cons oldest rest ih =>
    obtain ⟨last, consumed, took⟩ :=
      ih { state with queue := rest, removed := state.removed ++ [⟨oldest, rest.length + 1, false⟩] } rfl
    refine ⟨last, ?_, ?_⟩
    · simpa [List.replicate_succ, performAll, Publishing.perform, Publishing.receive, queued] using consumed
    · rw [took]
      simp [taken]

variable {call : Nat} {event : Event}

def Puts (state : Publishing) (call : Nat) (event : Event) : Prop :=
  ∃ count last, performAll perform state (.replicate count (.advance call)) = some last ∧ (call, event) ∈ last.entered

theorem Puts.before (puts : Puts next call event) (performed : state.perform (.advance call) = some next) :
    Puts state call event := by
  obtain ⟨count, last, rest, put⟩ := puts
  exact ⟨count + 1, last, by simpa [List.replicate_succ, performAll, performed] using rest, put⟩

theorem puts_of_room (room : state.queue.length < queueSize) (sending : state.calls[call]? = some (event, .sending)) :
    Puts state call event := by
  have performed : state.perform (.advance call) = some ((state.send (call, event)).setPhase call event .returned) := by
    simp [Publishing.perform, sending, room]
  refine Puts.before ⟨0, _, rfl, ?_⟩ performed
  grind

theorem puts_of_full (bounded : state.queue.length ≤ queueSize) (found : state.calls[call]? = some (event, .full)) :
    Puts state call event := by
  have performed : state.perform (.advance call) =
      some (((state.receive true).getD state).setPhase call event .sending) := by
    simp [Publishing.perform, found]
  -- whether it drops an event or finds none left, there is room
  refine Puts.before (puts_of_room ?_ ?_) performed
  · unfold Publishing.receive
    split <;> grind [queueSize]
  · unfold Publishing.receive
    split <;> grind

/-- **Queue.**  Where nothing is received between a call's finding the queue full and
    its own receive, an event is dropped from a full queue only, the events leave in
    their order, and each call that has returned has put its event. -/
theorem queue_sound {operations : List Operation} {last : Publishing}
    (run : Run (Restricted Undisturbed fun state operation next => state.perform operation = some next) {} operations last) :
    Sound last ∧
      (∃ after, performAll perform last (.replicate last.queue.length .consume) = some after ∧
        after.taken = last.taken ++ last.queue) ∧
      ∀ (call : Nat) (event : Event) (phase : Phase), last.calls[call]? = some (event, phase) → Puts last call event := by
  have sound : Sound last :=
    run.invariant (fun _ _ _ step sound => sound.perform step.1 step.2) ⟨by simp, rfl, by simp, by simp, by simp, by simp⟩
  refine ⟨sound, consumes last, ?_⟩
  intro call event phase stands
  cases phase with
  | returned => exact ⟨0, last, rfl, (sound.put (call, event)).mpr stands⟩
  | full => exact puts_of_full sound.bounded stands
  | sending =>
    by_cases room : last.queue.length < queueSize
    · exact puts_of_room room stands
    · have performed : last.perform (.advance call) = some (last.setPhase call event .full) := by
        simp [Publishing.perform, stands, room]
      refine (puts_of_full ?_ ?_).before performed
      · exact sound.bounded
      · grind

def offline : Event := ⟨"agent_offline", 0, ⟨1⟩, ⟨2⟩, []⟩

/-- No call but the last one is under way. -/
def oneByOne (state : Publishing) : Operation → Bool
  | .call _ => true
  | .advance call => call + 1 = state.calls.length && state.calls.dropLast.all fun call => call.2 = .returned
  | .consume => state.calls.all fun call => call.2 = .returned

theorem undisturbed_of_oneByOne {operation : Operation} (one : oneByOne state operation = true) :
    Undisturbed state operation := by
  cases operation with
  | call event => trivial
  | advance call =>
    intro event waiting other _ isFull
    simp only [oneByOne, Bool.and_eq_true, decide_eq_true_eq, List.all_eq_true] at one
    by_contra different
    have isEarlier : state.calls.dropLast[other]? = some (waiting, .full) := by
      rw [List.getElem?_dropLast, if_pos (by grind), isFull]
    cases one.2 _ (List.mem_of_getElem? isEarlier)
  | consume =>
    intro waiting other isFull
    simp only [oneByOne, decide_eq_true_eq, List.all_eq_true] at one
    cases one _ (List.mem_of_getElem? isFull)

abbrev Sequential : Publishing → Operation → Publishing → Prop :=
  Restricted (fun state operation => oneByOne state operation = true) fun state operation next => state.perform operation = some next

def filled (count : Nat) : Publishing where
  calls := .replicate count (offline, .returned)
  queue := (List.range count).map fun call => (call, offline)
  entered := (List.range count).map fun call => (call, offline)

theorem run_filled {count : Nat} (room : count ≤ queueSize) :
    Run Sequential {} ((List.range count).flatMap fun call => [.call offline, .advance call]) (filled count) := by
  induction count with
  | zero => exact .refl _
  | succ count ih =>
    have isNext : count < queueSize := room
    rw [List.range_succ, List.flatMap_append]
    refine (ih (by omega)).append (.step ⟨rfl, rfl⟩ (.step ⟨?_, ?_⟩ (.refl _)))
    · simp [oneByOne, filled]
    · simp [Publishing.perform, filled, send, setPhase, isNext, List.range_succ, List.replicate_succ']

/-- A call that finds the queue full drops the oldest event, and the consumer takes the
    second one. -/
theorem queue_sound_dropped : ∃ last, Sound last ∧
    last.removed.map (fun removal => (removal.entry.1, removal.waiting, removal.dropped)) =
      [(0, queueSize, true), (1, queueSize, false)] := by
  have observed : (performAll (fun state operation => if oneByOne state operation then perform state operation else none)
      (filled queueSize) [.call offline, .advance queueSize, .advance queueSize, .advance queueSize, .consume]).any
        fun last => last.removed.map (fun removal => (removal.entry.1, removal.waiting, removal.dropped)) =
          [(0, queueSize, true), (1, queueSize, false)] := by decide +kernel
  obtain ⟨last, performed, removed⟩ := (Option.any_eq_true _ _).mp observed
  have run : Run Sequential {} _ last := (run_filled le_rfl).append (restricted_of_performAll performed)
  have undisturbed := run.weaken fun _ _ _ step => And.imp_left undisturbed_of_oneByOne step
  exact ⟨last, (queue_sound undisturbed).1, of_decide_eq_true removed⟩

/-- The consumer takes an event of the full queue before the call receives: the call
    drops a second one. -/
theorem drop_with_room : ∃ operations last,
    Run (fun state operation next => perform state operation = some next) {} operations last ∧
      ∃ removal ∈ last.removed, removal.dropped ∧ removal.waiting < queueSize := by
  have observed : (performAll perform (filled queueSize)
      [.call offline, .advance queueSize, .consume, .advance queueSize]).any
        (·.removed.any fun removal => removal.dropped && removal.waiting < queueSize) := by decide +kernel
  obtain ⟨last, performed, drops⟩ := (Option.any_eq_true _ _).mp observed
  refine ⟨_, last, ((run_filled le_rfl).weaken fun _ _ _ step => step.2).append (run_of_performAll performed), ?_⟩
  simpa using drops

end OtelFleet.Webhooks.Publishing
