import Gabriel.Lib.Machine
import Gabriel.Lib.Semaphore
import Gabriel.Protocol

/-!
# Push sources

`push_source.Source` takes frames from another process over a pipe and is an input producer for a client.  The event
loop calls `reader_callback` for each frame on the pipe; the callback puts the frame into a slot and releases a
semaphore, for which the calls of the producer wait.  The callback is installed by the first call.

The slot has room for one frame, while the semaphore counts all of them.  If two frames arrive before the first one is
taken, two calls return the second frame (`frame_returned_twice`).  The source delivers what it promises if each
frame is taken before the next one arrives (`frames_returned_once`).
-/

namespace Gabriel.PushSource

/-- A call of the producer that has returned, with the number of frames that had arrived by then. -/
structure Returned where
  arrivals : Nat
  frame : Option InputFrame
  deriving DecidableEq, Repr

/-- The attributes of `Source`, and the history of the frames that arrived and of the calls that returned. -/
structure State where
  /-- The frames on the pipe. -/
  pipe : List InputFrame := []
  latestInputFrame : Option InputFrame := none
  /-- `_frame_available`, with the numbers of the calls that wait for it. -/
  frameAvailable : Semaphore Nat := { value := 0 }
  addedCallback : Bool := false
  nextCall : Nat := 0
  arrived : List InputFrame := []
  returned : List Returned := []
  deriving DecidableEq, Repr

inductive Action
  /-- `Source.send` in another process. -/
  | send (frame : InputFrame)
  | readerCallback
  /-- The producer is called. -/
  | produce
  /-- A call that waited for the semaphore goes on. -/
  | resume (call : Nat)
  /-- A call that waits is cancelled. -/
  | cancel (call : Nat)
  deriving DecidableEq, Repr

namespace State

/-- A call returns the frame in the slot. -/
def complete (s : State) : State :=
  { s with returned := s.returned ++ [{ arrivals := s.arrived.length, frame := s.latestInputFrame }] }

/-- `reader_callback` with the frame that it reads. -/
def readerCallback (s : State) (frame : InputFrame) (rest : List InputFrame) : State :=
  { s with
    pipe := rest
    latestInputFrame := some frame
    frameAvailable := s.frameAvailable.release
    arrived := s.arrived ++ [frame] }

/-- A call of the producer, up to its suspension if there is one. -/
def produce (s : State) : State :=
  let r := s.frameAvailable.acquire s.nextCall
  let s := { s with
    frameAvailable := r.1
    addedCallback := true
    nextCall := s.nextCall + 1 }
  if r.2 then s.complete else s

def step (s : State) : Action → Option State
  | .send frame => some { s with pipe := s.pipe ++ [frame] }
  | .readerCallback =>
    match s.addedCallback, s.pipe with
    | true, frame :: rest => some (s.readerCallback frame rest)
    | _, _ => none
  | .produce => some s.produce
  | .resume call => (s.frameAvailable.resume call).map fun sem => { s with frameAvailable := sem }.complete
  | .cancel call => (s.frameAvailable.cancel call).map fun sem => { s with frameAvailable := sem }

/-- The number of frames that had arrived when the last call returned. -/
def lastReturned (s : State) : Nat := (s.returned.getLast?.map Returned.arrivals).getD 0

end State

def machine : Machine State Action := { init := {}, step := State.step }

variable {s s' : State} {a : Action}

/-! ### What a step does -/

/-- What a step can do: a frame arrives, a call returns, or neither. -/
inductive Step (s : State) : Action → State → Prop
  | arrives {frame : InputFrame} {rest : List InputFrame} (hpipe : s.pipe = frame :: rest) :
      Step s .readerCallback (s.readerCallback frame rest)
  | returns {a : Action} {t : State} (ha : a ≠ .readerCallback) (harrived : t.arrived = s.arrived)
      (hlatest : t.latestInputFrame = s.latestInputFrame) (hreturned : t.returned = s.returned)
      (hpermits : t.frameAvailable.permits + 1 = s.frameAvailable.permits) : Step s a t.complete
  | quiet {a : Action} {t : State} (ha : a ≠ .readerCallback) (harrived : t.arrived = s.arrived)
      (hlatest : t.latestInputFrame = s.latestInputFrame) (hreturned : t.returned = s.returned)
      (hpermits : t.frameAvailable.permits = s.frameAvailable.permits) : Step s a t

theorem step_cases (h : s.step a = some s') : Step s a s' := by
  cases a with
  | send frame =>
    cases h
    exact .quiet (by simp) rfl rfl rfl rfl
  | readerCallback =>
    simp only [State.step] at h
    split at h
    · cases h
      exact .arrives ‹_›
    · cases h
  | produce =>
    cases h
    have hpermits := s.frameAvailable.permits_acquire (i := s.nextCall)
    simp only [State.produce]
    split <;> rename_i htaken <;> simp only [htaken] at hpermits
    · exact .returns (by simp) rfl rfl rfl hpermits
    · exact .quiet (by simp) rfl rfl rfl hpermits
  | resume call =>
    obtain ⟨sem, hsem, rfl⟩ := Option.map_eq_some_iff.1 h
    exact .returns (by simp) rfl rfl rfl (Semaphore.permits_resume hsem)
  | cancel call =>
    obtain ⟨sem, hsem, rfl⟩ := Option.map_eq_some_iff.1 h
    exact .quiet (by simp) rfl rfl rfl (Semaphore.permits_cancel hsem)

/-! ### Frames that are taken before the next one arrives -/

/-- A frame arrives only when the frames before it have been taken. -/
def Action.oneAtATime (s : State) (a : Action) : Prop := a = .readerCallback → s.frameAvailable.permits = 0

instance (s : State) (a : Action) : Decidable (a.oneAtATime s) := inferInstanceAs (Decidable (_ → _))

/-- Each frame but the last one has been returned, and that one has been returned or can be taken. -/
structure Delivered (s : State) : Prop where
  latest : s.latestInputFrame = s.arrived.getLast?
  count : s.returned.length + s.frameAvailable.permits = s.arrived.length
  permits : s.frameAvailable.permits ≤ 1
  arrivals : s.returned.map Returned.arrivals = List.range' 1 s.returned.length
  frames : ∀ r ∈ s.returned, s.arrived[r.arrivals - 1]? = r.frame

theorem Delivered.arrives (h : Delivered s) (hpermits : s.frameAvailable.permits = 0) (frame : InputFrame)
    (rest : List InputFrame) : Delivered (s.readerCallback frame rest) := by
  have hcount := h.count
  have hrelease := s.frameAvailable.permits_release
  refine ⟨by simp [State.readerCallback], ?_, ?_, h.arrivals, fun r hr => ?_⟩
  · simp only [State.readerCallback, List.length_append, List.length_singleton]
    omega
  · simp only [State.readerCallback]
    omega
  · -- the calls that have returned were for earlier frames
    have hmem : r.arrivals ∈ List.range' 1 s.returned.length := h.arrivals ▸ List.mem_map_of_mem hr
    have hrange := List.mem_range'_1.1 hmem
    rw [State.readerCallback, List.getElem?_append_left (by omega)]
    exact h.frames r hr

theorem Delivered.returns {t : State} (h : Delivered s) (harrived : t.arrived = s.arrived)
    (hlatest : t.latestInputFrame = s.latestInputFrame) (hreturned : t.returned = s.returned)
    (hpermits : t.frameAvailable.permits + 1 = s.frameAvailable.permits) : Delivered t.complete := by
  have hcount := h.count
  have hone := h.permits
  have hlength : t.arrived.length = s.returned.length + 1 := by rw [harrived]; omega
  refine ⟨by simp [State.complete, harrived, hlatest, h.latest], ?_, ?_, ?_, fun r hr => ?_⟩
  · simp only [State.complete, List.length_append, List.length_singleton, hreturned, hlength]
    omega
  · simp only [State.complete]
    omega
  · simp only [State.complete, List.map_append, List.length_append, hreturned, h.arrivals, List.map_singleton,
      List.length_singleton, hlength, List.range'_1_concat]
    rw [Nat.add_comm]
  · simp only [State.complete, hreturned, List.mem_append, List.mem_singleton] at hr ⊢
    rw [harrived]
    rcases hr with hr | rfl
    · exact h.frames r hr
    · simp only [harrived, hlatest, h.latest, List.getLast?_eq_getElem?]

theorem delivered_step (h : Delivered s) (ha : a.oneAtATime s) (hstep : s.step a = some s') : Delivered s' := by
  cases step_cases hstep with
  | arrives => exact h.arrives (ha rfl) _ _
  | returns _ harrived hlatest hreturned hpermits => exact h.returns harrived hlatest hreturned hpermits
  | quiet _ harrived hlatest hreturned hpermits =>
    exact ⟨by rw [hlatest, harrived, h.latest], by rw [hreturned, harrived, hpermits, h.count],
      hpermits ▸ h.permits, by rw [hreturned, h.arrivals], by rw [hreturned, harrived]; exact h.frames⟩

theorem run_delivered {as : List Action} (h : machine.RunWhere (fun s a => a.oneAtATime s) as s) : Delivered s := by
  have hinit : Delivered {} := ⟨rfl, rfl, Nat.zero_le _, rfl, fun _ hr => absurd hr List.not_mem_nil⟩
  exact h.invariant (I := Delivered) hinit fun _ _ _ h ha hstep => delivered_step h ha hstep

/-- Without a permit no call returns before the next frame arrives. -/
theorem waits_for_arrival {bs : List Action} (hpermits : s.frameAvailable.permits = 0)
    (hbs : .readerCallback ∉ bs) (hexec : machine.exec s bs = some s') : s'.returned = s.returned := by
  induction bs generalizing s with
  | nil =>
    cases hexec
    rfl
  | cons b bs ih =>
    obtain ⟨t, hstep, hexec⟩ := Option.bind_eq_some_iff.1 hexec
    have hb : b ≠ .readerCallback := fun he => hbs (he ▸ List.mem_cons_self ..)
    have hrest : .readerCallback ∉ bs := fun hmem => hbs (List.mem_cons_of_mem _ hmem)
    cases step_cases hstep with
    | arrives => exact absurd rfl hb
    | returns _ _ _ _ hreturns => omega
    | quiet _ _ _ hreturned hquiet => rw [ih (by omega) hrest hexec, hreturned]

theorem Delivered.lastReturned (h : Delivered s) : s.lastReturned = s.returned.length := by
  rw [State.lastReturned, ← List.getLast?_map, h.arrivals]
  cases s.returned.length with
  | zero => rfl
  | succ n =>
    rw [List.range'_1_concat, List.getLast?_concat]
    simp [Nat.add_comm]

/-- A source delivers the latest frame that was not sent, once.  If each frame is taken before the next one arrives,
then a call returns the frame that has arrived last, no two calls return the same frame, and every frame but the last
one was returned.  If no frame has arrived since the last one that was returned, no call returns before the next frame
arrives, and then a call that waits can go on. -/
theorem frames_returned_once {as : List Action} (h : machine.RunWhere (fun s a => a.oneAtATime s) as s) :
    (∀ r ∈ s.returned, 0 < r.arrivals ∧ r.arrivals ≤ s.arrived.length ∧ s.arrived[r.arrivals - 1]? = r.frame) ∧
    (s.returned.map Returned.arrivals).Pairwise (· < ·) ∧
    s.returned.length ≤ s.arrived.length ∧ s.arrived.length ≤ s.returned.length + 1 ∧
    (s.arrived.length = s.lastReturned →
      (∀ bs s', .readerCallback ∉ bs → machine.exec s bs = some s' → s'.returned = s.returned) ∧
      ∀ s', s.step .readerCallback = some s' → s.frameAvailable.waiters ≠ [] →
        ∃ call, (s'.step (.resume call)).isSome) := by
  have hinv := run_delivered h
  have hcount := hinv.count
  have hpermits := hinv.permits
  refine ⟨fun r hr => ?_, ?_, by omega, by omega, fun hlast => ?_⟩
  · have hmem : r.arrivals ∈ List.range' 1 s.returned.length := hinv.arrivals ▸ List.mem_map_of_mem hr
    have hrange := List.mem_range'_1.1 hmem
    exact ⟨by omega, by omega, hinv.frames r hr⟩
  · rw [hinv.arrivals]
    exact List.pairwise_lt_range'
  · rw [hinv.lastReturned] at hlast
    have hnone : s.frameAvailable.permits = 0 := by omega
    refine ⟨fun bs s' hbs hexec => waits_for_arrival hnone hbs hexec, fun s' hstep hwaiters => ?_⟩
    cases step_cases hstep with
    | arrives =>
      obtain ⟨call, hmem⟩ := Semaphore.exists_granted_release hwaiters hnone
      exact ⟨call, by simp [State.step, State.readerCallback, Semaphore.resume, hmem]⟩
    | returns ha => exact absurd rfl ha
    | quiet ha => exact absurd rfl ha

/-- Two frames, each of which is taken before the next one arrives, and a call that waits for a third one. -/
theorem frames_returned_once_of_two_frames :
    ∃ as s, machine.RunWhere (fun s a => a.oneAtATime s) as s ∧ s.returned.map Returned.arrivals = [1, 2] ∧
      s.frameAvailable.waiters ≠ [] ∧ s.arrived.length = s.lastReturned ∧
      ∀ s', s.step .readerCallback = some s' → ∃ call, (s'.step (.resume call)).isSome := by
  obtain ⟨s, hrun, hreturned, hwaiters, hlast⟩ := Machine.exists_runWhere (M := machine)
    (G := fun s a => a.oneAtATime s) (g := fun s a => decide (a.oneAtATime s)) (fun _ _ h => of_decide_eq_true h)
    (fun s => s.returned.map Returned.arrivals = [1, 2] ∧ s.frameAvailable.waiters ≠ [] ∧
      s.arrived.length = s.lastReturned)
    [.produce, .send { payloadType := .text }, .send { payloadType := .image }, .readerCallback, .resume 0,
      .readerCallback, .produce, .produce, .send { payloadType := .audio }] (by decide)
  exact ⟨_, s, hrun, hreturned, hwaiters, hlast,
    fun s' hstep => ((frames_returned_once hrun).2.2.2.2 hlast).2 s' hstep hwaiters⟩

/-- Two frames arrive before the second call: this call and the next one both return the second frame. -/
theorem frame_returned_twice :
    ∃ as s, machine.Run as s ∧ s.returned.map Returned.arrivals = [1, 3, 3] ∧
      s.returned.map Returned.frame =
        [some { payloadType := .text }, some { payloadType := .audio }, some { payloadType := .audio }] := by
  obtain ⟨s, hrun, h⟩ := Machine.exists_run (M := machine)
    (fun s => s.returned.map Returned.arrivals = [1, 3, 3] ∧ s.returned.map Returned.frame =
      [some { payloadType := .text }, some { payloadType := .audio }, some { payloadType := .audio }])
    [.produce, .send { payloadType := .text }, .readerCallback, .resume 0, .send { payloadType := .image },
      .send { payloadType := .audio }, .readerCallback, .readerCallback, .produce, .produce] (by decide)
  exact ⟨_, s, hrun, h⟩

end Gabriel.PushSource
