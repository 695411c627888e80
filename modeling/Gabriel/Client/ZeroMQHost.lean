import Gabriel.Client.Reregistration
import Gabriel.Server.Streams

/-!
# The receive loop of the ZeroMQ server

All clients of `ZeroMQServer` share one socket.  The task of `_client_handler` reads it, makes a client entry with a
`_consumer` of its own for an identity that it does not know, and puts the message into the queue of the entry.  The
consumer takes the messages out of the queue, one after the other; it deletes the entry when it has waited in vain for
a message.  A timeout may coincide with the arrival of a message, which then stays in the queue of the deleted entry;
the model lets a timeout come whatever is in the queue.  The send of a heartbeat neither suspends its consumer nor
raises.
-/

namespace Gabriel

namespace Interleaved

open Frontend

variable {cfg : Config} {sys sys' : Sys} {act : Action} {a : Address} {ref : ClientRef}

/-- The table of the ZeroMQ server changes where an entry is made and where one times out. -/
theorem get?_step_of_zeromq (hcfg : cfg.clientTransport = .zeromq) (hatt : sys.Attached cfg)
    (hstep : step cfg sys act = some sys') (hopen : act ≠ .openClient a)
    (hclose : ∀ i stream, act = .closeStream i → sys.streams[i]? = some stream → stream.address ≠ a) :
    sys'.server.frontend.clients.get? a = sys.server.frontend.clients.get? a :=
  Option.ext fun _ => ⟨clients_step hstep hopen, entry_step hcfg hatt hstep hclose⟩

theorem get?_openClient (hstep : step cfg sys (.openClient a) = some sys') :
    sys'.server.frontend.clients.get? a = some sys.server.frontend.nextClient ∧
      sys'.server.frontend.nextClient = sys.server.frontend.nextClient + 1 := by
  cases step_cases hstep with
  | openClient => simp [addClient]
  | session _ _ _ hc => cases hc

theorem running_of_closeStream {i : Nat} {stream : Stream} (hstep : step cfg sys (.closeStream i) = some sys')
    (hi : sys.streams[i]? = some stream) : stream.pc.running := by
  cases step_cases hstep with
  | closed hi' hidle =>
    cases hi.symm.trans hi'
    rw [hidle]
    trivial
  | session _ _ _ hc => cases hc

/-- A consumer that times out deletes its entry. -/
theorem get?_closeStream {i : Nat} {stream : Stream} (hatt : sys.Attached cfg)
    (hstep : step cfg sys (.closeStream i) = some sys') (hi : sys.streams[i]? = some stream)
    (howner : stream.owner = some ref) :
    sys.server.frontend.clients.get? stream.address = some ref ∧
      sys'.server.frontend.clients.get? stream.address = none := by
  obtain ⟨stream', hi', hstep⟩ := Option.bind_eq_some_iff.1 hstep
  cases hi.symm.trans hi'
  obtain ⟨⟨s, pc⟩, hr, hstep⟩ := Option.bind_eq_some_iff.1 hstep
  cases hstep
  unfold closeStream at hr
  split at hr
  · rename_i hpc
    have hentry := hatt.attached hi (by rw [hpc]; trivial)
    simp only [Stream.Attached, howner] at hentry
    simp only [endStream, howner, Option.isSome_some, and_self, ↓reduceIte, removeClient, hentry,
      Option.some.injEq] at hr
    obtain ⟨rfl, -⟩ := Prod.ext_iff.1 hr
    exact ⟨hentry, by simp [Sys.setStream]⟩
  · cases hr

/-- A write that raises ends the consumer, and that is all. -/
theorem resumeStream_raises {i : Nat} {stream : Stream} {b : Bool} (hcfg : cfg.clientTransport = .zeromq)
    (hstep : step cfg sys (.resumeStream i true b) = some sys') (hi : sys.streams[i]? = some stream) :
    stream.pc.running ∧ sys' = sys.setStream i stream (sys.server, .finished (some .raised)) := by
  obtain ⟨stream', hi', hstep⟩ := Option.bind_eq_some_iff.1 hstep
  cases hi.symm.trans hi'
  obtain ⟨⟨s, pc⟩, hr, hstep⟩ := Option.bind_eq_some_iff.1 hstep
  cases hstep
  simp only [resumeStream, failStream_of_zeromq hcfg, ↓reduceIte] at hr
  split at hr
  · cases hr
  · cases hr
  · rename_i hpc
    cases hr
    exact ⟨by rw [hpc]; trivial, rfl⟩
  · rename_i hpc
    cases hr
    exact ⟨by rw [hpc]; trivial, rfl⟩
end Interleaved

namespace ZeroMQServer

open Frontend

/-- The messages on the socket, as the server tells them apart. -/
inductive Raw
  | hello
  | heartbeat
  /-- Bytes that are no `FromClient`. -/
  | malformed
  | input (msg : FromClient)
  deriving DecidableEq, Repr

structure State where
  sys : Interleaved.Sys := {}
  /-- The messages on `_sock` with the identities of their senders. -/
  socket : List (Address × Raw) := []
  /-- The queues `inputs` of the client entries. -/
  inputs : ClientRef → List Raw := fun _ => []
  /-- The identities to which a heartbeat was sent back. -/
  heartbeats : List Address := []
  /-- The messages that have come to the socket. -/
  arrived : List (Address × Raw) := []
  /-- The messages that were in the queues of deleted entries. -/
  lost : List (Address × Raw) := []

inductive Action
  /-- A message comes to the socket. -/
  | arrive (a : Address) (raw : Raw)
  /-- `_client_handler` receives the next message. -/
  | receive
  /-- The consumer `i` gets the next message of its queue. -/
  | takeUp (i : Nat) (order : List Context) (delivered : Bool)
  /-- The consumer `i` has waited in vain. -/
  | timeout (i : Nat)
  /-- An engine takes a step, or a consumer that is suspended goes on. -/
  | server (act : Interleaved.Action)

/-- The steps that `_client_handler` and the waits of the consumers have no part in. -/
def internal : Interleaved.Action → Bool
  | .openClient _ | .openProducer _ | .message _ _ _ _ | .closeStream _ => false
  | .resumeStream _ _ _ | .openSession | .engineMessage _ _ | .resumeSession _ _ _ | .closeSession _ => true

namespace State

/-- Put a message into the queue of the entry `ref`. -/
def put (s : State) (ref : ClientRef) : Raw → State
  | .hello => s
  | raw => { s with inputs := Function.update s.inputs ref (s.inputs ref ++ [raw]) }

/-- The loop of `_client_handler`. -/
def receive (cfg : Config) (s : State) : Option State :=
  match s.socket with
  | [] => none
  | (a, raw) :: socket =>
    match s.sys.server.frontend.clients.get? a with
    | some ref => some ({ s with socket := socket }.put ref raw)
    | none =>
      (Interleaved.step cfg s.sys (.openClient a)).map fun sys =>
        { s with
          sys := sys
          socket := socket }.put s.sys.server.frontend.nextClient raw

/-- What the consumer `i` at the address `a` does with a message. -/
def consume (cfg : Config) (s : State) (i : Nat) (a : Address) (order : List Context) (delivered : Bool) :
    Raw → Option State
  | .heartbeat => some { s with heartbeats := s.heartbeats ++ [a] }
  | .input msg =>
    (Interleaved.step cfg s.sys (.message i msg order delivered)).map fun sys => { s with sys := sys }
  -- it fails to parse and is logged
  | .hello | .malformed => some s

/-- The loop of `_consumer` from the return of `inputs.get()` on. -/
def takeUp (cfg : Config) (s : State) (i : Nat) (order : List Context) (delivered : Bool) : Option State := do
  let stream ← s.sys.streams[i]?
  let ref ← stream.owner
  match stream.pc, s.inputs ref with
  | .idle, raw :: rest =>
    let s := { s with inputs := Function.update s.inputs ref rest }
    s.consume cfg i stream.address order delivered raw
  | _, _ => none

/-- The `except` clause of `_consumer`. -/
def timeout (cfg : Config) (s : State) (i : Nat) : Option State := do
  let stream ← s.sys.streams[i]?
  let ref ← stream.owner
  let sys ← Interleaved.step cfg s.sys (.closeStream i)
  return { s with
    sys := sys
    lost := s.lost ++ (s.inputs ref).map fun raw => (stream.address, raw) }

end State

def step (cfg : Config) (s : State) : Action → Option State
  | .arrive a raw =>
    some { s with
      socket := s.socket ++ [(a, raw)]
      arrived := s.arrived ++ [(a, raw)] }
  | .receive => s.receive cfg
  | .takeUp i order delivered => s.takeUp cfg i order delivered
  | .timeout i => s.timeout cfg i
  | .server act =>
    if internal act then (Interleaved.step cfg s.sys act).map fun sys => { s with sys := sys } else none

/-- The server with its socket. -/
def machine (cfg : Config) : Machine State Action := { init := {}, step := step cfg }

/-! ### What a step does -/

variable {cfg : Config} {s s' : State} {act : Action} {a : Address}

/-- What a step of the server can do. -/
inductive Step (cfg : Config) (s : State) : Action → State → Prop
  | arrived (a : Address) (raw : Raw) :
      Step cfg s (.arrive a raw) { s with
        socket := s.socket ++ [(a, raw)]
        arrived := s.arrived ++ [(a, raw)] }
  | received {a : Address} {raw : Raw} {socket : List (Address × Raw)} {ref : ClientRef}
      (hsocket : s.socket = (a, raw) :: socket) (hentry : s.sys.server.frontend.clients.get? a = some ref) :
      Step cfg s .receive ({ s with socket := socket }.put ref raw)
  | accepted {a : Address} {raw : Raw} {socket : List (Address × Raw)} {sys : Interleaved.Sys}
      (hsocket : s.socket = (a, raw) :: socket) (hentry : s.sys.server.frontend.clients.get? a = none)
      (hstep : Interleaved.step cfg s.sys (.openClient a) = some sys) :
      Step cfg s .receive ({ s with sys := sys, socket := socket }.put s.sys.server.frontend.nextClient raw)
  | skipped {i : Nat} {order : List Context} {delivered : Bool} {stream : Interleaved.Stream} {ref : ClientRef}
      {raw : Raw} {rest : List Raw} (hi : s.sys.streams[i]? = some stream) (howner : stream.owner = some ref)
      (hidle : stream.pc = .idle) (hinputs : s.inputs ref = raw :: rest) (hraw : ∀ msg, raw ≠ .input msg) :
      Step cfg s (.takeUp i order delivered) { s with
        inputs := Function.update s.inputs ref rest
        heartbeats := s.heartbeats ++ if raw = .heartbeat then [stream.address] else [] }
  | consumed {i : Nat} {order : List Context} {delivered : Bool} {stream : Interleaved.Stream} {ref : ClientRef}
      {msg : FromClient} {rest : List Raw} {sys : Interleaved.Sys} (hi : s.sys.streams[i]? = some stream)
      (howner : stream.owner = some ref) (hidle : stream.pc = .idle) (hinputs : s.inputs ref = .input msg :: rest)
      (hstep : Interleaved.step cfg s.sys (.message i msg order delivered) = some sys) :
      Step cfg s (.takeUp i order delivered) { s with
        sys := sys
        inputs := Function.update s.inputs ref rest }
  | timedOut {i : Nat} {stream : Interleaved.Stream} {ref : ClientRef} {sys : Interleaved.Sys}
      (hi : s.sys.streams[i]? = some stream) (howner : stream.owner = some ref)
      (hstep : Interleaved.step cfg s.sys (.closeStream i) = some sys) :
      Step cfg s (.timeout i) { s with
        sys := sys
        lost := s.lost ++ (s.inputs ref).map fun raw => (stream.address, raw) }
  | server {act : Interleaved.Action} {sys : Interleaved.Sys} (hact : internal act = true)
      (hstep : Interleaved.step cfg s.sys act = some sys) :
      Step cfg s (.server act) { s with sys := sys }

theorem step_cases (h : step cfg s act = some s') : Step cfg s act s' := by
  cases act with
  | arrive a raw => cases h; exact .arrived a raw
  | receive =>
    simp only [step, State.receive] at h
    split at h
    · cases h
    · rename_i hsocket
      split at h
      · rename_i hentry
        cases h
        exact .received hsocket hentry
      · rename_i hentry
        obtain ⟨sys, hsys, rfl⟩ := Option.map_eq_some_iff.1 h
        exact .accepted hsocket hentry hsys
  | takeUp i order delivered =>
    obtain ⟨stream, hi, h⟩ := Option.bind_eq_some_iff.1 h
    obtain ⟨ref, howner, h⟩ := Option.bind_eq_some_iff.1 h
    split at h
    · rename_i raw rest hidle hinputs
      cases raw with
      | hello => cases h; simpa using Step.skipped hi howner hidle hinputs (by simp)
      | heartbeat => cases h; exact .skipped hi howner hidle hinputs (by simp)
      | malformed => cases h; simpa using Step.skipped hi howner hidle hinputs (by simp)
      | input msg =>
        obtain ⟨sys, hsys, rfl⟩ := Option.map_eq_some_iff.1 h
        exact .consumed hi howner hidle hinputs hsys
    · cases h
  | timeout i =>
    obtain ⟨stream, hi, h⟩ := Option.bind_eq_some_iff.1 h
    obtain ⟨ref, howner, h⟩ := Option.bind_eq_some_iff.1 h
    obtain ⟨sys, hsys, h⟩ := Option.bind_eq_some_iff.1 h
    cases h
    exact .timedOut hi howner hsys
  | server act =>
    simp only [step] at h
    split at h
    · rename_i hact
      obtain ⟨sys, hsys, rfl⟩ := Option.map_eq_some_iff.1 h
      exact .server hact hsys
    · cases h

section Put

variable {ref : ClientRef} {raw : Raw}

@[simp] theorem State.put_sys : (s.put ref raw).sys = s.sys := by cases raw <;> rfl
@[simp] theorem State.put_socket : (s.put ref raw).socket = s.socket := by cases raw <;> rfl
@[simp] theorem State.put_arrived : (s.put ref raw).arrived = s.arrived := by cases raw <;> rfl
@[simp] theorem State.put_lost : (s.put ref raw).lost = s.lost := by cases raw <;> rfl

theorem State.put_inputs_of_ne {r : ClientRef} (hr : r ≠ ref) (raw : Raw) :
    (s.put ref raw).inputs r = s.inputs r := by
  cases raw <;> simp [State.put, hr]

end Put

/-- A step is a step of the server, or leaves it alone. -/
theorem sys_step (h : step cfg s act = some s') :
    s'.sys = s.sys ∨ ∃ act', Interleaved.step cfg s.sys act' = some s'.sys := by
  cases step_cases h with
  | arrived => exact Or.inl rfl
  | received => exact Or.inl (by simp)
  | accepted _ _ hstep => exact Or.inr ⟨_, by simpa using hstep⟩
  | skipped => exact Or.inl rfl
  | consumed _ _ _ _ hstep => exact Or.inr ⟨_, hstep⟩
  | timedOut _ _ hstep => exact Or.inr ⟨_, hstep⟩
  | server _ hstep => exact Or.inr ⟨_, hstep⟩

/-! ### Runs -/

/-- What is known of every run. -/
structure State.Sound (cfg : Config) (s : State) : Prop where
  reachable : ∃ acts, (Interleaved.machine cfg).RunWhere (fun sys act => act.addressFree sys) acts s.sys
  fresh : ∀ ref, s.sys.server.frontend.nextClient ≤ ref → s.inputs ref = []

namespace State.Sound

theorem attached (h : s.Sound cfg) : s.sys.Attached cfg := by
  obtain ⟨acts, hrun⟩ := h.reachable
  exact Interleaved.run_attached (fun _ _ => id) hrun

theorem tracked (h : s.Sound cfg) : s.sys.ClientsTracked := by
  obtain ⟨acts, hrun⟩ := h.reachable
  exact Interleaved.run_clientsTracked hrun.run

theorem owned (h : s.Sound cfg) : s.sys.Owned cfg := by
  obtain ⟨acts, hrun⟩ := h.reachable
  exact Interleaved.run_owned hrun.run

theorem served (h : s.Sound cfg) : s.sys.Served := by
  obtain ⟨acts, hrun⟩ := h.reachable
  exact Interleaved.run_served hrun.run

/-- A consumer that runs has its entry in the table. -/
theorem entry (h : s.Sound cfg) {i : Nat} {stream : Interleaved.Stream} {ref : ClientRef}
    (hi : s.sys.streams[i]? = some stream) (hrun : stream.pc.running) (howner : stream.owner = some ref) :
    s.sys.server.frontend.clients.get? stream.address = some ref := by
  have hentry := h.attached.attached hi hrun
  simpa only [Interleaved.Stream.Attached, howner] using hentry

end State.Sound

theorem fresh_put {n : Nat} {ref : ClientRef} (h : ∀ r, n ≤ r → s.inputs r = []) (href : ref < n) (raw : Raw) :
    ∀ r, n ≤ r → (s.put ref raw).inputs r = [] := by
  intro r hr
  rw [State.put_inputs_of_ne (Nat.ne_of_gt (Nat.lt_of_lt_of_le href hr)), h r hr]

theorem sound_step (hcfg : cfg.clientTransport = .zeromq) (h : s.Sound cfg) (hstep : step cfg s act = some s') :
    s'.Sound cfg := by
  have hreach : ∃ acts, (Interleaved.machine cfg).RunWhere (fun sys act => act.addressFree sys) acts s'.sys := by
    obtain ⟨acts, hrun⟩ := h.reachable
    rcases sys_step hstep with hsame | ⟨act', hstep'⟩
    · exact ⟨acts, hsame ▸ hrun⟩
    · exact ⟨_, hrun.step (Interleaved.addressFree_of_zeromq hcfg hstep') hstep'⟩
  -- the queues are the same, or one of them has less in it
  have hkeep : ∀ {act' sys} {inputs : ClientRef → List Raw}, Interleaved.step cfg s.sys act' = some sys →
      (∀ r, s.inputs r = [] → inputs r = []) → ∀ r, sys.server.frontend.nextClient ≤ r → inputs r = [] := by
    intro act' sys inputs hstep' hinputs r hr
    exact hinputs r (h.fresh r ((Interleaved.nextClient_step hstep' h.tracked).trans hr))
  have htake : ∀ {ref raw rest}, s.inputs ref = raw :: rest → ∀ r, s.inputs r = [] →
      Function.update s.inputs ref rest r = [] := by
    intro ref raw rest hinputs r hr
    have hne : r ≠ ref := by
      rintro rfl
      rw [hinputs] at hr
      cases hr
    simpa [hne] using hr
  refine ⟨hreach, ?_⟩
  cases step_cases hstep with
  | arrived => exact h.fresh
  | received _ hentry =>
    rw [State.put_sys]
    refine fresh_put ?_ (h.tracked.frontend.table _ _ hentry) _
    exact h.fresh
  | accepted _ _ hopen =>
    obtain ⟨-, hnext⟩ := Interleaved.get?_openClient hopen
    rw [State.put_sys, hnext]
    refine fresh_put (fun r hr => ?_) (Nat.lt_succ_self _) _
    exact h.fresh r (Nat.le_of_succ_le hr)
  | skipped _ _ _ hinputs => exact fun r hr => htake hinputs r (h.fresh r hr)
  | consumed _ _ _ hinputs hmsg => exact hkeep hmsg (htake hinputs)
  | timedOut _ _ hclose => exact hkeep hclose fun _ hr => hr
  | server _ hserver => exact hkeep hserver fun _ hr => hr

theorem run_sound (hcfg : cfg.clientTransport = .zeromq) {as : List Action} (h : (machine cfg).Run as s) :
    s.Sound cfg :=
  h.invariant (I := State.Sound cfg) ⟨⟨[], .init⟩, fun _ _ => rfl⟩ fun _ _ _ h _ hstep => sound_step hcfg h hstep
end ZeroMQServer

end Gabriel
