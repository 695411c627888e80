import Gabriel.Client.GoLemmas
import Gabriel.Client.Websocket
import Gabriel.Client.ZeroMQ
import Mathlib.Data.Finset.Card

/-!
# The bookkeeping of latencies

To measure how long the server takes, the clients keep the time at which each input was sent until its response comes.
The Python clients record an input before they send it, and forget it when a response with the status `SUCCESS` is
processed; a response with any other status leaves the entry behind.  The Go client records an input when `Send` has
returned, and forgets it at any response; a response that is processed before that leaves the entry behind
(`entries_left_behind`).  Apart from these cases the map has only inputs that were sent and not answered yet
(`pending_results_bounded`).
-/

namespace Gabriel

/-- The map of a client from the producer and the frame id of an input to the time at which it was sent, of which we
keep the keys, and the history of the inputs and their responses. -/
structure PendingResults where
  entries : Finset (String × Int) := ∅
  /-- The inputs given to the transport for which no response has been processed since. -/
  unanswered : Finset (String × Int) := ∅
  /-- The inputs for which a response has been processed, since they were given to the transport. -/
  answered : Finset (String × Int) := ∅
  deriving DecidableEq

namespace PendingResults

variable {r : PendingResults} {key : String × Int}

/-- An input is given to the transport. -/
def send (r : PendingResults) (key : String × Int) : PendingResults :=
  { r with
    unanswered := insert key r.unanswered
    answered := r.answered.erase key }

/-- A response is processed. -/
def respond (r : PendingResults) (key : String × Int) : PendingResults :=
  { r with
    unanswered := r.unanswered.erase key
    answered := insert key r.answered }

/-- `_record_send_metrics`, in Go `recordSend`. -/
def recordSend (r : PendingResults) (key : String × Int) : PendingResults :=
  { r with entries := insert key r.entries }

/-- `_record_response_latency`, in Go `recordResponse`. -/
def recordResponse (r : PendingResults) (key : String × Int) : PendingResults :=
  { r with entries := r.entries.erase key }

/-- No entry is left behind: those of answered inputs are gone, and there are no more entries than inputs that wait
for an answer. -/
def NoLeak (r : PendingResults) : Prop :=
  (∀ key ∈ r.answered, key ∉ r.entries) ∧ r.entries.card ≤ r.unanswered.card

instance (r : PendingResults) : Decidable r.NoLeak := inferInstanceAs (Decidable (_ ∧ _))

/-- Only inputs that wait for an answer have an entry. -/
structure Tidy (r : PendingResults) : Prop where
  entries : r.entries ⊆ r.unanswered
  disjoint : Disjoint r.answered r.unanswered

theorem tidy_empty : Tidy {} := ⟨Finset.Subset.refl _, Finset.disjoint_empty_left _⟩

theorem Tidy.noLeak (h : r.Tidy) : r.NoLeak :=
  ⟨fun _ hkey hentry => Finset.disjoint_left.1 h.disjoint hkey (h.entries hentry), Finset.card_le_card h.entries⟩

theorem Tidy.send (h : r.Tidy) (key : String × Int) : (r.send key).Tidy := by
  refine ⟨h.entries.trans (Finset.subset_insert _ _), ?_⟩
  rw [PendingResults.send, Finset.disjoint_insert_right]
  exact ⟨Finset.notMem_erase _ _, h.disjoint.mono_left (Finset.erase_subset _ _)⟩

/-- An entry is made for an input that is not answered yet. -/
theorem Tidy.recordSend (h : r.Tidy) (hkey : key ∈ r.unanswered) : (r.recordSend key).Tidy :=
  ⟨Finset.insert_subset hkey h.entries, h.disjoint⟩

theorem Tidy.recordResponse (h : r.Tidy) (key : String × Int) : ((r.recordResponse key).respond key).Tidy := by
  refine ⟨Finset.erase_subset_erase _ h.entries, ?_⟩
  simp only [respond, PendingResults.recordResponse, Finset.disjoint_insert_left]
  exact ⟨Finset.notMem_erase _ _, h.disjoint.mono_right (Finset.erase_subset _ _)⟩

end PendingResults

/-! ### The Python clients -/

/-- A client as its bookkeeping sees it: its steps with the inputs that they send, and the responses among its
events. -/
structure PythonClient (σ ε : Type) where
  step : σ → ε → Option (σ × List Input)
  response : ε → Option ResultWrapper
  /-- The next session, with the given producers, of a client that reconnects. -/
  reconnect : σ → List String → Option σ := fun _ _ => none

namespace PythonClient

inductive Action (ε : Type)
  | event (ev : ε)
  | reconnect (ps : List String)

/-- A client with its `_pending_results`. -/
structure Tracked (σ : Type) where
  client : σ
  pending : PendingResults := {}

variable {σ ε : Type} (C : PythonClient σ ε)

/-- What a send does to `_pending_results`: the record comes before the `await`. -/
def recordInput (r : PendingResults) (input : Input) : PendingResults :=
  (r.recordSend (input.producerId, input.frameId)).send (input.producerId, input.frameId)

/-- What `_process_response` does to `_pending_results`. -/
def processResponse (r : PendingResults) (wrapper : ResultWrapper) : PendingResults :=
  let key := (wrapper.producerId, wrapper.result.frameId)
  if wrapper.result.status.code = .success then (r.recordResponse key).respond key else r.respond key

def Tracked.step (t : Tracked σ) : Action ε → Option (Tracked σ)
  | .event ev =>
    (C.step t.client ev).map fun r =>
      { client := r.1, pending := r.2.foldl recordInput ((C.response ev).elim t.pending (processResponse t.pending)) }
  | .reconnect ps => (C.reconnect t.client ps).map fun client => { t with client := client }

def machine (init : σ) : Machine (Tracked σ) (Action ε) := { init := { client := init }, step := Tracked.step C }

/-- The responses that the client gets have the status `SUCCESS`. -/
def Action.successful : Action ε → Prop
  | .event ev => (C.response ev).all fun wrapper => wrapper.result.status.code = .success
  | .reconnect _ => True

instance (a : Action ε) : Decidable (a.successful C) :=
  match a with
  | .event _ => inferInstanceAs (Decidable (_ = true))
  | .reconnect _ => inferInstanceAs (Decidable True)

variable {C}

open PendingResults

theorem tidy_recordInput {r : PendingResults} (h : r.Tidy) (inputs : List Input) :
    (inputs.foldl recordInput r).Tidy := by
  induction inputs generalizing r with
  | nil => exact h
  | cons input inputs ih =>
    -- the two updates are of different fields
    exact ih ((h.send _).recordSend (Finset.mem_insert_self _ _))

theorem tidy_step {t t' : Tracked σ} {a : Action ε} (h : t.pending.Tidy) (ha : a.successful C)
    (hstep : t.step C a = some t') : t'.pending.Tidy := by
  cases a with
  | event ev =>
    obtain ⟨r, -, rfl⟩ := Option.map_eq_some_iff.1 hstep
    refine tidy_recordInput ?_ _
    simp only [Action.successful] at ha
    cases hresponse : C.response ev with
    | none => exact h
    | some wrapper =>
      rw [hresponse] at ha
      simp only [Option.elim_some, processResponse, if_pos (of_decide_eq_true ha)]
      exact h.recordResponse _
  | reconnect ps =>
    obtain ⟨client, -, rfl⟩ := Option.map_eq_some_iff.1 hstep
    exact h

theorem run_tidy {init : σ} {as : List (Action ε)} {t : Tracked σ}
    (h : (C.machine init).RunWhere (fun _ a => a.successful C) as t) : t.pending.Tidy :=
  h.invariant (I := fun t => t.pending.Tidy) tidy_empty fun _ _ _ h ha hstep => tidy_step h ha hstep

end PythonClient

namespace GrpcClient

/-- The input that a step writes. -/
def Output.input : Output → List Input
  | .write _ (.input input) => [input]
  | _ => []

/-- The response that an event brings. -/
def Event.response : Event → Option ResultWrapper
  | .read (.resultWrapper wrapper) _ => some wrapper
  | _ => none

/-- `launch_async`: a session that was disconnected or has ended is followed by a new one. -/
def Session.reconnect (s : Session) (ps : List String) : Option Session :=
  if s.running ∧ (s.status = .ended none ∨ s.status = .ended (some .disconnected)) then
    some (Session.start s.clientInfo ps)
  else none

def tracked : PythonClient Session Event where
  step s ev := (s.step ev).map fun r => (r.1, r.2.input)
  response := Event.response
  reconnect := Session.reconnect

end GrpcClient

namespace WebsocketClient

def tracked : PythonClient GrpcClient.Session GrpcClient.Event where
  step s ev := (step s ev).map fun r => (r.1, r.2.input)
  response := GrpcClient.Event.response

end WebsocketClient

namespace ZeroMQClient

/-- The input that is put on the socket. -/
def Uplink.input : Uplink → Option Input
  | .message (.input input) => some input
  | _ => none

/-- The response that an event brings. -/
def Event.response : Event → Option ResultWrapper
  | .receive (.message (.resultWrapper wrapper)) _ => some wrapper
  | _ => none

def tracked : PythonClient State Event where
  step s ev := (s.step ev).map fun r => (r.1, r.2.sent.filterMap Uplink.input)
  response := Event.response

end ZeroMQClient

/-! ### The Go client -/

namespace GoClient

/-- A client with its `pendingResults`. -/
structure Tracked where
  client : State
  pending : PendingResults := {}

namespace Tracked

/-- What the step `a` from `s` to `s'` does to `pendingResults`.  A handler records its input when `Send` has returned
without an error. -/
def record (r : PendingResults) (s s' : State) : Action → PendingResults
  | .handler name _ =>
    match (s.producers name).pc, (s'.producers name).pc with
    | .producing, .sending input => r.send (name, input.frameId)
    | .sending input, .looping => r.recordSend (name, input.frameId)
    | _, _ => r
  | .consumer (.receive (.resultWrapper wrapper)) =>
    (r.recordResponse (wrapper.producerId, wrapper.result.frameId)).respond (wrapper.producerId, wrapper.result.frameId)
  | _ => r

def step (t : Tracked) (a : Action) : Option Tracked :=
  (t.client.step a).map fun client => { client := client, pending := record t.pending t.client client a }

def machine (settings : Settings) : Machine Tracked Action :=
  { init := { client := settings.init }, step := step }

/-- The producer `name` is in `Send` with the frame `frameId`. -/
def sends (s : State) (name : String) (frameId : Int) : Bool :=
  match (s.producers name).pc with
  | .sending input => input.frameId = frameId
  | _ => false

/-- A response is processed only when the `Send` of its input has returned, and the input is recorded. -/
def recordedFirst (t : Tracked) : Action → Prop
  | .consumer (.receive (.resultWrapper wrapper)) => sends t.client wrapper.producerId wrapper.result.frameId = false
  | _ => True

instance (t : Tracked) (a : Action) : Decidable (t.recordedFirst a) :=
  match a with
  | .consumer (.receive (.resultWrapper _)) => inferInstanceAs (Decidable (_ = false))
  | .consumer (.receive (.registered _ _)) | .consumer (.receive (.engineIdsUpdate _)) | .consumer .checkContext
  | .consumer (.recvError _) | .consumer .register | .handler _ _ | .registration _ | .user _ | .launch _ =>
    inferInstanceAs (Decidable True)

variable {s s' : State} {t t' : Tracked} {a : Action} {name : String} {input : Input}

/-- Only inputs that wait for an answer have an entry, or are about to get one. -/
structure Kept (t : Tracked) : Prop where
  tidy : t.pending.Tidy
  sending : ∀ name input, (t.client.producers name).pc = .sending input →
    (name, input.frameId) ∈ t.pending.unanswered

/-- The ways of the handler that takes a step, as far as `Send` is concerned. -/
inductive Turn : HandlerPc → HandlerPc → Prop
  | enters (input : Input) : Turn .producing (.sending input)
  | stays (pc : HandlerPc) : Turn pc pc
  | elsewhere {pc pc' : HandlerPc} (h : ∀ input, pc' ≠ .sending input) : Turn pc pc'

theorem handlerStep_turn {view : View} {P P' : Producer} {o : Outcome} (h : HandlerStep view P P' o) :
    Turn P.pc P'.pc := by
  cases h with
  | moved hmoves =>
    refine .elsewhere fun input => ?_
    generalize P.pc = pc at hmoves
    cases hmoves <;> simp
  | fetched | acquired | skipped => exact .elsewhere (by simp)
  | sent hpc => exact hpc ▸ .enters _
  | nilPool | overReleased => exact .stays _

/-- What a handler does to the entries, where `pc` and `pc'` are where it was and where it is. -/
theorem Kept.turn (h : t.Kept) {name : String} {pc' : HandlerPc} (hturn : Turn (t.client.producers name).pc pc')
    (hpc : (s'.producers name).pc = pc')
    (hother : ∀ name', name' ≠ name → (s'.producers name').pc = (t.client.producers name').pc) (ev : HandlerEvent) :
    Kept { client := s', pending := record t.pending t.client s' (.handler name ev) } := by
  have hsend : ∀ {r : PendingResults}, t.pending.unanswered ⊆ r.unanswered →
      (∀ input, pc' = .sending input → (name, input.frameId) ∈ r.unanswered) →
      ∀ name' input, (s'.producers name').pc = .sending input → (name', input.frameId) ∈ r.unanswered := by
    intro r hsub hname name' input hsending
    by_cases hn : name' = name
    · exact hn ▸ hname input (hpc ▸ hn ▸ hsending)
    · exact hsub (h.sending name' input (hother name' hn ▸ hsending))
  simp only [record, hpc]
  generalize hold : (t.client.producers name).pc = pc at hturn
  cases hturn with
  | enters input =>
    refine ⟨h.tidy.send _, hsend (Finset.subset_insert _ _) fun input' heq => ?_⟩
    cases heq
    exact Finset.mem_insert_self _ _
  | stays =>
    have hsame := hsend Finset.Subset.rfl fun input heq => h.sending name input (hold.trans heq)
    cases pc' <;> exact ⟨h.tidy, hsame⟩
  | elsewhere hne =>
    have hsame := hsend Finset.Subset.rfl fun input heq => absurd heq (hne input)
    split
    · exact absurd rfl (hne _)
    · exact ⟨h.tidy.recordSend (h.sending name _ hold), hsame⟩
    · exact ⟨h.tidy, hsame⟩

/-- The steps of the others do not bring a handler to its `Send`. -/
theorem sending_of_other (h : State.Step s a s') (ha : ∀ name ev, a ≠ .handler name ev)
    (hpc : (s'.producers name).pc = .sending input) : (s.producers name).pc = .sending input := by
  have hupdate : ∀ {name' : String} {P : Producer}, (Function.update s.producers name' P name).pc = .sending input →
      P.pc = (s.producers name').pc → (s.producers name).pc = .sending input := by
    intro name' P hpc hP
    by_cases hn : name = name'
    · subst hn
      rw [Function.update_self, hP] at hpc
      exact hpc
    · rwa [Function.update_of_ne hn] at hpc
  cases h with
  | handler => exact absurd rfl (ha _ _)
  | returned _ _ _ _ hret =>
    obtain ⟨pool, -, rfl⟩ := Producer.returnToken_cases hret
    exact hupdate hpc rfl
  | newPool => exact hupdate hpc rfl
  | user ev =>
    cases ev with
    | cancel => exact hpc
    | _ => exact hupdate hpc rfl
  | newSession => cases hpc
  | recvError _ _ _ =>
    rw [State.report_producers] at hpc
    exact hpc
  | registration _ _ _ =>
    rw [State.report_producers] at hpc
    exact hpc
  | checked | read | registered | overReleased | connected | outside => exact hpc

theorem kept_step (h : t.Kept) (ha : t.recordedFirst a) (hstep : t.step a = some t') : t'.Kept := by
  obtain ⟨s', hs', rfl⟩ := Option.map_eq_some_iff.1 hstep
  have hcases := (State.step_cases hs').2
  have hquiet (hother : ∀ name ev, a ≠ .handler name ev) : Kept { client := s', pending := t.pending } :=
    ⟨h.tidy, fun name input hpc => h.sending name input (sending_of_other hcases hother hpc)⟩
  cases a with
  | handler name ev =>
    cases hcases with
    | handler _ _ hhandler =>
      refine h.turn (handlerStep_turn hhandler) (by simp) (fun name' hn => ?_) ev
      simp [hn]
  | consumer ev =>
    cases ev with
    | receive msg =>
      cases msg with
      | resultWrapper wrapper =>
        -- the input that is answered is not on its way to an entry
        refine ⟨h.tidy.recordResponse _, fun name input hpc => ?_⟩
        have hsending := sending_of_other hcases (by simp) hpc
        refine Finset.mem_erase.2 ⟨fun heq => ?_, h.sending name input hsending⟩
        obtain ⟨rfl, hframe⟩ := Prod.mk.inj heq
        simp [recordedFirst, sends, hsending, hframe] at ha
      | _ => exact hquiet (by simp)
    | _ => exact hquiet (by simp)
  | _ => exact hquiet (by simp)

theorem run_kept {settings : Settings} {as : List Action}
    (h : (machine settings).RunWhere recordedFirst as t) : t.Kept :=
  h.invariant (I := Kept) ⟨PendingResults.tidy_empty, fun name input hpc => by cases hpc⟩
    fun _ _ _ h ha hstep => kept_step h ha hstep

end Tracked

end GoClient

/-! ### No entry is left behind -/

/-- If the Python clients get responses with the status `SUCCESS` only, and the Go client processes a response only when
the `Send` of its input has returned, then an input that was answered has no entry, and there are at most as many
entries as inputs that were sent and not answered. -/
theorem pending_results_bounded (info : Option AnyProto) (ps : List String) (settings : GoClient.Settings) :
    (∀ as t, (GrpcClient.tracked.machine (.start info ps)).RunWhere (fun _ a => a.successful GrpcClient.tracked) as t →
      t.pending.NoLeak) ∧
    (∀ as t, (WebsocketClient.tracked.machine (.start info ps)).RunWhere
      (fun _ a => a.successful WebsocketClient.tracked) as t → t.pending.NoLeak) ∧
    (∀ as t, (ZeroMQClient.tracked.machine (.launch info ps)).RunWhere
      (fun _ a => a.successful ZeroMQClient.tracked) as t → t.pending.NoLeak) ∧
    ∀ as t, (GoClient.Tracked.machine settings).RunWhere GoClient.Tracked.recordedFirst as t → t.pending.NoLeak :=
  ⟨fun _ _ h => (PythonClient.run_tidy h).noLeak, fun _ _ h => (PythonClient.run_tidy h).noLeak,
    fun _ _ h => (PythonClient.run_tidy h).noLeak, fun _ _ h => (GoClient.Tracked.run_kept h).tidy.noLeak⟩

section Runs

/-- The steps of a gRPC session in which the producer sends two inputs. -/
private def twoInputs : List (PythonClient.Action GrpcClient.Event) :=
  let start : List GrpcClient.Event := [.read (.registered 2 {"e"}) false, .openStream "p"]
  let send : List GrpcClient.Event :=
    [.loop "p" true, .getToken "p", .produce "p" (.frame { payloadType := .text } ["e"] ["e"]), .written "p"]
  (start ++ send ++ send).map .event

/-- The response to the first input. -/
private def firstResponse (code : StatusCode) : ToClient :=
  .resultWrapper { producerId := "p", returnToken := true, result := { status := { code := code }, frameId := 1 } }

private def goSettings : GoClient.Settings where
  inputProducers := [⟨"p", ["e"]⟩]
  names_nodup := by decide
  targets_ne_nil := by decide

/-- The steps of a Go client until it is in `Send` with its first input, and its consumer in `Recv`. -/
private def goSends : List GoClient.Action :=
  [.consumer .checkContext, .consumer (.receive (.registered 2 {"e"})), .consumer .register, .consumer .register,
    .consumer .checkContext, .handler "p" .connected, .handler "p" (.openStream true), .handler "p" .fetch,
    .handler "p" .checkContext, .handler "p" .checkRunning, .handler "p" .getToken,
    .handler "p" (.produce (some { payloadType := .text }))]

/-- Two inputs, the first of which is answered, and in Go one input that is answered after its `Send`. -/
theorem pending_results_bounded_of_response :
    (∃ as t, (GrpcClient.tracked.machine (.start none ["p"])).RunWhere
      (fun _ a => a.successful GrpcClient.tracked) as t ∧ t.pending.entries = {("p", 2)} ∧ t.pending.NoLeak) ∧
    ∃ as t, (GoClient.Tracked.machine goSettings).RunWhere GoClient.Tracked.recordedFirst as t ∧
      t.pending.answered = {("p", 1)} ∧ t.pending.NoLeak := by
  obtain ⟨t, hrun, hentries⟩ := Machine.exists_runWhere (M := GrpcClient.tracked.machine (.start none ["p"]))
    (G := fun _ a => a.successful GrpcClient.tracked) (g := fun _ a => decide (a.successful GrpcClient.tracked))
    (fun _ _ h => of_decide_eq_true h) (fun t => t.pending.entries = {("p", 2)})
    (twoInputs ++ [.event (.read (firstResponse .success) false)]) (by decide)
  obtain ⟨t', hrun', hanswered⟩ := Machine.exists_runWhere (M := GoClient.Tracked.machine goSettings)
    (G := GoClient.Tracked.recordedFirst) (g := fun t a => decide (t.recordedFirst a))
    (fun _ _ h => of_decide_eq_true h) (fun t => t.pending.answered = {("p", 1)})
    (goSends ++ [.handler "p" (.send true), .consumer (.receive (firstResponse .success))]) (by decide)
  exact ⟨⟨_, t, hrun, hentries, (pending_results_bounded none ["p"] goSettings).1 _ _ hrun⟩,
    _, t', hrun', hanswered, (pending_results_bounded none ["p"] goSettings).2.2.2 _ _ hrun'⟩

/-- A dropped frame leaves its entry behind in Python; a response before the return of `Send` does in Go. -/
theorem entries_left_behind :
    (∃ as t, (GrpcClient.tracked.machine (.start none ["p"])).Run as t ∧ ("p", 1) ∈ t.pending.answered ∧
      ("p", 1) ∈ t.pending.entries ∧ t.pending.unanswered.card < t.pending.entries.card) ∧
    ∃ as t, (GoClient.Tracked.machine goSettings).Run as t ∧ ("p", 1) ∈ t.pending.answered ∧
      ("p", 1) ∈ t.pending.entries ∧ t.pending.unanswered.card < t.pending.entries.card := by
  obtain ⟨t, hrun, h⟩ := Machine.exists_run (M := GrpcClient.tracked.machine (.start none ["p"]))
    (fun t => ("p", 1) ∈ t.pending.answered ∧ ("p", 1) ∈ t.pending.entries ∧
      t.pending.unanswered.card < t.pending.entries.card)
    (twoInputs ++ [.event (.read (firstResponse .serverDroppedFrame) false)]) (by decide)
  obtain ⟨t', hrun', h'⟩ := Machine.exists_run (M := GoClient.Tracked.machine goSettings)
    (fun t => ("p", 1) ∈ t.pending.answered ∧ ("p", 1) ∈ t.pending.entries ∧
      t.pending.unanswered.card < t.pending.entries.card)
    (goSends ++ [.consumer (.receive (firstResponse .success)), .handler "p" (.send true)]) (by decide)
  exact ⟨⟨_, t, hrun, h⟩, _, t', hrun', h'⟩

end Runs

end Gabriel
