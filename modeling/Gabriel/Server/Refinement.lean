import Gabriel.Server.Directory
import Gabriel.Server.FrontendLemmas
import Gabriel.Server.Interleaved

/-!
# Atomic handlers are interleaving handlers run to their end

`Atomic.machine` runs a handler in one step.  `Interleaved.machine` runs it from one suspension to the next, and other
handlers may run in between; they need not, and then each step of the first machine is a sequence of steps of the
second.  Three loops have to be unrolled for that: the broadcast of the engine ids (`reaches_broadcast`), the removal
of a worker around it (`reaches_removal`), and the dispatch of an input (`reaches_dispatch`).

`Matches` relates the two machines while no handler runs: every client entry has a stream that waits for its next
message, and every worker a session that does.
-/

namespace Gabriel

namespace Frontend

variable {f : Frontend}

/-- The broadcast to a list of addresses. -/
def tellAll (f : Frontend) (msg : ToClient) (todo : List Address) : Frontend :=
  todo.foldl (fun f address => (f.sendViaTransport address msg).1) f

theorem sendViaTransport_clients (a : Address) (msg : ToClient) : (f.sendViaTransport a msg).1.clients = f.clients := by
  unfold sendViaTransport
  split <;> rfl

theorem tellAll_clients (msg : ToClient) (todo : List Address) : (f.tellAll msg todo).clients = f.clients := by
  induction todo generalizing f with
  | nil => rfl
  | cons a rest ih => exact (ih (f := (f.sendViaTransport a msg).1)).trans (sendViaTransport_clients a msg)

end Frontend

/-! ### The handlers leave the client table alone -/

namespace Server

variable {s : Server} {c : Context}

theorem enginesUpdatedCb_clients : s.enginesUpdatedCb.frontend.clients = s.frontend.clients :=
  Frontend.tellAll_clients _ _

theorem beginRemoval_clients : (s.beginRemoval c).1.frontend.clients = s.frontend.clients := by
  unfold beginRemoval
  split
  · rfl
  · exact (Frontend.sendResult_cases rfl).clients

theorem removeEngineWorker_clients : (s.removeEngineWorker c).frontend.clients = s.frontend.clients := by
  unfold removeEngineWorker
  simp only
  split
  · exact beginRemoval_clients
  · exact enginesUpdatedCb_clients.trans beginRemoval_clients

theorem addEngineWorker_clients (engineId : String) (ar : Bool) :
    (s.addEngineWorker c engineId ar).frontend.clients = s.frontend.clients := by
  unfold addEngineWorker
  cases s.dispatcher.predecessor engineId with
  | none => exact enginesUpdatedCb_clients
  | some v => exact enginesUpdatedCb_clients.trans removeEngineWorker_clients

theorem feedEngine_clients (raises : Bool) : (s.feedEngine c raises).frontend.clients = s.frontend.clients := by
  unfold feedEngine
  split
  · split
    · exact removeEngineWorker_clients
    · rfl
  · rfl

theorem answerResult_clients (k : Nat) (m : Option Metadata) (result : Result) :
    (s.answerResult c k m result).1.frontend.clients = s.frontend.clients := by
  unfold answerResult
  split
  · rfl
  · rfl
  · exact (Frontend.sendResult_cases rfl).clients

theorem consumerHelper_clients (cfg : Config) (ref : ClientRef) (a : Address) (msg : FromClient) :
    (s.consumerHelper cfg ref a msg).1.frontend.clients = s.frontend.clients := by
  have hcases : Frontend.Admitted cfg s.frontend ref a msg (s.frontend.consumerHelper cfg ref a msg) :=
    Frontend.consumerHelper_cases rfl
  have hclients := hcases.clients
  unfold consumerHelper
  generalize s.frontend.consumerHelper cfg ref a msg = r at hclients ⊢
  rcases r with ⟨f, _ | _ | info⟩
  · exact hclients
  · exact hclients
  · simp only
    split <;> exact hclients

/-! ### The handlers from a suspension on -/

/-- `_handle_from_engine` from the return of the result sinks on. -/
def afterSinks (s : Server) (c : Context) (k : Nat) (m : Option Metadata) (result : Result) (raises : Bool) : Server :=
  match s.answerResult c k m result with
  | (t, .stop) => t
  | (t, _) => t.feedEngine c raises

theorem handleFromEngine_result {msg : FromEngine} (raises : Bool) (hc : c ∈ s.dispatcher.engineWorkers)
    (hmsg : ∀ id ar, msg ≠ .register id ar) :
    s.handleFromEngine c msg raises =
      { s with dispatcher := s.dispatcher.emit (.gotResult c msg.asResult) }.afterSinks c
        (s.dispatcher.resultsRead c) (s.dispatcher.workers c).currentInputMetadata (s.dispatcher.stampResult c msg)
        raises := by
  cases msg with
  | register id ar => exact absurd rfl (hmsg id ar)
  | unset => simp only [handleFromEngine, if_pos hc]; rfl
  | result r => simp only [handleFromEngine, if_pos hc]; rfl

theorem handleFromEngine_clients (msg : FromEngine) (raises : Bool) (hc : c ∈ s.dispatcher.engineWorkers) :
    (s.handleFromEngine c msg raises).frontend.clients = s.frontend.clients := by
  by_cases hreg : ∃ id ar, msg = .register id ar
  · obtain ⟨id, ar, rfl⟩ := hreg
    rfl
  · rw [handleFromEngine_result raises hc fun id ar he => hreg ⟨id, ar, he⟩]
    unfold afterSinks
    split
    · rename_i heq
      exact (congrArg (fun r => r.1.frontend.clients) heq).symm.trans (answerResult_clients ..)
    · rename_i heq
      rw [feedEngine_clients]
      exact (congrArg (fun r => r.1.frontend.clients) heq).symm.trans (answerResult_clients ..)

/-- The consumer's handling of an input from the dispatch loop on. -/
def dispatchInput (cfg : Config) (s : Server) (ref : ClientRef) (address : Address) (msg : FromClient)
    (mp : MetadataPayload) (order raising : List Context) : Server :=
  match s.dispatcher.dispatchAll mp raising order true with
  | (d, none) => { s with dispatcher := d }
  | (d, some allEnginesBusy) =>
    match d.concludeInput cfg mp allEnginesBusy with
    | (d, .success, _) => { dispatcher := d, frontend := s.frontend.deductToken ref mp }
    | (d, code, message) =>
      { dispatcher := d, frontend := (s.frontend.replyError cfg ref address msg code message).1 }

theorem handleFromClient_some {cfg : Config} {ref : ClientRef} {a : Address} {msg : FromClient}
    {order raising : List Context} {t : Server} (h : s.handleFromClient cfg ref a msg order raising = some t) :
    match s.consumerHelper cfg ref a msg with
    | (s', .registered) => t = { s' with frontend := (s'.frontend.reply cfg ref a (s'.makeRegistered cfg)).1 }
    | (s', .refused code message) =>
      t = { s' with frontend := (s'.frontend.replyError cfg ref a msg code message).1 }
    | (s', .dispatch mp targets) => order.Perm targets ∧ t = s'.dispatchInput cfg ref a msg mp order raising := by
  unfold handleFromClient at h
  unfold consumerHelper
  generalize s.frontend.consumerHelper cfg ref a msg = r at h ⊢
  rcases r with ⟨f, _ | _ | info⟩
  · exact (Option.some.inj h).symm
  · exact (Option.some.inj h).symm
  · simp only at h ⊢
    by_cases hperm : order.Perm (s.dispatcher.targetEngines msg.asInput.targetEngineIds)
    · rw [if_pos hperm] at h
      unfold Dispatcher.processInputFromClient at h
      by_cases hnone : s.dispatcher.targetEngines msg.asInput.targetEngineIds = []
      · simp only [if_pos hnone] at h ⊢
        exact (Option.some.inj h).symm
      · simp only [if_neg hnone] at h ⊢
        refine ⟨hperm, ?_⟩
        unfold dispatchInput
        revert h
        generalize (s.dispatcher.beginInput _ _).dispatchAll _ raising order true = r
        rcases r with ⟨d, _ | b⟩
        · exact fun h => (Option.some.inj h).symm
        · simp only
          rcases d.concludeInput cfg _ b with ⟨d', code, message⟩
          cases code <;> exact fun h => (Option.some.inj h).symm
    · rw [if_neg hperm] at h
      cases h

theorem dispatchInput_clients (cfg : Config) (ref : ClientRef) (a : Address) (msg : FromClient) (mp : MetadataPayload)
    (order raising : List Context) :
    (s.dispatchInput cfg ref a msg mp order raising).frontend.clients = s.frontend.clients := by
  unfold dispatchInput
  rcases s.dispatcher.dispatchAll mp raising order true with ⟨d, _ | b⟩
  · rfl
  · simp only
    split
    · rfl
    · exact Frontend.reply_clients _ _ _ _

theorem handleFromClient_clients {cfg : Config} {ref : ClientRef} {a : Address} {msg : FromClient}
    {order raising : List Context} {t : Server} (h : s.handleFromClient cfg ref a msg order raising = some t) :
    t.frontend.clients = s.frontend.clients := by
  have hsome := handleFromClient_some h
  have hclients := s.consumerHelper_clients cfg ref a msg
  generalize s.consumerHelper cfg ref a msg = r at hsome hclients
  rcases r with ⟨s', _ | _ | _⟩
  · subst hsome
    exact (Frontend.reply_clients _ _ _ _).trans hclients
  · subst hsome
    exact (Frontend.reply_clients _ _ _ _).trans hclients
  · obtain ⟨-, rfl⟩ := hsome
    exact (dispatchInput_clients _ _ _ _ _ _ _).trans hclients

end Server

namespace Interleaved

open Dispatcher (Directory WellFormed)

variable {cfg : Config} {sys : Sys} {s t : Server} {c victim : Context}

@[simp] theorem Sys.setSession_setSession (r r' : Server × SessionPc) :
    (sys.setSession c r).setSession c r' = sys.setSession c r' := by
  simp [Sys.setSession]

@[simp] theorem Sys.setStream_setStream (i : Nat) (stream : Stream) (r r' : Server × StreamPc) (pc : StreamPc) :
    (sys.setStream i stream r).setStream i { stream with pc := pc } r' = sys.setStream i stream r' := by
  simp [Sys.setStream]

/-- A suspended session is resumed without an exception. -/
theorem step_resumeSession (raises delivered : Bool) {pc : SessionPc} {r : Server × SessionPc}
    (h : resumeSession s c raises delivered pc = some r) :
    (machine cfg).step (sys.setSession c (s, pc)) (.resumeSession c raises delivered) = some (sys.setSession c r) := by
  have hpc : (sys.setSession c (s, pc)).sessions c = some pc := by simp [Sys.setSession]
  have hserver : (sys.setSession c (s, pc)).server = s := rfl
  simp [machine, step, hpc, hserver, h]

theorem step_resumeStream {i : Nat} {stream : Stream} (raises delivered : Bool) {pc : StreamPc}
    {r : Server × StreamPc} (hi : sys.streams[i]? = some stream)
    (h : resumeStream cfg s { stream with pc := pc } raises delivered = some r) :
    (machine cfg).step (sys.setStream i stream (s, pc)) (.resumeStream i raises delivered) =
      some (sys.setStream i stream r) := by
  have hlt : i < sys.streams.length := (List.getElem?_eq_some_iff.1 hi).1
  have hstream : (sys.setStream i stream (s, pc)).streams[i]? = some { stream with pc := pc } := by
    simp [Sys.setStream, hlt]
  have hserver : (sys.setStream i stream (s, pc)).server = s := rfl
  simp [machine, step, hstream, hserver, h]

/-! ### The broadcast -/

/-- The broadcast ends, or suspends with fewer addresses to go. -/
theorem broadcastFrom_cases (f : Frontend) (ids : Finset String) (size : Nat) (todo : List Address) :
    broadcastFrom f ids size todo = (f.tellAll (.engineIdsUpdate ids) todo, .done) ∨
      ∃ f' rest, broadcastFrom f ids size todo = (f', .suspended ⟨ids, size, rest⟩) ∧ rest.length < todo.length ∧
        f'.clients = f.clients ∧
        f'.tellAll (.engineIdsUpdate ids) rest = f.tellAll (.engineIdsUpdate ids) todo := by
  induction todo generalizing f with
  | nil => exact Or.inl rfl
  | cons a rest ih =>
    have hclients := f.sendViaTransport_clients a (.engineIdsUpdate ids)
    have htell : f.tellAll (.engineIdsUpdate ids) (a :: rest) =
        (f.sendViaTransport a (.engineIdsUpdate ids)).1.tellAll (.engineIdsUpdate ids) rest := rfl
    simp only [broadcastFrom, htell]
    generalize f.sendViaTransport a (.engineIdsUpdate ids) = r at hclients
    rcases r with ⟨f', _ | _⟩
    · rcases ih f' with hdone | ⟨f'', rest', hr, hlt, hcl, ht⟩
      · exact Or.inl hdone
      · exact Or.inr ⟨f'', rest', hr, Nat.lt_succ_of_lt hlt, hcl.trans hclients, ht⟩
    · exact Or.inr ⟨f', rest, rfl, Nat.lt_succ_self _, hclients, rfl⟩

/-- A broadcast that no other handler interrupts ends.  `K` is what its caller makes of it, and `P` the program counter
of a caller that is suspended in it. -/
theorem reaches_broadcast {K : Server × BroadcastOutcome → Server × SessionPc} {P : Broadcast → SessionPc}
    (hK : ∀ s b, K (s, .suspended b) = (s, P b))
    (hP : ∀ s b, resumeSession s c false true (P b) = some (K (resumeBroadcast s b)))
    (s : Server) (ids : Finset String) (todo : List Address) :
    (machine cfg).Reaches
      (sys.setSession c (K ({ s with frontend := (broadcastFrom s.frontend ids s.frontend.clients.size todo).1 },
        (broadcastFrom s.frontend ids s.frontend.clients.size todo).2)))
      (sys.setSession c (K ({ s with frontend := s.frontend.tellAll (.engineIdsUpdate ids) todo }, .done))) := by
  induction hn : todo.length using Nat.strong_induction_on generalizing s todo with
  | _ n ih =>
    subst hn
    rcases broadcastFrom_cases s.frontend ids s.frontend.clients.size todo with hdone | ⟨f, rest, hr, hlt, hcl, ht⟩
    · rw [hdone]
      exact .refl _
    · rw [hr, hK, ← ht, ← hcl]
      have hnext := ih rest.length hlt { s with frontend := f } rest rfl
      refine .head (step_resumeSession false true ((hP _ _).trans ?_)) hnext
      simp [resumeBroadcast]

theorem reaches_startBroadcast {K : Server × BroadcastOutcome → Server × SessionPc} {P : Broadcast → SessionPc}
    (hK : ∀ s b, K (s, .suspended b) = (s, P b))
    (hP : ∀ s b, resumeSession s c false true (P b) = some (K (resumeBroadcast s b))) (s : Server) :
    (machine cfg).Reaches (sys.setSession c (K (startBroadcast s)))
      (sys.setSession c (K (s.enginesUpdatedCb, .done))) :=
  reaches_broadcast hK hP s s.dispatcher.engineIds s.frontend.clients.keys

/-! ### The removal of a worker -/

/-- A removal that no other handler interrupts ends, and without a `KeyError`. -/
theorem reaches_removal {K : Server × RemovalOutcome → Server × SessionPc} {P : RemovalPc → SessionPc}
    (hK : ∀ s pc, K (s, .suspended pc) = (s, P pc))
    (hP : ∀ s pc, resumeSession s c false true (P pc) = some (K (resumeRemoval s victim pc)))
    (hd : Directory s.dispatcher) (hv : victim ∈ s.dispatcher.engineWorkers) :
    (machine cfg).Reaches (sys.setSession c (K (startRemoval s victim)))
      (sys.setSession c (K (s.removeEngineWorker victim, .done))) := by
  have hbegun : (s.beginRemoval victim).1.dispatcher = (s.dispatcher.beginRemoval victim).1 :=
    Server.beginRemoval_dispatcher
  -- the removal from the table does not fail
  have hfinish := (hd.beginRemoval (c := victim)).finishRemoval_eq (c := victim) (by simpa using hv)
  rw [← hbegun] at hfinish
  have hrest : (machine cfg).Reaches (sys.setSession c (K (afterSending (s.beginRemoval victim).1 victim)))
      (sys.setSession c (K (s.removeEngineWorker victim, .done))) := by
    unfold afterSending Server.removeEngineWorker
    simp only [hfinish]
    exact reaches_startBroadcast (K := fun r => K (r.1, .ofBroadcast r.2)) (P := fun b => P (.broadcasting b))
      (fun s b => hK s _) (fun s b => hP s _) _
  unfold startRemoval
  rcases hr : s.beginRemoval victim with ⟨t, _ | _⟩
  · rw [hr] at hrest
    exact hrest
  · rw [hr] at hrest
    simp only [hK]
    exact .head (step_resumeSession false true (hP t .sending)) hrest

/-- The `finally` clause of a session. -/
theorem reaches_leaveLoop (err : Option PyError) (hd : Directory s.dispatcher) (hc : c ∈ s.dispatcher.engineWorkers) :
    (machine cfg).Reaches (sys.setSession c (leaveLoop s c err))
      (sys.setSession c (s.removeEngineWorker c, .finished err)) := by
  unfold leaveLoop
  rw [if_pos hc]
  exact reaches_removal (K := closingFrom err) (P := .closing err) (fun _ _ => rfl) (fun _ _ => rfl) hd hc

/-! ### The messages of an engine -/

/-- The end of `_add_engine_worker`. -/
theorem reaches_register (id : String) (ar : Bool) :
    (machine cfg).Reaches (sys.setSession c (register s c id ar))
      (sys.setSession c
        ({ s with dispatcher := s.dispatcher.insertWorker c id ar }.enginesUpdatedCb, .idle)) :=
  reaches_startBroadcast (K := fun r => (r.1, .ofBroadcast r.2)) (P := .announcing) (fun _ _ => rfl) (fun _ _ => rfl) _

theorem reaches_firstMessage (id : String) (ar : Bool) (hd : Directory s.dispatcher) :
    (machine cfg).Reaches (sys.setSession c (firstMessage s c (.register id ar)))
      (sys.setSession c (s.addEngineWorker c id ar, .idle)) := by
  simp only [firstMessage, Server.addEngineWorker]
  cases hpred : s.dispatcher.predecessor id with
  | none => exact reaches_register id ar
  | some v =>
    have hv := (Directory.predecessor_eq_some hpred).1
    exact (reaches_removal (K := takeoverFrom c id ar v) (P := .takeover id ar v) (fun _ _ => rfl) (fun _ _ => rfl)
      hd hv).trans (reaches_register id ar)

/-- How a session ends the handling of a result: it waits for the next one, unless a write raised, and then it
has removed its worker. -/
def Fed (c : Context) (t : Server) (pc : SessionPc) : Prop :=
  pc = .idle ∨ pc = .finished (some .raised) ∧ c ∉ t.dispatcher.engineWorkers

theorem reaches_feed (raises : Bool) (hd : Directory s.dispatcher) (hnodup : s.dispatcher.engineWorkers.Nodup)
    (hc : c ∈ s.dispatcher.engineWorkers) :
    ∃ pc, Fed c (s.feedEngine c raises) pc ∧
      (machine cfg).Reaches (sys.setSession c (feed s c (!raises))) (sys.setSession c (s.feedEngine c raises, pc)) := by
  have hsent := hd.sendNextInput (c := c) (!raises)
  have hws := Dispatcher.sendNextInput_engineWorkers (d := s.dispatcher) (c := c) (!raises)
  unfold feed Server.feedEngine
  rcases hr : s.dispatcher.sendNextInput c (!raises) with ⟨d, _ | _⟩
  · exact ⟨.idle, Or.inl rfl, .refl _⟩
  · rw [hr] at hsent hws
    cases raises with
    | false => exact ⟨.idle, Or.inl rfl, .head (step_resumeSession false true rfl) (.refl _)⟩
    | true =>
      have hc' : c ∈ d.engineWorkers := by rwa [hws]
      refine ⟨.finished (some .raised), Or.inr ⟨rfl, ?_⟩,
        .head (step_resumeSession true true rfl)
          (reaches_leaveLoop (s := { s with dispatcher := d }) (some .raised) hsent hc')⟩
      simp only [if_true, Server.removeEngineWorker_dispatcher]
      exact hsent.not_mem_removed (hws ▸ hnodup) hc'

theorem step_engineMessage {msg : FromEngine} (hidle : sys.sessions c = some .idle) :
    (machine cfg).step sys (.engineMessage c msg) = some (sys.setSession c (nextMessage sys.server c msg)) := by
  simp [machine, step, hidle]

theorem nextMessage_result {msg : FromEngine} (hc : c ∈ s.dispatcher.engineWorkers)
    (hmsg : ∀ id ar, msg ≠ .register id ar) :
    nextMessage s c msg =
      ({ s with dispatcher := s.dispatcher.emit (.gotResult c msg.asResult) },
        .sinking (s.dispatcher.resultsRead c) (s.dispatcher.workers c).currentInputMetadata
          (s.dispatcher.stampResult c msg)) := by
  cases msg with
  | register id ar => exact absurd rfl (hmsg id ar)
  | unset => simp only [nextMessage, if_pos hc]
  | result r => simp only [nextMessage, if_pos hc]

theorem reaches_afterSinks {k : Nat} {m : Option Metadata} {result : Result} (raises : Bool)
    (hd : Directory s.dispatcher) (hnodup : s.dispatcher.engineWorkers.Nodup) (hc : c ∈ s.dispatcher.engineWorkers) :
    ∃ pc, Fed c (s.afterSinks c k m result raises) pc ∧
      (machine cfg).Reaches (sys.setSession c (s, .sinking k m result))
        (sys.setSession c (s.afterSinks c k m result raises, pc)) := by
  have hstep : (machine cfg).step (sys.setSession c (s, .sinking k m result)) (.resumeSession c false (!raises)) =
      some (sys.setSession c (answer s c k m result (!raises))) := step_resumeSession _ _ rfl
  obtain ⟨hdisp, -⟩ := Server.answerResult_dispatcher (s := s) (c := c) k m result
  have hans : Dispatcher.Answered s.dispatcher c k result m (s.dispatcher.answerResult c k m result) :=
    Dispatcher.answerResult_cases rfl
  have hd' : Directory (s.answerResult c k m result).1.dispatcher := hdisp ▸ hd.answered hans
  have hws : (s.answerResult c k m result).1.dispatcher.engineWorkers = s.dispatcher.engineWorkers :=
    hdisp ▸ hans.engineWorkers
  unfold answer at hstep
  unfold Server.afterSinks
  generalize s.answerResult c k m result = r at hstep hd' hws ⊢
  rcases r with ⟨t, reaction⟩
  have hfeed : ∃ pc, Fed c (t.feedEngine c raises) pc ∧ (machine cfg).Reaches
      (sys.setSession c (feed t c (!raises))) (sys.setSession c (t.feedEngine c raises, pc)) :=
    reaches_feed raises hd' (hws ▸ hnodup) (hws ▸ hc)
  cases reaction with
  | stop => exact ⟨.idle, Or.inl rfl, .head hstep (.refl _)⟩
  | awaitSend =>
    obtain ⟨pc, hfed, hreach⟩ := hfeed
    exact ⟨pc, hfed, .head hstep (.head (step_resumeSession false (!raises) rfl) hreach)⟩
  | next =>
    obtain ⟨pc, hfed, hreach⟩ := hfeed
    exact ⟨pc, hfed, .head hstep hreach⟩

/-- `_handle_from_engine` for a connected engine. -/
theorem reaches_fromEngine (msg : FromEngine) (raises : Bool) (hidle : sys.sessions c = some .idle)
    (hd : Directory sys.server.dispatcher) (hnodup : sys.server.dispatcher.engineWorkers.Nodup)
    (hc : c ∈ sys.server.dispatcher.engineWorkers) :
    ∃ pc, Fed c (sys.server.handleFromEngine c msg raises) pc ∧
      (machine cfg).Reaches sys (sys.setSession c (sys.server.handleFromEngine c msg raises, pc)) := by
  have hstep : (machine cfg).step sys (.engineMessage c msg) = some (sys.setSession c (nextMessage sys.server c msg)) :=
    step_engineMessage hidle
  by_cases hreg : ∃ id ar, msg = .register id ar
  · obtain ⟨id, ar, rfl⟩ := hreg
    exact ⟨.idle, Or.inl rfl, .head hstep (.refl _)⟩
  · have hmsg : ∀ id ar, msg ≠ .register id ar := fun id ar he => hreg ⟨id, ar, he⟩
    rw [nextMessage_result hc hmsg] at hstep
    rw [Server.handleFromEngine_result raises hc hmsg]
    obtain ⟨pc, hfed, hreach⟩ := reaches_afterSinks
      (s := { sys.server with dispatcher := sys.server.dispatcher.emit (.gotResult c msg.asResult) }) raises
      (hd.emit _) hnodup hc
    exact ⟨pc, hfed, .head hstep hreach⟩

/-! ### The messages of a client -/

theorem step_message {i : Nat} {stream : Stream} {ref : ClientRef} {msg : FromClient} {order : List Context}
    {delivered : Bool} {r : Server × StreamPc} (hi : sys.streams[i]? = some stream) (hpc : stream.pc = .idle)
    (href : stream.client sys.server = some ref)
    (h : consume cfg sys.server stream ref msg order delivered = some r) :
    (machine cfg).step sys (.message i msg order delivered) = some (sys.setStream i stream r) := by
  simp [machine, step, hi, streamMessage, hpc, href, h]

/-- The reply of a consumer. -/
theorem reaches_reply {i : Nat} {stream : Stream} {f : Frontend} (hi : sys.streams[i]? = some stream) :
    (machine cfg).Reaches (sys.setStream i stream (afterReply cfg s stream (f, .sent)))
      (sys.setStream i stream ({ s with frontend := f }, .idle)) :=
  .head (step_resumeStream false true hi rfl) (.refl _)

/-- The dispatch loop up to its next write, which `delivered` describes. -/
theorem dispatchAll_eq (d : Dispatcher) (mp : MetadataPayload) (raising order : List Context) (b : Bool) :
    ∃ delivered : Bool, (raising = [] → delivered = true) ∧
      ((∃ d', d.dispatchLoop mp delivered order = (d', none) ∧ d.dispatchAll mp raising order b = (d', some b)) ∨
        ∃ d' rest, d.dispatchLoop mp delivered order = (d', some rest) ∧ rest.length < order.length ∧
          d.dispatchAll mp raising order b =
            if delivered then d'.dispatchAll mp raising rest false else (d', none)) := by
  induction order generalizing d with
  | nil => exact ⟨true, fun _ => rfl, Or.inl ⟨d, rfl, rfl⟩⟩
  | cons c rest ih =>
    by_cases hc : (d.workers c).currentInputMetadata = none
    · refine ⟨decide (c ∉ raising), fun h => by simp [h], Or.inr
        ⟨(d.addProducer c mp.producerId).sendPayload c mp (c ∉ raising), rest, ?_, Nat.lt_succ_self _, ?_⟩⟩
      · simp only [Dispatcher.dispatchLoop, Dispatcher.dispatchOne_of_idle _ hc]
      · by_cases hraise : c ∈ raising <;>
          simp [Dispatcher.dispatchAll, Dispatcher.dispatchOne_of_idle _ hc, hraise]
    · obtain ⟨delivered, hall, hcases⟩ := ih (d.addProducer c mp.producerId)
      refine ⟨delivered, hall, ?_⟩
      simp only [Dispatcher.dispatchLoop, Dispatcher.dispatchAll, Dispatcher.dispatchOne_of_busy _ hc]
      rcases hcases with hdone | ⟨d', rest', hloop, hlt, he⟩
      · exact Or.inl hdone
      · exact Or.inr ⟨d', rest', hloop, Nat.lt_succ_of_lt hlt, he⟩

/-- Once an engine has been sent the input, not all engines are busy. -/
theorem dispatchAll_false (d : Dispatcher) (mp : MetadataPayload) (raising order : List Context) :
    ∀ b, (d.dispatchAll mp raising order false).2 = some b → b = false := by
  intro b hb
  exact (Dispatcher.dispatchAll_ind (P := fun _ _ b => b = false) (fun _ _ _ _ h _ => h) (fun _ _ _ _ _ _ => rfl)
    rfl rfl).1 b hb

/-- Whether a stream waits for its next message or has ended. -/
def StreamPc.AtRest : StreamPc → Prop
  | .idle | .finished _ => True
  | _ => False

/-- Whether a session waits for its next message or has ended. -/
def SessionPc.AtRest : SessionPc → Prop
  | .connected | .idle | .finished _ => True
  | _ => False

/-- The state an input leaves behind after the dispatch loop has written it to an engine. -/
def afterDispatch (cfg : Config) (s : Server) (ref : ClientRef) (mp : MetadataPayload) :
    Dispatcher × Option Bool → Server
  | (d, none) => { s with dispatcher := d }
  | (d, some b) => { dispatcher := (d.concludeInput cfg mp b).1, frontend := s.frontend.deductToken ref mp }

/-- The program counter with which the handling of a message ends.  A write that raises ends a producer stream. -/
def Consumed (raising : List Context) (stream : Stream) (pc : StreamPc) : Prop :=
  pc = .idle ∨ raising ≠ [] ∧ stream.owner = none ∧ pc = .finished (some .raised)

section

variable {i : Nat} {stream : Stream} {ref ref' : ClientRef} {mp : MetadataPayload} {raising : List Context}

/-- A write to an engine raises. -/
theorem reaches_raised (hi : sys.streams[i]? = some stream) (howner : stream.owner = none) (rest : List Context) :
    (machine cfg).Reaches (sys.setStream i stream (s, .dispatching ref mp rest))
      (sys.setStream i stream (s, .finished (some .raised))) := by
  refine .head (step_resumeStream true true hi rfl) ?_
  simp only [failStream, endStream, howner]
  exact .refl _

/-- The dispatch loop from a write on, if no other handler interrupts it. -/
theorem reaches_dispatch (hi : sys.streams[i]? = some stream) (hraise : raising = [] ∨ stream.owner = none)
    (s : Server) (rest : List Context) :
    ∃ pc, Consumed raising stream pc ∧
      (machine cfg).Reaches (sys.setStream i stream (s, .dispatching ref mp rest))
        (sys.setStream i stream (afterDispatch cfg s ref mp (s.dispatcher.dispatchAll mp raising rest false), pc)) := by
  induction hn : rest.length using Nat.strong_induction_on generalizing s rest with
  | _ n ih =>
    subst hn
    obtain ⟨delivered, hall, ⟨d', hloop, he⟩ | ⟨d', rest', hloop, hlt, he⟩⟩ :=
      dispatchAll_eq s.dispatcher mp raising rest false
    · refine ⟨.idle, Or.inl rfl, .head (step_resumeStream false delivered hi rfl) ?_⟩
      simp only [resumeDispatch, hloop, he]
      exact .refl _
    · have hstep : (machine cfg).step (sys.setStream i stream (s, .dispatching ref mp rest))
          (.resumeStream i false delivered) =
          some (sys.setStream i stream ({ s with dispatcher := d' }, .dispatching ref mp rest')) := by
        refine step_resumeStream _ _ hi ?_
        simp [resumeStream, resumeDispatch, hloop]
      rw [he]
      cases delivered with
      | true =>
        obtain ⟨pc, hpc, hreach⟩ := ih rest'.length hlt { s with dispatcher := d' } rest' rfl
        exact ⟨pc, hpc, .head hstep hreach⟩
      | false =>
        have hne : raising ≠ [] := fun h => by simpa using hall h
        have howner := hraise.resolve_left hne
        exact ⟨.finished (some .raised), Or.inr ⟨hne, howner, rfl⟩, .head hstep (reaches_raised hi howner rest')⟩

/-- The handling of an input from the dispatch loop on. -/
theorem reaches_startDispatch (msg : FromClient) (hi : sys.streams[i]? = some stream)
    (hraise : raising = [] ∨ stream.owner = none) (ha : s.frontend.clients.get? stream.address = some ref')
    (order : List Context) :
    ∃ delivered pc, Consumed raising stream pc ∧
      (machine cfg).Reaches (sys.setStream i stream (startDispatch cfg s stream ref msg mp order delivered))
        (sys.setStream i stream (s.dispatchInput cfg ref stream.address msg mp order raising, pc)) := by
  obtain ⟨delivered, hall, ⟨d', hloop, he⟩ | ⟨d', rest, hloop, -, he⟩⟩ :=
    dispatchAll_eq s.dispatcher mp raising order true
  · refine ⟨delivered, .idle, Or.inl rfl, ?_⟩
    simp only [startDispatch, Server.dispatchInput, hloop, he]
    rcases d'.concludeInput cfg mp true with ⟨d, code, message⟩
    have hsent : s.frontend.replyError cfg ref stream.address msg code message =
        ((s.frontend.replyError cfg ref stream.address msg code message).1, .sent) :=
      Frontend.replyError_sent msg code message ha
    cases code with
    | success => exact .refl _
    | _ =>
      simp only
      rw [hsent]
      exact reaches_reply hi
  · simp only [startDispatch, Server.dispatchInput, he]
    refine ⟨delivered, ?_⟩
    rw [hloop]
    cases delivered with
    | true =>
      obtain ⟨pc, hpc, hreach⟩ := reaches_dispatch hi hraise { s with dispatcher := d' } rest
      refine ⟨pc, hpc, ?_⟩
      have hbusy := dispatchAll_false d' mp raising rest
      simp only [if_true]
      generalize d'.dispatchAll mp raising rest false = r at hbusy hreach ⊢
      rcases r with ⟨d, _ | b⟩
      · exact hreach
      · obtain rfl := hbusy b rfl
        exact hreach
    | false =>
      have hne : raising ≠ [] := fun h => by simpa using hall h
      have howner := hraise.resolve_left hne
      exact ⟨.finished (some .raised), Or.inr ⟨hne, howner, rfl⟩, reaches_raised hi howner rest⟩

/-- The handling of a client's message. -/
theorem reaches_message {msg : FromClient} {order : List Context} (hi : sys.streams[i]? = some stream)
    (hpc : stream.pc = .idle) (href : stream.client sys.server = some ref)
    (ha : sys.server.frontend.clients.get? stream.address = some ref')
    (hraise : raising = [] ∨ stream.owner = none)
    (h : sys.server.handleFromClient cfg ref stream.address msg order raising = some t) :
    ∃ pc, Consumed raising stream pc ∧ (machine cfg).Reaches sys (sys.setStream i stream (t, pc)) := by
  have hsome := Server.handleFromClient_some h
  have hclients := sys.server.consumerHelper_clients cfg ref stream.address msg
  have hstep : ∀ delivered r, consume cfg sys.server stream ref msg order delivered = some r →
      (machine cfg).step sys (.message i msg order delivered) = some (sys.setStream i stream r) :=
    fun _ _ => step_message hi hpc href
  unfold consume at hstep
  generalize sys.server.consumerHelper cfg ref stream.address msg = r at hsome hclients hstep
  rcases r with ⟨s', _ | ⟨code, message⟩ | ⟨mp, targets⟩⟩
  · have hnext := hstep true _ rfl
    subst hsome
    simp only at hclients
    rw [Frontend.reply_sent _ (hclients ▸ ha)] at hnext
    exact ⟨.idle, Or.inl rfl, .head hnext (reaches_reply hi)⟩
  · have hnext := hstep true _ rfl
    subst hsome
    simp only at hclients
    rw [Frontend.replyError_sent _ _ _ (hclients ▸ ha)] at hnext
    exact ⟨.idle, Or.inl rfl, .head hnext (reaches_reply hi)⟩
  · obtain ⟨hperm, rfl⟩ := hsome
    simp only at hclients
    obtain ⟨delivered, pc, hpc', hreach⟩ := reaches_startDispatch msg hi hraise (hclients ▸ ha) order
    exact ⟨pc, hpc', .head (hstep delivered _ (if_pos hperm)) hreach⟩

end

/-! ### The two machines -/

/-- No handler is suspended: each one waits for its next message or has ended. -/
def Sys.AtRest (sys : Sys) : Prop :=
  (∀ c pc, sys.sessions c = some pc → pc.AtRest) ∧ ∀ stream ∈ sys.streams, stream.pc.AtRest

/-- The system at rest, with the shared state `s`: each worker has a session and each client entry a stream that waits
for its next message. -/
structure Matches (s : Server) (sys : Sys) : Prop where
  server : sys.server = s
  atRest : sys.AtRest
  session : ∀ c ∈ s.dispatcher.engineWorkers, sys.sessions c = some .idle
  stream : ∀ a ref, s.frontend.clients.get? a = some ref →
    ∃ i : Nat, sys.streams[i]? = some { address := a, owner := some ref, pc := .idle }

namespace Matches

theorem init : Matches {} {} := by
  refine ⟨rfl, ⟨?_, ?_⟩, ?_, ?_⟩
  · intro c pc h
    cases h
  · intro stream h
    cases h
  · intro c h
    cases h
  · intro a ref h
    cases h

/-- A session has run from rest to rest. -/
theorem setSession {pc : SessionPc} (h : Matches s sys) (hpc : pc.AtRest)
    (hclients : t.frontend.clients = s.frontend.clients)
    (hother : ∀ c' ∈ t.dispatcher.engineWorkers, c' ≠ c → c' ∈ s.dispatcher.engineWorkers)
    (hc : c ∈ t.dispatcher.engineWorkers → pc = .idle) : Matches t (sys.setSession c (t, pc)) := by
  refine ⟨rfl, ⟨?_, h.atRest.2⟩, ?_, ?_⟩
  · intro c' pc' hpc'
    by_cases he : c' = c
    · subst he
      simp only [Sys.setSession, Function.update_self, Option.some.injEq] at hpc'
      exact hpc' ▸ hpc
    · simp only [Sys.setSession, Function.update_of_ne he] at hpc'
      exact h.atRest.1 c' pc' hpc'
  · intro c' hc'
    by_cases he : c' = c
    · subst he
      simp [Sys.setSession, hc hc']
    · simp [Sys.setSession, he, h.session c' (hother c' hc' he)]
  · rw [hclients]
    exact h.stream

/-- A stream has run from rest to rest. -/
theorem setStream {i : Nat} {stream : Stream} {raising : List Context} {pc : StreamPc} (h : Matches s sys)
    (hi : sys.streams[i]? = some stream) (hpc : Consumed raising stream pc)
    (hclients : t.frontend.clients = s.frontend.clients)
    (hws : ∀ c ∈ t.dispatcher.engineWorkers, c ∈ s.dispatcher.engineWorkers) :
    Matches t (sys.setStream i stream (t, pc)) := by
  have hlt : i < sys.streams.length := (List.getElem?_eq_some_iff.1 hi).1
  refine ⟨rfl, ⟨h.atRest.1, ?_⟩, ?_, ?_⟩
  · intro stream' hmem
    rcases List.mem_or_eq_of_mem_set hmem with hmem | rfl
    · exact h.atRest.2 stream' hmem
    · rcases hpc with rfl | ⟨-, -, rfl⟩ <;> trivial
  · exact fun c hc => h.session c (hws c hc)
  · intro a ref href
    rw [hclients] at href
    obtain ⟨j, hj⟩ := h.stream a ref href
    refine ⟨j, ?_⟩
    by_cases he : i = j
    · subst he
      obtain rfl := Option.some.inj (hi.symm.trans hj)
      rcases hpc with rfl | ⟨-, howner, -⟩
      · simp [Sys.setStream, hlt]
      · cases howner
    · simp [Sys.setStream, List.getElem?_set_ne he, hj]

end Matches

end Interleaved

namespace Atomic

open Interleaved (Matches Consumed Fed)

/-- What the transport of the clients allows.  ZeroMQ makes an entry only for an address without one, and only a
gRPC client has a stream of its own for each producer, so that a raising write leaves its entry alone.  An engine has
a session as long as it has a worker. -/
def Action.feasible (cfg : Config) (s : Server) : Action → Prop
  | .connect a => cfg.clientTransport = .zeromq → s.frontend.clients.get? a = none
  | .fromClient _ _ _ raising => cfg.clientTransport = .grpc ∨ raising = []
  | .fromEngine c _ _ => c ∈ s.dispatcher.engineWorkers
  | _ => True

instance (cfg : Config) (s : Server) : DecidablePred (Action.feasible cfg s)
  | .connect a => inferInstanceAs (Decidable (cfg.clientTransport = .zeromq → s.frontend.clients.get? a = none))
  | .fromClient _ _ _ raising => inferInstanceAs (Decidable (cfg.clientTransport = .grpc ∨ raising = []))
  | .fromEngine c _ _ => inferInstanceAs (Decidable (c ∈ s.dispatcher.engineWorkers))
  | .disconnect _ | .registerEngine _ _ | .disconnectEngine _ => inferInstanceAs (Decidable True)

variable {cfg : Config} {s s' : Server} {sys : Interleaved.Sys}

/-- Only a registration adds a worker. -/
private theorem mem_engineWorkers_of_step {a : Action} {c : Context} (hstep : step cfg s a = some s')
    (hc : c ∈ s'.dispatcher.engineWorkers) :
    c ∈ s.dispatcher.engineWorkers ∨ (∃ id ar, a = .registerEngine id ar) ∧ c = s.dispatcher.nextContext := by
  have hproj := step_dispatcher hstep
  cases ha : a.dispatcher cfg s with
  | none =>
    rw [ha] at hproj
    exact Or.inl (hproj ▸ hc)
  | some a' =>
    rw [ha] at hproj
    rcases Dispatcher.mem_engineWorkers_of_step hproj hc with hc | ⟨⟨id, ar, rfl⟩, rfl⟩
    · exact Or.inl hc
    · cases dispatcher_cases ha
      exact Or.inr ⟨⟨id, ar, rfl⟩, rfl⟩

private theorem connect_matches {a : Address} (h : Matches s sys)
    (hfree : cfg.clientTransport = .zeromq → s.frontend.clients.get? a = none) :
    ∃ sys', (Interleaved.machine cfg).Reaches sys sys' ∧
      Matches { s with frontend := s.frontend.addClient a } sys' := by
  obtain rfl := h.server
  have hstep : (Interleaved.machine cfg).step sys (.openClient a) = some { sys with
      server := { sys.server with frontend := sys.server.frontend.addClient a }
      streams := sys.streams ++ [{ address := a, owner := some sys.server.frontend.nextClient, pc := .idle }] } := by
    refine if_neg ?_
    rintro ⟨hz, hsome⟩
    simp [hfree hz] at hsome
  refine ⟨_, .head hstep (.refl _), rfl, ⟨h.atRest.1, ?_⟩, h.session, ?_⟩
  · intro stream hmem
    rcases List.mem_append.1 hmem with hmem | hmem
    · exact h.atRest.2 stream hmem
    · obtain rfl := List.mem_singleton.1 hmem
      trivial
  · intro b ref href
    simp only [Frontend.addClient, Dict.get?_set] at href
    split at href
    · rename_i he
      obtain rfl := Option.some.inj href
      exact ⟨sys.streams.length, by simp [he]⟩
    · obtain ⟨i, hi⟩ := h.stream b ref href
      exact ⟨i, by rw [List.getElem?_append_left (List.getElem?_eq_some_iff.1 hi).1, hi]⟩

private theorem disconnect_matches {a : Address} (h : Matches s sys) :
    ∃ sys', (Interleaved.machine cfg).Reaches sys sys' ∧
      Matches { s with frontend := (s.frontend.removeClient a).1 } sys' := by
  obtain rfl := h.server
  cases href : sys.server.frontend.clients.get? a with
  | none =>
    refine ⟨sys, .refl _, ?_⟩
    simp only [Frontend.removeClient, href]
    exact h
  | some ref =>
    obtain ⟨i, hi⟩ := h.stream a ref href
    have hlt : i < sys.streams.length := (List.getElem?_eq_some_iff.1 hi).1
    have hremoved : sys.server.frontend.removeClient a =
        ({ sys.server.frontend with clients := sys.server.frontend.clients.erase a }, false) := by
      simp [Frontend.removeClient, href]
    have hstep : (Interleaved.machine cfg).step sys (.closeStream i) = some (sys.setStream i ⟨a, some ref, .idle⟩
        ({ sys.server with frontend := (sys.server.frontend.removeClient a).1 }, .finished none)) := by
      simp [Interleaved.machine, Interleaved.step, hi, Interleaved.closeStream, Interleaved.endStream, hremoved]
    refine ⟨_, .head hstep (.refl _), rfl, ⟨h.atRest.1, ?_⟩, h.session, ?_⟩
    · intro stream hmem
      rcases List.mem_or_eq_of_mem_set hmem with hmem | rfl
      · exact h.atRest.2 stream hmem
      · trivial
    · intro b ref' href'
      simp only [hremoved, Dict.get?_erase] at href'
      split at href'
      · cases href'
      · rename_i hne
        obtain ⟨j, hj⟩ := h.stream b ref' href'
        refine ⟨j, ?_⟩
        have he : i ≠ j := by
          rintro rfl
          have heq := Option.some.inj (hi.symm.trans hj)
          exact hne (congrArg Interleaved.Stream.address heq).symm
        simp [Interleaved.Sys.setStream, List.getElem?_set_ne he, hj]

/-- The stream that takes up a client's message: a new producer stream of a gRPC client, and the stream of the client
entry otherwise. -/
private theorem fromClient_stream {a : Address} {ref : ClientRef} {raising : List Context} (h : Matches s sys)
    (href : s.frontend.clients.get? a = some ref) (hraise : cfg.clientTransport = .grpc ∨ raising = []) :
    ∃ (sys' : Interleaved.Sys) (i : Nat) (stream : Interleaved.Stream),
      (Interleaved.machine cfg).Reaches sys sys' ∧ Matches s sys' ∧ sys'.streams[i]? = some stream ∧
      stream.address = a ∧ stream.pc = .idle ∧ stream.client s = some ref ∧
      (raising = [] ∨ stream.owner = none) := by
  rcases hraise with hgrpc | hraise
  · have hstep : (Interleaved.machine cfg).step sys (.openProducer a) =
        some { sys with streams := sys.streams ++ [{ address := a, owner := none, pc := .idle }] } := if_pos hgrpc
    refine ⟨_, sys.streams.length, { address := a, owner := none, pc := .idle }, .head hstep (.refl _),
      ⟨h.server, ⟨h.atRest.1, ?_⟩, h.session, ?_⟩, by simp, rfl, rfl, href, Or.inr rfl⟩
    · intro stream hmem
      rcases List.mem_append.1 hmem with hmem | hmem
      · exact h.atRest.2 stream hmem
      · obtain rfl := List.mem_singleton.1 hmem
        trivial
    · intro b ref' href'
      obtain ⟨i, hi⟩ := h.stream b ref' href'
      exact ⟨i, by rw [List.getElem?_append_left (List.getElem?_eq_some_iff.1 hi).1, hi]⟩
  · obtain ⟨i, hi⟩ := h.stream a ref href
    exact ⟨sys, i, _, .refl _, h, hi, rfl, rfl, rfl, Or.inl hraise⟩

private theorem fromClient_matches {a : Address} {msg : FromClient} {order raising : List Context} {ref : ClientRef}
    (h : Matches s sys) (href : s.frontend.clients.get? a = some ref)
    (hraise : cfg.clientTransport = .grpc ∨ raising = [])
    (hs' : s.handleFromClient cfg ref a msg order raising = some s')
    (hws : ∀ c ∈ s'.dispatcher.engineWorkers, c ∈ s.dispatcher.engineWorkers) :
    ∃ sys', (Interleaved.machine cfg).Reaches sys sys' ∧ Matches s' sys' := by
  obtain ⟨sys', i, stream, hreach, hm, hi, rfl, hpc, hclient, hraise'⟩ := fromClient_stream h href hraise
  obtain rfl := hm.server
  obtain ⟨pc, hconsumed, hreach'⟩ := Interleaved.reaches_message hi hpc hclient href hraise' hs'
  exact ⟨_, hreach.trans hreach', hm.setStream hi hconsumed (Server.handleFromClient_clients hs') hws⟩

open Dispatcher (Directory WellFormed)

private theorem registerEngine_matches {id : String} {ar : Bool} (h : Matches s sys) (hd : Directory s.dispatcher) :
    ∃ sys', (Interleaved.machine cfg).Reaches sys sys' ∧
      Matches ({ s with dispatcher := s.dispatcher.openContext }.addEngineWorker s.dispatcher.nextContext id ar)
        sys' := by
  obtain rfl := h.server
  set c := sys.server.dispatcher.nextContext
  set t : Server := { sys.server with dispatcher := sys.server.dispatcher.openContext }
  have hopen : (Interleaved.machine cfg).step sys .openSession = some (sys.setSession c (t, .connected)) := rfl
  have hfirst : (Interleaved.machine cfg).step (sys.setSession c (t, .connected)) (.engineMessage c (.register id ar)) =
      some (sys.setSession c (Interleaved.firstMessage t c (.register id ar))) := by
    simp [Interleaved.machine, Interleaved.step, Interleaved.Sys.setSession]
  refine ⟨_, .head hopen (.head hfirst (Interleaved.reaches_firstMessage id ar hd.openContext)), ?_⟩
  refine h.setSession trivial (Server.addEngineWorker_clients id ar) ?_ fun _ => rfl
  intro c' hc' hne
  have hstep : step cfg sys.server (.registerEngine id ar) = some (t.addEngineWorker c id ar) := rfl
  exact (mem_engineWorkers_of_step hstep hc').resolve_right fun hnew => hne hnew.2

private theorem fromEngine_matches {c : Context} {msg : FromEngine} {raises : Bool} (h : Matches s sys)
    (hd : Directory s.dispatcher) (hnodup : s.dispatcher.engineWorkers.Nodup) (hc : c ∈ s.dispatcher.engineWorkers)
    (hws : ∀ c' ∈ (s.handleFromEngine c msg raises).dispatcher.engineWorkers, c' ∈ s.dispatcher.engineWorkers) :
    ∃ sys', (Interleaved.machine cfg).Reaches sys sys' ∧ Matches (s.handleFromEngine c msg raises) sys' := by
  have hidle := h.session c hc
  obtain rfl := h.server
  obtain ⟨pc, hfed, hreach⟩ := Interleaved.reaches_fromEngine msg raises hidle hd hnodup hc
  refine ⟨_, hreach, h.setSession ?_ (Server.handleFromEngine_clients msg raises hc) (fun c' hc' _ => hws c' hc') ?_⟩
  · rcases hfed with rfl | ⟨rfl, -⟩ <;> trivial
  · intro hmem
    exact hfed.resolve_right fun hend => hend.2 hmem

private theorem disconnectEngine_matches {c : Context} (h : Matches s sys) (hd : Directory s.dispatcher)
    (hnodup : s.dispatcher.engineWorkers.Nodup) (hc : c ∈ s.dispatcher.engineWorkers) :
    ∃ sys', (Interleaved.machine cfg).Reaches sys sys' ∧ Matches (s.removeEngineWorker c) sys' := by
  have hidle := h.session c hc
  obtain rfl := h.server
  have hstep : (Interleaved.machine cfg).step sys (.closeSession c) =
      some (sys.setSession c (Interleaved.leaveLoop sys.server c none)) := by
    simp [Interleaved.machine, Interleaved.step, hidle, Interleaved.closeSession]
  refine ⟨_, .head hstep (Interleaved.reaches_leaveLoop none hd hc),
    h.setSession trivial Server.removeEngineWorker_clients ?_ ?_⟩
  · intro c' hc' _
    rw [Server.removeEngineWorker_dispatcher] at hc'
    exact Dispatcher.removeEngineWorker_subset hc'
  · intro hmem
    rw [Server.removeEngineWorker_dispatcher] at hmem
    exact absurd hmem (hd.not_mem_removed hnodup hc)

private theorem step_matches {a : Action} (h : Matches s sys) (hd : Directory s.dispatcher)
    (hwf : WellFormed s.dispatcher) (hG : a.feasible cfg s) (hstep : step cfg s a = some s') :
    ∃ sys', (Interleaved.machine cfg).Reaches sys sys' ∧ Matches s' sys' := by
  have hws : ∀ c ∈ s'.dispatcher.engineWorkers, (∀ id ar, a ≠ .registerEngine id ar) → c ∈ s.dispatcher.engineWorkers :=
    fun c hc hne => (mem_engineWorkers_of_step hstep hc).resolve_right
      fun hnew => hnew.1.elim fun id hid => hid.elim fun ar => hne id ar
  cases a with
  | connect a =>
    obtain rfl := Option.some.inj hstep
    exact connect_matches h hG
  | disconnect a =>
    obtain rfl := Option.some.inj hstep
    exact disconnect_matches h
  | fromClient a msg order raising =>
    simp only [step] at hstep
    split at hstep
    · cases hstep
    · exact fromClient_matches h ‹_› hG hstep fun c hc => hws c hc (by simp)
  | registerEngine id ar =>
    obtain rfl := Option.some.inj hstep
    exact registerEngine_matches h hd
  | fromEngine c msg raises =>
    simp only [step] at hstep
    split at hstep
    · obtain rfl := Option.some.inj hstep
      exact fromEngine_matches h hd hwf.workers_nodup hG fun c hc => hws c hc (by simp)
    · cases hstep
  | disconnectEngine c =>
    simp only [step] at hstep
    split at hstep
    · obtain rfl := Option.some.inj hstep
      exact disconnectEngine_matches h hd hwf.workers_nodup ‹_›
    · cases hstep

end Atomic

end Gabriel
