import Gabriel.Server.Refinement
import Gabriel.Server.ServerSlice
import Gabriel.Server.SingleEngine
import Gabriel.Server.TokenAccount

/-!
# Draining a deployment with a single engine

The only engine of a deployment is sent one input after the other as long as it answers.  After as many results as
there are accepted inputs without a returned token it has nothing to do, no input waits, and every connected client
has all its tokens again.  That the engine gets there is the FIFO server's doing; that the clients do is their account:
what the counters lack are the tokens that were not issued yet.
-/

namespace Gabriel

open DispatchLog

/-! ### What was accepted and issued -/

namespace Dispatcher

variable {d d' : Dispatcher} {a : Address} {p : String} {mp : MetadataPayload}

theorem acceptedFrom_eq (d : Dispatcher) (a : Address) (p : String) :
    d.acceptedFrom a p = (accepted d.log).countP fun mp => mp.isFrom a p := by
  rw [acceptedFrom, accepted, List.countP_filterMap]
  congr 1
  funext e
  cases e <;> simp [DispatchEvent.acceptsFrom]

/-- With a single engine a token goes to the client of the input that is answered. -/
theorem SoleEngine.tokensIssued_eq (h : SoleEngine d) (a : Address) (p : String) :
    d.tokensIssued a p = (tokensReturned d.log).countP fun mp => mp.isFrom a p := by
  rw [tokensIssued, tokensReturned, List.countP_filterMap]
  refine List.countP_congr fun e he => ?_
  cases e with
  | sendResult origin address wrapper latest =>
    obtain ⟨k, mp, r, -, -, -, rfl, rfl, rfl⟩ := h.forwards _ he
    simp [DispatchEvent.issuesToken]
  | _ => simp

/-- No token was issued for the input that the engine is on. -/
theorem SoleEngine.issued_lt (h : SoleEngine d) (hinv : Fifo.Invariant MetadataPayload.producerId d.fifo)
    (hserving : d.fifo.serving = some mp) (ha : mp.isFrom a p) : d.tokensIssued a p < d.acceptedFrom a p := by
  have hserved : d.fifo.served = tokensReturned d.log ++ [mp] := by rw [hinv.served_eq, hserving]; rfl
  have hle : d.fifo.served.countP (fun mp => mp.isFrom a p) ≤ (accepted d.log).countP fun mp => mp.isFrom a p :=
    hinv.served_subperm.countP_le _
  rw [hserved, List.countP_append, List.countP_singleton, ← h.tokensIssued_eq, ← acceptedFrom_eq,
    decide_eq_true ha, if_pos rfl] at hle
  exact hle

/-- An idle engine has nothing left to answer. -/
theorem SoleEngine.issued_of_idle (h : SoleEngine d) (hinv : Fifo.Invariant MetadataPayload.producerId d.fifo)
    (hidle : d.fifo.serving = none) (a : Address) (p : String) : d.tokensIssued a p = d.acceptedFrom a p := by
  rw [h.tokensIssued_eq, acceptedFrom_eq]
  exact (hinv.finished_perm hidle).countP_eq _

/-- The address `a` has no open account if the token of each input accepted from it was returned. -/
theorem SoleEngine.issued_of_returned (h : SoleEngine d) (hinv : Fifo.Invariant MetadataPayload.producerId d.fifo)
    (hnodup : (accepted d.log).Nodup)
    (ha : ∀ mp ∈ accepted d.log, mp.metadata.clientAddress = a → mp ∈ tokensReturned d.log) (p : String) :
    d.acceptedFrom a p = d.tokensIssued a p := by
  have hserved : (tokensReturned d.log).Sublist d.fifo.served := by
    rw [hinv.served_eq]
    exact List.sublist_append_left _ _
  have hle : (tokensReturned d.log).countP (fun mp => mp.isFrom a p) ≤
      (accepted d.log).countP fun mp => mp.isFrom a p :=
    (hserved.subperm.trans hinv.served_subperm).countP_le _
  have hge : ((accepted d.log).filter fun mp => mp.isFrom a p).Subperm
      ((tokensReturned d.log).filter fun mp => mp.isFrom a p) := by
    refine List.subperm_of_subset (hnodup.filter _) fun mp hmp => ?_
    obtain ⟨hmp, hfrom⟩ := List.mem_filter.1 hmp
    exact List.mem_filter.2 ⟨ha mp hmp (of_decide_eq_true hfrom).1, hfrom⟩
  have hlen := hge.length_le
  rw [← List.countP_eq_length_filter, ← List.countP_eq_length_filter] at hlen
  rw [acceptedFrom_eq, h.tokensIssued_eq]
  exact Nat.le_antisymm hlen hle

theorem SameTokens.dispatchAll {raising order : List Context} {b : Bool} {r : Option Bool}
    (hr : d.dispatchAll mp raising order b = (d', r)) : d.SameTokens d' := by
  have hloop := dispatchAll_ind (P := fun _ d₁ _ => d.SameTokens d₁) (fun _ _ _ _ h _ => h.trans (.of_log rfl))
    (fun _ c _ _ h _ => h.trans fun a p => by by_cases hc : c ∈ raising <;> simp [tokensIssued, acceptedFrom, hc])
    (.of_log rfl) hr
  cases r with
  | none => exact (hloop.2 rfl).2.choose_spec
  | some b => exact hloop.1 b rfl

end Dispatcher

/-! ### The accounts -/

/-- The entries are of different clients, and the account of each is exact. -/
structure Server.Accounts (cfg : Config) (s : Server) : Prop where
  known : ∀ {a e}, s.frontend.clients.get? a = some e → e < s.frontend.nextClient
  apart : ∀ {a b e}, s.frontend.clients.get? a = some e → s.frontend.clients.get? b = some e → a = b
  account : ∀ {a e}, s.frontend.clients.get? a = some e → ∀ p, s.Account cfg a e p

namespace Server.Accounts

open Frontend

variable {cfg : Config} {s : Server} {d : Dispatcher} {f : Frontend} {a b : Address} {e ref : ClientRef}
  {mp : MetadataPayload}

theorem init : Accounts cfg {} where
  known h := by cases h
  apart h := by cases h
  account h := by cases h

theorem seated (h : s.Accounts cfg) (he : s.frontend.clients.get? a = some e) : s.Seated a e := by
  refine ⟨he, fun {b ref} hr => ⟨?_, ?_⟩⟩
  · rintro rfl
    exact Option.some.inj (hr.symm.trans he)
  · rintro rfl
    exact h.apart hr he

/-- No client is added. -/
theorem update (h : s.Accounts cfg) (hnext : f.nextClient = s.frontend.nextClient)
    (hclients : ∀ a ref, f.clients.get? a = some ref → s.frontend.clients.get? a = some ref)
    (haccount : ∀ {a e}, s.frontend.clients.get? a = some e → ∀ p,
      Account cfg { dispatcher := d, frontend := f } a e p) :
    Accounts cfg { dispatcher := d, frontend := f } := by
  refine ⟨fun he => ?_, fun he he' => h.apart (hclients _ _ he) (hclients _ _ he'),
    fun he => haccount (hclients _ _ he)⟩
  simp only [hnext]
  exact h.known (hclients _ _ he)

theorem keep (h : s.Accounts cfg) (hd : s.dispatcher.SameTokens d) (hnext : f.nextClient = s.frontend.nextClient)
    (hclients : ∀ a ref, f.clients.get? a = some ref → s.frontend.clients.get? a = some ref)
    (hcredit : f.credit cfg = s.frontend.credit cfg) : Accounts cfg { dispatcher := d, frontend := f } :=
  h.update hnext hclients fun he p => (h.account he p).keep hd hcredit

theorem quiet (h : s.Accounts cfg) (hf : Quiet s.frontend f) : Accounts cfg { s with frontend := f } :=
  h.keep (.of_log rfl) hf.nextClient hf.clients hf.credit

/-- A client connects whose address has no open account. -/
theorem connect (h : s.Accounts cfg)
    (hsettled : ∀ p, s.dispatcher.acceptedFrom a p = s.dispatcher.tokensIssued a p) :
    Accounts cfg { s with frontend := s.frontend.addClient a } := by
  have hget : ∀ {b ref}, (s.frontend.addClient a).clients.get? b = some ref →
      b = a ∧ ref = s.frontend.nextClient ∨ s.frontend.clients.get? b = some ref := by
    intro b ref hr
    simp only [addClient, Dict.get?_set] at hr
    split at hr
    · exact Or.inl ⟨‹_›, (Option.some.inj hr).symm⟩
    · exact Or.inr hr
  refine ⟨fun {b ref} hr => ?_, fun {b b' ref} hr hr' => ?_, fun {b ref} hr p => ?_⟩
  · rcases hget hr with ⟨-, rfl⟩ | hr
    · exact Nat.lt_succ_self _
    · exact Nat.lt_succ_of_lt (h.known hr)
  · rcases hget hr with ⟨rfl, he⟩ | hold <;> rcases hget hr' with ⟨rfl, he'⟩ | hold'
    · rfl
    · exact absurd (he ▸ h.known hold') (Nat.lt_irrefl _)
    · exact absurd (he' ▸ h.known hold) (Nat.lt_irrefl _)
    · exact h.apart hold hold'
  · rcases hget hr with ⟨rfl, rfl⟩ | hr
    · rw [Account, Interleaved.credit_addClient, hsettled p]
    · have hne : ref ≠ s.frontend.nextClient := Nat.ne_of_lt (h.known hr)
      have haccount := h.account hr p
      simpa [Account, credit, addClient, hne] using haccount

/-- An input of a connected client is accepted. -/
theorem accept (h : s.Accounts cfg) (href : s.frontend.clients.get? mp.metadata.clientAddress = some ref)
    (hcounter : s.frontend.HasCounter ref mp.producerId) (hd : s.dispatcher.SameTokens d) :
    Accounts cfg { dispatcher := d.emit (.accepted mp), frontend := s.frontend.deductToken ref mp } :=
  h.update (by simp) (fun a ref hr => by simpa using hr) fun he p =>
    (h.account he p).accept hd hcounter ((h.seated he).table href)

/-- A result is sent, and its token returned. -/
theorem result {w : ResultWrapper} {r : Frontend × Bool} (h : s.Accounts cfg) (hd : s.dispatcher.Issues d b w)
    (hf : ResultSent s.frontend b w r)
    (hlt : w.returnToken = true →
      s.dispatcher.tokensIssued b w.producerId < s.dispatcher.acceptedFrom b w.producerId) :
    Accounts cfg { dispatcher := d, frontend := r.1 } :=
  h.update hf.nextClient (fun _ _ hr => hf.clients ▸ hr) fun he =>
    Account.result (h.account he) (h.seated he) hd hf hlt

theorem replied {reply : ToClient} (h : s.Accounts cfg) (hf : Replied ref b reply s.frontend f) :
    Accounts cfg { s with frontend := f } :=
  h.keep (.of_log rfl) hf.nextClient (fun _ _ => hf.clients) hf.credit

theorem replyError (h : s.Accounts cfg) (ref : ClientRef) (b : Address) (msg : FromClient) (code : StatusCode)
    (text : String) : Accounts cfg { s with frontend := (s.frontend.replyError cfg ref b msg code text).1 } := by
  have hemit : Accounts cfg { s with frontend := s.frontend.emit (.errorReply ref b (makeErrorResponse msg code text)) } :=
    h.keep (.of_log rfl) rfl (fun _ _ => id) rfl
  exact hemit.replied ⟨_, reply_cases, .refl _⟩

/-- An input from the dispatch loop on. -/
theorem dispatchInput (h : s.Accounts cfg) (href : s.frontend.clients.get? mp.metadata.clientAddress = some ref)
    (hcounter : s.frontend.HasCounter ref mp.producerId) (b : Address) (msg : FromClient)
    (order raising : List Context) : (s.dispatchInput cfg ref b msg mp order raising).Accounts cfg := by
  unfold Server.dispatchInput
  rcases hloop : s.dispatcher.dispatchAll mp raising order true with ⟨d, _ | busy⟩
  · exact h.keep (.dispatchAll hloop) rfl (fun _ _ => id) rfl
  · have hd : s.dispatcher.SameTokens d := .dispatchAll hloop
    simp only
    generalize hr : d.concludeInput cfg mp busy = r
    cases Dispatcher.concludeInput_cases hr with
    | enqueued => exact h.accept href hcounter (hd.trans (.enqueue _))
    | inFlight => exact h.accept href hcounter (hd.trans (.of_log rfl))
    | dropped =>
      have hloop' : Accounts cfg { s with dispatcher := d } := h.keep hd rfl (fun _ _ => id) rfl
      exact hloop'.replyError ref b msg _ _

/-- A message of a connected client. -/
theorem fromClient {msg : FromClient} {order raising : List Context} {t : Server} (h : s.Accounts cfg)
    (href : s.frontend.clients.get? a = some ref) (hs : s.handleFromClient cfg ref a msg order raising = some t) :
    t.Accounts cfg := by
  have hsome := handleFromClient_some hs
  unfold consumerHelper at hsome
  rcases hr : s.frontend.consumerHelper cfg ref a msg with ⟨f, adm⟩
  rw [hr] at hsome
  cases consumerHelper_cases hr with
  | registered info =>
    subst hsome
    exact (h.keep (.of_log rfl) (by simp) (by simp) (by simp)).replied ⟨_, reply_cases, .refl _⟩
  | unregistered =>
    subst hsome
    exact (h.keep (.of_log rfl) (by simp) (by simp) (by simp)).replyError ref a msg _ _
  | noTokens =>
    subst hsome
    exact (h.keep (.of_log rfl) (by simp) (by simp) (by simp)).replyError ref a msg _ _
  | @forward _ info =>
    have hbegin : Accounts cfg
        { dispatcher := s.dispatcher.beginInput msg.asInput.producerId
            (s.dispatcher.targetEngines msg.asInput.targetEngineIds)
          frontend := ((s.frontend.emit (.received ref a msg)).initTokens cfg ref msg.asInput.producerId).emit
            (.submitted ref (s.dispatcher.metadataPayload msg.asInput a info)) } :=
      h.keep (.of_log (by simp)) (by simp) (by simp) (by simp)
    simp only at hsome
    split at hsome <;> rename_i hcase <;> split at hcase <;> cases hcase
    · subst hsome
      exact hbegin.replyError ref a msg _ _
    · obtain ⟨-, rfl⟩ := hsome
      refine hbegin.dispatchInput ?_ ?_ a msg order raising
      · simpa using href
      · exact hasCounter_initTokens

theorem feedEngine {c : Context} (h : s.Accounts cfg) : (s.feedEngine c false).Accounts cfg := by
  unfold Server.feedEngine
  rcases hr : s.dispatcher.sendNextInput c true with ⟨d, sent⟩
  have hd := (Dispatcher.sendNextInput_cases hr).sameTokens
  cases sent <;> simpa [hr] using h.keep hd rfl (fun _ _ => id) rfl

/-- A result, from the return of the result sinks on. -/
theorem afterSinks {c : Context} {k : Nat} {m : Option Metadata} {result : Result} (h : s.Accounts cfg)
    (hlt : ∀ {d b w}, Dispatcher.Answered s.dispatcher c k result m (d, .send b w) → w.returnToken = true →
      s.dispatcher.tokensIssued b w.producerId < s.dispatcher.acceptedFrom b w.producerId) :
    (s.afterSinks c k m result false).Accounts cfg := by
  unfold Server.afterSinks answerResult
  rcases hans : s.dispatcher.answerResult c k m result with ⟨d, _ | ⟨b, w⟩ | _⟩
  · have hd := (Dispatcher.answerResult_cases hans).sameTokens (by simp)
    exact h.keep hd rfl (fun _ _ => id) rfl
  · have hanswered := Dispatcher.answerResult_cases hans
    have hsent := h.result hanswered.issues (sendResult_cases rfl) (hlt hanswered)
    simp only [sendResult]
    by_cases hr : (s.frontend.sendResult b w).2 = true
    · simp only [hr, ↓reduceIte]
      exact hsent.feedEngine
    · simp only [hr, Bool.false_eq_true, ↓reduceIte]
      exact hsent.feedEngine
  · have hd := (Dispatcher.answerResult_cases hans).sameTokens (by simp)
    have hnext : Accounts cfg { s with dispatcher := d } := h.keep hd rfl (fun _ _ => id) rfl
    exact hnext.feedEngine

end Server.Accounts

/-- Nothing is left to do: the engine is idle, no input waits, the tokens of each producer were returned in the order
in which its inputs were accepted, and every connected client has all its tokens. -/
structure Server.Drained (cfg : Config) (s : Server) : Prop where
  idle : (s.dispatcher.workers 0).currentInputMetadata = none
  empty : ∀ p, (s.dispatcher.producer p).inputQueue = []
  returned : ∀ p, (tokensReturned s.dispatcher.log).filter (·.producerId = p) =
    (accepted s.dispatcher.log).filter (·.producerId = p)
  tokens : ∀ {a e}, s.frontend.clients.get? a = some e → ∀ p,
    s.frontend.credit cfg e p = cfg.numTokensPerProducer

/-! ### Steps and runs -/

namespace Atomic

variable {cfg : Config} {s s' : Server}

/-- A client connects at an address only if the token of each input accepted from it was returned. -/
def Action.connectsSettled (s : Server) : Action → Prop
  | .connect a => ∀ mp ∈ accepted s.dispatcher.log, mp.metadata.clientAddress = a →
      mp ∈ tokensReturned s.dispatcher.log
  | _ => True

instance : DecidablePred (Action.connectsSettled s)
  | .connect _ => inferInstanceAs (Decidable (∀ _ ∈ _, _))
  | .disconnect _ | .fromClient _ _ _ _ | .registerEngine _ _ | .fromEngine _ _ _ | .disconnectEngine _ =>
    inferInstanceAs (Decidable True)

/-- The steps of a deployment with a single engine, at addresses without an open account. -/
def Action.soleSettled (s : Server) (a : Action) : Prop := a.soleEngine s ∧ a.connectsSettled s

instance : DecidablePred (Action.soleSettled s) := fun _ => inferInstanceAs (Decidable (_ ∧ _))

/-- What is known of the dispatcher in every run with a single engine. -/
structure SoleRun (d : Dispatcher) : Prop where
  wellFormed : d.WellFormed
  sole : d.SoleEngine
  reachable : Fifo.Reachable MetadataPayload.producerId d.fifo
  nodup : (accepted d.log).Nodup

theorem SoleRun.fifo {d : Dispatcher} (h : SoleRun d) : Fifo.Invariant MetadataPayload.producerId d.fifo :=
  h.reachable.invariant

theorem run_soleRun {as : List Action} (h : (machine cfg).RunWhere (fun s a => a.soleEngine s) as s) :
    SoleRun s.dispatcher := by
  obtain ⟨as', hrun⟩ := run_soleEngine h
  have hdel := Dispatcher.run_delivered (hrun.mono fun _ _ ha => ha.writesSucceed)
  obtain ⟨hsole, hreach⟩ := Dispatcher.run_soleEngine hrun
  exact ⟨Dispatcher.run_wellFormed hrun, hsole, hreach, hdel.queued.accepted_nodup⟩

/-- The token of a result is that of the input the engine is on. -/
theorem SoleRun.issued_lt {d d' : Dispatcher} {c : Context} {k : Nat} {m : Option Metadata} {result r : Result}
    {b : Address} {w : ResultWrapper} (h : SoleRun d)
    (hans : Dispatcher.Answered (d.emit (.gotResult c r)) c k result m (d', .send b w))
    (htoken : w.returnToken = true) : d.tokensIssued b w.producerId < d.acceptedFrom b w.producerId := by
  cases hans with
  | copy => cases htoken
  | @token mp hpend hlatest =>
    obtain ⟨m, hcur, hm⟩ := h.sole.pending_current mp.producerId (by simpa using hpend)
    have hserving : d.fifo.serving = some mp := by
      simp only [Dispatcher.fifo, hcur, Option.bind_some, hm]
      simpa using hlatest
    exact h.sole.issued_lt h.fifo hserving ⟨rfl, rfl⟩

theorem accounts_step {a : Action} (hstep : step cfg s a = some s') (hsole : SoleRun s.dispatcher)
    (ha : a.soleSettled s) (h : s.Accounts cfg) : s'.Accounts cfg := by
  cases a with
  | connect a =>
    cases hstep
    exact h.connect (hsole.sole.issued_of_returned hsole.fifo hsole.nodup ha.2)
  | disconnect a =>
    cases hstep
    exact h.quiet Frontend.quiet_removeClient
  | fromClient a msg order raising =>
    simp only [step] at hstep
    split at hstep
    · cases hstep
    · exact h.fromClient ‹_› hstep
  | registerEngine engineId ar =>
    cases hstep
    -- the engine is the first
    have hnone : s.dispatcher.openContext.predecessor engineId = none := by
      rcases hsole.sole.alone with ⟨hw, -⟩ | ⟨-, hn⟩
      · simp [Dispatcher.predecessor, hw]
      · exact absurd (ha.1.symm.trans hn) (by simp)
    have hinsert : Server.Accounts cfg { s with
        dispatcher := s.dispatcher.openContext.insertWorker s.dispatcher.nextContext engineId ar } :=
      h.keep (.of_log rfl) rfl (fun _ _ => id) rfl
    simp only [Server.addEngineWorker, hnone]
    exact hinsert.quiet (Server.Slice.told_enginesUpdatedCb _ _).toQuiet
  | fromEngine c msg raises =>
    simp only [step] at hstep
    split at hstep
    · cases hstep
      obtain rfl : raises = false := ha.1.1
      have hgot : ∀ r, Server.Accounts cfg { s with dispatcher := s.dispatcher.emit (.gotResult c r) } :=
        fun r => h.keep (fun a p => by simp) rfl (fun _ _ => id) rfl
      by_cases hreg : ∃ id ar, msg = .register id ar
      · obtain ⟨id, ar, rfl⟩ := hreg
        exact h
      · have hmsg : ∀ id ar, msg ≠ .register id ar := fun id ar he => hreg ⟨id, ar, he⟩
        by_cases hc : c ∈ s.dispatcher.engineWorkers
        · rw [Server.handleFromEngine_result false hc hmsg]
          refine (hgot msg.asResult).afterSinks fun hans htoken => ?_
          simpa using hsole.issued_lt hans htoken
        · cases msg with
          | register id ar => exact absurd rfl (hmsg id ar)
          | unset => simpa [Server.handleFromEngine, hc] using hgot _
          | result r => simpa [Server.handleFromEngine, hc] using hgot _
    · cases hstep
  | disconnectEngine c => exact absurd ha.1 id

theorem run_accounts {as : List Action} (h : (machine cfg).RunWhere (fun s a => a.soleSettled s) as s) :
    s.Accounts cfg :=
  h.invariant_of (I := Server.Accounts cfg) (J := fun s => SoleRun s.dispatcher)
    (fun h => run_soleRun (h.mono fun _ _ ha => ha.1)) .init
    (fun _ _ _ hsole h ha hstep => accounts_step hstep hsole ha h)

/-! ### Draining -/

/-- As long as a token was not returned, the engine is on an input. -/
theorem SoleRun.exists_serving {d : Dispatcher} (h : SoleRun d)
    (hlt : (tokensReturned d.log).length < (accepted d.log).length) : ∃ mp, d.fifo.serving = some mp := by
  refine Option.ne_none_iff_exists'.1 fun hidle => ?_
  have hlen : (tokensReturned d.log).length = (accepted d.log).length := (h.fifo.finished_perm hidle).length_eq
  omega

/-- The engine that is on an input may send a result for it. -/
theorem SoleRun.soleEngine_result (h : SoleRun s.dispatcher)
    (hlt : (tokensReturned s.dispatcher.log).length < (accepted s.dispatcher.log).length) (r : Result) :
    Action.soleEngine s (.fromEngine 0 (.result r) false) ∧ 0 ∈ s.dispatcher.engineWorkers ∧
      0 < s.dispatcher.nextContext := by
  obtain ⟨mp, hserving⟩ := h.exists_serving hlt
  have hserved : writtenTo s.dispatcher.log 0 = tokensReturned s.dispatcher.log ++ [mp] := by
    have heq : writtenTo s.dispatcher.log 0 = _ := h.fifo.served_eq
    rw [heq, hserving]
    rfl
  refine ⟨⟨rfl, Or.inr ?_⟩, ?_⟩
  · rw [hserved, h.sole.results_length]
    simp
  · rcases h.sole.alone with ⟨-, -, hworker, -⟩ | ⟨hw, hn⟩
    · simp [Dispatcher.fifo, hworker] at hserving
    · simp [hw, hn]

/-- A result of the engine returns one more token, and no input is accepted meanwhile. -/
theorem SoleRun.result_returns {d d' : Dispatcher} {r : Result} (h : SoleRun d)
    (ha : Dispatcher.Action.soleEngine d (.fromEngine 0 (.result r) false))
    (hstep : Dispatcher.step cfg d (.fromEngine 0 (.result r) false) = some d') :
    (tokensReturned d'.log).length = (tokensReturned d.log).length + 1 ∧ accepted d'.log = accepted d.log := by
  obtain ⟨hsole, hfifo⟩ := Dispatcher.step_soleEngine h.wellFormed h.sole h.reachable ha hstep
  have hresults : (results d'.log 0).length = (results d.log 0).length + 1 := by
    cases Dispatcher.step_cases hstep with
    | unregistered => simp
    | unanswered => simp
    | answered _ _ hans =>
      rw [Dispatcher.feedEngine_false, (Dispatcher.sendNextInput_cases rfl).results, hans.results]
      simp
  have hreturned : (tokensReturned d'.log).length = (tokensReturned d.log).length + 1 := by
    rw [← hsole.results_length, hresults, h.sole.results_length]
  refine ⟨hreturned, ?_⟩
  -- of the steps of the FIFO server those that finish a job accept none
  rcases hfifo with heq | hfifo
  · exact congrArg Fifo.accepted heq
  · change d'.fifo.finished.length = d.fifo.finished.length + 1 at hreturned
    change d'.fifo.accepted = d.fifo.accepted
    generalize d'.fifo = t at hfifo hreturned
    cases hfifo with
    | start => simp at hreturned
    | wait => simp at hreturned
    | finish => rfl
    | next => rfl

/-- All accepted inputs have their token back. -/
theorem SoleRun.drained (h : SoleRun s.dispatcher) (haccounts : s.Accounts cfg)
    (hlen : (tokensReturned s.dispatcher.log).length = (accepted s.dispatcher.log).length) : s.Drained cfg := by
  have hserving : s.dispatcher.fifo.serving = none := h.fifo.idle_of_length hlen
  have hidle : (s.dispatcher.workers 0).currentInputMetadata = none := by
    cases hcur : (s.dispatcher.workers 0).currentInputMetadata with
    | none => rfl
    | some m =>
      obtain ⟨mp, hlatest, -⟩ := h.sole.busy m hcur
      simp [Dispatcher.fifo, hcur, hlatest] at hserving
  have hempty : ∀ p, (s.dispatcher.producer p).inputQueue = [] := fun p => (h.sole.idle hidle p).1
  refine ⟨hidle, hempty, fun p => ?_, fun {a e} he p => ?_⟩
  · have hserved : writtenTo s.dispatcher.log 0 = tokensReturned s.dispatcher.log ++ _ := h.fifo.served_eq
    have haccepted : (accepted s.dispatcher.log).filter (MetadataPayload.producerId · = p) =
        (writtenTo s.dispatcher.log 0).filter (MetadataPayload.producerId · = p) ++
          (s.dispatcher.producer p).inputQueue := h.fifo.accepted_eq p
    rw [haccepted, hempty, hserved, hserving, Option.toList_none, List.append_nil, List.append_nil]
  · have haccount := haccounts.account he p
    unfold Server.Account at haccount
    rw [h.sole.issued_of_idle h.fifo hserving] at haccount
    omega

/-- From every state of a deployment with a single engine, the engine can answer the inputs that have no token back,
one result for each, whatever the results are; and then nothing is left to do. -/
theorem single_engine_drains {as : List Action} (h : (machine cfg).RunWhere (fun s a => a.soleSettled s) as s)
    (rs : List Result)
    (hlen : (tokensReturned s.dispatcher.log).length + rs.length = (accepted s.dispatcher.log).length) :
    ∃ s', (machine cfg).exec s (rs.map fun r => .fromEngine 0 (.result r) false) = some s' ∧ s'.Drained cfg ∧
      accepted s'.dispatcher.log = accepted s.dispatcher.log ∧ s'.frontend.clients = s.frontend.clients := by
  induction rs generalizing as s with
  | nil =>
    have hsole := run_soleRun (h.mono fun _ _ ha => ha.1)
    exact ⟨s, rfl, hsole.drained (run_accounts h) hlen, rfl, rfl⟩
  | cons r rs ih =>
    rw [List.length_cons] at hlen
    have hsole := run_soleRun (h.mono fun _ _ ha => ha.1)
    obtain ⟨ha, hworker, hnext⟩ := hsole.soleEngine_result (by omega) r
    set t := s.handleFromEngine 0 (.result r) false
    have hstep : step cfg s (.fromEngine 0 (.result r) false) = some t := if_pos hnext
    obtain ⟨hreturned, haccepted⟩ := hsole.result_returns ha (step_dispatcher hstep)
    have hclients : t.frontend.clients = s.frontend.clients := Server.handleFromEngine_clients _ _ hworker
    obtain ⟨s', hexec, hdrained, haccepted', hclients'⟩ := ih (h.step ⟨ha, trivial⟩ hstep) (by
      rw [hreturned, haccepted]
      omega)
    refine ⟨s', ?_, hdrained, haccepted'.trans haccepted, hclients'.trans hclients⟩
    have hfirst : (machine cfg).step s (.fromEngine 0 (.result r) false) = some t := hstep
    rw [List.map_cons, Machine.exec, hfirst]
    exact hexec

/-- A client of two comes back to its address once its input is answered; then two inputs of the producer `P` that the
clients share are open, one of which waits. -/
theorem single_engine_drains_of_two_clients :
    ∃ as s, (machine { numTokensPerProducer := 2, sizeForQueues := 2 }).RunWhere (fun s a => a.soleSettled s) as s ∧
      (accepted s.dispatcher.log).length = 3 ∧ (s.dispatcher.producer "P").inputQueue.length = 1 ∧
      ∃ s', (machine { numTokensPerProducer := 2, sizeForQueues := 2 }).exec s
          [.fromEngine 0 (.result {}) false, .fromEngine 0 (.result {}) false] = some s' ∧
        s'.Drained { numTokensPerProducer := 2, sizeForQueues := 2 } ∧
        accepted s'.dispatcher.log = accepted s.dispatcher.log ∧ s'.frontend.clients = s.frontend.clients := by
  obtain ⟨s, hrun, h⟩ := Machine.exists_runWhere
    (M := machine { numTokensPerProducer := 2, sizeForQueues := 2 }) (G := fun s a => a.soleSettled s)
    (g := fun s a => decide (a.soleSettled s)) (fun _ _ h => of_decide_eq_true h)
    (fun s => (accepted s.dispatcher.log).length = 3 ∧ (tokensReturned s.dispatcher.log).length = 1 ∧
      (s.dispatcher.producer "P").inputQueue.length = 1)
    [.registerEngine "A" false, .connect "a", .fromClient "a" (.registration {}) [] [],
      .connect "b", .fromClient "b" (.registration {}) [] [],
      .fromClient "a" (.input { frameId := 5, producerId := "P", targetEngineIds := ["A"] }) [0] [],
      .fromEngine 0 (.result {}) false, .disconnect "a", .connect "a", .fromClient "a" (.registration {}) [] [],
      .fromClient "a" (.input { frameId := 1, producerId := "P", targetEngineIds := ["A"] }) [0] [],
      .fromClient "b" (.input { frameId := 2, producerId := "P", targetEngineIds := ["A"] }) [0] []] (by decide)
  exact ⟨_, s, hrun, h.1, h.2.2, single_engine_drains hrun [{}, {}] (by rw [h.1, h.2.1]; rfl)⟩

end Atomic

end Gabriel
