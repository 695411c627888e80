import Gabriel.Local.Lockstep
import Gabriel.Local.Server
import Gabriel.Server.Credit

/-!
# Flow control of the local server

Every accepted input takes a token of its client, and `_engine_comm` returns it with the result.  The inputs that are not
answered yet are the one in work and those in the queue; a client may have as many of them, for a producer, as it has
tokens missing (`Balanced`).  The one proviso is that an address is not used again for a new client while inputs of the
old one are unanswered: their tokens would go to the new one.

As long as the engine lives and the loop of `_engine_comm` goes on, the two processes can work off all inputs, whatever
`handle` returns, so no token is lost.
-/

namespace Gabriel

namespace LocalEngine

variable {β : Type} {cd : Codec β} {cfg : Config} {s s' : State β}

/-- The accepted inputs for which `send_result` has not been called. -/
def State.unanswered (s : State β) : List Job := s.accepted.drop s.sent.length

/-- A step other than the arrival of an input accepts none, and calls `send_result` at most once. -/
theorem sent_step {a : Action} (hstep : step cd cfg s a = some s') (ha : ∀ job, a ≠ .sendToEngine job) :
    s'.accepted = s.accepted ∧ (s'.sent = s.sent ∨ ∃ call, s'.sent = s.sent ++ [call]) := by
  cases a with
  | sendToEngine job => exact absurd rfl (ha job)
  | resume =>
    simp only [step] at hstep
    split at hstep
    · cases hstep
      unfold resume
      split
      · exact ⟨rfl, Or.inl rfl⟩
      · exact ⟨rfl, Or.inr ⟨_, rfl⟩⟩
    · cases hstep
  | engineRecv =>
    simp only [step] at hstep
    split at hstep
    · unfold engineRecv at hstep
      split at hstep
      · split at hstep <;> cases hstep <;> exact ⟨rfl, Or.inl rfl⟩
      · split at hstep <;> cases hstep <;> exact ⟨rfl, Or.inl rfl⟩
      · cases hstep
    · cases hstep
  | _ =>
    simp only [step] at hstep
    repeat' split at hstep
    all_goals cases hstep
    all_goals exact ⟨rfl, Or.inl rfl⟩

/-- The unanswered inputs are the one in work and those in the queue. -/
theorem Lockstep.unanswered {done : List (Job × Handled)} {current : Option Job} {calls : List Computation}
    (h : Lockstep cd cfg s done current calls) : s.unanswered = current.toList ++ s.inputQueue := by
  have hlen : s.sent.length = (done.map Prod.fst).length := by simp [h.sent]
  rw [State.unanswered, h.accepted, hlen, List.append_assoc, List.drop_left]

theorem InLockstep.sent_le (h : InLockstep cd cfg s) : s.sent.length ≤ s.accepted.length := by
  obtain ⟨done, current, calls, h⟩ := h
  have haccepted := congrArg List.length h.accepted
  have hsent := congrArg List.length h.sent
  simp only [List.length_append, List.length_map] at haccepted hsent
  omega

/-- `send_result` is called for the first of the unanswered inputs. -/
theorem unanswered_step {a : Action} (h : InLockstep cd cfg s) (hstep : step cd cfg s a = some s')
    (ha : ∀ job, a ≠ .sendToEngine job) :
    (s'.sent = s.sent ∧ s'.unanswered = s.unanswered) ∨
      ∃ job r, s.unanswered = job :: s'.unanswered ∧ s'.sent = s.sent ++ [job.sendResult cfg r] := by
  obtain ⟨haccepted, hsent | ⟨call, hsent⟩⟩ := sent_step hstep ha
  · exact Or.inl ⟨hsent, by rw [State.unanswered, State.unanswered, haccepted, hsent]⟩
  · obtain ⟨done, current, calls, h'⟩ := step_inLockstep h hstep
    -- the call is the last of those made for the inputs that are done
    obtain ⟨⟨job, r⟩, hlast⟩ : ∃ x, done[s.sent.length]? = some x := by
      have hlen := congrArg List.length h'.sent
      simp only [hsent, List.length_append, List.length_singleton, List.length_map] at hlen
      exact ⟨_, List.getElem?_eq_getElem (by omega)⟩
    have hcall : call = job.sendResult cfg r := by
      have hget := congrArg (·[s.sent.length]?) h'.sent
      simpa [hsent, hlast] using hget
    have hjob : s.accepted[s.sent.length]? = some job := by
      rw [← haccepted, h'.accepted, List.append_assoc, List.getElem?_append_left, List.getElem?_map, hlast]
      · rfl
      · rw [List.length_map]
        exact (List.getElem?_eq_some_iff.1 hlast).1
    refine Or.inr ⟨job, r, ?_, hcall ▸ hsent⟩
    obtain ⟨hlt, hget⟩ := List.getElem?_eq_some_iff.1 hjob
    rw [State.unanswered, State.unanswered, haccepted, hsent, List.length_append, List.length_singleton,
      List.drop_eq_getElem_cons hlt, hget]

/-! ### The two processes work off the inputs -/

/-- The engine process lives, and the loop of `_engine_comm` goes on. -/
def State.Live (s : State β) : Prop := s.engine ≠ .dead ∧ s.comm ≠ .stopped

/-- The steps of the two processes, if `handle` returns `value` and nothing raises. -/
def Action.works (value : Handled) : Action → Prop
  | .sendToEngine _ | .handleRaised => False
  | .handled returned => returned = value
  | .start isRunning => isRunning
  | .resultSent raises isRunning => ¬ raises ∧ isRunning
  | _ => True

/-- How far `_engine_comm` is from the result of the job in work. -/
def State.commStage (s : State β) : Nat :=
  match s.comm with
  | .starting => 16
  | .sendingResult => 15
  | .getting => 14
  | .sendingInput _ => 13
  | .sendingInfo _ => 8
  | .waiting _ => if s.resultReady then 4 else if s.callbacks = 0 then 6 else 5
  | .receiving _ => 3
  | .received _ _ => 2
  | .stopped => 0

/-- How far the engine is from the result of the job in work. -/
def State.engineStage (s : State β) : Nat :=
  match s.engine, s.toEngine with
  | .receiving, [] => 0
  | .receiving, _ => 3
  | .gotInput _, _ => 2
  | .handling _ _, _ => 1
  | .dead, _ => 0

/-- How far the two processes are from having answered all inputs. -/
def State.rank (s : State β) : Nat :=
  30 * (s.accepted.length - s.sent.length) + s.commStage + s.engineStage

/-- As long as an input is unanswered, one of the two processes can go on. -/
theorem exists_works (h : InLockstep cd cfg s) (hlive : s.Live) (hun : s.unanswered ≠ []) (value : Handled) :
    ∃ a s', a.works value ∧ step cd cfg s a = some s' ∧ s'.Live ∧ s'.rank < s.rank := by
  obtain ⟨done, current, calls, h⟩ := h
  have hqueue := h.unanswered
  have hlt : s.sent.length < s.accepted.length := by
    rw [State.unanswered, ne_eq, List.drop_eq_nil_iff] at hun
    omega
  have hphase := h.phase
  obtain ⟨inputQueue, comm, engine, toEngine, toServer, resultReady, callbacks, accepted, computed, read, sent⟩ := s
  obtain ⟨hengine, hcomm⟩ := hlive
  simp only at hphase hengine hcomm hlt
  -- `_engine_comm` waits for a result that is on the pipe
  have hwake : ∀ job data, comm = .waiting job → engine = .receiving → toEngine = [] → toServer = [data] →
      ∃ a s', a.works value ∧ step cd cfg ⟨inputQueue, comm, engine, toEngine, toServer, resultReady, callbacks,
        accepted, computed, read, sent⟩ a = some s' ∧ s'.Live ∧ s'.rank < State.rank ⟨inputQueue, comm, engine,
          toEngine, toServer, resultReady, callbacks, accepted, computed, read, sent⟩ := by
    rintro job data rfl rfl rfl rfl
    cases resultReady with
    | true => exact ⟨.wake, _, trivial, rfl, ⟨by simp, by simp⟩, by simp [State.rank, State.commStage, State.engineStage]⟩
    | false =>
      cases callbacks with
      | zero =>
        exact ⟨.poll, _, trivial, rfl, ⟨by simp, by simp⟩, by simp [State.rank, State.commStage, State.engineStage]⟩
      | succ n =>
        exact ⟨.fire, _, trivial, rfl, ⟨by simp, by simp⟩, by simp [State.rank, State.commStage, State.engineStage]⟩
  cases hphase with
  | noJob hstage =>
    rcases hstage with rfl | rfl | rfl | rfl
    · exact ⟨.start true, _, rfl, rfl, ⟨by simp, by simp [loopTest]⟩,
        by simp [State.rank, State.commStage, State.engineStage, loopTest]⟩
    · cases inputQueue with
      | nil => exact absurd hqueue hun
      | cons job rest =>
        exact ⟨.get, _, trivial, rfl, ⟨by simp, by simp⟩, by simp [State.rank, State.commStage, State.engineStage]⟩
    · exact ⟨.resultSent false true, _, ⟨by simp, rfl⟩, rfl, ⟨by simp, by simp [loopTest]⟩,
        by simp [State.rank, State.commStage, State.engineStage, loopTest]⟩
    · exact absurd rfl hcomm
  | sendingInput =>
    exact ⟨.inputSent, _, trivial, rfl, ⟨by simp, by simp⟩, by simp [State.rank, State.commStage, State.engineStage]⟩
  | inputSent =>
    refine ⟨.infoSent, _, trivial, rfl, ⟨by simp, by simp⟩, ?_⟩
    simp only [State.rank, State.commStage, State.engineStage, List.cons_append]
    split <;> [omega; (split <;> omega)]
  | inputRead =>
    refine ⟨.infoSent, _, trivial, rfl, ⟨by simp, by simp⟩, ?_⟩
    simp only [State.rank, State.commStage, State.engineStage]
    split <;> [omega; (split <;> omega)]
  | bothSent hstage =>
    refine ⟨.engineRecv, _, trivial, by simp [step, engineRecv, cd.toFromClient_of]; rfl, ⟨by simp, hcomm⟩, ?_⟩
    rcases hstage with rfl | rfl <;> simp [State.rank, State.commStage, State.engineStage]
  | infoSent hstage =>
    refine ⟨.engineRecv, _, trivial, by simp only [step, engineRecv, toAny_ofAny]; rfl, ⟨by simp, hcomm⟩, ?_⟩
    rcases hstage with rfl | rfl <;> simp [State.rank, State.commStage, State.engineStage]
  | handling hstage =>
    refine ⟨.handled value, _, rfl, rfl, ⟨by simp, hcomm⟩, ?_⟩
    rcases hstage with rfl | rfl <;> simp [State.rank, State.commStage, State.engineStage]
  | died => exact absurd rfl hengine
  | @answered job r _ hstage =>
    rcases hstage with rfl | rfl
    · exact hwake job _ rfl rfl rfl rfl
    · exact ⟨.recv, _, trivial, rfl, ⟨by simp, by simp⟩, by simp [State.rank, State.commStage, State.engineStage]⟩
  | received =>
    refine ⟨.resume, _, trivial, rfl, ?_, ?_⟩
    · simp [State.Live, resume, cd.toResult_of]
    · simp only [resume, cd.toResult_of, State.rank, State.commStage, State.engineStage, List.length_append,
        List.length_singleton]
      omega

end LocalEngine

namespace LocalServer

open LocalEngine (Job InLockstep)

variable {β : Type} {cd : Codec β} {cfg : Config} {s s' : State β} {a b : Address} {ref : ClientRef} {p : String}

/-- The input is one of the producer `p` of the client `a`. -/
def fromProducer (a : Address) (p : String) (job : Job) : Bool :=
  job.address = a ∧ job.fromClient.asInput.producerId = p

/-- The number of unanswered inputs of a producer. -/
def State.outstanding (s : State β) (a : Address) (p : String) : Nat :=
  s.engine.unanswered.countP (fromProducer a p)

/-- What a client may still send and what is unanswered add up to its tokens. -/
structure Balanced (cfg : Config) (s : State β) : Prop where
  known : ∀ a ref, s.frontend.clients.get? a = some ref → ref < s.frontend.nextClient
  distinct : ∀ a b ref, s.frontend.clients.get? a = some ref → s.frontend.clients.get? b = some ref → a = b
  balance : ∀ a ref p, s.frontend.clients.get? a = some ref →
    s.frontend.credit cfg.server ref p + s.outstanding a p = cfg.numTokens
  nonneg : ∀ a ref p, s.frontend.clients.get? a = some ref → 0 ≤ s.frontend.credit cfg.server ref p
  counter : ∀ a ref p, s.frontend.clients.get? a = some ref → 0 < s.outstanding a p → s.frontend.HasCounter ref p

namespace Balanced

theorem init : Balanced cfg ({} : State β) := by
  have hnone : ∀ a ref, ({} : Frontend).clients.get? a ≠ some ref := by
    intro a ref h
    cases h
  exact ⟨fun a ref h => absurd h (hnone a ref), fun a b ref h => absurd h (hnone a ref),
    fun a ref p h => absurd h (hnone a ref), fun a ref p h => absurd h (hnone a ref),
    fun a ref p h => absurd h (hnone a ref)⟩

theorem of_eq (h : Balanced cfg s) (hfrontend : s'.frontend = s.frontend) (hengine : s'.engine = s.engine) :
    Balanced cfg s' := by
  obtain ⟨f, cs, engine⟩ := s'
  obtain rfl : f = s.frontend := hfrontend
  obtain rfl : engine = s.engine := hengine
  exact ⟨h.known, h.distinct, h.balance, h.nonneg, h.counter⟩

/-- The frontend does something that has nothing to do with tokens. -/
theorem setFrontend {f : Frontend} (h : Balanced cfg s)
    (hclients : ∀ a ref, f.clients.get? a = some ref → s.frontend.clients.get? a = some ref)
    (hnext : f.nextClient = s.frontend.nextClient) (hcredit : f.credit cfg.server = s.frontend.credit cfg.server)
    (hcounter : ∀ ref p, s.frontend.HasCounter ref p → f.HasCounter ref p) :
    Balanced cfg { s with frontend := f } where
  known a ref ha := hnext ▸ h.known a ref (hclients a ref ha)
  distinct a b ref ha hb := h.distinct a b ref (hclients a ref ha) (hclients b ref hb)
  balance a ref p ha := hcredit ▸ h.balance a ref p (hclients a ref ha)
  nonneg a ref p ha := hcredit ▸ h.nonneg a ref p (hclients a ref ha)
  counter a ref p ha hpos := hcounter ref p (h.counter a ref p (hclients a ref ha) hpos)

/-- A new client has all its tokens. -/
theorem addClient (h : Balanced cfg s) (hfree : ∀ p, s.outstanding a p = 0) :
    Balanced cfg { s with frontend := s.frontend.addClient a } := by
  have htable : ∀ b ref, (s.frontend.addClient a).clients.get? b = some ref →
      (b = a ∧ ref = s.frontend.nextClient) ∨ (b ≠ a ∧ s.frontend.clients.get? b = some ref) := by
    intro b ref hb
    simp only [Frontend.addClient, Dict.get?_set] at hb
    split at hb
    · exact Or.inl ⟨‹_›, (Option.some.inj hb).symm⟩
    · exact Or.inr ⟨‹_›, hb⟩
  have hnew : ∀ p, (s.frontend.addClient a).credit cfg.server s.frontend.nextClient p = cfg.numTokens := by
    intro p
    simp [Frontend.credit, Frontend.addClient, Config.server]
  have hold : ∀ b ref, s.frontend.clients.get? b = some ref →
      (s.frontend.addClient a).clientObjs ref = s.frontend.clientObjs ref := by
    intro b ref hb
    exact Function.update_of_ne (Nat.ne_of_lt (h.known b ref hb)) ..
  constructor
  · intro b ref hb
    rcases htable b ref hb with ⟨-, rfl⟩ | ⟨-, hb⟩
    · exact Nat.lt_succ_self _
    · exact Nat.lt_succ_of_lt (h.known b ref hb)
  · intro b c ref hb hc
    rcases htable b ref hb with ⟨hba, hbn⟩ | ⟨-, hb'⟩ <;> rcases htable c ref hc with ⟨hca, hcn⟩ | ⟨-, hc'⟩
    · rw [hba, hca]
    · exact absurd (h.known c ref hc') (hbn ▸ Nat.lt_irrefl _)
    · exact absurd (h.known b ref hb') (hcn ▸ Nat.lt_irrefl _)
    · exact h.distinct b c ref hb' hc'
  · intro b ref p hb
    rcases htable b ref hb with ⟨rfl, rfl⟩ | ⟨-, hb⟩
    · have hzero : State.outstanding { s with frontend := s.frontend.addClient b } b p = 0 := hfree p
      rw [hnew, hzero]
      simp
    · have hbalance := h.balance b ref p hb
      rw [Frontend.credit, hold b ref hb]
      exact hbalance
  · intro b ref p hb
    rcases htable b ref hb with ⟨-, rfl⟩ | ⟨-, hb⟩
    · rw [hnew]
      omega
    · rw [Frontend.credit, hold b ref hb]
      exact h.nonneg b ref p hb
  · intro b ref p hb hpos
    rcases htable b ref hb with ⟨rfl, -⟩ | ⟨-, hb⟩
    · exact absurd (hfree p) (Nat.pos_iff_ne_zero.1 hpos)
    · rw [Frontend.HasCounter, hold b ref hb]
      exact h.counter b ref p hb hpos

/-- The counter of the client `a` for `p` changes by `n`, and its unanswered inputs by as many the other way. -/
theorem addTokens {n : Int} {engine : LocalEngine.State β} (h : Balanced cfg s)
    (ha : s.frontend.clients.get? a = some ref) (hcounter : s.frontend.HasCounter ref p)
    (hn : 0 ≤ s.frontend.credit cfg.server ref p + n)
    (hengine : ∀ b q, (State.outstanding { s with engine := engine } b q : Int) =
      s.outstanding b q - if a = b ∧ p = q then n else 0) :
    Balanced cfg { s with frontend := s.frontend.addTokens ref p n, engine := engine } := by
  have hsame : ∀ b ref', s.frontend.clients.get? b = some ref' → (ref = ref' ↔ a = b) := by
    intro b ref' hb
    constructor
    · rintro rfl
      exact h.distinct a b ref ha hb
    · rintro rfl
      exact Option.some.inj (ha.symm.trans hb)
  have hout : ∀ b q, (State.outstanding { s with frontend := s.frontend.addTokens ref p n, engine := engine } b q : Int) =
      s.outstanding b q - if a = b ∧ p = q then n else 0 := hengine
  refine ⟨h.known, h.distinct, ?_, ?_, ?_⟩
  · intro b ref' q hb
    have hbalance := h.balance b ref' q hb
    simp only [Frontend.credit_addTokens hcounter, hout, hsame b ref' hb]
    omega
  · intro b ref' q hb
    have hnonneg := h.nonneg b ref' q hb
    simp only [Frontend.credit_addTokens hcounter]
    split
    · rename_i he
      rw [← he.1, ← he.2]
      exact hn
    · omega
  · intro b ref' q hb hpos
    by_cases he : a = b ∧ p = q
    · obtain ⟨rfl, rfl⟩ := he
      obtain rfl := Option.some.inj (ha.symm.trans hb)
      exact hcounter.addTokens ref p n
    · have hsub := hout b q
      rw [if_neg he] at hsub
      exact (h.counter b ref' q hb (by omega)).addTokens ref p n

end Balanced

theorem outstanding_accepted (h : InLockstep cd cfg.engine s.engine) (engine : LocalEngine.State β) (job : Job)
    (haccepted : engine.accepted = s.engine.accepted ++ [job]) (hsent : engine.sent = s.engine.sent) (b : Address)
    (q : String) : State.outstanding { s with engine := engine } b q =
      s.outstanding b q + if fromProducer b q job then 1 else 0 := by
  have hdrop : engine.unanswered = s.engine.unanswered ++ [job] := by
    rw [LocalEngine.State.unanswered, haccepted, hsent, List.drop_append_of_le_length h.sent_le]
    rfl
  simp [State.outstanding, hdrop, List.countP_append, List.countP_cons]

/-- The consumer's reply has nothing to do with tokens. -/
theorem Balanced.reply {f : Frontend} {msg : ToClient} (h : Balanced cfg { s with frontend := f }) :
    Balanced cfg { s with frontend := (f.reply cfg.server ref a msg).1 } := by
  have hcases : (f.reply cfg.server ref a msg).1 = f ∨
      (f.reply cfg.server ref a msg).1 = f.emit (.toClient ref a msg) := Frontend.reply_cases
  rcases hcases with he | he <;> rw [he]
  · exact h
  · exact h.setFrontend (fun _ _ => id) rfl rfl fun _ _ => id

theorem Balanced.replyError {f : Frontend} {msg : FromClient} {code : StatusCode} {message : String}
    (h : Balanced cfg { s with frontend := f }) :
    Balanced cfg { s with frontend := (f.replyError cfg.server ref a msg code message).1 } := by
  refine Balanced.reply (s := s) ?_
  exact h.setFrontend (fun _ _ => id) rfl rfl fun _ _ => id

/-- The consumer's reply goes out as long as its client has an entry. -/
theorem State.afterReply_sent {consumer : Consumer} {r : Frontend × Frontend.Sent} (hr : r = (r.1, .sent)) :
    s.afterReply consumer r = { s with frontend := r.1 } := by
  rw [hr]
  rfl

/-- The consumer of a client that has an entry takes up a message. -/
theorem handle_entry {consumer : Consumer} (msg : FromClient)
    (ha : s.frontend.clients.get? consumer.address = some consumer.client) :
    (handle cfg s consumer msg).frontend.clients = s.frontend.clients ∧
      (handle cfg s consumer msg).consumers = s.consumers := by
  unfold LocalServer.handle
  rcases hr : s.frontend.consumerHelper cfg.server consumer.client consumer.address msg with ⟨f, admission⟩
  have hclients : f.clients = s.frontend.clients := (Frontend.consumerHelper_cases hr).clients
  have ha' : f.clients.get? consumer.address = some consumer.client := hclients ▸ ha
  have herror : ∀ code message,
      (f.replyError cfg.server consumer.client consumer.address msg code message).1.clients = s.frontend.clients :=
    fun code message => (Frontend.reply_clients ..).trans hclients
  cases admission with
  | registered =>
    simp only
    rw [State.afterReply_sent (Frontend.reply_sent _ ha')]
    exact ⟨(Frontend.reply_clients ..).trans hclients, rfl⟩
  | refused code message =>
    simp only
    rw [State.afterReply_sent (Frontend.replyError_sent _ _ _ ha')]
    exact ⟨herror code message, rfl⟩
  | forward info =>
    simp only
    rcases LocalEngine.sendToEngine cfg.engine s.engine ⟨msg, consumer.address, info⟩ with ⟨engine, code, message⟩
    cases code with
    | success => exact ⟨hclients, rfl⟩
    | _ =>
      simp only
      rw [State.afterReply_sent (Frontend.replyError_sent _ _ _ ha')]
      exact ⟨herror _ message, rfl⟩

theorem Balanced.handle {consumer : Consumer} {msg : FromClient} (h : Balanced cfg s)
    (hlock : InLockstep cd cfg.engine s.engine)
    (ha : s.frontend.clients.get? consumer.address = some consumer.client) :
    Balanced cfg (handle cfg s consumer msg) := by
  unfold LocalServer.handle
  rcases hr : s.frontend.consumerHelper cfg.server consumer.client consumer.address msg with ⟨f, admission⟩
  have hadmitted := Frontend.consumerHelper_cases hr
  have ha' : f.clients.get? consumer.address = some consumer.client := hadmitted.clients ▸ ha
  cases hadmitted with
  | registered info =>
    simp only
    rw [State.afterReply_sent (Frontend.reply_sent _ ha')]
    refine Balanced.reply (s := s) (h.setFrontend (fun _ _ => id) rfl ?_ ?_)
    · simp
    · simp
  | unregistered =>
    simp only
    rw [State.afterReply_sent (Frontend.replyError_sent _ _ _ ha')]
    exact Balanced.replyError (s := s) (h.setFrontend (fun _ _ => id) rfl rfl fun _ _ => id)
  | noTokens =>
    simp only
    rw [State.afterReply_sent (Frontend.replyError_sent _ _ _ ha')]
    refine Balanced.replyError (s := s) (h.setFrontend (by simp) (by simp) (by simp) ?_)
    exact fun e q hc => Frontend.HasCounter.initTokens (f := s.frontend.emit _) hc _ _
  | @forward _ info _ _ htokens =>
    have hf := h.setFrontend (f := Frontend.initTokens cfg.server
        (s.frontend.emit (.received consumer.client consumer.address msg)) consumer.client msg.asInput.producerId)
      (by simp) (by simp) (by simp) fun e q hc => Frontend.HasCounter.initTokens (f := s.frontend.emit _) hc _ _
    simp only [LocalEngine.sendToEngine]
    by_cases hfull : LocalEngine.inputQueueFull cfg.engine s.engine.inputQueue = true
    · simp only [if_pos hfull]
      rw [State.afterReply_sent (Frontend.replyError_sent _ _ _ ha')]
      exact Balanced.replyError (s := s) hf
    · simp only [if_neg hfull]
      rw [Frontend.tokens_initTokens, Frontend.credit_emit] at htokens
      refine hf.addTokens (n := -1) (by simpa using ha) Frontend.hasCounter_initTokens ?_ ?_
      · simp only [Frontend.credit_initTokens, Frontend.credit_emit]
        omega
      · intro b q
        have hout := outstanding_accepted hlock { s.engine with
          inputQueue := s.engine.inputQueue ++ [⟨msg, consumer.address, info⟩]
          accepted := s.engine.accepted ++ [⟨msg, consumer.address, info⟩] } ⟨msg, consumer.address, info⟩ rfl rfl b q
        simp only [fromProducer, decide_eq_true_eq] at hout
        simp only [State.outstanding] at hout ⊢
        rw [hout]
        split <;> simp

/-- `_engine_comm` returns the token of the first unanswered input. -/
theorem Balanced.deliver {engine : LocalEngine.State β} {job : Job} {r : LocalEngine.Handled} (h : Balanced cfg s)
    (hjob : s.engine.unanswered = job :: engine.unanswered) :
    Balanced cfg { s with frontend := deliver s.frontend (job.sendResult cfg.engine r), engine := engine } := by
  have hout : ∀ b q, s.outstanding b q = State.outstanding { s with engine := engine } b q +
      if fromProducer b q job then 1 else 0 := by
    intro b q
    simp [State.outstanding, hjob, List.countP_cons]
  unfold LocalServer.deliver
  generalize hf : s.frontend.sendResult (job.sendResult cfg.engine r).address
    { producerId := (job.sendResult cfg.engine r).producerId
      returnToken := (job.sendResult cfg.engine r).returnToken
      result := (job.sendResult cfg.engine r).result } = sent
  cases Frontend.sendResult_cases hf with
  | noClient hnone =>
    -- nobody is left whose input this was
    have hsame : ∀ b ref q, s.frontend.clients.get? b = some ref →
        s.outstanding b q = State.outstanding { s with engine := engine } b q := by
      intro b ref q hb
      have hne : job.address ≠ b := by
        rintro rfl
        exact Option.some_ne_none ref (hb.symm.trans hnone)
      simpa [fromProducer, hne] using hout b q
    refine ⟨h.known, h.distinct, fun b ref q hb => ?_, h.nonneg, fun b ref q hb hpos => ?_⟩
    · have hbalance := h.balance b ref q hb
      rwa [hsame b ref q hb] at hbalance
    · exact h.counter b ref q hb (hsame b ref q hb ▸ hpos)
  | @sent ref href =>
    have ha : s.frontend.clients.get? job.address = some ref := href
    have hf : Balanced cfg { s with frontend := s.frontend.emit (.resultFor ref job.address
        { producerId := job.fromClient.asInput.producerId, returnToken := true, result := job.result cfg.engine r }) } :=
      h.setFrontend (fun _ _ => id) rfl rfl fun _ _ => id
    have hpos : 0 < s.outstanding job.address job.fromClient.asInput.producerId := by
      rw [hout]
      simp [fromProducer]
    have hnonneg := h.nonneg _ _ job.fromClient.asInput.producerId ha
    have hadd := @addTokens β cfg _ job.address ref job.fromClient.asInput.producerId 1 engine hf ha
      (h.counter _ _ _ ha hpos) (by simp only [Frontend.credit_emit]; omega)
      (fun b q => by
        have hb := hout b q
        simp only [fromProducer, decide_eq_true_eq, State.outstanding] at hb ⊢
        rw [hb]
        split <;> simp)
    exact hadd.setFrontend (fun _ _ => id) rfl rfl fun _ _ => id

/-- An address is given to a new client only if it has no entry, and no input of an old one is unanswered. -/
def Action.settled (s : State β) : Action → Prop
  | .connect a => s.frontend.clients.get? a = none ∧ ∀ job ∈ s.engine.unanswered, job.address ≠ a
  | _ => True

instance (s : State β) : DecidablePred (Action.settled s)
  | .connect a => inferInstanceAs
    (Decidable (s.frontend.clients.get? a = none ∧ ∀ job ∈ s.engine.unanswered, job.address ≠ a))
  | .disconnect _ | .message _ _ | .engine _ => inferInstanceAs (Decidable True)

/-- What a step of `_engine_comm`, the event loop or the engine process does to the two parts. -/
theorem engine_step {act : LocalEngine.Action} (hstep : step cd cfg s (.engine act) = some s') :
    (∀ job, act ≠ .sendToEngine job) ∧ LocalEngine.step cd cfg.engine s.engine act = some s'.engine ∧
      s'.frontend = (s'.engine.sent.drop s.engine.sent.length).foldl deliver s.frontend ∧
      s'.consumers = s.consumers := by
  cases act with
  | sendToEngine job => cases hstep
  | _ =>
    obtain ⟨engine, hengine, rfl⟩ := Option.map_eq_some_iff.1 hstep
    exact ⟨by simp, hengine, rfl, rfl⟩

theorem afterReply_engine {consumer : Consumer} {r : Frontend × Frontend.Sent} :
    (s.afterReply consumer r).engine = s.engine := by
  unfold State.afterReply
  split <;> rfl

/-- The engine of a local server with clients is one. -/
theorem step_engine_cases {act : Action} (hstep : step cd cfg s act = some s') :
    s'.engine = s.engine ∨ ∃ act', LocalEngine.step cd cfg.engine s.engine act' = some s'.engine := by
  cases act with
  | connect a =>
    obtain ⟨-, hs⟩ := Option.ite_none_left_eq_some.1 hstep
    cases hs
    exact Or.inl rfl
  | disconnect consumer =>
    obtain ⟨-, hs⟩ := Option.ite_none_right_eq_some.1 hstep
    cases hs
    exact Or.inl rfl
  | message consumer msg =>
    obtain ⟨-, hs⟩ := Option.ite_none_right_eq_some.1 hstep
    cases hs
    unfold handle
    split
    · exact Or.inl afterReply_engine
    · exact Or.inl afterReply_engine
    · rename_i info _
      refine Or.inr ⟨.sendToEngine ⟨msg, consumer.address, info⟩, ?_⟩
      simp only [LocalEngine.step]
      split <;> rename_i heq <;> rw [heq]
      rw [afterReply_engine]
  | engine act => exact Or.inr ⟨act, (engine_step hstep).2.1⟩

theorem run_inLockstep {as : List Action} {G : State β → Action → Prop} (h : (machine cd cfg).RunWhere G as s) :
    InLockstep cd cfg.engine s.engine := by
  obtain ⟨bs, hrun⟩ := h.refines (N := LocalEngine.machine cd cfg.engine) (H := fun _ _ => True) State.engine rfl
    fun s a s' _ hstep => (step_engine_cases hstep).imp id fun hact => hact.imp fun act hact => ⟨trivial, hact⟩
  exact LocalEngine.run_inLockstep hrun

theorem clients_deliver (f : Frontend) (calls : List LocalEngine.SendResult) :
    (calls.foldl deliver f).clients = f.clients := by
  induction calls generalizing f with
  | nil => rfl
  | cons call calls ih => exact (ih _).trans (Frontend.sendResult_cases rfl).clients

/-- The consumers are those of the entries. -/
structure Attended (s : State β) : Prop where
  nodup : s.consumers.Nodup
  entry : ∀ consumer ∈ s.consumers, s.frontend.clients.get? consumer.address = some consumer.client

theorem Attended.of_eq (h : Attended s) (hclients : s'.frontend.clients = s.frontend.clients)
    (hconsumers : s'.consumers = s.consumers) : Attended s' :=
  ⟨hconsumers ▸ h.nodup, fun consumer hmem => hclients ▸ h.entry consumer (hconsumers ▸ hmem)⟩

theorem attended_step {act : Action} (h : Attended s) (hG : act.settled s) (hstep : step cd cfg s act = some s') :
    Attended s' := by
  cases act with
  | connect a =>
    obtain ⟨-, hs⟩ := Option.ite_none_left_eq_some.1 hstep
    cases hs
    have hne : ∀ consumer ∈ s.consumers, consumer.address ≠ a := by
      rintro consumer hmem rfl
      exact Option.some_ne_none _ ((h.entry consumer hmem).symm.trans hG.1)
    constructor
    · refine List.nodup_cons.2 ⟨fun hmem => hne _ hmem rfl, h.nodup⟩
    · intro consumer hmem
      rcases List.mem_cons.1 hmem with rfl | hmem
      · simp [Frontend.addClient]
      · simp [Frontend.addClient, Dict.get?_set, hne consumer hmem, h.entry consumer hmem]
  | disconnect consumer =>
    obtain ⟨hmem, hs⟩ := Option.ite_none_right_eq_some.1 hstep
    cases hs
    have hentry := h.entry consumer hmem
    refine ⟨h.nodup.erase _, fun other hother => ?_⟩
    obtain ⟨hne, hother⟩ := h.nodup.mem_erase_iff.1 hother
    -- another consumer of the same address would have the same client
    have haddress : other.address ≠ consumer.address := by
      intro he
      have hclient := (h.entry other hother).symm.trans (he ▸ hentry)
      cases other
      cases consumer
      simp_all
    simp [State.endConsumer, Frontend.removeClient, hentry, Dict.get?_erase, haddress, h.entry other hother]
  | message consumer msg =>
    obtain ⟨hmem, hs⟩ := Option.ite_none_right_eq_some.1 hstep
    cases hs
    obtain ⟨hclients, hconsumers⟩ := handle_entry msg (h.entry consumer hmem)
    exact h.of_eq hclients hconsumers
  | engine act =>
    obtain ⟨-, -, hfrontend, hconsumers⟩ := engine_step hstep
    exact h.of_eq (hfrontend ▸ clients_deliver _ _) hconsumers

theorem run_attended {as : List Action} (h : (machine cd cfg).RunWhere (fun s a => a.settled s) as s) : Attended s :=
  h.invariant ⟨.nil, fun _ hmem => by cases hmem⟩ fun _ _ _ ha hG hstep => attended_step ha hG hstep

theorem balanced_step {act : Action} (h : Balanced cfg s) (hlock : InLockstep cd cfg.engine s.engine)
    (hatt : Attended s) (hG : act.settled s) (hstep : step cd cfg s act = some s') : Balanced cfg s' := by
  cases act with
  | connect a =>
    obtain ⟨-, hs⟩ := Option.ite_none_left_eq_some.1 hstep
    cases hs
    have hfree : ∀ p, s.outstanding a p = 0 := by
      intro p
      rw [State.outstanding, List.countP_eq_zero]
      intro job hjob
      simp [fromProducer, hG.2 job hjob]
    exact (h.addClient hfree).of_eq rfl rfl
  | disconnect consumer =>
    obtain ⟨-, hs⟩ := Option.ite_none_right_eq_some.1 hstep
    cases hs
    have hquiet := Frontend.quiet_removeClient (f := s.frontend) (a := consumer.address)
    exact (h.setFrontend hquiet.clients hquiet.nextClient hquiet.credit fun _ _ => hquiet.hasCounter ▸ id).of_eq rfl rfl
  | message consumer msg =>
    obtain ⟨hmem, hs⟩ := Option.ite_none_right_eq_some.1 hstep
    cases hs
    exact h.handle hlock (hatt.entry consumer hmem)
  | engine act =>
    obtain ⟨hact, hengine, hfrontend, -⟩ := engine_step hstep
    obtain ⟨f, cs, engine⟩ := s'
    simp only at hengine hfrontend
    rcases LocalEngine.unanswered_step hlock hengine hact with ⟨hsent, hun⟩ | ⟨job, r, hun, hsent⟩
    · rw [hsent, List.drop_length] at hfrontend
      subst hfrontend
      exact ⟨h.known, h.distinct, by simpa [State.outstanding, hun] using h.balance, h.nonneg,
        by simpa [State.outstanding, hun] using h.counter⟩
    · rw [hsent, List.drop_left] at hfrontend
      subst hfrontend
      exact (h.deliver hun).of_eq rfl rfl

theorem run_balanced {as : List Action} (h : (machine cd cfg).RunWhere (fun s a => a.settled s) as s) :
    Balanced cfg s :=
  h.invariant_of (J := fun s => InLockstep cd cfg.engine s.engine ∧ Attended s)
    (fun h => ⟨run_inLockstep h, run_attended h⟩) .init
    fun _ _ _ hJ hb hG hstep => balanced_step hb hJ.1 hJ.2 hG hstep

/-- The local server keeps account of the tokens.  For a connected client and each of its producers, the inputs that it
may still send and those that are unanswered add up to the number of tokens; so no producer has more unanswered inputs
than that, and the counters never become negative. -/
theorem local_flow_control {as : List Action} (h : (machine cd cfg).RunWhere (fun s a => a.settled s) as s)
    (hc : s.frontend.clients.get? a = some ref) (p : String) :
    s.frontend.credit cfg.server ref p + s.outstanding a p = cfg.numTokens ∧
      0 ≤ s.frontend.credit cfg.server ref p ∧ s.outstanding a p ≤ cfg.numTokens := by
  have hb := run_balanced h
  have hbalance := hb.balance a ref p hc
  have hnonneg := hb.nonneg a ref p hc
  exact ⟨hbalance, hnonneg, by omega⟩

/-- One input in work, one in the queue and one dropped. -/
theorem local_flow_control_of_full_queue :
    ∃ (s : State LocalEngine.Plain) (ref : ClientRef), s.frontend.clients.get? "a" = some ref ∧
      s.outstanding "a" "P" = 2 ∧ s.frontend.credit (Config.server ⟨false, 3, ⟨"E", 1⟩⟩) ref "P" + 2 = 3 := by
  obtain ⟨s, hrun, hc, hout⟩ := Machine.exists_runWhere
    (M := machine LocalEngine.Plain.codec { useZeromq := false, numTokens := 3, engine := ⟨"E", 1⟩ })
    (G := fun s a => a.settled s) (g := fun s a => decide (a.settled s)) (fun _ _ h => of_decide_eq_true h)
    (fun s => s.frontend.clients.get? "a" = some 0 ∧ s.outstanding "a" "P" = 2)
    [.engine (.start true), .connect "a", .message ⟨"a", 0⟩ (.registration {}),
      .message ⟨"a", 0⟩ (.input { producerId := "P" }), .engine .get,
      .message ⟨"a", 0⟩ (.input { producerId := "P" }), .message ⟨"a", 0⟩ (.input { producerId := "P" })] (by decide)
  have hflow := (local_flow_control hrun hc "P").1
  rw [hout] at hflow
  exact ⟨s, 0, hc, hout, hflow⟩

/-- No token of the local server is lost.  As long as the engine process lives and the loop of `_engine_comm` goes on, the
two processes can answer all inputs, whatever `handle` returns, and then every client has all its tokens. -/
theorem local_tokens_return {as : List Action} (h : (machine cd cfg).RunWhere (fun s a => a.settled s) as s)
    (hlive : s.engine.Live) (value : LocalEngine.Handled) :
    (machine cd cfg).Leads (fun act => ∃ act', act = .engine act' ∧ act'.works value)
      (fun t => t.engine.unanswered = [] ∧ t.frontend.clients = s.frontend.clients ∧
        ∀ a ref p, t.frontend.clients.get? a = some ref → t.frontend.credit cfg.server ref p = cfg.numTokens) s := by
  have hdone : ∀ t : State β, Balanced cfg t → t.engine.unanswered = [] → ∀ a ref p,
      t.frontend.clients.get? a = some ref → t.frontend.credit cfg.server ref p = cfg.numTokens := by
    intro t hb hun a ref p hc
    have hbalance := hb.balance a ref p hc
    simpa [State.outstanding, hun] using hbalance
  by_cases hun : s.engine.unanswered = []
  · exact ⟨[], s, by simp, rfl, hun, rfl, hdone s (run_balanced h) hun⟩
  · refine Machine.exists_exec
      (I := fun t => Balanced cfg t ∧ Attended t ∧ InLockstep cd cfg.engine t.engine ∧ t.engine.Live ∧
        t.engine.unanswered ≠ [] ∧ t.frontend.clients = s.frontend.clients) (fun t => t.engine.rank) ?_
      ⟨run_balanced h, run_attended h, run_inLockstep h, hlive, hun, rfl⟩
    rintro t ⟨hb, hatt, hlock, hlive, hun, hclients⟩
    obtain ⟨act, engine, hworks, hengine, hlive', hrank⟩ := LocalEngine.exists_works hlock hlive hun value
    let t' : State β :=
      { t with frontend := (engine.sent.drop t.engine.sent.length).foldl deliver t.frontend, engine := engine }
    have hstep : step cd cfg t (.engine act) = some t' := by
      cases act with
      | sendToEngine job => exact hworks.elim
      | _ => exact Option.map_eq_some_iff.2 ⟨engine, hengine, rfl⟩
    have hG : (Action.engine act).settled t := trivial
    have hb' : Balanced cfg t' := balanced_step hb hlock hatt hG hstep
    have hclients' : t'.frontend.clients = s.frontend.clients := (clients_deliver _ _).trans hclients
    refine ⟨.engine act, t', ⟨act, rfl, hworks⟩, hstep, ?_⟩
    by_cases hend : engine.unanswered = []
    · exact Or.inl ⟨hend, hclients', hdone t' hb' hend⟩
    · exact Or.inr ⟨⟨hb', attended_step hatt hG hstep, LocalEngine.step_inLockstep hlock hengine, hlive', hend,
        hclients'⟩, hrank⟩

/-- The input of a client is on its way to the engine. -/
theorem local_tokens_return_of_one_input :
    ∃ s : State LocalEngine.Plain, s.frontend.tokens 0 "P" = 0 ∧
      (machine LocalEngine.Plain.codec { useZeromq := true, numTokens := 1, engine := ⟨"E", 2⟩ }).Leads
        (fun act => ∃ act', act = .engine act' ∧ act'.works (.other "<class 'int'>"))
        (fun t => t.engine.unanswered = [] ∧ t.frontend.clients = s.frontend.clients ∧
          ∀ a ref p, t.frontend.clients.get? a = some ref →
            t.frontend.credit (Config.server ⟨true, 1, ⟨"E", 2⟩⟩) ref p = 1) s := by
  obtain ⟨s, hrun, hengine, hcomm, htokens⟩ := Machine.exists_runWhere
    (M := machine LocalEngine.Plain.codec { useZeromq := true, numTokens := 1, engine := ⟨"E", 2⟩ })
    (G := fun s a => a.settled s) (g := fun s a => decide (a.settled s)) (fun _ _ h => of_decide_eq_true h)
    (fun s => s.engine.engine ≠ .dead ∧ s.engine.comm ≠ .stopped ∧ s.frontend.tokens 0 "P" = 0)
    [.engine (.start true), .connect "a", .message ⟨"a", 0⟩ (.registration {}),
      .message ⟨"a", 0⟩ (.input { producerId := "P" }), .engine .get, .engine .inputSent] (by decide)
  exact ⟨s, htokens, local_tokens_return hrun ⟨hengine, hcomm⟩ _⟩

end LocalServer

end Gabriel
