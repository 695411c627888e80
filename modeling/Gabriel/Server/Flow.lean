import Gabriel.Server.Credit

/-!
# The flow of tokens

How the tokens of one client entry move in a step of the system.  The consumers of its streams take a token for each
input that is accepted, an input that is being dispatched has passed the test of the counter but has not been
deducted yet, and tokens go back with results and with error replies.  `flow_step` has the balance for an address
that only one entry uses.
-/

namespace Gabriel

open Frontend

namespace Server

variable {cfg : Config} {s s' : Server} {a b : Address} {e ref : ClientRef} {msg : FromClient} {mp : MetadataPayload}

/-- Operations on the frontend that neither take nor send tokens. -/
theorem InBalance.neutral (h : s.InBalance cfg a e) {f : Frontend} (hnext : f.nextClient = s.frontend.nextClient)
    (hclients : f.clients = s.frontend.clients) (hcredit : f.credit cfg = s.frontend.credit cfg)
    (hsent : ∀ p, f.tokensSent a p = s.frontend.tokensSent a p)
    (htaken : ∀ p, f.tokensTaken e p = s.frontend.tokensTaken e p)
    (hreturned : ∀ p, f.tokensReturned e p = s.frontend.tokensReturned e p) :
    Returns cfg a e s { s with frontend := f } := by
  refine ⟨⟨hnext ▸ h.known, ?_, ?_, ?_⟩, fun p => ⟨0, by simp [hcredit], by simp [hsent]⟩⟩
  · exact fun hr => h.table (hclients ▸ hr)
  · simpa only [hcredit] using h.bound
  · simpa only [hcredit, htaken, hreturned] using h.account

/-- An event that is no token. -/
theorem InBalance.emit (h : s.InBalance cfg a e) {ev : ClientEvent} (hsent : ∀ p, ev.sendsToken a p = false)
    (htaken : ∀ p, ev.takesToken e p = false) (hreturned : ∀ p, ev.returnsToken e p = false) :
    Returns cfg a e s { s with frontend := s.frontend.emit ev } := by
  refine h.neutral rfl rfl rfl ?_ ?_ ?_ <;> intro p <;>
    simp only [tokensSent, tokensTaken, tokensReturned, emit_log, List.countP_append, List.countP_singleton, hsent,
      htaken, hreturned, Bool.false_eq_true, ↓reduceIte, Nat.add_zero]

theorem InBalance.initTokens (h : s.InBalance cfg a e) (ref : ClientRef) (p : String) :
    Returns cfg a e s { s with frontend := s.frontend.initTokens cfg ref p } := by
  refine h.neutral (by simp) (by simp) (by simp) ?_ ?_ ?_ <;> intro q <;>
    simp only [tokensSent, tokensTaken, tokensReturned, initTokens_log]

/-- The consumer takes up a message. -/
theorem InBalance.received (h : s.InBalance cfg a e) (ref : ClientRef) (b : Address) (msg : FromClient) :
    Returns cfg a e s { s with frontend := s.frontend.emit (.received ref b msg) } :=
  h.emit (fun _ => rfl) (fun _ => rfl) (fun _ => rfl)

theorem InBalance.tested (h : s.InBalance cfg a e) (ref : ClientRef) (b : Address) (msg : FromClient) (p : String) :
    Returns cfg a e s { s with frontend := (s.frontend.emit (.received ref b msg)).initTokens cfg ref p } :=
  have hr := h.received ref b msg
  hr.trans (hr.balance.initTokens ref p)

theorem InBalance.submitted (h : s.InBalance cfg a e) (ref : ClientRef) (b : Address) (msg : FromClient) (p : String)
    (mp : MetadataPayload) : Returns cfg a e s { s with
      frontend := ((s.frontend.emit (.received ref b msg)).initTokens cfg ref p).emit (.submitted ref mp) } :=
  have ht := h.tested ref b msg p
  ht.trans (ht.balance.emit (fun _ => rfl) (fun _ => rfl) (fun _ => rfl))

/-- The reply of a consumer goes out, or not. -/
theorem InBalance.replied (h : s.InBalance cfg a e) {f : Frontend} {reply : ToClient}
    (hf : Replied ref b reply s.frontend f) :
    ∃ replied : String → Nat, (∀ p, replied p ≤ if b = a ∧ reply.carriesToken p then 1 else 0) ∧
      Moves cfg a e (fun _ => 0) replied s { s with frontend := f } := by
  obtain ⟨f₁, rfl | rfl, hq⟩ := hf
  · exact ⟨fun _ => 0, fun p => Nat.zero_le _, h.quiet hq⟩
  · have hsend : Moves cfg a e (fun _ => 0) (fun p => if b = a ∧ reply.carriesToken p then 1 else 0) s
        { s with frontend := s.frontend.emit (.toClient ref b reply) } := by
      refine ⟨⟨h.known, h.table, h.bound, fun p => ?_⟩, fun p => ⟨0, by simp, ?_⟩⟩
      · simpa [tokensTaken, tokensReturned] using h.account p
      · simp only [tokensSent, emit_log, List.countP_append, List.countP_singleton, ClientEvent.sendsToken,
          decide_eq_true_eq, Nat.add_zero]
    exact ⟨_, fun p => Nat.le_refl _, hsend.trans_returns (hsend.balance.quiet hq)⟩

/-- An input is accepted and its token deducted. -/
theorem InBalance.deduct (h : s.InBalance cfg a e) {d : Dispatcher}
    (howed : ∀ p, d.owed a p ≤ s.dispatcher.owed a p + if mp.isFrom a p then 1 else 0)
    (hcounter : s.frontend.HasCounter ref mp.producerId) (hentry : mp.metadata.clientAddress = a ↔ ref = e) :
    Moves cfg a e (fun p => if ref = e ∧ mp.producerId = p then 1 else 0) (fun _ => 0) s
      { dispatcher := d, frontend := s.frontend.deductToken ref mp } := by
  have hcredit : ∀ p, (s.frontend.deductToken ref mp).credit cfg e p =
      s.frontend.credit cfg e p - if ref = e ∧ mp.producerId = p then 1 else 0 := fun p => credit_deductToken hcounter
  refine ⟨⟨h.known, h.table, fun p => ?_, fun p => ?_⟩, fun p => ⟨0, ?_, ?_⟩⟩
  · have hbound := h.bound p
    have hle := howed p
    simp only [MetadataPayload.isFrom, hentry] at hle
    simp only [hcredit]
    split at hle <;> simp_all <;> omega
  · have haccount := h.account p
    rw [hcredit]
    by_cases hp : ref = e ∧ mp.producerId = p
    · simp [tokensTaken, tokensReturned, hp.1, hp.2] at haccount ⊢
      omega
    · simpa [tokensTaken, tokensReturned, hp] using haccount
  · simp only [hcredit]
    split <;> simp
  · simp [tokensSent]

end Server

namespace Interleaved

open Server

variable {cfg : Config} {s s' : Server} {sys sys' : Sys} {act : Action} {a b : Address} {e ref : ClientRef}
  {msg : FromClient} {stream : Stream} {pc : StreamPc} {p : String}

/-- The stream is in the dispatch loop of an input of the entry `e` for `p`. -/
def StreamPc.dispatchesFor (e : ClientRef) (p : String) : StreamPc → Bool
  | .dispatching ref mp _ => ref = e ∧ mp.producerId = p
  | _ => false

@[simp] theorem StreamPc.dispatchesFor_dispatching {mp : MetadataPayload} {rest : List Context} :
    (StreamPc.dispatching ref mp rest).dispatchesFor e p = true ↔ ref = e ∧ mp.producerId = p := by
  simp [dispatchesFor]

@[simp] theorem StreamPc.dispatchesFor_idle : StreamPc.idle.dispatchesFor e p = false := rfl

theorem StreamPc.dispatchesFor_of_settled (h : pc.settled) : pc.dispatchesFor e p = false := by
  cases pc with
  | dispatching => exact h.elim
  | _ => rfl

/-- The number of inputs of the entry `e` for `p` that are being dispatched. -/
def Sys.dispatchingFor (sys : Sys) (e : ClientRef) (p : String) : Nat :=
  sys.streams.countP fun stream => stream.pc.dispatchesFor e p

theorem Sys.dispatchingFor_setStream {i : Nat} (hi : sys.streams[i]? = some stream) (s : Server) (pc : StreamPc) :
    (sys.setStream i stream (s, pc)).dispatchingFor e p + (if stream.pc.dispatchesFor e p then 1 else 0) =
      sys.dispatchingFor e p + if pc.dispatchesFor e p then 1 else 0 :=
  Sys.countP_setStream hi _ (s, pc)

private theorem of_pos {P : Prop} [Decidable P] (h : 0 < if P then 1 else 0) : P := by
  split at h
  · assumption
  · cases h

/-- A message of the address `a`: it is an input for `p` that is dispatched or accepted, or answered with an error. -/
theorem MessageStep.moves (h : MessageStep cfg s b ref msg s' pc) (hb : s.InBalance cfg a e)
    (hentry : b = a ↔ ref = e) :
    ∃ taken replied, Moves cfg a e taken replied s s' ∧ ∀ p,
      (if pc.dispatchesFor e p then 1 else 0) + taken p + replied p ≤
        (if b = a ∧ msg.isRegistration = false ∧ msg.asInput.producerId = p then 1 else 0) ∧
      (0 < (if pc.dispatchesFor e p then 1 else 0) + taken p → 1 ≤ s.frontend.credit cfg e p) := by
  -- a message that is refused after the operations up to `s₁`
  have hrefused : ∀ (s₁ : Server) {f : Frontend} {code text}, Returns cfg a e s s₁ → msg.isRegistration = false →
      pc.settled → ErrorReplied ref b (makeErrorResponse msg code text) s₁.frontend f →
      ∃ taken replied, Moves cfg a e taken replied s { s₁ with frontend := f } ∧ ∀ p,
        (if pc.dispatchesFor e p then 1 else 0) + taken p + replied p ≤
          (if b = a ∧ msg.isRegistration = false ∧ msg.asInput.producerId = p then 1 else 0) ∧
        (0 < (if pc.dispatchesFor e p then 1 else 0) + taken p → 1 ≤ s.frontend.credit cfg e p) := by
    intro s₁ f code text h₁ hmsg hpc hf
    have herr : Returns cfg a e s₁ { s₁ with
        frontend := s₁.frontend.emit (.errorReply ref b (makeErrorResponse msg code text)) } :=
      h₁.balance.emit (fun _ => rfl) (fun _ => rfl) (fun _ => rfl)
    obtain ⟨replied, hle, hmoves⟩ := herr.balance.replied hf
    refine ⟨_, replied, h₁.trans (herr.trans hmoves), fun p => ?_⟩
    simp only [StreamPc.dispatchesFor_of_settled hpc, Bool.false_eq_true, ↓reduceIte, Nat.zero_add, Nat.lt_irrefl,
      false_implies, and_true]
    refine Nat.le_trans (hle p) ?_
    split
    · rename_i hp
      obtain ⟨w, hw, hproducer, -⟩ := ToClient.carriesToken_iff.1 hp.2
      cases hw
      rw [if_pos ⟨hp.1, hmsg, hproducer⟩]
    · exact Nat.zero_le _
  -- the input is dispatched or accepted: its producer has credit
  have hown : ∀ p, msg.isRegistration = false →
      (if b = a ∧ msg.isRegistration = false ∧ msg.asInput.producerId = p then 1 else 0) =
        if ref = e ∧ msg.asInput.producerId = p then 1 else 0 := fun p hmsg => if_congr (by simp [hentry, hmsg]) rfl rfl
  have htest : ∀ {q}, 1 ≤ ((s.frontend.emit (.received ref b msg)).initTokens cfg ref q).tokens ref q → ref = e →
      1 ≤ s.frontend.credit cfg e q := by
    rintro q hq rfl
    rwa [tokens_initTokens] at hq
  cases h with
  | @registered info _ _ hmsg hf hpc =>
    have hr := hb.received ref b msg
    have hinfo := hr.balance.neutral (f := (s.frontend.emit (.received ref b msg)).modifyClient ref
      fun client => { client with clientInfo := some info }) rfl rfl (by simp) (fun _ => rfl) (fun _ => rfl)
      (fun _ => rfl)
    obtain ⟨replied, hle, hmoves⟩ := hinfo.balance.replied hf
    refine ⟨_, replied, hr.trans (hinfo.trans hmoves), fun p => ?_⟩
    have hnone := hle p
    simp only [Server.makeRegistered, ToClient.carriesToken, Bool.false_eq_true, and_false, ↓reduceIte] at hnone
    simp [StreamPc.dispatchesFor_of_settled hpc, Nat.le_zero.1 hnone]
  | unregistered hmsg _ hf hpc =>
    have hr := hrefused _ (hb.received ref b msg) hmsg hpc hf
    exact hr
  | noTokens hmsg _ hf hpc =>
    have hr := hrefused _ (hb.tested ref b msg _) hmsg hpc hf
    exact hr
  | @noEngine info _ _ hmsg hf hpc =>
    have hsub := hb.submitted ref b msg msg.asInput.producerId (s.dispatcher.metadataPayload msg.asInput b info)
    have hbegin := hsub.balance.dispatcher (d := s.dispatcher.beginInput msg.asInput.producerId []) fun p => by simp
    exact hrefused _ (hsub.trans hbegin) hmsg hpc hf
  | @suspended info order rest _ d hmsg _ htokens _ hloop =>
    have hsub := hb.submitted ref b msg msg.asInput.producerId (s.dispatcher.metadataPayload msg.asInput b info)
    have hdispatch := hsub.balance.dispatcher (d := d) fun p => by simp [Dispatcher.owed_dispatchLoop hloop]
    refine ⟨_, _, hsub.trans hdispatch, fun p => ?_⟩
    rw [hown p hmsg, if_congr StreamPc.dispatchesFor_dispatching rfl rfl]
    refine ⟨Nat.le_refl _, fun h => ?_⟩
    obtain ⟨hr, rfl⟩ := of_pos h
    exact htest htokens hr
  | @enqueued info order _ d hmsg _ htokens _ hloop =>
    have hsub := hb.submitted ref b msg msg.asInput.producerId (s.dispatcher.metadataPayload msg.asInput b info)
    have howed : ∀ p, ((d.enqueue (s.dispatcher.metadataPayload msg.asInput b info)).emit
        (.accepted (s.dispatcher.metadataPayload msg.asInput b info))).owed a p ≤ s.dispatcher.owed a p +
          if (s.dispatcher.metadataPayload msg.asInput b info).isFrom a p then 1 else 0 := fun p => by
      rw [Dispatcher.owed_emit, Dispatcher.owed_enqueue, Dispatcher.owed_dispatchLoop hloop]
      simp
    have hcounter : (((s.frontend.emit (.received ref b msg)).initTokens cfg ref msg.asInput.producerId).emit
        (.submitted ref (s.dispatcher.metadataPayload msg.asInput b info))).HasCounter ref msg.asInput.producerId :=
      hasCounter_initTokens
    have haccept := hsub.balance.deduct howed hcounter hentry
    refine ⟨_, _, hsub.trans haccept, fun p => ?_⟩
    simp only [hown p hmsg, StreamPc.dispatchesFor, Bool.false_eq_true, ↓reduceIte, Nat.zero_add, Nat.add_zero]
    refine ⟨Nat.le_refl _, fun h => ?_⟩
    obtain ⟨hr, rfl⟩ := of_pos h
    exact htest htokens hr
  | @dropped info order _ d _ _ _ hmsg _ _ hloop hf hpc =>
    have hsub := hb.submitted ref b msg msg.asInput.producerId (s.dispatcher.metadataPayload msg.asInput b info)
    have hdispatch := hsub.balance.dispatcher (d := d) fun p => by simp [Dispatcher.owed_dispatchLoop hloop]
    exact hrefused _ (hsub.trans hdispatch) hmsg hpc hf

/-- The end of a dispatch loop: the input is accepted, or its handler fails. -/
theorem ResumeStep.moves (h : ResumeStep cfg s stream s' pc) (hb : s.InBalance cfg a e)
    (hinput : ∀ ref mp, stream.pc.input = some (ref, mp) →
      (mp.metadata.clientAddress = a ↔ ref = e) ∧ s.frontend.HasCounter ref mp.producerId) :
    ∃ taken, Moves cfg a e taken (fun _ => 0) s s' ∧
      ∀ p, (if pc.dispatchesFor e p then 1 else 0) + taken p ≤ if stream.pc.dispatchesFor e p then 1 else 0 := by
  cases h with
  | settled hf hpc =>
    refine ⟨_, hb.quiet hf, fun p => ?_⟩
    simp [StreamPc.dispatchesFor_of_settled hpc]
  | suspended hpc hloop =>
    refine ⟨_, hb.dispatcher fun p => ?_, fun p => ?_⟩
    · rw [Dispatcher.owed_dispatchLoop hloop]
    · rw [hpc]
      exact Nat.le_refl _
  | concluded hpc hloop =>
    obtain ⟨hentry, hcounter⟩ := hinput _ _ (by rw [hpc]; rfl)
    refine ⟨_, hb.deduct (fun p => ?_) hcounter hentry, fun p => ?_⟩
    · rw [Dispatcher.owed_emit, ← Dispatcher.owed_dispatchLoop hloop]
      exact Dispatcher.owed_setInFlight_le
    · rw [hpc]
      simp [StreamPc.dispatchesFor]

/-- The input that is being dispatched has a counter. -/
def Sys.Counted (sys : Sys) : Prop :=
  ∀ stream ∈ sys.streams, ∀ ref mp, stream.pc.input = some (ref, mp) →
    sys.server.frontend.HasCounter ref mp.producerId

theorem MessageStep.hasCounter (h : MessageStep cfg s b ref msg s' pc) :
    (∀ {ref' q}, s.frontend.HasCounter ref' q → s'.frontend.HasCounter ref' q) ∧
      ∀ {ref' mp}, pc.input = some (ref', mp) → s'.frontend.HasCounter ref' mp.producerId := by
  have hsettled : ∀ {pc : StreamPc} {f : Frontend}, pc.settled →
      ∀ {ref' mp}, pc.input = some (ref', mp) → f.HasCounter ref' mp.producerId := by
    intro pc f hpc ref' mp h
    rw [StreamPc.input_of_settled hpc] at h
    cases h
  have hreply : ∀ {w f₀ f}, ErrorReplied ref b w f₀ f → f.HasCounter = f₀.HasCounter := by
    intro w f₀ f h
    rw [Replied.hasCounter h, hasCounter_emit]
  have hinit : ∀ {ref' q}, s.frontend.HasCounter ref' q → ((s.frontend.emit (.received ref b msg)).initTokens cfg ref
      msg.asInput.producerId).HasCounter ref' q :=
    fun hc => HasCounter.initTokens (f := s.frontend.emit (.received ref b msg)) hc _ _
  cases h with
  | registered _ hf hpc =>
    refine ⟨fun hc => ?_, hsettled hpc⟩
    rw [Replied.hasCounter hf]
    simpa using hc
  | unregistered _ _ hf hpc => exact ⟨fun hc => hreply hf ▸ hc, hsettled hpc⟩
  | noTokens _ _ hf hpc => exact ⟨fun hc => hreply hf ▸ hinit hc, hsettled hpc⟩
  | noEngine _ hf hpc => exact ⟨fun hc => hreply hf ▸ hinit hc, hsettled hpc⟩
  | suspended =>
    refine ⟨hinit, fun hi => ?_⟩
    cases hi
    exact hasCounter_initTokens
  | enqueued => exact ⟨fun hc => HasCounter.deductToken (hinit hc) _ _, fun hi => (nomatch hi)⟩
  | dropped _ _ _ _ hf hpc => exact ⟨fun hc => hreply hf ▸ hinit hc, hsettled hpc⟩

theorem ResumeStep.hasCounter (h : ResumeStep cfg s stream s' pc) {ref : ClientRef} {p : String}
    (hc : s.frontend.HasCounter ref p) : s'.frontend.HasCounter ref p := by
  cases h with
  | settled hf => exact hf.hasCounter ▸ hc
  | suspended => exact hc
  | concluded => exact hc.deductToken _ _

private theorem Sys.Counted.setStream {i : Nat} {r : Server × StreamPc} (h : sys.Counted)
    (hkeep : ∀ {ref p}, sys.server.frontend.HasCounter ref p → r.1.frontend.HasCounter ref p)
    (hinput : ∀ {ref mp}, r.2.input = some (ref, mp) → r.1.frontend.HasCounter ref mp.producerId) :
    (sys.setStream i stream r).Counted := by
  intro st hst ref mp hi
  rcases List.mem_or_eq_of_mem_set hst with hst | rfl
  · exact hkeep (h st hst ref mp hi)
  · exact hinput hi

private theorem Sys.Counted.concat {new : Stream} (hpc : new.pc = .idle)
    (h : ∀ stream ∈ sys.streams, ∀ ref mp, stream.pc.input = some (ref, mp) →
      s.frontend.HasCounter ref mp.producerId) :
    Sys.Counted { sys with server := s, streams := sys.streams ++ [new] } := by
  intro st hst ref mp hi
  rcases List.mem_append.1 hst with hst | hst
  · exact h st hst ref mp hi
  · obtain rfl := List.mem_singleton.1 hst
    rw [hpc] at hi
    cases hi

theorem counted_step (hstep : step cfg sys act = some sys') (htracked : sys.ClientsTracked) (h : sys.Counted) :
    sys'.Counted := by
  cases step_cases hstep with
  | openClient =>
    refine Sys.Counted.concat rfl fun stream hst ref mp hi => ?_
    have hne : ref ≠ sys.server.frontend.nextClient := Nat.ne_of_lt (htracked.input stream hst ref mp hi)
    simpa [HasCounter, addClient, hne] using h stream hst ref mp hi
  | openProducer => exact Sys.Counted.concat rfl h
  | unknownClient => exact h.setStream id (by simp [StreamPc.input])
  | message _ _ _ hm => exact h.setStream hm.hasCounter.1 hm.hasCounter.2
  | resumed hi hr =>
    exact h.setStream hr.hasCounter fun hp => hr.hasCounter (h _ (List.mem_of_getElem? hi) _ _ (hr.input hp))
  | closed hi _ hr =>
    exact h.setStream hr.hasCounter fun hp => hr.hasCounter (h _ (List.mem_of_getElem? hi) _ _ (hr.input hp))
  | openSession => exact h
  | session _ _ hs => exact fun stream hst ref mp hi => hs.effects.hasCounter (h stream hst ref mp hi)

theorem run_counted {as : List Action} (h : (machine cfg).Run as sys) : sys.Counted := by
  have hinit : Sys.Counted {} := fun _ hst => (nomatch hst)
  exact h.invariant_of (I := Sys.Counted) (J := Sys.ClientsTracked) (fun h => run_clientsTracked h.run) hinit
    (fun _ _ _ htracked h _ hstep => counted_step hstep htracked h)

/-! ### The system -/

/-- The entry `e` and the address `a` belong together: all that is done for one is done for the other. -/
structure Sys.Flow (cfg : Config) (sys : Sys) (a : Address) (e : ClientRef) : Prop where
  balance : sys.server.InBalance cfg a e
  owners : ∀ {stream : Stream} {ref : ClientRef}, stream ∈ sys.streams → stream.pc.running →
    stream.owner = some ref → (stream.address = a ↔ ref = e)
  inputs : ∀ {stream : Stream} {ref : ClientRef} {mp : MetadataPayload}, stream ∈ sys.streams →
    stream.pc.input = some (ref, mp) → (mp.metadata.clientAddress = a ↔ ref = e)

/-- A stream of the address `a` is given an input of the entry `e` for `p`. -/
def Action.sendsInput (sys : Sys) (a : Address) (e : ClientRef) (p : String) : Action → Prop
  | .message i msg _ _ => (∃ stream : Stream, sys.streams[i]? = some stream ∧ stream.pc = .idle ∧ stream.address = a ∧
      stream.client sys.server = some e) ∧ msg.isRegistration = false ∧ msg.asInput.producerId = p
  | _ => False

/-- What a step does to the tokens of the entry `e` at the address `a` for the producer `p`: `k` go back with
results, `t` are taken from the credit for the input that the step takes up, `r` go back with an error reply to it. -/
def Sys.Transfers (cfg : Config) (a : Address) (e : ClientRef) (p : String) (sys : Sys) (act : Action) (sys' : Sys) :
    Prop :=
  ∃ k t r : Nat,
    sys.server.frontend.credit cfg e p + k + sys'.dispatchingFor e p ≤
      sys'.server.frontend.credit cfg e p + sys.dispatchingFor e p + t ∧
    sys'.server.frontend.tokensSent a p = sys.server.frontend.tokensSent a p + k + r ∧
    t + r ≤ 1 ∧ (0 < t + r → act.sendsInput sys a e p) ∧ (0 < t → 1 ≤ sys.server.frontend.credit cfg e p)

/-- The next message of a stream at the address `a` is for the entry `e`, and that of another stream for another. -/
theorem Sys.Flow.client (h : sys.Flow cfg a e) (hmem : stream ∈ sys.streams) (hrun : stream.pc.running)
    (hclient : stream.client sys.server = some ref) : stream.address = a ↔ ref = e := by
  unfold Stream.client at hclient
  split at hclient
  · rename_i ref' howner
    cases hclient
    exact h.owners hmem hrun howner
  · exact h.balance.table hclient

private theorem Sys.Flow.setStream {i : Nat} {r : Server × StreamPc} (h : sys.Flow cfg a e)
    (hmem : stream ∈ sys.streams) (hrun : stream.pc.running) (hb : r.1.InBalance cfg a e)
    (hinput : ∀ {ref mp}, r.2.input = some (ref, mp) → (mp.metadata.clientAddress = a ↔ ref = e)) :
    (sys.setStream i stream r).Flow cfg a e := by
  refine ⟨hb, fun hst hpc ho => ?_, fun hst hi => ?_⟩ <;> rcases List.mem_or_eq_of_mem_set hst with hst | rfl
  · exact h.owners hst hpc ho
  · exact @Sys.Flow.owners _ _ _ _ h stream _ hmem hrun ho
  · exact h.inputs hst hi
  · exact hinput hi

/-- Another client connects. -/
private theorem Sys.Flow.openClient (h : sys.Flow cfg a e) (hb : b ≠ a) :
    Sys.Flow cfg { sys with
      server := { sys.server with frontend := sys.server.frontend.addClient b }
      streams := sys.streams ++ 
        [{ address := b, owner := some sys.server.frontend.nextClient, pc := .idle }] } a e := by
  have hne : sys.server.frontend.nextClient ≠ e := Nat.ne_of_gt h.balance.known
  have hcredit : (sys.server.frontend.addClient b).credit cfg e = sys.server.frontend.credit cfg e := by
    funext p
    simp [credit, addClient, Ne.symm hne]
  refine ⟨⟨Nat.lt_succ_of_lt h.balance.known, ?_, ?_, ?_⟩, ?_, ?_⟩
  · intro b' ref hr
    simp only [addClient] at hr
    rw [Dict.get?_set] at hr
    split at hr
    · rename_i hb'
      cases hr
      exact iff_of_false (hb' ▸ hb) hne
    · exact h.balance.table hr
  · intro p
    rw [hcredit]
    exact h.balance.bound p
  · intro p
    rw [hcredit]
    exact h.balance.account p
  · intro stream ref hst hpc ho
    rcases List.mem_append.1 hst with hst | hst
    · exact h.owners hst hpc ho
    · obtain rfl := List.mem_singleton.1 hst
      cases ho
      exact iff_of_false hb hne
  · intro stream ref mp hst hi
    rcases List.mem_append.1 hst with hst | hst
    · exact h.inputs hst hi
    · obtain rfl := List.mem_singleton.1 hst
      cases hi

private theorem Sys.Flow.resume {i : Nat} (h : sys.Flow cfg a e) (hcounted : sys.Counted)
    (hi : sys.streams[i]? = some stream)
    (hrun : stream.pc.running) (hr : ResumeStep cfg sys.server stream s pc) (act : Action) :
    (sys.setStream i stream (s, pc)).Flow cfg a e ∧
      ∀ p, sys.Transfers cfg a e p act (sys.setStream i stream (s, pc)) := by
  have hmem := List.mem_of_getElem? hi
  obtain ⟨taken, hmoves, hle⟩ := hr.moves h.balance fun _ _ hi => ⟨h.inputs hmem hi, hcounted _ hmem _ _ hi⟩
  refine ⟨h.setStream hmem hrun hmoves.balance fun hi => h.inputs hmem (hr.input hi), fun p => ?_⟩
  · have hd := Sys.dispatchingFor_setStream (e := e) (p := p) hi s pc
    obtain ⟨k, hcredit, hsent⟩ := hmoves.moved p
    have hle := hle p
    refine ⟨k, 0, 0, ?_, hsent, by omega, by simp, by simp⟩
    simp only [Sys.setStream] at hd ⊢
    omega

theorem flow_step (hstep : step cfg sys act = some sys') (hcounted : sys.Counted) (h : sys.Flow cfg a e)
    (hopen : act ≠ .openClient a) : sys'.Flow cfg a e ∧ ∀ p, sys.Transfers cfg a e p act sys' := by
  cases step_cases hstep with
  | @openClient b =>
    have hb : b ≠ a := fun he => hopen (he ▸ rfl)
    refine ⟨h.openClient hb, fun p => ⟨0, 0, 0, ?_, rfl, by omega, by simp, by simp⟩⟩
    have hne : sys.server.frontend.nextClient ≠ e := Nat.ne_of_gt h.balance.known
    simp [Sys.dispatchingFor, StreamPc.dispatchesFor, credit, addClient, Ne.symm hne]
  | openProducer =>
    refine ⟨⟨h.balance, fun hst hpc ho => ?_, fun hst hi => ?_⟩,
      fun p => ⟨0, 0, 0, ?_, rfl, by omega, by simp, by simp⟩⟩
    · rcases List.mem_append.1 hst with hst | hst
      · exact h.owners hst hpc ho
      · obtain rfl := List.mem_singleton.1 hst
        cases ho
    · rcases List.mem_append.1 hst with hst | hst
      · exact h.inputs hst hi
      · obtain rfl := List.mem_singleton.1 hst
        cases hi
    · simp [Sys.dispatchingFor, StreamPc.dispatchesFor]
  | unknownClient hi hidle =>
    have hd := fun p => Sys.dispatchingFor_setStream (e := e) (p := p) hi sys.server (.finished none)
    refine ⟨h.setStream (List.mem_of_getElem? hi) (by rw [hidle]; trivial) h.balance (by simp [StreamPc.input]),
      fun p => ⟨0, 0, 0, ?_, rfl, by omega, by simp, by simp⟩⟩
    have hd := hd p
    simp only [hidle, StreamPc.dispatchesFor, Bool.false_eq_true, ↓reduceIte, Nat.add_zero] at hd
    rw [hd]
    simp [Sys.setStream]
  | @message i msg order b stream ref s pc hi hidle hclient hm =>
    have hmem := List.mem_of_getElem? hi
    have hrun : stream.pc.running := by rw [hidle]; trivial
    have hentry := h.client hmem hrun hclient
    obtain ⟨taken, replied, hmoves, hown⟩ := hm.moves h.balance hentry
    refine ⟨h.setStream hmem hrun hmoves.balance fun hi => ?_, fun p => ?_⟩
    · obtain ⟨rfl, ha⟩ := hm.input hi
      exact ha ▸ hentry
    · have hd := Sys.dispatchingFor_setStream (e := e) (p := p) hi s pc
      obtain ⟨k, hcredit, hsent⟩ := hmoves.moved p
      obtain ⟨hle, hpos⟩ := hown p
      simp only [hidle, StreamPc.dispatchesFor_idle, Bool.false_eq_true, ↓reduceIte, Nat.add_zero] at hd
      refine ⟨k, (if pc.dispatchesFor e p then 1 else 0) + taken p, replied p, ?_, hsent, ?_, fun h => ?_, hpos⟩
      · simp only [Sys.setStream] at hd ⊢
        omega
      · exact Nat.le_trans hle (by split <;> omega)
      · obtain ⟨ha, hmsg, hp⟩ := of_pos (Nat.lt_of_lt_of_le h hle)
        exact ⟨⟨stream, hi, hidle, ha, hentry.1 ha ▸ hclient⟩, hmsg, hp⟩
  | resumed hi hr hrun => exact h.resume hcounted hi hrun hr _
  | closed hi hidle hr => exact h.resume hcounted hi (by rw [hidle]; trivial) hr _
  | openSession => exact ⟨⟨⟨h.balance.known, h.balance.table, h.balance.bound, h.balance.account⟩, h.owners, h.inputs⟩,
      fun p => ⟨0, 0, 0, by simp [Sys.dispatchingFor], rfl, by omega, by simp, by simp⟩⟩
  | session _ _ hs =>
    have hr := hs.returns h.balance
    refine ⟨⟨hr.balance, h.owners, h.inputs⟩, fun p => ?_⟩
    obtain ⟨k, hcredit, hsent⟩ := hr.moved p
    refine ⟨k, 0, 0, ?_, hsent, by omega, by simp, by simp⟩
    simp only [Sys.dispatchingFor, Sys.setSession]
    omega

end Interleaved

end Gabriel
