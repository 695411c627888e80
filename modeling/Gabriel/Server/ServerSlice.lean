import Gabriel.Server.FrontendLemmas
import Gabriel.Server.Slice

/-!
# A producer and its engines as a slice of the server

`Frontend.Slice` relates two frontends with the same clients, in which `P` has the same tokens and has got the same
results; `Server.Slice` is this together with the slice of the dispatcher.  As in `Gabriel.Server.Slice`, what the
server does for `P` and its engines keeps the relation if both sides do it, and the rest keeps it if one side does.
-/

namespace Gabriel

/-- The message without the text of a `NO_ENGINE_FOR_INPUT` error, which lists the connected engines. -/
def ResultWrapper.withoutErrorText (w : ResultWrapper) : ResultWrapper :=
  if w.result.status.code = .noEngineForInput then
    { w with result := { w.result with status := { w.result.status with message := "" } } }
  else w

/-- The result for `P` that an event sends to a client. -/
def ClientEvent.issuedFor (P : String) : ClientEvent → Option (ClientRef × Address × ResultWrapper)
  | .toClient ref a (.resultWrapper w) => if w.producerId = P then some (ref, a, w.withoutErrorText) else none
  | _ => none

/-! ### The frontend -/

namespace Frontend

/-- The results for `P` that went out to clients. -/
def issuedFor (P : String) (f : Frontend) : List (ClientRef × Address × ResultWrapper) :=
  f.log.filterMap (ClientEvent.issuedFor P)

/-- The same clients, with the same tokens of `P` and the same results for `P`. -/
structure Slice (P : String) (f g : Frontend) : Prop where
  clients : g.clients = f.clients
  nextClient : g.nextClient = f.nextClient
  clientInfo : ∀ ref, (g.clientObjs ref).clientInfo = (f.clientObjs ref).clientInfo
  tokens : ∀ ref, (g.clientObjs ref).tokensForProducer P = (f.clientObjs ref).tokensForProducer P
  issued : g.issuedFor P = f.issuedFor P

namespace Slice

variable {P : String} {cfg : Config} {f g f' : Frontend} {ref : ClientRef} {a : Address} {w : ResultWrapper}

theorem emit_own (h : Slice P f g) {x y : ClientEvent} (hxy : y.issuedFor P = x.issuedFor P) :
    Slice P (f.emit x) (g.emit y) :=
  { h with
    issued := by
      simp only [Frontend.issuedFor, emit_log, List.filterMap_append, List.filterMap_cons, List.filterMap_nil, hxy]
      rw [← Frontend.issuedFor, ← Frontend.issuedFor, h.issued] }

theorem emit_other (h : Slice P f g) {x : ClientEvent} (hx : x.issuedFor P = none) : Slice P (f.emit x) g :=
  { h with issued := by simpa [Frontend.issuedFor, hx] using h.issued }

/-- Engine ids may be sent on either side. -/
theorem told (h : Slice P f g) {g' : Frontend} (hf : Told f f') (hg : Told g g') : Slice P f' g' := by
  have hnone : ∀ {f f' : Frontend}, Told f f' → f'.issuedFor P = f.issuedFor P := by
    intro f f' hf
    obtain ⟨es, hes, hids⟩ := hf.log
    have hempty : es.filterMap (ClientEvent.issuedFor P) = [] := by
      rw [List.filterMap_eq_nil_iff]
      intro e he
      obtain ⟨ref, a, ids, rfl, -⟩ := hids e he
      rfl
    rw [Frontend.issuedFor, hes, List.filterMap_append, hempty, List.append_nil, Frontend.issuedFor]
  refine ⟨?_, ?_, fun ref => ?_, fun ref => ?_, ?_⟩
  · rw [hf.table, hg.table, h.clients]
  · rw [hf.nextClient, hg.nextClient, h.nextClient]
  · rw [hf.clientObjs, hg.clientObjs, h.clientInfo]
  · rw [hf.clientObjs, hg.clientObjs, h.tokens]
  · rw [hnone hf, hnone hg, h.issued]

theorem addClient_own (h : Slice P f g) (a : Address) : Slice P (f.addClient a) (g.addClient a) where
  clients := by simp [addClient, h.clients, h.nextClient]
  nextClient := by simp [addClient, h.nextClient]
  clientInfo ref := by
    simp only [addClient, h.nextClient, Function.update_apply]
    split
    · rfl
    · exact h.clientInfo ref
  tokens ref := by
    simp only [addClient, h.nextClient, Function.update_apply]
    split
    · rfl
    · exact h.tokens ref
  issued := h.issued

theorem removeClient_own (h : Slice P f g) (a : Address) : Slice P (f.removeClient a).1 (g.removeClient a).1 := by
  unfold removeClient
  rw [h.clients]
  cases f.clients.get? a with
  | none => exact h
  | some ref => exact ⟨rfl, h.nextClient, h.clientInfo, h.tokens, h.issued⟩

/-! #### Tokens -/

private theorem modifyClient_own (h : Slice P f g) {k k' : Client → Client}
    (hinfo : (k' (g.clientObjs ref)).clientInfo = (k (f.clientObjs ref)).clientInfo)
    (htok : (k' (g.clientObjs ref)).tokensForProducer P = (k (f.clientObjs ref)).tokensForProducer P) :
    Slice P (f.modifyClient ref k) (g.modifyClient ref k') :=
  { h with
    clientInfo := fun r => by
      by_cases hr : r = ref
      · subst hr; simpa using hinfo
      · simpa [hr] using h.clientInfo r
    tokens := fun r => by
      by_cases hr : r = ref
      · subst hr; simpa using htok
      · simpa [hr] using h.tokens r }

private theorem modifyClient_other (h : Slice P f g) {k : Client → Client}
    (hinfo : (k (f.clientObjs ref)).clientInfo = (f.clientObjs ref).clientInfo)
    (htok : (k (f.clientObjs ref)).tokensForProducer P = (f.clientObjs ref).tokensForProducer P) :
    Slice P (f.modifyClient ref k) g :=
  { h with
    clientInfo := fun r => by
      by_cases hr : r = ref
      · subst hr; simpa [hinfo] using h.clientInfo r
      · simpa [hr] using h.clientInfo r
    tokens := fun r => by
      by_cases hr : r = ref
      · subst hr; simpa [htok] using h.tokens r
      · simpa [hr] using h.tokens r }

theorem addTokens_own (h : Slice P f g) (ref : ClientRef) (n : Int) :
    Slice P (f.addTokens ref P n) (g.addTokens ref P n) :=
  h.modifyClient_own (h.clientInfo ref) (by simp [h.tokens ref])

theorem addTokens_other (h : Slice P f g) (ref : ClientRef) {p : String} (hp : p ≠ P) (n : Int) :
    Slice P (f.addTokens ref p n) g :=
  h.modifyClient_other rfl (by simp [Ne.symm hp])

theorem initTokens_own (h : Slice P f g) (cfg : Config) (ref : ClientRef) :
    Slice P (f.initTokens cfg ref P) (g.initTokens cfg ref P) := by
  unfold initTokens
  rw [h.tokens ref]
  cases (f.clientObjs ref).tokensForProducer P with
  | some n => exact h
  | none => exact h.modifyClient_own (h.clientInfo ref) (by simp)

theorem initTokens_other (h : Slice P f g) (ref : ClientRef) {p : String} (hp : p ≠ P) :
    Slice P (f.initTokens cfg ref p) g := by
  unfold initTokens
  split
  · exact h
  · exact h.modifyClient_other rfl (by simp [Ne.symm hp])

theorem deductToken_own (h : Slice P f g) {mp mp' : MetadataPayload} (hp : mp.producerId = P)
    (hp' : mp'.producerId = P) : Slice P (f.deductToken ref mp) (g.deductToken ref mp') := by
  unfold deductToken
  rw [hp, hp']
  exact (h.addTokens_own ref (-1)).emit_own rfl

theorem deductToken_other (h : Slice P f g) {mp : MetadataPayload} (hp : mp.producerId ≠ P) :
    Slice P (f.deductToken ref mp) g :=
  (h.addTokens_other ref hp (-1)).emit_other rfl

/-! #### Messages -/

theorem sendResult_own (h : Slice P f g) (hw : w.producerId = P) :
    Slice P (f.sendResult a w).1 (g.sendResult a w).1 ∧ (g.sendResult a w).2 = (f.sendResult a w).2 := by
  unfold sendResult
  rw [h.clients]
  cases hget : f.clients.get? a with
  | none => exact ⟨h, rfl⟩
  | some ref =>
    simp only
    have htok : Slice P (if w.returnToken then (f.emit (.resultFor ref a w)).addTokens ref w.producerId 1
          else f.emit (.resultFor ref a w))
        (if w.returnToken then (g.emit (.resultFor ref a w)).addTokens ref w.producerId 1
          else g.emit (.resultFor ref a w)) := by
      split
      · rw [hw]
        exact (h.emit_own rfl).addTokens_own ref 1
      · exact h.emit_own rfl
    revert htok
    generalize (if w.returnToken then (f.emit (.resultFor ref a w)).addTokens ref w.producerId 1
      else f.emit (.resultFor ref a w)) = f₁
    generalize (if w.returnToken then (g.emit (.resultFor ref a w)).addTokens ref w.producerId 1
      else g.emit (.resultFor ref a w)) = g₁
    intro htok
    unfold sendViaTransport
    rw [htok.clients]
    cases f₁.clients.get? a with
    | none => exact ⟨htok, rfl⟩
    | some r => exact ⟨htok.emit_own rfl, rfl⟩

theorem sendResult_other (h : Slice P f g) (hw : w.producerId ≠ P) : Slice P (f.sendResult a w).1 g := by
  unfold sendResult
  cases hget : f.clients.get? a with
  | none => exact h
  | some ref =>
    simp only
    have htok : Slice P (if w.returnToken then (f.emit (.resultFor ref a w)).addTokens ref w.producerId 1
          else f.emit (.resultFor ref a w)) g := by
      split
      · exact (h.emit_other rfl).addTokens_other ref hw 1
      · exact h.emit_other rfl
    revert htok
    generalize (if w.returnToken then (f.emit (.resultFor ref a w)).addTokens ref w.producerId 1
      else f.emit (.resultFor ref a w)) = f₁
    intro htok
    unfold sendViaTransport
    cases f₁.clients.get? a with
    | none => exact htok
    | some r => exact htok.emit_other (by simp [ClientEvent.issuedFor, hw])

theorem reply_own (h : Slice P f g) {msg msg' : ToClient}
    (hmsg : (ClientEvent.toClient ref a msg').issuedFor P = (ClientEvent.toClient ref a msg).issuedFor P) :
    Slice P (f.reply cfg ref a msg).1 (g.reply cfg ref a msg').1 := by
  unfold reply
  rw [h.clients]
  cases cfg.clientTransport <;> cases f.clients.get? a
  all_goals first | exact h | exact h.emit_own hmsg

theorem reply_other (h : Slice P f g) {msg : ToClient} (hmsg : (ClientEvent.toClient ref a msg).issuedFor P = none) :
    Slice P (f.reply cfg ref a msg).1 g := by
  unfold reply
  cases cfg.clientTransport <;> cases f.clients.get? a
  all_goals first | exact h | exact h.emit_other hmsg

theorem replyError_own (h : Slice P f g) (cfg : Config) (ref : ClientRef) (a : Address) (msg : FromClient)
    {code : StatusCode} {text text' : String} (htext : code = .noEngineForInput ∨ text' = text) :
    Slice P (f.replyError cfg ref a msg code text).1 (g.replyError cfg ref a msg code text').1 := by
  unfold replyError
  simp only
  refine reply_own (h.emit_own ?_) ?_
  · rfl
  rcases htext with rfl | rfl
  · simp [ClientEvent.issuedFor, makeErrorResponse, ResultWrapper.withoutErrorText]
  · rfl

theorem replyError_other (h : Slice P f g) (cfg : Config) (ref : ClientRef) (a : Address) {msg : FromClient}
    (hp : msg.asInput.producerId ≠ P) (code : StatusCode) (text : String) :
    Slice P (f.replyError cfg ref a msg code text).1 g :=
  (h.emit_other rfl).reply_other (by simp [ClientEvent.issuedFor, makeErrorResponse, hp])

/-- `_consumer_helper` for a message that is not a registration. -/
private theorem consumerHelper_input {msg : FromClient} (hmsg : msg.isRegistration = false) :
    f.consumerHelper cfg ref a msg =
      match ((f.emit (.received ref a msg)).clientObjs ref).clientInfo with
      | none => (f.emit (.received ref a msg), .refused .unspecifiedError "Client must register before sending input")
      | some info =>
        let f := (f.emit (.received ref a msg)).initTokens cfg ref msg.asInput.producerId
        if f.tokens ref msg.asInput.producerId < 1 then (f, .refused .noTokens "No tokens for producer")
        else (f, .forward info) := by
  cases msg with
  | registration info => cases hmsg
  | unset => rfl
  | input i => rfl

/-- The message of a client is admitted in the same way. -/
theorem consumerHelper_own (h : Slice P f g) (cfg : Config) (ref : ClientRef) (a : Address) {msg : FromClient}
    (hmsg : msg.isRegistration = true ∨ msg.asInput.producerId = P) :
    Slice P (f.consumerHelper cfg ref a msg).1 (g.consumerHelper cfg ref a msg).1 ∧
      (g.consumerHelper cfg ref a msg).2 = (f.consumerHelper cfg ref a msg).2 := by
  have hrec : Slice P (f.emit (.received ref a msg)) (g.emit (.received ref a msg)) := h.emit_own rfl
  cases hreg : msg.isRegistration with
  | true =>
    obtain ⟨info, rfl⟩ : ∃ info, msg = .registration info := by
      cases msg with
      | registration info => exact ⟨info, rfl⟩
      | unset => cases hreg
      | input i => cases hreg
    unfold consumerHelper
    simp only
    exact ⟨hrec.modifyClient_own rfl (hrec.tokens ref), trivial⟩
  | false =>
    have hp : msg.asInput.producerId = P := by simpa [hreg] using hmsg
    rw [consumerHelper_input hreg, consumerHelper_input hreg, hrec.clientInfo ref, hp]
    cases ((f.emit (.received ref a msg)).clientObjs ref).clientInfo with
    | none => exact ⟨hrec, rfl⟩
    | some info =>
      have hinit := hrec.initTokens_own cfg ref
      have htok : ((g.emit (.received ref a msg)).initTokens cfg ref P).tokens ref P =
          ((f.emit (.received ref a msg)).initTokens cfg ref P).tokens ref P := by
        rw [Frontend.tokens, Frontend.tokens, hinit.tokens ref]
      simp only [htok]
      split
      · exact ⟨hinit, rfl⟩
      · exact ⟨hinit, rfl⟩

theorem consumerHelper_other (h : Slice P f g) (cfg : Config) (ref : ClientRef) (a : Address) {msg : FromClient}
    (hmsg : msg.isRegistration = false) (hp : msg.asInput.producerId ≠ P) :
    Slice P (f.consumerHelper cfg ref a msg).1 g := by
  have hrec : Slice P (f.emit (.received ref a msg)) g := h.emit_other rfl
  generalize hr : f.consumerHelper cfg ref a msg = r
  cases consumerHelper_cases hr with
  | registered => cases hmsg
  | unregistered => exact hrec
  | noTokens => exact hrec.initTokens_other ref hp
  | forward => exact hrec.initTokens_other ref hp

end Slice

end Frontend

/-! ### The server -/

namespace Server

/-- The slice of the server that belongs to `P`. -/
structure Slice (S : String → Bool) (P : String) (K : Context → Bool) (ρ : Context → Context) (s t : Server) :
    Prop where
  dispatcher : Dispatcher.Slice S P K ρ s.dispatcher t.dispatcher
  frontend : Frontend.Slice P s.frontend t.frontend

namespace Slice

variable {S : String → Bool} {P : String} {K : Context → Bool} {ρ : Context → Context} {cfg : Config} {s t : Server}
  {c : Context} {a : Address} {w : ResultWrapper}

theorem told_enginesUpdatedCb (f : Frontend) (ids : Finset String) :
    Frontend.Told f (f.enginesUpdatedCb (.engineIdsUpdate ids)) := by
  unfold Frontend.enginesUpdatedCb
  generalize f.clients.keys = as
  induction as generalizing f with
  | nil => exact .refl f
  | cons a as ih => exact (Frontend.told_sendViaTransport ids).trans (ih _)

theorem enginesUpdatedCb_own (h : Slice S P K ρ s t) : Slice S P K ρ s.enginesUpdatedCb t.enginesUpdatedCb :=
  ⟨h.dispatcher, h.frontend.told (told_enginesUpdatedCb _ _) (told_enginesUpdatedCb _ _)⟩

theorem enginesUpdatedCb_other (h : Slice S P K ρ s t) : Slice S P K ρ s.enginesUpdatedCb t :=
  ⟨h.dispatcher, h.frontend.told (told_enginesUpdatedCb _ _) (.refl _)⟩

/-! #### Results -/

theorem sendResult_own (h : Slice S P K ρ s t) (hw : w.producerId = P) :
    Slice S P K ρ (s.sendResult a w).1 (t.sendResult a w).1 ∧ (t.sendResult a w).2 = (s.sendResult a w).2 := by
  obtain ⟨hf, hflag⟩ := h.frontend.sendResult_own (a := a) hw
  exact ⟨⟨h.dispatcher, hf⟩, hflag⟩

theorem sendResult_other (h : Slice S P K ρ s t) (hw : w.producerId ≠ P) : Slice S P K ρ (s.sendResult a w).1 t :=
  ⟨h.dispatcher, h.frontend.sendResult_other hw⟩

/-- The producer of the result that is sent for an answer. -/
private theorem producerId_of_answer {d d' : Dispatcher} {k : Nat} {m : Option Metadata} {result : Result}
    (hr : d.answerResult c k m result = (d', .send a w)) : ∃ x ∈ m, w.producerId = x.producerId := by
  cases Dispatcher.answerResult_cases hr with
  | token => exact ⟨_, rfl, rfl⟩
  | copy => exact ⟨_, rfl, rfl⟩

theorem answerResult_own (h : Slice S P K ρ s t) (hc : K c) (k k' : Nat) {m : Option Metadata}
    (hm : ∀ x ∈ m, x.producerId = P) (result : Result) :
    Slice S P K ρ (s.answerResult c k m result).1 (t.answerResult (ρ c) k' m result).1 ∧
      (t.answerResult (ρ c) k' m result).2 = (s.answerResult c k m result).2 := by
  obtain ⟨hd, hans⟩ := h.dispatcher.answerResult_own hc k k' hm result
  unfold answerResult
  cases hr : s.dispatcher.answerResult c k m result with
  | mk d ans =>
    cases hr' : t.dispatcher.answerResult (ρ c) k' m result with
    | mk e ans' =>
      rw [hr, hr'] at hd hans
      obtain rfl : ans' = ans := hans
      cases ans' with
      | stop => exact ⟨⟨hd, h.frontend⟩, rfl⟩
      | next => exact ⟨⟨hd, h.frontend⟩, rfl⟩
      | send a w =>
        obtain ⟨x, hx, hwx⟩ := producerId_of_answer hr
        have hs : Slice S P K ρ { s with dispatcher := d } { t with dispatcher := e } := ⟨hd, h.frontend⟩
        obtain ⟨hsent, hflag⟩ := hs.sendResult_own (a := a) (hwx.trans (hm x hx))
        simp only
        exact ⟨hsent, by rw [hflag]⟩

theorem answerResult_other (h : Slice S P K ρ s t) (k : Nat) {m : Option Metadata}
    (hm : ∀ x ∈ m, x.producerId ≠ P) (result : Result) : Slice S P K ρ (s.answerResult c k m result).1 t := by
  unfold answerResult
  cases hr : s.dispatcher.answerResult c k m result with
  | mk d ans =>
    have hd := h.dispatcher.answered_other hm (Dispatcher.answerResult_cases hr)
    cases ans with
    | stop => exact ⟨hd, h.frontend⟩
    | next => exact ⟨hd, h.frontend⟩
    | send a w =>
      obtain ⟨x, hx, hwx⟩ := producerId_of_answer hr
      have hs : Slice S P K ρ { s with dispatcher := d } t := ⟨hd, h.frontend⟩
      exact hs.sendResult_other (by rw [hwx]; exact hm x hx)

/-- `send_next_input` when its write succeeds. -/
private theorem feedEngine_eq : s.feedEngine c false =
    { s with dispatcher := (s.dispatcher.sendNextInput c true).1 } := by
  unfold feedEngine
  rcases hr : s.dispatcher.sendNextInput c true with ⟨d, _ | _⟩ <;> simp [hr]

theorem feedEngine_own (h : Slice S P K ρ s t) (hc : K c) :
    Slice S P K ρ (s.feedEngine c false) (t.feedEngine (ρ c) false) := by
  rw [feedEngine_eq, feedEngine_eq]
  exact ⟨(h.dispatcher.sendNextInput_own hc).1, h.frontend⟩

theorem feedEngine_other (h : Slice S P K ρ s t) (hwf : s.dispatcher.WellFormed) (hc : K c = false) :
    Slice S P K ρ (s.feedEngine c false) t := by
  rw [feedEngine_eq]
  exact ⟨h.dispatcher.sendNextInput_other hwf hc true, h.frontend⟩

/-- `_handle_from_engine` for a message that is not a registration. -/
private theorem handleFromEngine_result {msg : FromEngine} (hmsg : ∀ id ar, msg ≠ .register id ar) :
    s.handleFromEngine c msg false =
      if c ∈ s.dispatcher.engineWorkers then
        match ({ s with dispatcher := s.dispatcher.emit (.gotResult c msg.asResult) } : Server).answerResult c
            (s.dispatcher.resultsRead c) (s.dispatcher.workers c).currentInputMetadata
            (s.dispatcher.stampResult c msg) with
        | (t, .stop) => t
        | (t, _) => t.feedEngine c false
      else { s with dispatcher := s.dispatcher.emit (.gotResult c msg.asResult) } := by
  cases msg with
  | register id ar => exact absurd rfl (hmsg id ar)
  | unset => rfl
  | result r => rfl

theorem handleFromEngine_own (h : Slice S P K ρ s t) (hc : K c) (msg : FromEngine) :
    Slice S P K ρ (s.handleFromEngine c msg false) (t.handleFromEngine (ρ c) msg false) := by
  by_cases hmsg : ∃ id ar, msg = .register id ar
  · obtain ⟨id, ar, rfl⟩ := hmsg
    exact h
  · have hmsg' : ∀ id ar, msg ≠ .register id ar := fun id ar he => hmsg ⟨id, ar, he⟩
    have hmem := h.dispatcher.mem_engineWorkers hc
    have hgot : Slice S P K ρ { s with dispatcher := s.dispatcher.emit (.gotResult c msg.asResult) }
        { t with dispatcher := t.dispatcher.emit (.gotResult (ρ c) msg.asResult) } :=
      ⟨h.dispatcher.emit_own rfl, h.frontend⟩
    rw [handleFromEngine_result hmsg', handleFromEngine_result hmsg']
    simp only [hmem]
    split
    · have hstamp : t.dispatcher.stampResult (ρ c) msg = s.dispatcher.stampResult c msg := by
        unfold Dispatcher.stampResult
        rw [h.dispatcher.workers c hc]
      have hans := hgot.answerResult_own hc (s.dispatcher.resultsRead c) (t.dispatcher.resultsRead (ρ c))
        (h.dispatcher.own c hc).2 (s.dispatcher.stampResult c msg)
      rw [h.dispatcher.workers c hc, hstamp]
      revert hans
      generalize ({ s with dispatcher := s.dispatcher.emit (.gotResult c msg.asResult) } : Server).answerResult c
        (s.dispatcher.resultsRead c) (s.dispatcher.workers c).currentInputMetadata
        (s.dispatcher.stampResult c msg) = r
      generalize ({ t with dispatcher := t.dispatcher.emit (.gotResult (ρ c) msg.asResult) } : Server).answerResult
        (ρ c) (t.dispatcher.resultsRead (ρ c)) (s.dispatcher.workers c).currentInputMetadata
        (s.dispatcher.stampResult c msg) = r'
      rintro ⟨hslice, hreact⟩
      obtain ⟨s', react⟩ := r
      obtain ⟨t', react'⟩ := r'
      obtain rfl : react' = react := hreact
      cases react' with
      | stop => exact hslice
      | awaitSend => exact hslice.feedEngine_own hc
      | next => exact hslice.feedEngine_own hc
    · exact hgot

theorem handleFromEngine_other (h : Slice S P K ρ s t) (hwf : s.dispatcher.WellFormed) (hc : K c = false)
    (msg : FromEngine) : Slice S P K ρ (s.handleFromEngine c msg false) t := by
  by_cases hmsg : ∃ id ar, msg = .register id ar
  · obtain ⟨id, ar, rfl⟩ := hmsg
    exact h
  · have hgot : Slice S P K ρ { s with dispatcher := s.dispatcher.emit (.gotResult c msg.asResult) } t :=
      ⟨h.dispatcher.emit_other rfl, h.frontend⟩
    rw [handleFromEngine_result fun id ar he => hmsg ⟨id, ar, he⟩]
    split
    · have hans := hgot.answerResult_other (c := c) (s.dispatcher.resultsRead c) (h.dispatcher.other c hc).2
        (s.dispatcher.stampResult c msg)
      have hwf' : (({ s with dispatcher := s.dispatcher.emit (.gotResult c msg.asResult) } : Server).answerResult c
          (s.dispatcher.resultsRead c) (s.dispatcher.workers c).currentInputMetadata
          (s.dispatcher.stampResult c msg)).1.dispatcher.WellFormed := by
        rw [(answerResult_dispatcher _ _ _).1]
        exact (hwf.emit _).answered (Dispatcher.answerResult_cases rfl)
      revert hans hwf'
      generalize ({ s with dispatcher := s.dispatcher.emit (.gotResult c msg.asResult) } : Server).answerResult c
        (s.dispatcher.resultsRead c) (s.dispatcher.workers c).currentInputMetadata
        (s.dispatcher.stampResult c msg) = r
      obtain ⟨s', react⟩ := r
      intro hans hwf'
      cases react with
      | stop => exact hans
      | awaitSend => exact hans.feedEngine_other hwf' hc
      | next => exact hans.feedEngine_other hwf' hc
    · exact hgot

/-! #### Engines coming and going -/

/-- The producer of the result that is sent for the input of a removed engine. -/
private theorem producerId_of_removal {d d' : Dispatcher} (hr : d.beginRemoval c = (d', some (a, w))) :
    ∃ m, (d.workers c).currentInputMetadata = some m ∧ w.producerId = m.producerId := by
  cases Dispatcher.beginRemoval_cases hr with
  | released hcur => exact ⟨_, hcur, rfl⟩

theorem beginRemoval_own (h : Slice S P K ρ s t) (hc : K c) :
    Slice S P K ρ (s.beginRemoval c).1 (t.beginRemoval (ρ c)).1 := by
  obtain ⟨hd, hout⟩ := h.dispatcher.beginRemoval_own hc
  unfold beginRemoval
  cases hr : s.dispatcher.beginRemoval c with
  | mk d out =>
    cases hr' : t.dispatcher.beginRemoval (ρ c) with
    | mk e out' =>
      rw [hr, hr'] at hd hout
      obtain rfl : out' = out := hout
      cases out' with
      | none => exact ⟨hd, h.frontend⟩
      | some aw =>
        obtain ⟨m, hm, hwm⟩ := producerId_of_removal hr
        have hs : Slice S P K ρ { s with dispatcher := d } { t with dispatcher := e } := ⟨hd, h.frontend⟩
        exact (hs.sendResult_own (hwm.trans ((h.dispatcher.own c hc).2 m hm))).1

theorem beginRemoval_other (h : Slice S P K ρ s t) (hc : K c = false) : Slice S P K ρ (s.beginRemoval c).1 t := by
  have hd := h.dispatcher.beginRemoval_other hc
  unfold beginRemoval
  cases hr : s.dispatcher.beginRemoval c with
  | mk d out =>
    rw [hr] at hd
    cases out with
    | none => exact ⟨hd, h.frontend⟩
    | some aw =>
      obtain ⟨m, hm, hwm⟩ := producerId_of_removal hr
      have hs : Slice S P K ρ { s with dispatcher := d } t := ⟨hd, h.frontend⟩
      exact hs.sendResult_other (by rw [hwm]; exact (h.dispatcher.other c hc).2 m hm)

theorem removeEngineWorker_own (h : Slice S P K ρ s t) (hwf : s.dispatcher.WellFormed) (hc : K c)
    (hmem : c ∈ s.dispatcher.engineWorkers) :
    Slice S P K ρ (s.removeEngineWorker c) (t.removeEngineWorker (ρ c)) := by
  have hbegun := h.beginRemoval_own hc
  have hws : (s.beginRemoval c).1.dispatcher.engineWorkers = s.dispatcher.engineWorkers := by
    rw [beginRemoval_dispatcher, Dispatcher.beginRemoval_engineWorkers]
  obtain ⟨hd, hflag⟩ := hbegun.dispatcher.finishRemoval_own (c := c) (hws ▸ hwf.workers_nodup) hc (hws ▸ hmem)
  unfold removeEngineWorker
  simp only
  cases hr : (s.beginRemoval c).1.dispatcher.finishRemoval c with
  | mk d flag =>
    cases hr' : (t.beginRemoval (ρ c)).1.dispatcher.finishRemoval (ρ c) with
    | mk e flag' =>
      rw [hr, hr'] at hd hflag
      obtain rfl : flag' = flag := hflag
      have hs : Slice S P K ρ { (s.beginRemoval c).1 with dispatcher := d }
          { (t.beginRemoval (ρ c)).1 with dispatcher := e } := ⟨hd, hbegun.frontend⟩
      cases flag' with
      | true => exact hs
      | false => exact hs.enginesUpdatedCb_own

theorem removeEngineWorker_other (h : Slice S P K ρ s t) (hwf : s.dispatcher.WellFormed) (hc : K c = false)
    (hmem : c ∈ s.dispatcher.engineWorkers) : Slice S P K ρ (s.removeEngineWorker c) t := by
  have hbegun := h.beginRemoval_other hc
  have hws : (s.beginRemoval c).1.dispatcher.engineWorkers = s.dispatcher.engineWorkers := by
    rw [beginRemoval_dispatcher, Dispatcher.beginRemoval_engineWorkers]
  have hd := hbegun.dispatcher.finishRemoval_other (c := c) (hws ▸ hwf.workers_nodup) hc (hws ▸ hmem)
  unfold removeEngineWorker
  simp only
  cases hr : (s.beginRemoval c).1.dispatcher.finishRemoval c with
  | mk d flag =>
    rw [hr] at hd
    have hs : Slice S P K ρ { (s.beginRemoval c).1 with dispatcher := d } t := ⟨hd, hbegun.frontend⟩
    cases flag with
    | true => exact hs
    | false => exact hs.enginesUpdatedCb_other

/-- A new engine of the slice is called `c'` on the other side. -/
theorem addEngineWorker_own (h : Slice S P K ρ s t) (hwf : s.dispatcher.WellFormed) {id : String} (hid : S id)
    (hc : K c = false) (hmem : c ∉ s.dispatcher.engineWorkers)
    (hlog : ∀ msg mp, .wrote c msg mp ∉ s.dispatcher.log) {c' : Context} (hc' : ∀ x, K x → ρ x ≠ c') (ar : Bool) :
    Slice S P (fun x => x = c || K x) (fun x => if x = c then c' else ρ x) (s.addEngineWorker c id ar)
      (t.addEngineWorker c' id ar) := by
  have hpred := h.dispatcher.predecessor_own hid
  have hinsert : ∀ {s t : Server}, Slice S P K ρ s t → c ∉ s.dispatcher.engineWorkers →
      (∀ msg mp, .wrote c msg mp ∉ s.dispatcher.log) →
      Slice S P (fun x => x = c || K x) (fun x => if x = c then c' else ρ x)
        { s with dispatcher := s.dispatcher.insertWorker c id ar }.enginesUpdatedCb
        { t with dispatcher := t.dispatcher.insertWorker c' id ar }.enginesUpdatedCb := by
    intro s t h hmem hlog
    have hd := h.dispatcher.insertWorker_own hid hc hmem hlog hc' ar
    exact enginesUpdatedCb_own ⟨hd, h.frontend⟩
  unfold addEngineWorker
  cases hp : s.dispatcher.predecessor id with
  | none =>
    rw [hpred, hp]
    exact hinsert h hmem hlog
  | some v =>
    obtain ⟨hv, hKv⟩ := h.dispatcher.predecessor_named hp
    rw [hpred, hp]
    refine hinsert (h.removeEngineWorker_own hwf (hKv.trans hid) hv) ?_ ?_
    · rw [removeEngineWorker_dispatcher]
      intro hmem'
      have hmem'' := Dispatcher.removeEngineWorker_subset hmem'
      exact hmem hmem''
    · intro msg mp hw
      rw [removeEngineWorker_dispatcher, Dispatcher.removeEngineWorker_log] at hw
      generalize hr : s.dispatcher.beginRemoval v = r at hw
      cases Dispatcher.beginRemoval_cases hr with
      | silent => exact hlog msg mp hw
      | released => exact hlog msg mp (by simpa using hw)

theorem addEngineWorker_other (h : Slice S P K ρ s t) (hwf : s.dispatcher.WellFormed) {id : String}
    (hid : S id = false) (hc : K c = false) (ar : Bool) : Slice S P K ρ (s.addEngineWorker c id ar) t := by
  have hinsert : ∀ {s : Server}, Slice S P K ρ s t →
      Slice S P K ρ { s with dispatcher := s.dispatcher.insertWorker c id ar }.enginesUpdatedCb t := fun h =>
    enginesUpdatedCb_other ⟨h.dispatcher.insertWorker_other hid hc ar, h.frontend⟩
  unfold addEngineWorker
  cases hp : s.dispatcher.predecessor id with
  | none => exact hinsert h
  | some v =>
    obtain ⟨hv, hKv⟩ := h.dispatcher.predecessor_named hp
    exact hinsert (h.removeEngineWorker_other hwf (hKv.trans hid) hv)

/-! #### Messages of clients -/

theorem handleFromClient_own (h : Slice S P K ρ s t) {ref : ClientRef} {msg : FromClient}
    (hmsg : msg.isRegistration = true ∨
      msg.asInput.producerId = P ∧ ∀ id ∈ msg.asInput.targetEngineIds, S id) {order : List Context} {s' : Server}
    (hs : s.handleFromClient cfg ref a msg order [] = some s') :
    ∃ t', t.handleFromClient cfg ref a msg (order.map ρ) [] = some t' ∧ Slice S P K ρ s' t' := by
  obtain ⟨hf, hadmitted⟩ := h.frontend.consumerHelper_own cfg ref a (hmsg.imp_right And.left)
  unfold handleFromClient at hs ⊢
  revert hs hf hadmitted
  generalize hr : s.frontend.consumerHelper cfg ref a msg = r
  generalize t.frontend.consumerHelper cfg ref a msg = r'
  obtain ⟨f, admission⟩ := r
  obtain ⟨g, admission'⟩ := r'
  rintro hs hf ⟨⟩
  cases admission with
  | registered =>
    cases hs
    exact ⟨_, rfl, h.dispatcher, hf.reply_own rfl⟩
  | refused code text =>
    cases hs
    exact ⟨_, rfl, h.dispatcher, hf.replyError_own cfg ref a msg (Or.inr rfl)⟩
  | forward info =>
    have hreg : msg.isRegistration = false := by
      cases Frontend.consumerHelper_cases hr with
      | forward hreg => exact hreg
    obtain ⟨hp, hids⟩ := hmsg.resolve_left (by simp [hreg])
    simp only at hs ⊢
    split at hs
    · rename_i hperm
      have hperm' : (order.map ρ).Perm (t.dispatcher.targetEngines msg.asInput.targetEngineIds) := by
        rw [(h.dispatcher.targetEngines_own hids).1]
        exact hperm.map ρ
      obtain ⟨hd, code, text, text', hcode, hcode', htext⟩ :=
        h.dispatcher.processInputFromClient_own cfg hp hids a info hperm
      have hsub : Frontend.Slice P (f.emit (.submitted ref (s.dispatcher.metadataPayload msg.asInput a info)))
        (g.emit (.submitted ref (t.dispatcher.metadataPayload msg.asInput a info))) := hf.emit_own rfl
      rw [if_pos hperm']
      revert hs hd hcode hcode'
      generalize s.dispatcher.processInputFromClient cfg msg.asInput a info order [] = r
      generalize t.dispatcher.processInputFromClient cfg msg.asInput a info (order.map ρ) [] = r'
      obtain ⟨d, _⟩ := r
      obtain ⟨e, _⟩ := r'
      rintro hs hd ⟨⟩ ⟨⟩
      by_cases hsuccess : code = .success
      · subst hsuccess
        cases hs
        exact ⟨_, rfl, hd, hsub.deductToken_own hp hp⟩
      · have herror := hsub.replyError_own cfg ref a msg htext
        cases code with
        | success => exact absurd rfl hsuccess
        | _ => cases hs; exact ⟨_, rfl, hd, herror⟩
    · cases hs

theorem handleFromClient_other (h : Slice S P K ρ s t) {ref : ClientRef} {msg : FromClient}
    (hreg : msg.isRegistration = false) (hp : msg.asInput.producerId ≠ P)
    (hids : ∀ id ∈ msg.asInput.targetEngineIds, S id = false) {order raising : List Context} {s' : Server}
    (hs : s.handleFromClient cfg ref a msg order raising = some s') : Slice S P K ρ s' t := by
  have hf := h.frontend.consumerHelper_other cfg ref a hreg hp
  unfold handleFromClient at hs
  revert hs hf
  generalize hr : s.frontend.consumerHelper cfg ref a msg = r
  obtain ⟨f, admission⟩ := r
  intro hs hf
  cases admission with
  | registered =>
    cases hs
    exact ⟨h.dispatcher, hf.reply_other rfl⟩
  | refused code text =>
    cases hs
    exact ⟨h.dispatcher, hf.replyError_other cfg ref a hp code text⟩
  | forward info =>
    simp only at hs
    split at hs
    · rename_i hperm
      have hd := h.dispatcher.processInputFromClient_other cfg hp hids a info hperm raising
      have hsub : Frontend.Slice P (f.emit (.submitted ref (s.dispatcher.metadataPayload msg.asInput a info)))
        t.frontend := hf.emit_other rfl
      revert hs hd
      generalize s.dispatcher.processInputFromClient cfg msg.asInput a info order raising = r
      obtain ⟨d, r⟩ := r
      intro hs hd
      cases r with
      | none =>
        cases hs
        exact ⟨hd, hsub⟩
      | some status =>
        obtain ⟨code, text⟩ := status
        have herror := hsub.replyError_other cfg ref a hp code text
        cases code with
        | success => cases hs; exact ⟨hd, hsub.deductToken_other hp⟩
        | _ => cases hs; exact ⟨hd, herror⟩
    · cases hs

end Slice

end Server

end Gabriel
