import Gabriel.Server.Contexts

/-!
# The calls of `send_result`

A step of a session calls `send_result` for the result it has at hand, or for the engines that it removes
(`messages_step`).  A result is passed on if it is the first for the input in flight, and then with the token, or if
its engine requires all responses.
-/

namespace Gabriel

open DispatchLog

namespace ResultMessage

/-- The message names the client, the producer and the frame of the input `mp`. -/
structure About (x : ResultMessage) (mp : MetadataPayload) : Prop where
  address : x.address = mp.metadata.clientAddress
  producerId : x.wrapper.producerId = mp.producerId
  frameId : x.wrapper.result.frameId = mp.metadata.frameId

/-- The message tells a client that an engine has disconnected; a token is that of the input it is about. -/
structure IsNotice (x : ResultMessage) : Prop where
  origin : ∃ c, x.origin = .disconnect c
  token : x.wrapper.returnToken = true → ∃ mp, x.latestInput = some mp ∧ x.About mp

theorem IsNotice.forwardedResult {x : ResultMessage} (h : x.IsNotice) : x.event.forwardedResult = none := by
  obtain ⟨c, hc⟩ := h.origin
  simp [event, hc]

end ResultMessage

namespace Dispatcher

variable {d d' : Dispatcher} {c : Context} {k : Nat} {m : Metadata} {result : Result} {mp : MetadataPayload}
  {x : ResultMessage}

/-- The message is about the `k`-th result of `c`, for an input with the metadata `m`: it has the token of the
in-flight input, or the engine requires all responses. -/
structure Passes (d : Dispatcher) (c : Context) (k : Nat) (m : Metadata) (result : Result) (x : ResultMessage) :
    Prop where
  origin : x.origin = .result c k
  address : x.address = m.clientAddress
  producerId : x.wrapper.producerId = m.producerId
  result : x.wrapper.result = result
  token : x.wrapper.returnToken = true → ∃ mp, x.latestInput = some mp ∧ mp.metadata = m
  required : x.wrapper.returnToken = false → (d.workers c).allResponsesRequired = true

theorem Passes.forwardedResult (h : d.Passes c k m result x) :
    x.event.forwardedResult = some (c, k, m.clientAddress, x.wrapper) := by
  simp [ResultMessage.event, h.origin, h.address]

theorem Answered.resultMessages {m : Option Metadata} {ans : Answer} (h : Answered d c k result m (d', ans)) :
    resultMessages d'.log = resultMessages d.log ∨
      ∃ m' x, m = some m' ∧ resultMessages d'.log = resultMessages d.log ++ [x] ∧ d.Passes c k m' result x := by
  cases h with
  | noMetadata => exact Or.inl rfl
  | noProducer => exact Or.inl rfl
  | @token mp _ hlatest =>
    refine Or.inr ⟨mp.metadata, _, rfl, resultMessages_append .., rfl, rfl, rfl, rfl, fun _ => ⟨mp, rfl, rfl⟩, ?_⟩
    rintro ⟨⟩
  | @copy m _ hall =>
    refine Or.inr ⟨m, _, rfl, resultMessages_append .., rfl, rfl, rfl, rfl, ?_, fun _ => hall⟩
    rintro ⟨⟩
  | next => exact Or.inl rfl

/-- A result of an engine that requires all responses is passed on. -/
theorem answerResult_passes (hinfo : (d.producerInfos m.producerId).isSome)
    (hall : (d.workers c).allResponsesRequired = true) :
    forwarded (d.answerResult c k (some m) result).1.log ≠ forwarded d.log := by
  obtain ⟨info, hinfo⟩ := Option.isSome_iff_exists.1 hinfo
  simp only [answerResult, hinfo, hall, ↓reduceIte]
  split <;> simp [forwardResult]

theorem RemovalBegun.resultMessages {r : Option (Address × ResultWrapper)} (h : RemovalBegun d c (d', r)) :
    ∃ xs, resultMessages d'.log = resultMessages d.log ++ xs ∧ ∀ x ∈ xs, x.IsNotice := by
  cases h with
  | silent => exact ⟨[], by simp, by simp⟩
  | @released mp _ hlatest =>
    refine ⟨_, resultMessages_append .., ?_⟩
    simp only [resultMessages_cons, DispatchEvent.resultMessage, resultMessages_nil, Option.toList_some,
      List.append_nil, List.mem_singleton, forall_eq]
    exact ⟨⟨c, rfl⟩, fun _ => ⟨mp, rfl, rfl, rfl, rfl⟩⟩

theorem NextSent.resultMessages {b : Bool} {r : Dispatcher × Bool} (h : NextSent d c b r) :
    resultMessages r.1.log = resultMessages d.log := by
  cases h <;> cases b <;> simp

end Dispatcher

namespace Interleaved

variable {cfg : Config} {s s' : Server} {sys sys' : Sys} {act : Action} {c : Context} {pc pc' : SessionPc}

/-! ### Reading a result -/

/-- The next message of `c` is read as its `k`-th result, and taken to be for the current input of its worker. -/
structure Reads (d d' : Dispatcher) (c : Context) (k : Nat) (m : Option Metadata) (result : Result) : Prop where
  number : k = (results d.log c).length
  metadata : m = (d.workers c).currentInputMetadata
  stamped : ∃ msg, result = d.stampResult c msg ∧ d' = d.emit (.gotResult c msg.asResult)

/-- A result for an input has the frame id of that input. -/
theorem Reads.frameId {d d' : Dispatcher} {k : Nat} {m : Metadata} {result : Result}
    (h : Reads d d' c k (some m) result) :
    ∃ r, (results d'.log c)[k]? = some r ∧ result = { r with frameId := m.frameId } := by
  obtain ⟨hk, hm, msg, hresult, hd'⟩ := h
  refine ⟨msg.asResult, by simp [hd', hk], ?_⟩
  rw [hresult, Dispatcher.stampResult, ← hm]

/-- A session comes to the sinks by reading a result. -/
theorem SessionStep.reads {k : Nat} {m : Option Metadata} {result : Result} (h : SessionStep act c pc s s' pc')
    (hpc' : pc' = .sinking k m result) : pc = .idle ∧ Reads s.dispatcher s'.dispatcher c k m result := by
  have hresting : ∀ {pc : SessionPc}, pc.resting → pc ≠ .sinking k m result := by
    rintro pc h rfl
    exact h
  cases h with
  | @read msg _ _ hpc =>
    obtain ⟨hk, hm, hresult⟩ := SessionPc.sinking.inj hpc'
    exact ⟨hpc, by rw [← hk, Dispatcher.resultsRead_eq], hm.symm, msg, hresult.symm, rfl⟩
  | unread => cases hpc'
  | forwarded => cases hpc'
  | stopped => cases hpc'
  | unsent _ _ _ h => exact absurd hpc' (hresting h)
  | fed _ _ h => exact absurd hpc' (hresting h)
  | inserted _ _ _ _ _ h => exact absurd hpc' (hresting h)
  | takeover => cases hpc'
  | managed _ h => exact absurd hpc' (hresting h)

/-- A session at the sinks was there before the step, or has read the result in it. -/
theorem sinking_step {k : Nat} {m : Option Metadata} {result : Result} (hstep : step cfg sys act = some sys')
    (hc' : sys'.sessions c = some (.sinking k m result)) :
    (act.session ≠ some c ∧ sys.sessions c = some (.sinking k m result)) ∨
      (act.session = some c ∧ sys.sessions c = some .idle ∧
        Reads sys.server.dispatcher sys'.server.dispatcher c k m result) := by
  cases step_outline hstep with
  | stream hact _ _ hsessions => exact Or.inl ⟨by simp [hact], hsessions ▸ hc'⟩
  | opened hact _ hsessions =>
    rw [hsessions] at hc'
    by_cases he : c = sys.server.dispatcher.nextContext
    · simp [he] at hc'
    · exact Or.inl ⟨by simp [hact, Action.session], by rwa [Function.update_of_ne he] at hc'⟩
  | @session c₀ pc pc' hact hc₀ hs hsessions =>
    rw [hsessions] at hc'
    by_cases he : c = c₀
    · subst he
      rw [Function.update_self, Option.some.injEq] at hc'
      obtain ⟨rfl, hreads⟩ := hs.reads hc'
      exact Or.inr ⟨hact, hc₀, hreads⟩
    · exact Or.inl ⟨by simpa [hact] using Ne.symm he, by rwa [Function.update_of_ne he] at hc'⟩

/-! ### Notices and results -/

theorem Removals.resultMessages (h : Removals s s') :
    ∃ xs, resultMessages s'.dispatcher.log = resultMessages s.dispatcher.log ++ xs ∧ ∀ x ∈ xs, x.IsNotice := by
  refine h.dispatcher (P := fun d => ∃ xs, DispatchLog.resultMessages d.log =
    DispatchLog.resultMessages s.dispatcher.log ++ xs ∧ ∀ x ∈ xs, x.IsNotice) (fun h hd => ?_)
    (fun _ hd => by simpa using hd) ⟨[], by simp, by simp⟩
  obtain ⟨xs, hxs, hnotices⟩ := hd
  obtain ⟨ys, hys, hmore⟩ := h.resultMessages
  refine ⟨xs ++ ys, by rw [hys, hxs, List.append_assoc], fun x hx => ?_⟩
  exact (List.mem_append.1 hx).elim (hnotices x) (hmore x)

/-- What a step of the session `c` at `pc` adds to the calls of `send_result`: notices about engines that it removes,
or the result it is dealing with. -/
inductive Messages (d d' : Dispatcher) (c : Context) (pc : SessionPc) : Prop
  | notices {xs : List ResultMessage} (hxs : ∀ x ∈ xs, x.IsNotice)
      (h : resultMessages d'.log = resultMessages d.log ++ xs) : Messages d d' c pc
  | passed {k : Nat} {m : Metadata} {result : Result} {x : ResultMessage} (hpc : pc = .sinking k (some m) result)
      (hx : d.Passes c k m result x) (h : resultMessages d'.log = resultMessages d.log ++ [x]) : Messages d d' c pc

theorem SessionStep.messages (h : SessionStep act c pc s s' pc') : Messages s.dispatcher s'.dispatcher c pc := by
  have hsame : ∀ {d : Dispatcher}, resultMessages d.log = resultMessages s.dispatcher.log →
      Messages s.dispatcher d c pc := fun h =>
    .notices (List.forall_mem_nil _) (h.trans (List.append_nil _).symm)
  have hremoved : ∀ {s₁ : Server}, Removals s s₁ → Messages s.dispatcher s₁.dispatcher c pc := by
    intro s₁ h
    obtain ⟨xs, hxs, hnotices⟩ := h.resultMessages
    exact .notices hnotices hxs
  have hanswered : ∀ {k m result d d' ans}, pc = .sinking k m result →
      Dispatcher.Answered s.dispatcher c k result m (d, ans) → resultMessages d'.log = resultMessages d.log →
      Messages s.dispatcher d' c pc := by
    rintro k m result d d' ans hpc h hd'
    rcases h.resultMessages with hd | ⟨m', x, rfl, hd, hx⟩
    · exact hsame (hd'.trans hd)
    · exact .passed hpc hx (hd'.trans hd)
  cases h with
  | read => exact hsame (by simp)
  | unread => exact hsame (by simp)
  | forwarded hpc h => exact hanswered hpc h rfl
  | stopped hpc h => exact hanswered hpc h rfl
  | unsent hpc h hnext => exact hanswered hpc h hnext.resultMessages
  | fed hpc hnext => exact hsame hnext.resultMessages
  | inserted id ar _ h =>
    obtain ⟨xs, hxs, hnotices⟩ := h.resultMessages
    exact .notices hnotices hxs
  | takeover _ h => exact hremoved h
  | managed h => exact hremoved h

theorem StreamEffect.resultMessages {d d' : Dispatcher} (h : StreamEffect d d') :
    resultMessages d'.log = resultMessages d.log := by
  cases h with
  | sent c mp b => cases b <;> simp
  | _ => simp

/-- Only sessions call `send_result`. -/
theorem messages_step (hstep : step cfg sys act = some sys') :
    resultMessages sys'.server.dispatcher.log = resultMessages sys.server.dispatcher.log ∨
      ∃ c pc, act.session = some c ∧ sys.sessions c = some pc ∧
        Messages sys.server.dispatcher sys'.server.dispatcher c pc := by
  cases step_outline hstep with
  | stream _ _ h =>
    exact Or.inl (h.invariant (P := fun d => resultMessages d.log = resultMessages sys.server.dispatcher.log)
      (fun h hd => h.resultMessages.trans hd) rfl)
  | opened _ h => exact Or.inl (by rw [h]; rfl)
  | session hact hc hs => exact Or.inr ⟨_, _, hact, hc, hs.messages⟩

/-- A step forwards at most one result, which its session was dealing with. -/
theorem forwarded_step (hstep : step cfg sys act = some sys') :
    forwarded sys'.server.dispatcher.log = forwarded sys.server.dispatcher.log ∨
      ∃ c k m result x, act.session = some c ∧ sys.sessions c = some (.sinking k (some m) result) ∧
        sys.server.dispatcher.Passes c k m result x ∧ forwarded sys'.server.dispatcher.log =
          forwarded sys.server.dispatcher.log ++ [(c, k, m.clientAddress, x.wrapper)] := by
  simp only [forwarded_eq]
  rcases messages_step hstep with h | ⟨c, pc, hact, hc, hm⟩
  · exact Or.inl (by rw [h])
  · cases hm with
    | notices hxs h =>
      refine Or.inl ?_
      rw [h, List.filterMap_append, List.append_right_eq_self, List.filterMap_eq_nil_iff]
      exact fun x hx => (hxs x hx).forwardedResult
    | @passed k m result x hpc hx h =>
      refine Or.inr ⟨c, k, m, result, x, hact, hpc ▸ hc, hx, ?_⟩
      rw [h, List.filterMap_append, List.filterMap_cons, hx.forwardedResult, List.filterMap_nil]

end Interleaved

end Gabriel
