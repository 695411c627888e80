import Gabriel.Lib.Exchange
import Gabriel.Server.Provenance
import Gabriel.Server.ResultMessages

/-!
# Results are attributed to the inputs they were computed from

A result of an engine does not say which input it is for: `_handle_from_engine` takes the `current_input_metadata` of
the worker.  The exchange with each engine is an `Exchange`, with the worker's slot and the session as its handler, so
the slot is right provided that the engine answers its inputs in order with one result each.
-/

namespace Gabriel

open DispatchLog

namespace Dispatcher

variable {d d' : Dispatcher} {c c' : Context} {mp : MetadataPayload} {φ : Exchange.Phase Metadata}

/-- The exchange with the engine `c`, whose session is in the phase `φ`. -/
def exchange (d : Dispatcher) (c : Context) (φ : Exchange.Phase Metadata) :
    Exchange MetadataPayload Result Metadata where
  sent := writtenTo d.log c
  replies := results d.log c
  slot := (d.workers c).currentInputMetadata
  phase := φ

/-- A step of an exchange of the dispatcher. -/
abbrev ExchangeStep : Exchange MetadataPayload Result Metadata → Exchange MetadataPayload Result Metadata → Prop :=
  Exchange.Step MetadataPayload.metadata

/-- Operations that leave the exchange with `c` alone. -/
theorem exchange_of_eq {l : List DispatchEvent} (hlog : d'.log = d.log ++ l) (hw : writtenTo l c = [])
    (hr : results l c = [])
    (hslot : (d'.workers c).currentInputMetadata = (d.workers c).currentInputMetadata) :
    d'.exchange c φ = d.exchange c φ := by
  simp [exchange, hlog, hw, hr, hslot]

theorem Answered.exchange {k : Nat} {m : Option Metadata} {result : Result} {ans : Answer}
    (h : Answered d c k result m (d', ans)) : d'.exchange c' φ = d.exchange c' φ := by
  cases h with
  | noMetadata => rfl
  | noProducer => rfl
  | token => exact exchange_of_eq (release_log ..) (by simp) (by simp) rfl
  | copy => exact exchange_of_eq (emit_log ..) (by simp) (by simp) rfl
  | next => rfl

theorem RemovalBegun.exchange {r : Option (Address × ResultWrapper)} (h : RemovalBegun d c (d', r)) :
    d'.exchange c' φ = d.exchange c' φ := by
  cases h with
  | silent => rfl
  | released => exact exchange_of_eq (release_log ..) (by simp) (by simp) rfl

theorem NextSent.exchange_ne {b : Bool} {r : Dispatcher × Bool} (h : NextSent d c b r) (hne : c' ≠ c) :
    r.1.exchange c' φ = d.exchange c' φ := by
  cases h with
  | none => exact exchange_of_eq (l := []) (by simp) rfl rfl (by simp [hne])
  | dequeued => cases b <;> simp [Dispatcher.exchange, hne, hne.symm]
  | pickedUp => cases b <;> simp [Dispatcher.exchange, hne, hne.symm]

/-- The exchange with `c` after an input was put into its slot. -/
def put (d : Dispatcher) (c : Context) (mp : MetadataPayload) (b : Bool) (φ : Exchange.Phase Metadata) :
    Exchange MetadataPayload Result Metadata where
  sent := writtenTo d.log c ++ if b then [mp] else []
  replies := results d.log c
  slot := some mp.metadata
  phase := φ

/-- `send_next_input` fills or empties the slot. -/
theorem NextSent.exchange {b : Bool} {r : Dispatcher × Bool} (h : NextSent d c b r) (hφ : φ.busy) :
    ExchangeStep (d.exchange c φ) (r.1.exchange c .waiting) := by
  have hnext : ∀ mp, ExchangeStep (d.exchange c φ) (d.put c mp b .waiting) := fun mp =>
    .next mp (if b then [mp] else []) (by cases b <;> simp) hφ
  cases h with
  | none => simpa [Dispatcher.exchange] using Exchange.Step.clear (s := d.exchange c φ) hφ
  | @dequeued _ _ mp => cases b <;> simpa [Dispatcher.exchange, put] using hnext mp
  | @pickedUp _ _ mp => cases b <;> simpa [Dispatcher.exchange, put] using hnext mp

/-- The dispatch loop fills an empty slot, or leaves the exchange alone. -/
theorem Dispatched.exchange {b : Bool} {order : List Context} {r : Dispatcher × Option (List Context)}
    (h : Dispatched d mp b order r) (c : Context) : r.1.exchange c φ = d.exchange c φ ∨
      (c ∈ order ∧ (φ ≠ .closed → ExchangeStep (d.exchange c φ) (r.1.exchange c φ))) := by
  have hadd : ∀ cs p, (d.addProducers cs p).exchange c φ = d.exchange c φ := fun cs p =>
    exchange_of_eq (l := []) (by simp) rfl rfl (by simp)
  cases h with
  | busy => exact Or.inl (hadd ..)
  | @wrote c₀ busy rest _ hidle =>
    by_cases hc : c = c₀
    · subst hc
      have hsend : φ ≠ .closed → ExchangeStep (d.exchange c φ) (d.put c mp b φ) := fun hφ =>
        .send mp (if b then [mp] else []) (by cases b <;> simp) hidle hφ
      refine Or.inr ⟨by simp, fun hφ => ?_⟩
      cases b <;> simpa [Dispatcher.exchange, put] using hsend hφ
    · refine Or.inl (Eq.trans ?_ (hadd (busy ++ [c₀]) mp.producerId))
      cases b <;> simp [Dispatcher.exchange, hc, Ne.symm hc]

end Dispatcher

namespace Interleaved

open Dispatcher (ExchangeStep)

variable {cfg : Config} {s s' : Server} {sys sys' : Sys} {act : Action} {c c' : Context} {pc pc' : SessionPc}
  {φ : Exchange.Phase Metadata}

/-! ### Each engine is an exchange -/

/-- A session as the handler of an exchange. -/
def SessionPc.phase : Option SessionPc → Exchange.Phase Metadata
  | none | some .connected | some (.takeover _ _ _ _) => .closed
  | some (.sinking k m _) => .handling k m
  | some .answering => .handled
  | some _ => .waiting

theorem SessionPc.phase_of_registering (h : pc.registering) : SessionPc.phase (some pc) = .closed := by
  cases pc <;> simp_all [SessionPc.registering, SessionPc.phase]

theorem SessionPc.phase_of_resting (h : pc.resting) : SessionPc.phase (some pc) = .waiting := by
  cases pc <;> simp_all [SessionPc.resting, SessionPc.phase]

theorem SessionPc.phase_ne_closed (h : ¬ pc.registering) : SessionPc.phase (some pc) ≠ .closed := by
  cases pc <;> simp_all [SessionPc.registering, SessionPc.phase]

/-- The exchange with the engine `c`. -/
def Sys.exchange (sys : Sys) (c : Context) : Exchange MetadataPayload Result Metadata :=
  sys.server.dispatcher.exchange c (SessionPc.phase (sys.sessions c))

/-- The engines answer the inputs on their streams in order: a result is read from an engine only if it has an input
to answer.  The `k`-th result is that for the `k`-th input. -/
def Action.answersInOrder (sys : Sys) : Action → Prop
  | .engineMessage _ (.register _ _) => True
  | .engineMessage c _ =>
    sys.server.dispatcher.resultsRead c < (writtenTo sys.server.dispatcher.log c).length
  | _ => True

instance (sys : Sys) : DecidablePred (Action.answersInOrder sys)
  | .engineMessage _ (.register _ _) => inferInstanceAs (Decidable True)
  | .engineMessage _ .unset => inferInstanceAs (Decidable (_ < _))
  | .engineMessage _ (.result _) => inferInstanceAs (Decidable (_ < _))
  | .openClient _ | .openProducer _ | .message _ _ _ _ | .resumeStream _ _ _ | .closeStream _ | .openSession
  | .resumeSession _ _ _ | .closeSession _ => inferInstanceAs (Decidable True)

theorem Action.answersInOrder.lt_of_result {msg : FromEngine} (h : act.answersInOrder sys)
    (hact : act = .engineMessage c msg) (hmsg : ∀ id ar, msg ≠ .register id ar) :
    (results sys.server.dispatcher.log c).length < (writtenTo sys.server.dispatcher.log c).length := by
  subst hact
  rw [← Dispatcher.resultsRead_eq]
  cases msg with
  | register id ar => exact absurd rfl (hmsg id ar)
  | unset => exact h
  | result r => exact h

theorem Removals.exchange (h : Removals s s') : s'.dispatcher.exchange c φ = s.dispatcher.exchange c φ :=
  h.dispatcher (P := fun d => d.exchange c φ = s.dispatcher.exchange c φ) (fun h hd => h.exchange.trans hd)
    (fun _ hd => (Dispatcher.exchange_of_eq (l := []) (by simp) rfl rfl (by simp)).trans hd) rfl

/-- A session leaves the exchanges with other engines alone. -/
theorem SessionStep.exchange_ne (h : SessionStep act c pc s s' pc') (hne : c' ≠ c) :
    s'.dispatcher.exchange c' φ = s.dispatcher.exchange c' φ := by
  cases h with
  | read => exact Dispatcher.exchange_of_eq (Dispatcher.emit_log ..) (by simp) (by simp [hne.symm]) rfl
  | unread => exact Dispatcher.exchange_of_eq (Dispatcher.emit_log ..) (by simp) (by simp [hne.symm]) rfl
  | forwarded _ h => exact h.exchange
  | stopped _ h => exact h.exchange
  | unsent _ h hnext => exact (hnext.exchange_ne hne).trans h.exchange
  | fed _ hnext => exact hnext.exchange_ne hne
  | inserted id ar _ h =>
    refine Eq.trans ?_ h.exchange
    exact Dispatcher.exchange_of_eq (l := []) (by simp) rfl rfl (by simp [hne])
  | takeover _ h => exact h.exchange
  | managed h => exact h.exchange

/-- A session takes a step of its own exchange. -/
theorem SessionStep.exchange (h : SessionStep act c pc sys.server s' pc') (hact : act.answersInOrder sys) :
    Relation.ReflTransGen ExchangeStep (sys.server.dispatcher.exchange c (SessionPc.phase (some pc)))
      (s'.dispatcher.exchange c (SessionPc.phase (some pc'))) := by
  cases h with
  | @read msg ha hmsg hpc =>
    have hlt := hact.lt_of_result ha hmsg
    subst hpc
    have hread : ExchangeStep _ _ :=
      Exchange.Step.read (s := sys.server.dispatcher.exchange c .waiting) msg.asResult rfl hlt
    refine .single ?_
    simpa [Dispatcher.exchange, SessionPc.phase, Dispatcher.resultsRead_eq] using hread
  | @unread msg ha hmsg hpc =>
    have hlt := hact.lt_of_result ha hmsg
    subst hpc
    have hskip : ExchangeStep _ _ :=
      Exchange.Step.skip (s := sys.server.dispatcher.exchange c .waiting) msg.asResult rfl hlt
    refine .single ?_
    simpa [Dispatcher.exchange, SessionPc.phase] using hskip
  | forwarded hpc h =>
    subst hpc
    rw [h.exchange]
    exact .single (.handle trivial)
  | stopped hpc h =>
    rw [h.exchange]
    exact .single .abandon
  | unsent hpc h hnext hpc' =>
    subst hpc
    rw [← h.exchange, SessionPc.phase_of_resting hpc']
    exact .single (hnext.exchange trivial)
  | fed hpc hnext hpc' =>
    subst hpc
    rw [SessionPc.phase_of_resting hpc']
    exact .single (hnext.exchange trivial)
  | @inserted s₁ _ _ id ar hpc h _ hpc' =>
    rw [← h.exchange, SessionPc.phase_of_registering hpc, SessionPc.phase_of_resting hpc']
    have hstart : ExchangeStep _ _ := Exchange.Step.start (s := s₁.dispatcher.exchange c .closed) rfl
    refine .single ?_
    simpa [Dispatcher.exchange] using hstart
  | takeover hpc h =>
    rw [h.exchange, SessionPc.phase_of_registering hpc]
    exact .refl
  | managed h hpc' =>
    rw [h.exchange, SessionPc.phase_of_resting hpc']
    exact .single .abandon

section Streams

variable {stream : Stream}

/-- What a stream does to the exchanges: only the contexts that its dispatch loop can come to are concerned. -/
private theorem exchange_dispatched {d₀ d d' : Dispatcher} {mp : MetadataPayload} {b : Bool} {order : List Context}
    {r : Option (List Context)} (h : Dispatcher.Dispatched d₀ mp b order (d, r))
    (h₀ : ∀ φ, d₀.exchange c φ = sys.server.dispatcher.exchange c φ) (h' : ∀ φ, d'.exchange c φ = d.exchange c φ)
    (horder : ∀ c ∈ order, sys.Registered c) :
    Relation.ReflTransGen ExchangeStep (sys.exchange c) (d'.exchange c (SessionPc.phase (sys.sessions c))) := by
  rw [h']
  rcases h.exchange (φ := SessionPc.phase (sys.sessions c)) c with he | ⟨hc, hs⟩
  · rw [he, h₀]
    exact .refl
  · obtain ⟨pc, hpc, hreg⟩ := horder c hc
    rw [h₀, hpc] at hs
    simp only [Sys.exchange, hpc]
    exact .single (hs (SessionPc.phase_ne_closed hreg))

theorem MessageStep.exchange {a : Address} {ref : ClientRef} {msg : FromClient} {pc : StreamPc}
    (h : MessageStep cfg sys.server a ref msg s pc) (hused : sys.ContextsUsed) :
    Relation.ReflTransGen ExchangeStep (sys.exchange c)
      (s.dispatcher.exchange c (SessionPc.phase (sys.sessions c))) := by
  have hbegin : ∀ p ts φ, (sys.server.dispatcher.beginInput p ts).exchange c φ =
      sys.server.dispatcher.exchange c φ := fun p ts φ =>
    Dispatcher.exchange_of_eq (l := []) (by simp) rfl rfl (by simp)
  cases h with
  | registered => exact .refl
  | unregistered => exact .refl
  | noTokens => exact .refl
  | noEngine =>
    rw [hbegin]
    exact .refl
  | suspended _ _ _ hperm hr =>
    exact exchange_dispatched (Dispatcher.dispatchLoop_cases hr) (hbegin _ _) (fun _ => rfl) (hused.order hperm)
  | enqueued _ _ _ hperm hr =>
    refine exchange_dispatched (Dispatcher.dispatchLoop_cases hr) (hbegin _ _) (fun φ => ?_) (hused.order hperm)
    simp [Dispatcher.exchange]
  | dropped _ _ hperm hr =>
    exact exchange_dispatched (Dispatcher.dispatchLoop_cases hr) (hbegin _ _) (fun _ => rfl) (hused.order hperm)

theorem ResumeStep.exchange {pc : StreamPc} (h : ResumeStep cfg sys.server stream s pc) (hmem : stream ∈ sys.streams)
    (hused : sys.ContextsUsed) :
    Relation.ReflTransGen ExchangeStep (sys.exchange c)
      (s.dispatcher.exchange c (SessionPc.phase (sys.sessions c))) := by
  have htargets := hused.targets stream hmem
  cases h with
  | settled => exact .refl
  | suspended hpc hr =>
    rw [hpc] at htargets
    exact exchange_dispatched (Dispatcher.dispatchLoop_cases hr) (fun _ => rfl) (fun _ => rfl) htargets
  | concluded hpc hr =>
    rw [hpc] at htargets
    refine exchange_dispatched (Dispatcher.dispatchLoop_cases hr) (fun _ => rfl) (fun φ => ?_) htargets
    simp [Dispatcher.exchange]

end Streams

/-- A step of the system is, for each engine, some steps of the exchange with it. -/
theorem step_exchange (hstep : step cfg sys act = some sys') (hused : sys.ContextsUsed)
    (hact : act.answersInOrder sys) (c : Context) :
    Relation.ReflTransGen ExchangeStep (sys.exchange c) (sys'.exchange c) := by
  cases step_cases hstep with
  | openClient => exact .refl
  | openProducer => exact .refl
  | unknownClient => exact .refl
  | message _ _ _ hm => exact hm.exchange hused
  | resumed hi hr => exact hr.exchange (List.mem_of_getElem? hi) hused
  | closed hi _ hr => exact hr.exchange (List.mem_of_getElem? hi) hused
  | openSession =>
    by_cases hc : c = sys.server.dispatcher.nextContext
    · subst hc
      have hfresh := hused.fresh _ (Nat.le_refl sys.server.dispatcher.nextContext)
      simp only [Sys.exchange, hfresh, Function.update_self]
      exact .refl
    · simp only [Sys.exchange, Function.update_of_ne hc]
      exact .refl
  | @session _ c₀ pc pc' s hc _ hs =>
    by_cases he : c = c₀
    · subst he
      simpa [Sys.exchange, Sys.setSession, hc] using hs.exchange hact
    · simp only [Sys.exchange, Sys.setSession, Function.update_of_ne he, hs.exchange_ne he]
      exact .refl

/-- Every engine is an exchange. -/
theorem run_exchange {as : List Action} (h : (machine cfg).RunWhere (fun sys a => a.answersInOrder sys) as sys)
    (c : Context) : Exchange.Reachable MetadataPayload.metadata (sys.exchange c) := by
  have hinit : Exchange.Reachable MetadataPayload.metadata (Sys.exchange {} c) := Relation.ReflTransGen.refl
  exact h.invariant_of (I := fun sys => Exchange.Reachable MetadataPayload.metadata (sys.exchange c))
    (J := Sys.ContextsUsed) (fun h => run_contextsUsed h.run) hinit
    (fun _ _ _ hused hreach hact hstep => hreach.trans (step_exchange hstep hused hact c))

/-! ### Forwarded results -/

/-- The message `w` to the address `a` is the `k`-th result of `c`, computed from the `k`-th input written to `c`. -/
def Attributed (d : Dispatcher) (c : Context) (k : Nat) (a : Address) (w : ResultWrapper) : Prop :=
  ∃ mp r, (writtenTo d.log c)[k]? = some mp ∧ (results d.log c)[k]? = some r ∧ a = mp.metadata.clientAddress ∧
    w.producerId = mp.producerId ∧ w.result = { r with frameId := mp.metadata.frameId }

/-- The results at hand are stamped with the frame id that their session took, and those forwarded are attributed. -/
structure Sys.Forwards (sys : Sys) : Prop where
  stamped : ∀ c k m result, sys.sessions c = some (.sinking k (some m) result) →
    ∃ r, (results sys.server.dispatcher.log c)[k]? = some r ∧ result = { r with frameId := m.frameId }
  attributed : ∀ c k a w, (c, k, a, w) ∈ forwarded sys.server.dispatcher.log →
    Attributed sys.server.dispatcher c k a w

theorem getElem?_of_prefix {α : Type} {l l' : List α} {k : Nat} {x : α} (h : l <+: l') (hk : l[k]? = some x) :
    l'[k]? = some x := by
  obtain ⟨t, rfl⟩ := h
  rw [List.getElem?_append_left (List.getElem?_eq_some_iff.1 hk).1, hk]

theorem Attributed.mono {d d' : Dispatcher} {k : Nat} {a : Address} {w : ResultWrapper} (h : Attributed d c k a w)
    (hw : writtenTo d.log c <+: writtenTo d'.log c) (hr : results d.log c <+: results d'.log c) :
    Attributed d' c k a w := by
  obtain ⟨mp, r, hmp, hres, h⟩ := h
  exact ⟨mp, r, getElem?_of_prefix hw hmp, getElem?_of_prefix hr hres, h⟩

theorem forwards_step (hstep : step cfg sys act = some sys') (hact : act.answersInOrder sys)
    (hused : sys.ContextsUsed) (hex : ∀ c, Exchange.Invariant MetadataPayload.metadata (sys.exchange c))
    (h : sys.Forwards) : sys'.Forwards := by
  have hgrows : ∀ c, writtenTo sys.server.dispatcher.log c <+: writtenTo sys'.server.dispatcher.log c ∧
      results sys.server.dispatcher.log c <+: results sys'.server.dispatcher.log c := fun c =>
    Exchange.grows_of_steps (step_exchange hstep hused hact c)
  constructor
  · intro c k m result hc'
    rcases sinking_step hstep hc' with ⟨-, hc⟩ | ⟨-, -, hreads⟩
    · obtain ⟨r, hr, hresult⟩ := h.stamped c k m result hc
      exact ⟨r, getElem?_of_prefix (hgrows c).2 hr, hresult⟩
    · exact hreads.frameId
  · intro c k a w hmem
    refine Attributed.mono ?_ (hgrows c).1 (hgrows c).2
    rcases forwarded_step hstep with hsame | ⟨c₀, k₀, m, result, x, -, hc₀, hpasses, hnew⟩
    · exact h.attributed c k a w (hsame ▸ hmem)
    rw [hnew, List.mem_append, List.mem_singleton] at hmem
    rcases hmem with hmem | hx
    · exact h.attributed c k a w hmem
    · cases hx
      have hphase := (hex c).phase
      simp only [Sys.exchange, hc₀] at hphase
      obtain ⟨-, -, -, mp, hmp, hm⟩ := hphase
      obtain ⟨r, hr, hresult⟩ := h.stamped c k m result hc₀
      cases hm
      exact ⟨mp, r, hmp, hr, rfl, hpasses.producerId, hpasses.result.trans hresult⟩

theorem run_forwards {as : List Action} (h : (machine cfg).RunWhere (fun sys a => a.answersInOrder sys) as sys) :
    sys.Forwards := by
  have hinit : Sys.Forwards {} := ⟨fun _ _ _ _ hc => (nomatch hc), fun _ _ _ _ hmem => (nomatch hmem)⟩
  exact h.invariant_of (I := Sys.Forwards)
    (J := fun sys => sys.ContextsUsed ∧ ∀ c, Exchange.Invariant MetadataPayload.metadata (sys.exchange c))
    (fun h => ⟨run_contextsUsed h.run, fun c => (run_exchange h c).invariant⟩) hinit
    (fun _ _ _ hJ h hact hstep => forwards_step hstep hact hJ.1 hJ.2 h)

/-- Results are never misattributed.  If the engines answer their inputs in order with one result each, then an engine
has at most one unanswered input; the input that a session takes a result to be for is the one it was computed from;
a result that is forwarded carries the frame id and the producer of that input and goes to the address it came from;
and every input was written together with the client info that its client had registered when it was taken up. -/
theorem results_attributed {as : List Action}
    (h : (machine cfg).RunWhere (fun sys a => a.answersInOrder sys) as sys) :
    (∀ c, (writtenTo sys.server.dispatcher.log c).length ≤ (results sys.server.dispatcher.log c).length + 1) ∧
    (∀ c k m result, sys.sessions c = some (.sinking k m result) →
      ∃ mp r, (writtenTo sys.server.dispatcher.log c)[k]? = some mp ∧
        (results sys.server.dispatcher.log c)[k]? = some r ∧ m = some mp.metadata ∧
        (sys.server.dispatcher.workers c).currentInputMetadata = some mp.metadata ∧
        result = { r with frameId := mp.metadata.frameId }) ∧
    (∀ c k a w latest, .sendResult (.result c k) a w latest ∈ sys.server.dispatcher.log →
      Attributed sys.server.dispatcher c k a w) ∧
    (∀ c msg mp, .wrote c msg mp ∈ sys.server.dispatcher.log → msg.inputFrame = mp.payload ∧
      msg.clientInfo = mp.metadata.clientInfo ∧ ClientLog.TakenUp sys.server.frontend.log mp) := by
  have hex := fun c => (run_exchange h c).invariant
  have hforwards := run_forwards h
  have htraced := run_traced h.run
  refine ⟨fun c => (hex c).sent_le, fun c k m result hc => ?_, fun c k a w latest hmem => ?_, fun c msg mp hw => ?_⟩
  · have hphase := (hex c).phase
    simp only [Sys.exchange, hc] at hphase
    obtain ⟨-, -, hslot, mp, hmp, rfl⟩ := hphase
    obtain ⟨r, hr, hresult⟩ := hforwards.stamped c k mp.metadata result hc
    exact ⟨mp, r, hmp, hr, rfl, hslot, hresult⟩
  · exact hforwards.attributed c k a w (List.mem_filterMap.2 ⟨_, hmem, rfl⟩)
  · obtain rfl := htraced.writes c msg mp hw
    exact ⟨rfl, rfl, htraced.knows mp (Or.inr (Or.inr ⟨c, _, hw⟩))⟩

/-- Two clients with one producer id.  The frame of the second comes while the engine works on that of the first, and
is on its way to the engine when the first client registers again. -/
theorem results_attributed_of_two_clients :
    ∃ as sys, (machine { clientTransport := .websocket, numTokensPerProducer := 2, sizeForQueues := 2 }).RunWhere
        (fun sys a => a.answersInOrder sys) as sys ∧
      (forwarded sys.server.dispatcher.log).map (fun x => (x.2.2.1, x.2.2.2.result.frameId)) =
        [("first", 7), ("second", 3)] ∧
      ∀ c k a w latest, .sendResult (.result c k) a w latest ∈ sys.server.dispatcher.log →
        Attributed sys.server.dispatcher c k a w := by
  obtain ⟨sys, hrun, h⟩ := Machine.exists_runWhere
    (M := machine { clientTransport := .websocket, numTokensPerProducer := 2, sizeForQueues := 2 })
    (G := fun sys a => a.answersInOrder sys) (g := fun sys a => decide (a.answersInOrder sys))
    (fun _ _ h => of_decide_eq_true h)
    (fun sys => (forwarded sys.server.dispatcher.log).map (fun x => (x.2.2.1, x.2.2.2.result.frameId)) =
      [("first", 7), ("second", 3)])
    [.openSession, .engineMessage 0 (.register "A" false), .openClient "first", .openClient "second",
      .message 0 (.registration {}) [] false, .message 1 (.registration {}) [] false, .resumeStream 0 false false,
      .resumeStream 1 false false,
      .message 0 (.input { frameId := 7, producerId := "P", targetEngineIds := ["A"] }) [0] true,
      .message 1 (.input { frameId := 3, producerId := "P", targetEngineIds := ["A"] }) [0] false,
      .resumeStream 0 false false, .engineMessage 0 (.result {}), .resumeSession 0 false false,
      .resumeSession 0 false true, .message 0 (.registration {}) [] false, .resumeSession 0 false false,
      .engineMessage 0 (.result {}), .resumeSession 0 false false] (by decide)
  exact ⟨_, sys, hrun, h, (results_attributed hrun).2.2.1⟩

end Interleaved

end Gabriel
