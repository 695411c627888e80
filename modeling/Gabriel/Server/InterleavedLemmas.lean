import Gabriel.Server.SessionLemmas

/-!
# What a step with interleaving handlers does

A step of a client's stream is one of a few cases (`MessageStep`, `ResumeStep`), as is a step of an engine's session
(`SessionStep`).  `step_cases` puts them together.
-/

namespace Gabriel

namespace Interleaved

open Frontend

variable {cfg : Config} {s s' : Server} {c : Context}

/-! ### Streams -/

/-- The consumer is not in a dispatch loop. -/
def StreamPc.settled : StreamPc → Prop
  | .dispatching _ _ _ => False
  | _ => True

/-- The handler of the stream has not ended. -/
def StreamPc.running : StreamPc → Prop
  | .finished _ => False
  | _ => True

/-- The targets that a dispatch loop has still to come to. -/
def StreamPc.targets : StreamPc → List Context
  | .dispatching _ _ rest => rest
  | _ => []

@[simp] theorem StreamPc.targets_dispatching (ref : ClientRef) (mp : MetadataPayload) (rest : List Context) :
    (StreamPc.dispatching ref mp rest).targets = rest := rfl

theorem StreamPc.targets_of_settled {pc : StreamPc} (h : pc.settled) : pc.targets = [] := by
  cases pc with
  | dispatching => exact h.elim
  | _ => rfl

/-- The input that is being dispatched, with the entry of its client. -/
def StreamPc.input : StreamPc → Option (ClientRef × MetadataPayload)
  | .dispatching ref mp _ => some (ref, mp)
  | _ => none

@[simp] theorem StreamPc.input_dispatching (ref : ClientRef) (mp : MetadataPayload) (rest : List Context) :
    (StreamPc.dispatching ref mp rest).input = some (ref, mp) := rfl

theorem StreamPc.input_of_settled {pc : StreamPc} (h : pc.settled) : pc.input = none := by
  cases pc with
  | dispatching => exact h.elim
  | _ => rfl

/-- The error reply `w` is built, and sent or dropped. -/
abbrev ErrorReplied (ref : ClientRef) (a : Address) (w : ResultWrapper) (f f' : Frontend) : Prop :=
  Replied ref a (.resultWrapper w) (f.emit (.errorReply ref a w)) f'

/-- What the consumer of a stream that serves the entry `ref` does with a message. -/
inductive MessageStep (cfg : Config) (s : Server) (a : Address) (ref : ClientRef) (msg : FromClient) :
    Server → StreamPc → Prop
  | registered {info : AnyProto} {f : Frontend} {pc : StreamPc} (hmsg : msg = .registration info)
      (hf : Replied ref a (s.makeRegistered cfg) ((s.frontend.emit (.received ref a msg)).modifyClient ref fun client =>
        { client with clientInfo := some info }) f) (hpc : pc.settled) :
      MessageStep cfg s a ref msg { s with frontend := f } pc
  | unregistered {f : Frontend} {pc : StreamPc} (hmsg : msg.isRegistration = false)
      (hinfo : (s.frontend.clientObjs ref).clientInfo = none)
      (hf : ErrorReplied ref a
        (makeErrorResponse msg .unspecifiedError "Client must register before sending input")
        (s.frontend.emit (.received ref a msg)) f) (hpc : pc.settled) :
      MessageStep cfg s a ref msg { s with frontend := f } pc
  | noTokens {f : Frontend} {pc : StreamPc} (hmsg : msg.isRegistration = false)
      (htokens : ((s.frontend.emit (.received ref a msg)).initTokens cfg ref msg.asInput.producerId).tokens ref
        msg.asInput.producerId < 1)
      (hf : ErrorReplied ref a (makeErrorResponse msg .noTokens "No tokens for producer")
        ((s.frontend.emit (.received ref a msg)).initTokens cfg ref msg.asInput.producerId) f) (hpc : pc.settled) :
      MessageStep cfg s a ref msg { s with frontend := f } pc
  | noEngine {info : AnyProto} {f : Frontend} {pc : StreamPc} (hmsg : msg.isRegistration = false)
      (hf : ErrorReplied ref a (makeErrorResponse msg .noEngineForInput
          (s.dispatcher.noEngineMessage msg.asInput.targetEngineIds))
        (((s.frontend.emit (.received ref a msg)).initTokens cfg ref msg.asInput.producerId).emit
          (.submitted ref (s.dispatcher.metadataPayload msg.asInput a info))) f) (hpc : pc.settled) :
      MessageStep cfg s a ref msg
        { dispatcher := s.dispatcher.beginInput msg.asInput.producerId [], frontend := f } pc
  | suspended {info : AnyProto} {order rest : List Context} {b : Bool} {d : Dispatcher}
      (hmsg : msg.isRegistration = false) (hinfo : (s.frontend.clientObjs ref).clientInfo = some info)
      (htokens : 1 ≤ ((s.frontend.emit (.received ref a msg)).initTokens cfg ref msg.asInput.producerId).tokens ref
        msg.asInput.producerId)
      (hperm : order.Perm (s.dispatcher.targetEngines msg.asInput.targetEngineIds))
      (hloop : (s.dispatcher.beginInput msg.asInput.producerId
        (s.dispatcher.targetEngines msg.asInput.targetEngineIds)).dispatchLoop
          (s.dispatcher.metadataPayload msg.asInput a info) b order = (d, some rest))
      (hne : s.dispatcher.targetEngines msg.asInput.targetEngineIds ≠ []) :
      MessageStep cfg s a ref msg
        { dispatcher := d
          frontend := ((s.frontend.emit (.received ref a msg)).initTokens cfg ref msg.asInput.producerId).emit
            (.submitted ref (s.dispatcher.metadataPayload msg.asInput a info)) }
        (.dispatching ref (s.dispatcher.metadataPayload msg.asInput a info) rest)
  | enqueued {info : AnyProto} {order : List Context} {b : Bool} {d : Dispatcher}
      (hmsg : msg.isRegistration = false) (hinfo : (s.frontend.clientObjs ref).clientInfo = some info)
      (htokens : 1 ≤ ((s.frontend.emit (.received ref a msg)).initTokens cfg ref msg.asInput.producerId).tokens ref
        msg.asInput.producerId)
      (hperm : order.Perm (s.dispatcher.targetEngines msg.asInput.targetEngineIds))
      (hloop : (s.dispatcher.beginInput msg.asInput.producerId
        (s.dispatcher.targetEngines msg.asInput.targetEngineIds)).dispatchLoop
          (s.dispatcher.metadataPayload msg.asInput a info) b order = (d, none))
      (hne : s.dispatcher.targetEngines msg.asInput.targetEngineIds ≠ []) :
      MessageStep cfg s a ref msg
        { dispatcher := (d.enqueue (s.dispatcher.metadataPayload msg.asInput a info)).emit
            (.accepted (s.dispatcher.metadataPayload msg.asInput a info))
          frontend := (((s.frontend.emit (.received ref a msg)).initTokens cfg ref msg.asInput.producerId).emit
            (.submitted ref (s.dispatcher.metadataPayload msg.asInput a info))).deductToken ref
              (s.dispatcher.metadataPayload msg.asInput a info) }
        .idle
  | dropped {info : AnyProto} {order : List Context} {b : Bool} {d : Dispatcher} {f : Frontend} {pc : StreamPc}
      {text : String} (hmsg : msg.isRegistration = false)
      (hinfo : (s.frontend.clientObjs ref).clientInfo = some info)
      (hperm : order.Perm (s.dispatcher.targetEngines msg.asInput.targetEngineIds))
      (hloop : (s.dispatcher.beginInput msg.asInput.producerId
        (s.dispatcher.targetEngines msg.asInput.targetEngineIds)).dispatchLoop
          (s.dispatcher.metadataPayload msg.asInput a info) b order = (d, none))
      (hf : ErrorReplied ref a (makeErrorResponse msg .serverDroppedFrame text)
        (((s.frontend.emit (.received ref a msg)).initTokens cfg ref msg.asInput.producerId).emit
          (.submitted ref (s.dispatcher.metadataPayload msg.asInput a info))) f) (hpc : pc.settled)
      (hne : s.dispatcher.targetEngines msg.asInput.targetEngineIds ≠ []) :
      MessageStep cfg s a ref msg { dispatcher := d, frontend := f } pc

/-- What a stream does when it is resumed or ends. -/
inductive ResumeStep (cfg : Config) (s : Server) (stream : Stream) : Server → StreamPc → Prop
  | settled {f : Frontend} {pc : StreamPc} (hf : Quiet s.frontend f) (hpc : pc.settled) :
      ResumeStep cfg s stream { s with frontend := f } pc
  | suspended {ref : ClientRef} {mp : MetadataPayload} {rest rest' : List Context} {b : Bool} {d : Dispatcher}
      (hpc : stream.pc = .dispatching ref mp rest) (hloop : s.dispatcher.dispatchLoop mp b rest = (d, some rest')) :
      ResumeStep cfg s stream { s with dispatcher := d } (.dispatching ref mp rest')
  | concluded {ref : ClientRef} {mp : MetadataPayload} {rest : List Context} {b : Bool} {d : Dispatcher}
      (hpc : stream.pc = .dispatching ref mp rest) (hloop : s.dispatcher.dispatchLoop mp b rest = (d, none)) :
      ResumeStep cfg s stream
        { dispatcher := (d.setInFlight mp).emit (.accepted mp), frontend := s.frontend.deductToken ref mp } .idle

/-- The input that a message starts to dispatch. -/
theorem MessageStep.input {a : Address} {ref ref' : ClientRef} {msg : FromClient} {pc : StreamPc}
    {mp : MetadataPayload} (h : MessageStep cfg s a ref msg s' pc) (hi : pc.input = some (ref', mp)) :
    ref' = ref ∧ mp.metadata.clientAddress = a := by
  cases h with
  | suspended => cases hi; exact ⟨rfl, rfl⟩
  | enqueued => cases hi
  | registered _ _ hpc => rw [StreamPc.input_of_settled hpc] at hi; cases hi
  | unregistered _ _ _ hpc => rw [StreamPc.input_of_settled hpc] at hi; cases hi
  | noTokens _ _ _ hpc => rw [StreamPc.input_of_settled hpc] at hi; cases hi
  | noEngine _ _ hpc => rw [StreamPc.input_of_settled hpc] at hi; cases hi
  | dropped _ _ _ _ _ hpc => rw [StreamPc.input_of_settled hpc] at hi; cases hi

/-- A stream that is still dispatching has the same input as before. -/
theorem ResumeStep.input {stream : Stream} {pc : StreamPc} {x : ClientRef × MetadataPayload}
    (h : ResumeStep cfg s stream s' pc) (hi : pc.input = some x) : stream.pc.input = some x := by
  cases h with
  | settled _ hpc => rw [StreamPc.input_of_settled hpc] at hi; cases hi
  | suspended hpc => rw [hpc]; exact hi
  | concluded => cases hi

theorem endStream_cases (s : Server) (stream : Stream) (deletes : Bool) (err : Option PyError) :
    ∃ f pc, endStream s stream deletes err = ({ s with frontend := f }, pc) ∧ Quiet s.frontend f ∧ pc.settled := by
  have hremove : Quiet s.frontend (s.frontend.removeClient stream.address).1 := quiet_removeClient
  unfold endStream
  split
  · split <;> rename_i heq <;> rw [heq] at hremove
    · exact ⟨_, _, rfl, hremove, trivial⟩
    · exact ⟨_, _, rfl, hremove, trivial⟩
  · exact ⟨_, _, rfl, .refl _, trivial⟩

theorem afterReply_cases (cfg : Config) (s : Server) (stream : Stream) (r : Frontend × Sent) :
    ∃ f pc, afterReply cfg s stream r = ({ s with frontend := f }, pc) ∧ Quiet r.1 f ∧ pc.settled := by
  obtain ⟨f, _ | _ | _⟩ := r
  · exact ⟨f, _, rfl, .refl _, trivial⟩
  · exact ⟨f, _, rfl, .refl _, trivial⟩
  · exact endStream_cases { s with frontend := f } stream (cfg.clientTransport ≠ .zeromq) (some .keyError)

/-- An error reply, and what follows it. -/
private theorem errorReplied_afterReply (cfg : Config) (s : Server) (stream : Stream) (f : Frontend) (ref : ClientRef)
    (msg : FromClient) (code : StatusCode) (text : String) :
    ∃ f' pc, afterReply cfg s stream (f.replyError cfg ref stream.address msg code text) =
        ({ s with frontend := f' }, pc) ∧
      ErrorReplied ref stream.address (makeErrorResponse msg code text) f f' ∧ pc.settled := by
  obtain ⟨f', pc, he, hq, hpc⟩ := afterReply_cases cfg s stream (f.replyError cfg ref stream.address msg code text)
  exact ⟨f', pc, he, ⟨_, reply_cases, hq⟩, hpc⟩

/-- The dispatch loop of a new input, and what follows if it makes no write. -/
private theorem startDispatch_cases {stream : Stream} {ref : ClientRef} {msg : FromClient} {info : AnyProto}
    {order : List Context} {b : Bool} {pc : StreamPc} (hmsg : msg.isRegistration = false)
    (hinfo : (s.frontend.clientObjs ref).clientInfo = some info)
    (htokens : 1 ≤ ((s.frontend.emit (.received ref stream.address msg)).initTokens cfg ref
      msg.asInput.producerId).tokens ref msg.asInput.producerId)
    (hperm : order.Perm (s.dispatcher.targetEngines msg.asInput.targetEngineIds))
    (hne : s.dispatcher.targetEngines msg.asInput.targetEngineIds ≠ [])
    (h : startDispatch cfg
      { dispatcher := s.dispatcher.beginInput msg.asInput.producerId
          (s.dispatcher.targetEngines msg.asInput.targetEngineIds)
        frontend := ((s.frontend.emit (.received ref stream.address msg)).initTokens cfg ref
          msg.asInput.producerId).emit
            (.submitted ref (s.dispatcher.metadataPayload msg.asInput stream.address info)) }
      stream ref msg (s.dispatcher.metadataPayload msg.asInput stream.address info) order b = (s', pc)) :
    MessageStep cfg s stream.address ref msg s' pc := by
  unfold startDispatch at h
  rcases hloop : (s.dispatcher.beginInput msg.asInput.producerId
    (s.dispatcher.targetEngines msg.asInput.targetEngineIds)).dispatchLoop
      (s.dispatcher.metadataPayload msg.asInput stream.address info) b order with ⟨d, _ | rest⟩
  · simp only [hloop] at h
    rcases hr : d.concludeInput cfg (s.dispatcher.metadataPayload msg.asInput stream.address info) true with
      ⟨d', code, text⟩
    rw [hr] at h
    cases Dispatcher.concludeInput_cases hr with
    | enqueued =>
      cases h
      exact .enqueued hmsg hinfo htokens hperm hloop hne
    | dropped =>
      obtain ⟨f', pc', he, hf, hpc⟩ := errorReplied_afterReply cfg _ stream _ ref msg _ _
      simp only at h
      rw [he] at h
      cases h
      exact .dropped hmsg hinfo hperm hloop hf hpc hne
  · simp only [hloop] at h
    cases h
    exact .suspended hmsg hinfo htokens hperm hloop hne

theorem consume_cases {stream : Stream} {ref : ClientRef} {msg : FromClient} {order : List Context} {b : Bool}
    {pc : StreamPc} (h : consume cfg s stream ref msg order b = some (s', pc)) :
    MessageStep cfg s stream.address ref msg s' pc := by
  unfold consume Server.consumerHelper at h
  rcases hr : s.frontend.consumerHelper cfg ref stream.address msg with ⟨f, adm⟩
  rw [hr] at h
  cases consumerHelper_cases hr with
  | registered info =>
    simp only [Option.some.injEq] at h
    obtain ⟨f', pc', he, hf, hpc⟩ := afterReply_cases cfg _ stream _
    rw [he] at h
    cases h
    exact .registered rfl ⟨_, reply_cases, hf⟩ hpc
  | unregistered hmsg hinfo =>
    simp only [Option.some.injEq] at h
    obtain ⟨f', pc', he, hf, hpc⟩ := errorReplied_afterReply cfg _ stream _ ref msg _ _
    rw [he] at h
    cases h
    exact .unregistered hmsg hinfo hf hpc
  | noTokens hmsg htokens =>
    simp only [Option.some.injEq] at h
    obtain ⟨f', pc', he, hf, hpc⟩ := errorReplied_afterReply cfg _ stream _ ref msg _ _
    rw [he] at h
    cases h
    exact .noTokens hmsg htokens hf hpc
  | @forward _ info hmsg hinfo htokens =>
    simp only at h
    by_cases hnone : s.dispatcher.targetEngines msg.asInput.targetEngineIds = []
    · simp only [hnone, ↓reduceIte, Option.some.injEq] at h
      obtain ⟨f', pc', he, hf, hpc⟩ := errorReplied_afterReply cfg _ stream _ ref msg _ _
      rw [he] at h
      cases h
      exact .noEngine hmsg hf hpc
    · simp only [hnone, ↓reduceIte] at h
      split at h
      · rename_i hperm
        exact startDispatch_cases hmsg hinfo htokens hperm hnone (Option.some.inj h)
      · cases h

/-- The dispatcher after the dispatch loop of the new input `mp`, and after what follows if the loop makes no write. -/
inductive Started (cfg : Config) (d : Dispatcher) (ref : ClientRef) (mp : MetadataPayload) (order : List Context)
    (b : Bool) : Dispatcher → StreamPc → Prop
  | suspended {d' : Dispatcher} {rest : List Context} (hloop : d.dispatchLoop mp b order = (d', some rest)) :
      Started cfg d ref mp order b d' (.dispatching ref mp rest)
  | enqueued {d' : Dispatcher} (hloop : d.dispatchLoop mp b order = (d', none)) :
      Started cfg d ref mp order b ((d'.enqueue mp).emit (.accepted mp)) .idle
  | dropped {d' : Dispatcher} {pc : StreamPc} (hloop : d.dispatchLoop mp b order = (d', none))
      (hfull : (d'.producer mp.producerId).inputQueue.length = cfg.sizeForQueues) (hpc : pc.settled) :
      Started cfg d ref mp order b d' pc

theorem startDispatch_started {stream : Stream} {ref : ClientRef} {msg : FromClient} {mp : MetadataPayload}
    {order : List Context} {b : Bool} {pc : StreamPc}
    (h : startDispatch cfg s stream ref msg mp order b = (s', pc)) :
    Started cfg s.dispatcher ref mp order b s'.dispatcher pc := by
  unfold startDispatch at h
  rcases hloop : s.dispatcher.dispatchLoop mp b order with ⟨d, _ | rest⟩
  · simp only [hloop] at h
    rcases hr : d.concludeInput cfg mp true with ⟨d', code, text⟩
    rw [hr] at h
    cases Dispatcher.concludeInput_cases hr with
    | enqueued =>
      cases h
      exact .enqueued hloop
    | dropped hfull =>
      obtain ⟨f, pc', he, -, hpc⟩ := afterReply_cases cfg { s with dispatcher := d } stream
        (s.frontend.replyError cfg ref stream.address msg .serverDroppedFrame
          ("Input queue for " ++ mp.producerId ++ " is full, dropping input"))
      simp only at h
      rw [he] at h
      cases h
      exact .dropped hloop hfull hpc
  · simp only [hloop] at h
    cases h
    exact .suspended hloop

/-- A message that does not come to the dispatch loop leaves the dispatcher as it is, up to a new producer info. -/
theorem consume_started {stream : Stream} {ref : ClientRef} {msg : FromClient} {order : List Context} {b : Bool}
    {pc : StreamPc} (h : consume cfg s stream ref msg order b = some (s', pc)) :
    (pc.settled ∧ (s'.dispatcher = s.dispatcher ∨
      s'.dispatcher = s.dispatcher.beginInput msg.asInput.producerId [])) ∨
    msg.isRegistration = false ∧ ∃ info targets, Started cfg (s.dispatcher.beginInput msg.asInput.producerId targets)
      ref (s.dispatcher.metadataPayload msg.asInput stream.address info) order b s'.dispatcher pc := by
  have hreply : ∀ {s₁ : Server} {r}, some (afterReply cfg s₁ stream r) = some (s', pc) →
      s'.dispatcher = s₁.dispatcher ∧ pc.settled := by
    intro s₁ r he
    obtain ⟨f, pc', he', -, hpc⟩ := afterReply_cases cfg s₁ stream r
    rw [he'] at he
    cases he
    exact ⟨rfl, hpc⟩
  unfold consume Server.consumerHelper at h
  rcases hr : s.frontend.consumerHelper cfg ref stream.address msg with ⟨f, adm⟩
  rw [hr] at h
  cases consumerHelper_cases hr with
  | registered => exact Or.inl ⟨(hreply h).2, Or.inl (hreply h).1⟩
  | unregistered => exact Or.inl ⟨(hreply h).2, Or.inl (hreply h).1⟩
  | noTokens => exact Or.inl ⟨(hreply h).2, Or.inl (hreply h).1⟩
  | @forward _ info hmsg =>
    simp only at h
    by_cases hnone : s.dispatcher.targetEngines msg.asInput.targetEngineIds = []
    · simp only [hnone, ↓reduceIte] at h
      exact Or.inl ⟨(hreply h).2, Or.inr (hreply h).1⟩
    · simp only [hnone, ↓reduceIte] at h
      obtain ⟨-, h⟩ := Option.ite_none_right_eq_some.1 h
      exact Or.inr ⟨hmsg, info, _, startDispatch_started (Option.some.inj h)⟩

theorem resumeStream_cases {stream : Stream} {raises b : Bool} {pc : StreamPc}
    (h : resumeStream cfg s stream raises b = some (s', pc)) : ResumeStep cfg s stream s' pc := by
  have hfail : ∀ {s' pc}, some (failStream cfg s stream .raised) = some (s', pc) → ResumeStep cfg s stream s' pc := by
    intro s' pc h
    obtain ⟨f, pc', he, hq, hpc⟩ := endStream_cases s stream (cfg.clientTransport ≠ .zeromq) (some .raised)
    rw [failStream, he] at h
    cases h
    exact .settled hq hpc
  unfold resumeStream at h
  cases hpc : stream.pc with
  | idle => rw [hpc] at h; cases h
  | finished => rw [hpc] at h; cases h
  | replying =>
    rw [hpc] at h
    simp only at h
    split at h
    · exact hfail h
    · cases h
      exact .settled (.refl _) trivial
  | dispatching ref mp rest =>
    rw [hpc] at h
    simp only at h
    split at h
    · exact hfail h
    · unfold resumeDispatch at h
      rcases hloop : s.dispatcher.dispatchLoop mp b rest with ⟨d, _ | rest'⟩
      · rw [hloop] at h
        cases h
        exact .concluded hpc hloop
      · rw [hloop] at h
        cases h
        exact .suspended hpc hloop

/-! ### The system -/

private theorem countP_set {α : Type} {l : List α} {i : Nat} {x : α} (hi : l[i]? = some x) (y : α) (P : α → Bool) :
    (l.set i y).countP P + (if P x then 1 else 0) = l.countP P + if P y then 1 else 0 := by
  induction l generalizing i with
  | nil => simp at hi
  | cons z l ih =>
    cases i with
    | zero =>
      simp only [List.getElem?_cons_zero, Option.some.injEq] at hi
      subst hi
      simp only [List.set_cons_zero, List.countP_cons]
      omega
    | succ i =>
      have := ih (i := i) (by simpa using hi)
      simp only [List.set_cons_succ, List.countP_cons]
      omega

/-- The number of streams of some kind when a stream goes on. -/
theorem Sys.countP_setStream {sys : Sys} {i : Nat} {stream : Stream} (hi : sys.streams[i]? = some stream)
    (P : Stream → Bool) (r : Server × StreamPc) :
    (sys.setStream i stream r).streams.countP P + (if P stream then 1 else 0) =
      sys.streams.countP P + if P { stream with pc := r.2 } then 1 else 0 :=
  countP_set hi _ P

/-- A stream of the list in which the stream `i` has gone on. -/
theorem Sys.getElem?_setStream {sys : Sys} {i j : Nat} {stream st : Stream} {r : Server × StreamPc}
    (hi : sys.streams[i]? = some stream) (hj : (sys.setStream i stream r).streams[j]? = some st) :
    (j = i ∧ st = { stream with pc := r.2 }) ∨ (j ≠ i ∧ sys.streams[j]? = some st) := by
  have hlt : i < sys.streams.length := (List.getElem?_eq_some_iff.1 hi).1
  simp only [Sys.setStream, List.getElem?_set, hlt, ↓reduceIte] at hj
  split at hj
  · rename_i he
    exact Or.inl ⟨he.symm, (Option.some.inj hj).symm⟩
  · rename_i he
    exact Or.inr ⟨Ne.symm he, hj⟩

/-- An element of the list to which one was added. -/
theorem getElem?_concat {α : Type} {l : List α} {new x : α} {j : Nat} (hj : (l ++ [new])[j]? = some x) :
    l[j]? = some x ∨ (j = l.length ∧ x = new) := by
  rcases Nat.lt_trichotomy j l.length with hlt | rfl | hgt
  · exact Or.inl (by rwa [List.getElem?_append_left hlt] at hj)
  · exact Or.inr ⟨rfl, by simpa using hj.symm⟩
  · rw [List.getElem?_eq_none (by simp; omega)] at hj
    cases hj

/-- The session that takes the step. -/
def Action.session : Action → Option Context
  | .engineMessage c _ | .resumeSession c _ _ | .closeSession c => some c
  | _ => none

/-- What a step of the system can do. -/
inductive Step (cfg : Config) (sys : Sys) : Action → Sys → Prop
  | openClient {a : Address} : Step cfg sys (.openClient a) { sys with
      server := { sys.server with frontend := sys.server.frontend.addClient a }
      streams := sys.streams ++ [{ address := a, owner := some sys.server.frontend.nextClient, pc := .idle }] }
  | openProducer {a : Address} (hgrpc : cfg.clientTransport = .grpc) : Step cfg sys (.openProducer a) { sys with
      streams := sys.streams ++ [{ address := a, owner := none, pc := .idle }] }
  | unknownClient {i : Nat} {msg : FromClient} {order : List Context} {b : Bool} {stream : Stream}
      (hi : sys.streams[i]? = some stream) (hidle : stream.pc = .idle) (hclient : stream.client sys.server = none) :
      Step cfg sys (.message i msg order b) (sys.setStream i stream (sys.server, .finished none))
  | message {i : Nat} {msg : FromClient} {order : List Context} {b : Bool} {stream : Stream} {ref : ClientRef}
      {s : Server} {pc : StreamPc} (hi : sys.streams[i]? = some stream) (hidle : stream.pc = .idle)
      (hclient : stream.client sys.server = some ref)
      (h : MessageStep cfg sys.server stream.address ref msg s pc) :
      Step cfg sys (.message i msg order b) (sys.setStream i stream (s, pc))
  | resumed {i : Nat} {raises b : Bool} {stream : Stream} {s : Server} {pc : StreamPc}
      (hi : sys.streams[i]? = some stream) (h : ResumeStep cfg sys.server stream s pc) (hrun : stream.pc.running) :
      Step cfg sys (.resumeStream i raises b) (sys.setStream i stream (s, pc))
  | closed {i : Nat} {stream : Stream} {s : Server} {pc : StreamPc} (hi : sys.streams[i]? = some stream)
      (hidle : stream.pc = .idle) (h : ResumeStep cfg sys.server stream s pc) :
      Step cfg sys (.closeStream i) (sys.setStream i stream (s, pc))
  | openSession : Step cfg sys .openSession { sys with
      server := { sys.server with dispatcher := sys.server.dispatcher.openContext }
      sessions := Function.update sys.sessions sys.server.dispatcher.nextContext (some .connected) }
  | session {act : Action} {c : Context} {pc pc' : SessionPc} {s : Server} (hc : sys.sessions c = some pc)
      (hlive : ∀ err, pc ≠ .finished err) (h : SessionStep act c pc sys.server s pc')
      (hact : act.session = some c) :
      Step cfg sys act (sys.setSession c (s, pc'))

theorem step_cases {sys sys' : Sys} {a : Action} (h : step cfg sys a = some sys') : Step cfg sys a sys' := by
  cases a with
  | openClient a =>
    simp only [step] at h
    split at h
    · cases h
    · cases h; exact .openClient
  | openProducer a =>
    simp only [step] at h
    split at h
    · cases h; exact .openProducer ‹_›
    · cases h
  | openSession => cases h; exact .openSession
  | message i msg order b =>
    obtain ⟨stream, hi, h⟩ := Option.bind_eq_some_iff.1 h
    obtain ⟨⟨s, pc⟩, hr, h⟩ := Option.bind_eq_some_iff.1 h
    cases h
    unfold streamMessage at hr
    cases hpc : stream.pc with
    | idle =>
      rw [hpc] at hr
      cases hclient : stream.client sys.server with
      | none =>
        simp only [hclient, Option.some.injEq] at hr
        cases hr
        exact .unknownClient hi hpc hclient
      | some ref =>
        simp only [hclient] at hr
        exact .message hi hpc hclient (consume_cases hr)
    | dispatching => rw [hpc] at hr; cases hr
    | replying => rw [hpc] at hr; cases hr
    | finished => rw [hpc] at hr; cases hr
  | resumeStream i raises b =>
    obtain ⟨stream, hi, h⟩ := Option.bind_eq_some_iff.1 h
    obtain ⟨⟨s, pc⟩, hr, h⟩ := Option.bind_eq_some_iff.1 h
    cases h
    refine .resumed hi (resumeStream_cases hr) ?_
    unfold resumeStream at hr
    cases hpc : stream.pc with
    | finished => rw [hpc] at hr; cases hr
    | _ => trivial
  | closeStream i =>
    obtain ⟨stream, hi, h⟩ := Option.bind_eq_some_iff.1 h
    obtain ⟨⟨s, pc⟩, hr, h⟩ := Option.bind_eq_some_iff.1 h
    cases h
    unfold closeStream at hr
    cases hpc : stream.pc with
    | idle =>
      rw [hpc] at hr
      obtain ⟨f, pc', he, hq, hpc'⟩ := endStream_cases sys.server stream true none
      rw [he] at hr
      cases hr
      exact .closed hi hpc (.settled hq hpc')
    | dispatching => rw [hpc] at hr; cases hr
    | replying => rw [hpc] at hr; cases hr
    | finished => rw [hpc] at hr; cases hr
  | engineMessage c msg =>
    simp only [step] at h
    split at h
    · cases h; exact .session ‹_› (by simp) (sessionStep_firstMessage msg) rfl
    · cases h; exact .session ‹_› (by simp) (sessionStep_nextMessage msg) rfl
    · cases h
  | resumeSession c raises b =>
    obtain ⟨pc, hc, h⟩ := Option.bind_eq_some_iff.1 h
    obtain ⟨⟨s, pc'⟩, hr, h⟩ := Option.bind_eq_some_iff.1 h
    cases h
    exact .session hc (by rintro err rfl; cases hr) (resumeSession_cases hr) rfl
  | closeSession c =>
    obtain ⟨pc, hc, h⟩ := Option.bind_eq_some_iff.1 h
    obtain ⟨⟨s, pc'⟩, hr, h⟩ := Option.bind_eq_some_iff.1 h
    cases h
    exact .session hc (by rintro err rfl; cases hr) (closeSession_cases hr) rfl

/-! ### What the handlers of the clients do to the dispatcher -/

/-- The operations on the dispatcher that the handlers of the clients consist of. -/
inductive StreamEffect : Dispatcher → Dispatcher → Prop
  | begun {d : Dispatcher} (p : String) (targets : List Context) : StreamEffect d (d.beginInput p targets)
  | added {d : Dispatcher} (c : Context) (p : String) : StreamEffect d (d.addProducer c p)
  | sent {d : Dispatcher} (c : Context) (mp : MetadataPayload) (b : Bool) : StreamEffect d (d.sendPayload c mp b)
  | queued {d : Dispatcher} (mp : MetadataPayload) : StreamEffect d ((d.enqueue mp).emit (.accepted mp))
  | inFlight {d : Dispatcher} (mp : MetadataPayload) : StreamEffect d ((d.setInFlight mp).emit (.accepted mp))

/-- A sequence of such operations. -/
abbrev StreamEffects : Dispatcher → Dispatcher → Prop := Relation.ReflTransGen StreamEffect

section StreamEffects

variable {d d' : Dispatcher}

theorem StreamEffects.invariant {P : Dispatcher → Prop} (hP : ∀ {d d'}, StreamEffect d d' → P d → P d')
    (h : StreamEffects d d') (hd : P d) : P d' := by
  induction h with
  | refl => exact hd
  | tail _ h ih => exact hP h ih

theorem streamEffects_dispatchLoop {mp : MetadataPayload} {b : Bool} {order : List Context}
    {r : Option (List Context)} (hr : d.dispatchLoop mp b order = (d', r)) : StreamEffects d d' :=
  Dispatcher.dispatchLoop_inv (P := StreamEffects d) hr .refl (fun _ c h => h.tail (.added c _)) fun _ c h =>
    h.tail (.sent c mp b)

theorem MessageStep.effects {a : Address} {ref : ClientRef} {msg : FromClient} {pc : StreamPc}
    (h : MessageStep cfg s a ref msg s' pc) : StreamEffects s.dispatcher s'.dispatcher := by
  have hloop : ∀ {p targets mp b order d' r}, (s.dispatcher.beginInput p targets).dispatchLoop mp b order = (d', r) →
      StreamEffects s.dispatcher d' := fun hr => .head (.begun _ _) (streamEffects_dispatchLoop hr)
  cases h with
  | registered => exact .refl
  | unregistered => exact .refl
  | noTokens => exact .refl
  | noEngine => exact .single (.begun msg.asInput.producerId [])
  | suspended _ _ _ _ hr => exact hloop hr
  | enqueued _ _ _ _ hr => exact (hloop hr).tail (.queued _)
  | dropped _ _ _ hr => exact hloop hr

theorem ResumeStep.effects {stream : Stream} {pc : StreamPc} (h : ResumeStep cfg s stream s' pc) :
    StreamEffects s.dispatcher s'.dispatcher := by
  cases h with
  | settled => exact .refl
  | suspended _ hr => exact streamEffects_dispatchLoop hr
  | concluded _ hr => exact (streamEffects_dispatchLoop hr).tail (.inFlight _)

end StreamEffects

/-- What a step does to the dispatcher and the sessions. -/
inductive Outline (sys : Sys) (act : Action) (sys' : Sys) : Prop
  | stream (hact : act.session = none) (hopen : act ≠ .openSession)
      (h : StreamEffects sys.server.dispatcher sys'.server.dispatcher) (hsessions : sys'.sessions = sys.sessions)
  | opened (hact : act = .openSession) (h : sys'.server.dispatcher = sys.server.dispatcher.openContext)
      (hsessions : sys'.sessions =
        Function.update sys.sessions sys.server.dispatcher.nextContext (some .connected))
  | session {c : Context} {pc pc' : SessionPc} (hact : act.session = some c) (hc : sys.sessions c = some pc)
      (h : SessionStep act c pc sys.server sys'.server pc')
      (hsessions : sys'.sessions = Function.update sys.sessions c (some pc'))

theorem step_outline {sys sys' : Sys} {act : Action} (hstep : step cfg sys act = some sys') :
    Outline sys act sys' := by
  cases step_cases hstep with
  | openClient => exact .stream rfl (by simp) .refl rfl
  | openProducer => exact .stream rfl (by simp) .refl rfl
  | unknownClient => exact .stream rfl (by simp) .refl rfl
  | message _ _ _ h => exact .stream rfl (by simp) h.effects rfl
  | resumed _ h => exact .stream rfl (by simp) h.effects rfl
  | closed _ _ h => exact .stream rfl (by simp) h.effects rfl
  | openSession => exact .opened rfl rfl rfl
  | session hc _ h hact => exact .session hact hc h rfl

/-- The dispatcher forgets nothing that it has recorded. -/
theorem dispatcher_log_grows {sys sys' : Sys} {act : Action} (hstep : step cfg sys act = some sys') :
    sys.server.dispatcher.log <+: sys'.server.dispatcher.log := by
  cases step_outline hstep with
  | stream _ _ h =>
    refine h.invariant (P := fun d => sys.server.dispatcher.log <+: d.log) (fun h hd => hd.trans ?_) List.prefix_rfl
    cases h <;> simp
  | opened _ h => rw [h]; exact List.prefix_rfl
  | session _ _ h => exact h.effects.dispatcher_log_grows

/-- Entries are only made for new clients. -/
theorem clients_step {sys sys' : Sys} {act : Action} {a : Address} {r : ClientRef}
    (hstep : step cfg sys act = some sys')
    (hopen : act ≠ .openClient a) (hr : sys'.server.frontend.clients.get? a = some r) :
    sys.server.frontend.clients.get? a = some r := by
  have hresume : ∀ {stream s pc}, ResumeStep cfg sys.server stream s pc → s.frontend.clients.get? a = some r →
      sys.server.frontend.clients.get? a = some r := by
    intro stream s pc h hr
    cases h with
    | settled hf => exact hf.clients _ _ hr
    | suspended => exact hr
    | concluded => simpa using hr
  cases step_cases hstep with
  | @openClient b =>
    simp only [addClient] at hr
    rw [Dict.get?_set, if_neg] at hr
    · exact hr
    · exact fun he => hopen (he ▸ rfl)
  | openProducer => exact hr
  | unknownClient => exact hr
  | message _ _ _ h =>
    cases h with
    | registered _ hf => simpa using hf.clients hr
    | unregistered _ _ hf => simpa using hf.clients hr
    | noTokens _ _ hf => simpa using hf.clients hr
    | noEngine _ hf => simpa using hf.clients hr
    | suspended => simpa [Sys.setStream] using hr
    | enqueued => simpa [Sys.setStream] using hr
    | dropped _ _ _ _ hf => simpa using hf.clients hr
  | resumed _ h => exact hresume h hr
  | closed _ _ h => exact hresume h hr
  | openSession => exact hr
  | session _ _ h => exact h.effects.clients ▸ hr

end Interleaved

end Gabriel
