import Gabriel.Server.Owed
import Gabriel.Server.Provenance

/-!
# The token of an input

An input is worth one token: it is in a queue, in flight with its token pending, being dispatched, or its token was
returned, and all this together at most as often as it was given to the dispatcher (`Sys.Backed`).  If the frame ids
of each producer of a client are distinct, no input is given to the dispatcher twice.
-/

namespace Gabriel

open DispatchLog

/-! ### Frames -/

/-- The client, the producer and the frame id of an input. -/
def MetadataPayload.frame (mp : MetadataPayload) : Address × String × Int :=
  (mp.metadata.clientAddress, mp.producerId, mp.metadata.frameId)

namespace ClientEvent

@[simp] def submittedInput : ClientEvent → Option MetadataPayload
  | submitted _ mp => some mp
  | _ => none

@[simp] def receivedFrame : ClientEvent → Option (Address × String × Int)
  | received _ a msg => if msg.isRegistration then none else some (a, msg.asInput.producerId, msg.asInput.frameId)
  | _ => none

end ClientEvent

namespace ClientLog

variable (l l' : List ClientEvent)

/-- The inputs that were given to the dispatcher. -/
def submittedInputs : List MetadataPayload := l.filterMap ClientEvent.submittedInput

/-- The frames of the inputs that were received. -/
def receivedFrames : List (Address × String × Int) := l.filterMap ClientEvent.receivedFrame

@[simp] theorem submittedInputs_nil : submittedInputs [] = [] := rfl
@[simp] theorem submittedInputs_append : submittedInputs (l ++ l') = submittedInputs l ++ submittedInputs l' :=
  List.filterMap_append
@[simp] theorem submittedInputs_cons (e : ClientEvent) :
    submittedInputs (e :: l) = e.submittedInput.toList ++ submittedInputs l := filterMap_cons_toList _ e l

@[simp] theorem receivedFrames_nil : receivedFrames [] = [] := rfl
@[simp] theorem receivedFrames_append : receivedFrames (l ++ l') = receivedFrames l ++ receivedFrames l' :=
  List.filterMap_append
@[simp] theorem receivedFrames_cons (e : ClientEvent) :
    receivedFrames (e :: l) = e.receivedFrame.toList ++ receivedFrames l := filterMap_cons_toList _ e l

end ClientLog

open ClientLog

/-- The same inputs were submitted and the same frames received. -/
structure Frontend.SameInputs (f f' : Frontend) : Prop where
  submitted : submittedInputs f'.log = submittedInputs f.log
  received : receivedFrames f'.log = receivedFrames f.log

namespace Frontend

variable {f f' f'' : Frontend}

theorem SameInputs.trans (h : f.SameInputs f') (h' : f'.SameInputs f'') : f.SameInputs f'' :=
  ⟨h'.submitted.trans h.submitted, h'.received.trans h.received⟩

theorem Quiet.sameInputs (h : Quiet f f') : f.SameInputs f' :=
  ⟨h.filterMap_log _ fun _ _ _ => rfl, h.filterMap_log _ fun _ _ _ => rfl⟩

theorem Replied.sameInputs {ref : ClientRef} {a : Address} {msg : ToClient} (h : Replied ref a msg f f') :
    f.SameInputs f' :=
  ⟨h.filterMap_log _ rfl fun _ _ _ => rfl, h.filterMap_log _ rfl fun _ _ _ => rfl⟩

theorem ResultSent.sameInputs {a : Address} {w : ResultWrapper} {r : Frontend × Bool} (h : ResultSent f a w r) :
    f.SameInputs r.1 := by
  cases h with
  | noClient => exact ⟨rfl, rfl⟩
  | sent => split <;> exact ⟨by simp, by simp⟩

end Frontend

/-! ### The dispatcher -/

namespace Dispatcher

variable {d d' : Dispatcher} {c : Context} {mp mp₀ : MetadataPayload}

/-- How often the dispatcher owes the token of `mp` or has returned it. -/
def claims (d : Dispatcher) (mp : MetadataPayload) : Nat :=
  d.debt mp.producerId (fun x => x = mp) + (tokensReturned d.log).count mp

theorem claims_of_eq (hdebt : d'.debt = d.debt) (hlog : tokensReturned d'.log = tokensReturned d.log) :
    d'.claims mp = d.claims mp := by
  simp only [claims, hdebt, hlog]

theorem claims_nextSent {b : Bool} {r : Dispatcher × Bool} (h : NextSent d c b r) : r.1.claims mp = d.claims mp := by
  refine claims_of_eq (debt_nextSent h) ?_
  cases h <;> cases b <;> simp

theorem claims_dispatchLoop {b : Bool} {order : List Context} {r : Option (List Context)}
    (h : d.dispatchLoop mp₀ b order = (d', r)) : d'.claims mp = d.claims mp := by
  refine claims_of_eq (debt_dispatchLoop h) ?_
  cases dispatchLoop_cases h <;> cases b <;> simp

theorem claims_beginInput (p : String) (ts : List Context) : (d.beginInput p ts).claims mp = d.claims mp :=
  claims_of_eq (debt_beginInput ts) (by simp)

private theorem named_iff : mp₀.producerId = mp.producerId ∧ decide (mp₀ = mp) = true ↔ mp₀ = mp := by
  constructor
  · exact fun h => of_decide_eq_true h.2
  · rintro rfl
    simp

theorem claims_enqueue : ((d.enqueue mp₀).emit (.accepted mp₀)).claims mp =
    d.claims mp + if mp₀ = mp then 1 else 0 := by
  simp only [claims, debt_emit, debt_enqueue, named_iff, emit_log, enqueue_log]
  simp
  omega

theorem claims_setInFlight_le : ((d.setInFlight mp₀).emit (.accepted mp₀)).claims mp ≤
    d.claims mp + if mp₀ = mp then 1 else 0 := by
  have hle := @debt_setInFlight_le d mp.producerId mp₀ fun x => x = mp
  simp only [named_iff] at hle
  simp only [claims, debt_emit, emit_log, setInFlight_log]
  simp
  omega

/-- The token of the in-flight input is returned if it is pending. -/
theorem claims_release {origin : Origin} {token : Bool} {result : Result}
    (htoken : (d.producer mp₀.producerId).pendingTokenReturn = token)
    (hlatest : (d.producer mp₀.producerId).latestInputSentToEngine = some mp₀) :
    (d.release origin mp₀ token result).claims mp = d.claims mp := by
  cases token with
  | true =>
    have hdebt := @debt_release_token d mp.producerId mp₀ (fun x => x = mp) origin result htoken hlatest
    simp only [named_iff] at hdebt
    simp only [claims, release_log, tokensReturned_append, List.count_append, ← hdebt]
    by_cases he : mp₀ = mp <;> simp [he]
    omega
  | false => exact claims_of_eq (debt_release_of_not_pending htoken) (by simp)

theorem claims_answered {k : Nat} {m : Option Metadata} {result : Result} {ans : Answer}
    (h : Answered d c k result m (d', ans)) : d'.claims mp = d.claims mp := by
  cases h with
  | noMetadata => rfl
  | noProducer => rfl
  | token hpend hlatest => exact claims_release hpend hlatest
  | copy => exact claims_of_eq rfl (by simp)
  | next => rfl

theorem claims_removalBegun {r : Option (Address × ResultWrapper)} (h : RemovalBegun d c (d', r)) :
    d'.claims mp = d.claims mp := by
  cases h with
  | silent => rfl
  | released _ hlatest => exact claims_release rfl hlatest

end Dispatcher

namespace Interleaved

open Frontend

variable {cfg : Config} {s s' : Server} {sys sys' : Sys} {act : Action} {c : Context} {mp : MetadataPayload}

/-! ### Submitted inputs -/

/-- The stream is in the dispatch loop of the input `mp`. -/
def StreamPc.dispatchesInput (mp : MetadataPayload) (pc : StreamPc) : Bool := pc.input.any fun x => x.2 = mp

theorem StreamPc.dispatchesInput_of_settled {pc : StreamPc} (h : pc.settled) : pc.dispatchesInput mp = false := by
  rw [dispatchesInput, StreamPc.input_of_settled h]
  rfl

@[simp] theorem StreamPc.dispatchesInput_dispatching (ref : ClientRef) (mp₀ : MetadataPayload) (rest : List Context) :
    (StreamPc.dispatching ref mp₀ rest).dispatchesInput mp = decide (mp₀ = mp) := rfl

@[simp] theorem StreamPc.dispatchesInput_idle : StreamPc.idle.dispatchesInput mp = false := rfl

theorem Effects.sameInputs (h : Effects c s s') : s.frontend.SameInputs s'.frontend :=
  h.frontend (P := fun f => s.frontend.SameInputs f) (fun ht hf => hf.trans ht.sameInputs)
    (fun hr hf => hf.trans hr.sameInputs) ⟨rfl, rfl⟩

theorem ResumeStep.sameInputs {stream : Stream} {pc : StreamPc} (h : ResumeStep cfg s stream s' pc) :
    s.frontend.SameInputs s'.frontend := by
  cases h with
  | settled hf => exact hf.sameInputs
  | suspended => exact ⟨rfl, rfl⟩
  | concluded => exact ⟨by simp, by simp⟩

/-- A message is received; the input of a message that is not a registration may be given to the dispatcher. -/
theorem MessageStep.submits {a : Address} {ref : ClientRef} {msg : FromClient} {pc : StreamPc}
    (h : MessageStep cfg s a ref msg s' pc) :
    receivedFrames s'.frontend.log = receivedFrames s.frontend.log ++
      (if msg.isRegistration then [] else [(a, msg.asInput.producerId, msg.asInput.frameId)]) ∧
    (submittedInputs s'.frontend.log = submittedInputs s.frontend.log ∧
        (∀ mp, s'.dispatcher.claims mp = s.dispatcher.claims mp) ∧ pc.settled ∨
      msg.isRegistration = false ∧ ∃ info, submittedInputs s'.frontend.log = submittedInputs s.frontend.log ++
        [s.dispatcher.metadataPayload msg.asInput a info] ∧
        ∀ mp, s'.dispatcher.claims mp + (if pc.dispatchesInput mp then 1 else 0) ≤
          s.dispatcher.claims mp + if s.dispatcher.metadataPayload msg.asInput a info = mp then 1 else 0) := by
  cases h with
  | registered hmsg hf hpc =>
    refine ⟨?_, Or.inl ⟨?_, fun _ => rfl, hpc⟩⟩
    · rw [hf.sameInputs.received]
      simp [hmsg, FromClient.isRegistration]
    · rw [hf.sameInputs.submitted]
      simp
  | unregistered hmsg _ hf hpc =>
    refine ⟨?_, Or.inl ⟨?_, fun _ => rfl, hpc⟩⟩
    · rw [hf.sameInputs.received]
      simp [hmsg]
    · rw [hf.sameInputs.submitted]
      simp
  | noTokens hmsg _ hf hpc =>
    refine ⟨?_, Or.inl ⟨?_, fun _ => rfl, hpc⟩⟩
    · rw [hf.sameInputs.received]
      simp [hmsg]
    · rw [hf.sameInputs.submitted]
      simp
  | @noEngine info _ _ hmsg hf hpc =>
    refine ⟨?_, Or.inr ⟨hmsg, info, ?_, fun mp => ?_⟩⟩
    · rw [hf.sameInputs.received]
      simp [hmsg]
    · rw [hf.sameInputs.submitted]
      simp
    · simp [StreamPc.dispatchesInput_of_settled hpc, Dispatcher.claims_beginInput]
  | @suspended info _ _ _ _ hmsg _ _ _ hloop =>
    refine ⟨by simp [hmsg], Or.inr ⟨hmsg, info, by simp, fun mp => ?_⟩⟩
    simp [Dispatcher.claims_dispatchLoop hloop, Dispatcher.claims_beginInput]
  | @enqueued info _ _ _ hmsg _ _ _ hloop =>
    refine ⟨by simp [hmsg], Or.inr ⟨hmsg, info, by simp, fun mp => ?_⟩⟩
    rw [Dispatcher.claims_enqueue, Dispatcher.claims_dispatchLoop hloop, Dispatcher.claims_beginInput]
    simp
  | @dropped info _ _ _ _ _ _ hmsg _ _ hloop hf hpc =>
    refine ⟨?_, Or.inr ⟨hmsg, info, ?_, fun mp => ?_⟩⟩
    · rw [hf.sameInputs.received]
      simp [hmsg]
    · rw [hf.sameInputs.submitted]
      simp
    · simp [StreamPc.dispatchesInput_of_settled hpc, Dispatcher.claims_dispatchLoop hloop, Dispatcher.claims_beginInput]

/-! ### Backed inputs -/

/-- The number of streams in the dispatch loop of `mp`. -/
def Sys.dispatchesOf (sys : Sys) (mp : MetadataPayload) : Nat :=
  sys.streams.countP fun stream => stream.pc.dispatchesInput mp

theorem Sys.dispatchesOf_setStream {i : Nat} {stream : Stream} (hi : sys.streams[i]? = some stream)
    (r : Server × StreamPc) (mp : MetadataPayload) :
    (sys.setStream i stream r).dispatchesOf mp + (if stream.pc.dispatchesInput mp then 1 else 0) =
      sys.dispatchesOf mp + if r.2.dispatchesInput mp then 1 else 0 :=
  Sys.countP_setStream hi _ r

/-- The token of an input is owed or was returned, or the input is being dispatched, at most as often as the input was
submitted. -/
def Sys.Backed (sys : Sys) : Prop := ∀ mp, sys.server.dispatcher.claims mp + sys.dispatchesOf mp ≤
  (submittedInputs sys.server.frontend.log).count mp

theorem ResumeStep.claims_le {stream : Stream} {pc : StreamPc} (h : ResumeStep cfg s stream s' pc)
    (mp : MetadataPayload) :
    s'.dispatcher.claims mp + (if pc.dispatchesInput mp then 1 else 0) ≤
      s.dispatcher.claims mp + if stream.pc.dispatchesInput mp then 1 else 0 := by
  cases h with
  | settled _ hpc => simp [StreamPc.dispatchesInput_of_settled hpc]
  | suspended hpc hloop => simp [hpc, Dispatcher.claims_dispatchLoop hloop]
  | @concluded _ mp₀ _ _ d hpc hloop =>
    have hle := @Dispatcher.claims_setInFlight_le d mp mp₀
    rw [Dispatcher.claims_dispatchLoop hloop] at hle
    simpa [hpc] using hle

theorem Effects.claims (h : Effects c s s') (mp : MetadataPayload) :
    s'.dispatcher.claims mp = s.dispatcher.claims mp :=
  h.dispatcher (P := fun d => d.claims mp = s.dispatcher.claims mp)
    (fun h hd => (Dispatcher.claims_removalBegun h).trans hd)
    (fun _ hd => (Dispatcher.claims_of_eq (by simp) (by simp)).trans hd)
    (fun _ hd => (Dispatcher.claims_of_eq (by rfl) (by simp)).trans hd)
    (fun h hd => (Dispatcher.claims_answered h).trans hd) (fun h hd => (Dispatcher.claims_nextSent h).trans hd) (fun _ _ hd => hd) rfl

private theorem backed_resume {i : Nat} {stream : Stream} {pc : StreamPc} (hi : sys.streams[i]? = some stream)
    (hr : ResumeStep cfg sys.server stream s pc) (h : sys.Backed) : (sys.setStream i stream (s, pc)).Backed := by
  intro mp
  have hmp := h mp
  have hcount := Sys.dispatchesOf_setStream hi (s, pc) mp
  have hle := hr.claims_le mp
  have hsame := hr.sameInputs.submitted
  simp only [Sys.setStream, hsame] at hcount ⊢
  omega

theorem backed_step (hstep : step cfg sys act = some sys') (h : sys.Backed) : sys'.Backed := by
  cases step_cases hstep with
  | openClient => intro mp; simpa [Sys.dispatchesOf, Frontend.addClient] using h mp
  | openProducer => intro mp; simpa [Sys.dispatchesOf] using h mp
  | @unknownClient i msg order b stream hi hidle =>
    have hr : ResumeStep cfg sys.server stream sys.server (.finished none) := .settled (.refl _) trivial
    exact backed_resume hi hr h
  | @message i msg _ _ stream ref s pc hi hidle _ hm =>
    intro mp
    have hmp := h mp
    have hcount := Sys.dispatchesOf_setStream hi (s, pc) mp
    rw [hidle] at hcount
    rcases hm.submits.2 with ⟨hsame, hclaims, hpc⟩ | ⟨-, info, hsubmitted, hclaims⟩
    · simp only [StreamPc.dispatchesInput_of_settled hpc] at hcount
      simp only [Sys.setStream, hsame, hclaims mp] at hcount ⊢
      simp at hcount
      omega
    · have hle := hclaims mp
      simp only [Sys.setStream, hsubmitted, List.count_append, List.count_singleton, beq_iff_eq] at hcount ⊢
      simp at hcount
      omega
  | resumed hi hr => exact backed_resume hi hr h
  | closed hi _ hr => exact backed_resume hi hr h
  | openSession => exact h
  | session _ _ hs =>
    intro mp
    have hmp := h mp
    have hsame := hs.effects.sameInputs.submitted
    have hclaims := hs.effects.claims mp
    simp only [Sys.setSession, hsame, hclaims]
    exact hmp

theorem run_backed {as : List Action} (h : (machine cfg).Run as sys) : sys.Backed := by
  have hinit : Sys.Backed {} := fun _ => Nat.le_refl 0
  exact h.invariant (I := Sys.Backed) hinit fun _ _ _ h _ hstep => backed_step hstep h

/-! ### Distinct frames -/

/-- The message brings a frame that was not received before. -/
def Action.newFrame (sys : Sys) : Action → Prop
  | .message i msg _ _ => ∀ stream ∈ sys.streams[i]?, msg.isRegistration = false →
      (stream.address, msg.asInput.producerId, msg.asInput.frameId) ∉ receivedFrames sys.server.frontend.log
  | _ => True

instance (sys : Sys) : DecidablePred (Action.newFrame sys)
  | .message i _ _ _ => inferInstanceAs (Decidable (∀ stream ∈ sys.streams[i]?, _))
  | .openClient _ | .openProducer _ | .resumeStream _ _ _ | .closeStream _ | .openSession | .engineMessage _ _
  | .resumeSession _ _ _ | .closeSession _ => inferInstanceAs (Decidable True)

/-- The submitted inputs have different frames, and these were received. -/
structure Sys.FramesDistinct (sys : Sys) : Prop where
  nodup : ((submittedInputs sys.server.frontend.log).map MetadataPayload.frame).Nodup
  received : ∀ mp ∈ submittedInputs sys.server.frontend.log, mp.frame ∈ receivedFrames sys.server.frontend.log

theorem Sys.FramesDistinct.of_sameInputs (h : sys.FramesDistinct)
    (hsame : sys.server.frontend.SameInputs sys'.server.frontend) : sys'.FramesDistinct :=
  ⟨hsame.submitted ▸ h.nodup, fun mp hmp => hsame.received ▸ h.received mp (hsame.submitted ▸ hmp)⟩

theorem framesDistinct_step (hstep : step cfg sys act = some sys') (hact : act.newFrame sys)
    (h : sys.FramesDistinct) : sys'.FramesDistinct := by
  cases step_cases hstep with
  | openClient => exact h.of_sameInputs ⟨rfl, rfl⟩
  | openProducer => exact h.of_sameInputs ⟨rfl, rfl⟩
  | unknownClient => exact h.of_sameInputs ⟨rfl, rfl⟩
  | @message i msg _ _ stream ref s pc hi _ _ hm =>
    obtain ⟨hreceived, ⟨hsame, -⟩ | ⟨hmsg, info, hsubmitted, -⟩⟩ := hm.submits
    · refine ⟨hsame ▸ h.nodup, fun mp hmp => ?_⟩
      simp only [Sys.setStream, hsame, hreceived] at hmp ⊢
      exact List.mem_append_left _ (h.received mp hmp)
    · have hnew := hact stream hi hmsg
      simp only [hmsg, Bool.false_eq_true, ↓reduceIte] at hreceived
      constructor
      · simp only [Sys.setStream, hsubmitted, List.map_append, List.map_cons, List.map_nil]
        refine h.nodup.append (List.nodup_singleton _) ?_
        rw [List.disjoint_singleton]
        intro hmem
        obtain ⟨mp, hmp, he⟩ := List.mem_map.1 hmem
        have hreceived := h.received mp hmp
        rw [he] at hreceived
        exact hnew hreceived
      · intro mp hmp
        simp only [Sys.setStream, hsubmitted, hreceived, List.mem_append, List.mem_singleton] at hmp ⊢
        rcases hmp with hmp | rfl
        · exact Or.inl (h.received mp hmp)
        · exact Or.inr rfl
  | resumed _ hr => exact h.of_sameInputs hr.sameInputs
  | closed _ _ hr => exact h.of_sameInputs hr.sameInputs
  | openSession => exact ⟨h.nodup, h.received⟩
  | session _ _ hs => exact h.of_sameInputs hs.effects.sameInputs

theorem run_framesDistinct {as : List Action} (h : (machine cfg).RunWhere (fun sys a => a.newFrame sys) as sys) :
    sys.FramesDistinct := by
  have hinit : Sys.FramesDistinct {} := ⟨List.nodup_nil, fun _ hmp => by cases hmp⟩
  exact h.invariant (I := Sys.FramesDistinct) hinit fun _ _ _ h hact hstep => framesDistinct_step hstep hact h

theorem Sys.Traced.submitted (h : sys.Traced) (hmp : sys.server.dispatcher.Knows mp) :
    mp ∈ submittedInputs sys.server.frontend.log := by
  obtain ⟨l₁, l₂, ref, msg, info, hlog, -⟩ := h.knows mp hmp
  rw [hlog]
  simp

/-- No token is returned twice for one input. -/
theorem tokensReturned_nodup (hbacked : sys.Backed) (h : sys.FramesDistinct) :
    (tokensReturned sys.server.dispatcher.log).Nodup := by
  rw [List.nodup_iff_count_le_one]
  intro mp
  have hle := hbacked mp
  have hone := List.nodup_iff_count_le_one.1 h.nodup.of_map mp
  unfold Dispatcher.claims at hle
  omega

end Interleaved

end Gabriel
