import Gabriel.Server.Clients

/-!
# Where the inputs come from

Every input that the dispatcher holds or has written to an engine was taken up from a message of its client, with the
client info that the client had registered last (`TakenUp`).
-/

namespace Gabriel

/-! ### The dispatcher's inputs -/

namespace Dispatcher

variable {d d' : Dispatcher} {c : Context} {p : String} {mp mp₀ : MetadataPayload}

/-- The input is in a queue, in flight, or was written to an engine. -/
def Knows (d : Dispatcher) (mp : MetadataPayload) : Prop :=
  (∃ p, mp ∈ (d.producer p).inputQueue) ∨ (∃ p, (d.producer p).latestInputSentToEngine = some mp) ∨
    ∃ c msg, .wrote c msg mp ∈ d.log

/-- The messages written to the engines are those of the inputs. -/
def WritesInputs (d : Dispatcher) : Prop := ∀ c msg mp, .wrote c msg mp ∈ d.log → msg = mp.toEngine

/-- Every input of `d'` is one of `d` or satisfies `Q`, and so do the messages. -/
def InputsFrom (Q : MetadataPayload → Prop) (d d' : Dispatcher) : Prop :=
  (∀ mp, d'.Knows mp → d.Knows mp ∨ Q mp) ∧ (d.WritesInputs → d'.WritesInputs)

variable {Q : MetadataPayload → Prop}

theorem InputsFrom.refl (d : Dispatcher) : InputsFrom Q d d := ⟨fun _ => Or.inl, id⟩

theorem InputsFrom.trans {d'' : Dispatcher} (h : InputsFrom Q d d') (h' : InputsFrom Q d' d'') : InputsFrom Q d d'' :=
  ⟨fun mp hk => (h'.1 mp hk).elim (h.1 mp) Or.inr, h'.2 ∘ h.2⟩

/-- Operations that write nothing and leave queues and in-flight inputs alone. -/
theorem InputsFrom.of_eq {l : List DispatchEvent} (hlog : d'.log = d.log ++ l)
    (hl : ∀ c msg mp, .wrote c msg mp ∉ l) (hq : ∀ p, (d'.producer p).inputQueue = (d.producer p).inputQueue)
    (hlatest : ∀ p, (d'.producer p).latestInputSentToEngine = (d.producer p).latestInputSentToEngine) :
    InputsFrom Q d d' := by
  have hwrote : ∀ {c msg mp}, .wrote c msg mp ∈ d'.log → .wrote c msg mp ∈ d.log := by
    intro c msg mp h
    rw [hlog, List.mem_append] at h
    exact h.resolve_right (hl c msg mp)
  constructor
  · rintro mp (⟨p, hp⟩ | ⟨p, hp⟩ | ⟨c, msg, hw⟩)
    · exact Or.inl (Or.inl ⟨p, hq p ▸ hp⟩)
    · exact Or.inl (Or.inr (Or.inl ⟨p, hlatest p ▸ hp⟩))
    · exact Or.inl (Or.inr (Or.inr ⟨c, msg, hwrote hw⟩))
  · exact fun h c msg mp hw => h c msg mp (hwrote hw)

theorem inputsFrom_sendPayload {b : Bool} (h : d.Knows mp ∨ Q mp) : InputsFrom Q d (d.sendPayload c mp b) := by
  have hwrote : ∀ {c' msg mp'}, .wrote c' msg mp' ∈ (d.sendPayload c mp b).log →
      .wrote c' msg mp' ∈ d.log ∨ (msg = mp.toEngine ∧ mp' = mp) := by
    intro c' msg mp' hw
    cases b <;> simp at hw
    · exact Or.inl hw
    · exact hw.imp_right fun hw => hw.2
  constructor
  · rintro mp' (⟨p, hp⟩ | ⟨p, hp⟩ | ⟨c', msg, hw⟩)
    · exact Or.inl (Or.inl ⟨p, by simpa using hp⟩)
    · exact Or.inl (Or.inr (Or.inl ⟨p, by simpa using hp⟩))
    · rcases hwrote hw with hw | ⟨-, rfl⟩
      · exact Or.inl (Or.inr (Or.inr ⟨c', msg, hw⟩))
      · exact h
  · intro h c' msg mp' hw
    rcases hwrote hw with hw | ⟨rfl, rfl⟩
    · exact h c' msg mp' hw
    · rfl

theorem inputsFrom_nextSent {b : Bool} {r : Dispatcher × Bool} (h : NextSent d c b r) : InputsFrom Q d r.1 := by
  have hrotate : ∀ k, InputsFrom Q d (d.modifyWorker c (·.rotateProducers k)) := fun k =>
    .of_eq (l := []) (by simp) (by simp) (by simp) (by simp)
  cases h with
  | none k => exact (hrotate k).trans (.of_eq (l := []) (by simp) (by simp) (by simp) (by simp))
  | @dequeued k p mp rest _ _ hq =>
    have hmem : ∀ {q mp'}, mp' ∈ (if q = p then rest else (d.producer q).inputQueue) →
        mp' ∈ (d.producer q).inputQueue := by
      intro q mp' hm
      split at hm
      · subst_vars; rw [hq]; exact List.mem_cons_of_mem _ hm
      · exact hm
    have hknown : d.Knows mp := Or.inl ⟨p, by simp [hq]⟩
    have hdeq : InputsFrom Q d ((d.modifyWorker c (·.rotateProducers k)).dequeue p mp rest) := by
      constructor
      · rintro mp' (⟨q, hp⟩ | ⟨q, hp⟩ | ⟨c', msg, hw⟩)
        · exact Or.inl (Or.inl ⟨q, hmem (by simpa using hp)⟩)
        · rw [dequeue_latestInputSentToEngine] at hp
          split at hp
          · cases hp; exact Or.inl hknown
          · exact Or.inl (Or.inr (Or.inl ⟨q, hp⟩))
        · exact Or.inl (Or.inr (Or.inr ⟨c', msg, by simpa using hw⟩))
      · exact fun h c' msg mp' hw => h c' msg mp' (by simpa using hw)
    exact hdeq.trans (inputsFrom_sendPayload (Or.inl (Or.inr (Or.inl ⟨p, by simp⟩))))
  | @pickedUp k p mp _ _ _ hlatest =>
    exact (hrotate k).trans (inputsFrom_sendPayload (Or.inl (Or.inr (Or.inl ⟨p, hlatest⟩))))

theorem inputsFrom_dispatched {b : Bool} {order : List Context} {r : Dispatcher × Option (List Context)}
    (h : Dispatched d mp b order r) (hQ : Q mp) : InputsFrom Q d r.1 := by
  have hadd : ∀ cs p, InputsFrom Q d (d.addProducers cs p) := fun cs p =>
    .of_eq (l := []) (by simp) (by simp) (by simp) (by simp)
  cases h with
  | busy => exact hadd ..
  | wrote => exact (hadd ..).trans (inputsFrom_sendPayload (Or.inr hQ))

theorem inputsFrom_enqueue (hQ : Q mp) : InputsFrom Q d ((d.enqueue mp).emit (.accepted mp)) := by
  constructor
  · rintro mp' (⟨p, hp⟩ | ⟨p, hp⟩ | ⟨c, msg, hw⟩)
    · rw [emit_producer, enqueue_inputQueue] at hp
      split at hp
      · rcases List.mem_append.1 hp with hp | hp
        · exact Or.inl (Or.inl ⟨p, hp⟩)
        · obtain rfl := List.mem_singleton.1 hp
          exact Or.inr hQ
      · exact Or.inl (Or.inl ⟨p, hp⟩)
    · exact Or.inl (Or.inr (Or.inl ⟨p, by simpa using hp⟩))
    · exact Or.inl (Or.inr (Or.inr ⟨c, msg, by simpa using hw⟩))
  · exact fun h c msg mp' hw => h c msg mp' (by simpa using hw)

theorem inputsFrom_setInFlight (hQ : Q mp) : InputsFrom Q d ((d.setInFlight mp).emit (.accepted mp)) := by
  constructor
  · rintro mp' (⟨p, hp⟩ | ⟨p, hp⟩ | ⟨c, msg, hw⟩)
    · exact Or.inl (Or.inl ⟨p, by simpa using hp⟩)
    · rw [emit_producer, setInFlight_latestInputSentToEngine] at hp
      split at hp
      · cases hp; exact Or.inr hQ
      · exact Or.inl (Or.inr (Or.inl ⟨p, hp⟩))
    · exact Or.inl (Or.inr (Or.inr ⟨c, msg, by simpa using hw⟩))
  · exact fun h c msg mp' hw => h c msg mp' (by simpa using hw)

theorem inputsFrom_beginInput (ts : List Context) : InputsFrom Q d (d.beginInput p ts) :=
  .of_eq (l := []) (by simp) (by simp) (by simp) (by simp)

theorem inputsFrom_answered {k : Nat} {m : Option Metadata} {result : Result} {ans : Answer}
    (h : Answered d c k result m (d', ans)) : InputsFrom Q d d' := by
  cases h with
  | noMetadata => exact .refl d
  | noProducer => exact .refl d
  | token => exact .of_eq (release_log ..) (by simp) (by simp) (by simp)
  | copy => exact .of_eq (emit_log ..) (by simp) (by simp) (by simp)
  | next => exact .refl d

theorem inputsFrom_removalBegun {r : Option (Address × ResultWrapper)} (h : RemovalBegun d c (d', r)) :
    InputsFrom Q d d' := by
  cases h with
  | silent => exact .refl d
  | released => exact .of_eq (release_log ..) (by simp) (by simp) (by simp)

end Dispatcher

/-! ### The client's messages -/

/-- The input was taken up from a message of its client, with the client info that the client had registered last. -/
def ClientLog.TakenUp (l : List ClientEvent) (mp : MetadataPayload) : Prop :=
  ∃ l₁ l₂ ref msg info,
    l = l₁ ++ .received ref mp.metadata.clientAddress msg :: .submitted ref mp :: l₂ ∧
    (ClientLog.registrations l₁ ref).getLast? = some info ∧
    mp.metadata = { frameId := msg.asInput.frameId, producerId := msg.asInput.producerId
                    clientAddress := mp.metadata.clientAddress, targetEngineIds := msg.asInput.targetEngineIds
                    clientInfo := info } ∧
    mp.payload = msg.asInput.inputFrame

open ClientLog

theorem ClientLog.TakenUp.mono {l l' : List ClientEvent} {mp : MetadataPayload} (h : TakenUp l mp) (hl : l <+: l') :
    TakenUp l' mp := by
  obtain ⟨l₁, l₂, ref, msg, info, rfl, h⟩ := h
  obtain ⟨t, rfl⟩ := hl
  exact ⟨l₁, l₂ ++ t, ref, msg, info, by simp, h⟩

namespace Interleaved

open Frontend Dispatcher

variable {cfg : Config} {s s' : Server} {sys sys' : Sys} {act : Action} {c : Context} {Q : MetadataPayload → Prop}

theorem Effects.inputsFrom (h : Effects c s s') : InputsFrom Q s.dispatcher s'.dispatcher :=
  h.dispatcher (P := InputsFrom Q s.dispatcher) (fun h hd => hd.trans (inputsFrom_removalBegun h))
    (fun _ hd => hd.trans (.of_eq (l := []) (by simp) (by simp) (by simp) (by simp)))
    (fun _ hd => hd.trans (.of_eq (emit_log ..) (by simp) (by simp) (by simp)))
    (fun h hd => hd.trans (inputsFrom_answered h)) (fun h hd => hd.trans (inputsFrom_nextSent h))
    (fun _ _ hd => hd.trans (.of_eq (l := []) (by simp) (by simp) (by simp) (by simp))) (.refl _)

theorem Effects.log_grows (h : Effects c s s') : s.frontend.log <+: s'.frontend.log :=
  h.frontend (P := fun f => s.frontend.log <+: f.log) (fun hq hlog => hlog.trans hq.log_grows)
    (fun hs hlog => hlog.trans hs.log_grows) List.prefix_rfl

/-- Every input in the system was taken up from a message of its client. -/
structure Sys.Traced (sys : Sys) : Prop where
  knows : ∀ mp, sys.server.dispatcher.Knows mp → TakenUp sys.server.frontend.log mp
  input : ∀ stream ∈ sys.streams, ∀ ref mp, stream.pc.input = some (ref, mp) → TakenUp sys.server.frontend.log mp
  writes : sys.server.dispatcher.WritesInputs

section Streams

variable {stream : Stream} {i : Nat} {r : Server × StreamPc} {ref : ClientRef}

private theorem Sys.Traced.setStream (h : sys.Traced) (hlog : sys.server.frontend.log <+: r.1.frontend.log)
    (hfrom : InputsFrom (TakenUp r.1.frontend.log) sys.server.dispatcher r.1.dispatcher)
    (hinput : ∀ ref mp, r.2.input = some (ref, mp) → TakenUp r.1.frontend.log mp) :
    (sys.setStream i stream r).Traced := by
  refine ⟨fun mp hk => (hfrom.1 mp hk).elim (fun hk => (h.knows mp hk).mono hlog) id, fun st hst => ?_,
    hfrom.2 h.writes⟩
  rcases List.mem_or_eq_of_mem_set hst with hst | rfl
  · exact fun ref mp he => (h.input st hst ref mp he).mono hlog
  · exact hinput

/-- The input of a message of the entry `ref` is taken up. -/
private theorem takenUp_submitted (cfg : Config) (a : Address) (msg : FromClient) {info : AnyProto}
    (ht : s.frontend.Tracked) (hinfo : (s.frontend.clientObjs ref).clientInfo = some info) :
    TakenUp (((s.frontend.emit (.received ref a msg)).initTokens cfg ref msg.asInput.producerId).emit
      (.submitted ref (s.dispatcher.metadataPayload msg.asInput a info))).log
      (s.dispatcher.metadataPayload msg.asInput a info) :=
  ⟨s.frontend.log, [], ref, msg, info, by simp, (ht.info ref).symm.trans hinfo, rfl, rfl⟩

private theorem deductToken_log_grows {f : Frontend} (ref : ClientRef) (mp : MetadataPayload) :
    f.log <+: (f.deductToken ref mp).log := by
  simp

private theorem ErrorReplied.log_grows {f f' : Frontend} {a : Address} {w : ResultWrapper}
    (h : ErrorReplied ref a w f f') : f.log <+: f'.log :=
  List.IsPrefix.trans (by simp) (Replied.log_grows h)

theorem MessageStep.traced {a : Address} {msg : FromClient} {pc : StreamPc}
    (h : MessageStep cfg sys.server a ref msg s pc) (ht : sys.server.frontend.Tracked) (hs : sys.Traced) :
    (sys.setStream i stream (s, pc)).Traced := by
  have hsettled : ∀ {pc : StreamPc} {l}, pc.settled → ∀ ref mp, pc.input = some (ref, mp) → TakenUp l mp := by
    intro pc l hpc ref mp h
    rw [StreamPc.input_of_settled hpc] at h
    cases h
  cases h with
  | registered _ hf hpc =>
    exact hs.setStream (List.IsPrefix.trans (by simp) hf.log_grows) (.refl _) (hsettled hpc)
  | unregistered _ _ hf hpc =>
    exact hs.setStream (List.IsPrefix.trans (by simp) hf.log_grows) (.refl _) (hsettled hpc)
  | noTokens _ _ hf hpc =>
    exact hs.setStream (List.IsPrefix.trans (by simp) hf.log_grows) (.refl _) (hsettled hpc)
  | noEngine _ hf hpc =>
    refine hs.setStream (List.IsPrefix.trans (by simp) hf.log_grows) ?_ (hsettled hpc)
    exact inputsFrom_beginInput []
  | suspended _ hinfo _ _ hr =>
    have htaken := takenUp_submitted cfg a msg ht hinfo
    refine hs.setStream (by simp) ?_ (by rintro _ _ ⟨⟩; exact htaken)
    exact (inputsFrom_beginInput _).trans (inputsFrom_dispatched (dispatchLoop_cases hr) htaken)
  | @enqueued info _ _ _ _ hinfo _ _ hr =>
    have htaken := (takenUp_submitted cfg a msg ht hinfo).mono
      (deductToken_log_grows ref (sys.server.dispatcher.metadataPayload msg.asInput a info))
    refine hs.setStream (by simp) ?_ (hsettled trivial)
    exact ((inputsFrom_beginInput _).trans (inputsFrom_dispatched (dispatchLoop_cases hr) htaken)).trans
      (inputsFrom_enqueue htaken)
  | dropped _ hinfo _ hr hf hpc =>
    have htaken := (takenUp_submitted cfg a msg ht hinfo).mono hf.log_grows
    refine hs.setStream (List.IsPrefix.trans (by simp) hf.log_grows) ?_ (hsettled hpc)
    exact (inputsFrom_beginInput _).trans (inputsFrom_dispatched (dispatchLoop_cases hr) htaken)

theorem ResumeStep.traced {pc : StreamPc} (h : ResumeStep cfg sys.server stream s pc) (hmem : stream ∈ sys.streams)
    (hs : sys.Traced) : (sys.setStream i stream (s, pc)).Traced := by
  have hinput := hs.input stream hmem
  cases h with
  | settled hf hpc =>
    refine hs.setStream hf.log_grows (.refl _) (fun ref mp h => ?_)
    rw [StreamPc.input_of_settled hpc] at h
    cases h
  | suspended hpc hr =>
    rw [hpc] at hinput
    exact hs.setStream List.prefix_rfl (inputsFrom_dispatched (dispatchLoop_cases hr) (hinput _ _ rfl)) hinput
  | @concluded ref mp _ _ _ hpc hr =>
    rw [hpc] at hinput
    have htaken := (hinput ref mp rfl).mono (deductToken_log_grows ref mp)
    exact hs.setStream (by simp) ((inputsFrom_dispatched (dispatchLoop_cases hr) htaken).trans
      (inputsFrom_setInFlight htaken)) (by rintro _ _ ⟨⟩)

end Streams

theorem traced_step (hstep : step cfg sys act = some sys') (ht : sys.ClientsTracked) (h : sys.Traced) :
    sys'.Traced := by
  cases step_cases hstep with
  | openClient =>
    refine ⟨h.knows, fun st hst => ?_, h.writes⟩
    rcases List.mem_append.1 hst with hst | hst
    · exact h.input st hst
    · obtain rfl := List.mem_singleton.1 hst
      rintro _ _ ⟨⟩
  | openProducer =>
    refine ⟨h.knows, fun st hst => ?_, h.writes⟩
    rcases List.mem_append.1 hst with hst | hst
    · exact h.input st hst
    · obtain rfl := List.mem_singleton.1 hst
      rintro _ _ ⟨⟩
  | unknownClient => exact h.setStream List.prefix_rfl (.refl _) (by rintro _ _ ⟨⟩)
  | message _ _ _ hm => exact hm.traced ht.frontend h
  | resumed hi hr => exact hr.traced (List.mem_of_getElem? hi) h
  | closed hi _ hr => exact hr.traced (List.mem_of_getElem? hi) h
  | openSession => exact ⟨h.knows, h.input, h.writes⟩
  | session _ _ hs =>
    have hlog := hs.effects.log_grows
    obtain ⟨hknows, hwrites⟩ := hs.effects.inputsFrom (Q := fun _ => False)
    exact ⟨fun mp hk => (h.knows mp ((hknows mp hk).resolve_right id)).mono hlog,
      fun st hst ref mp he => (h.input st hst ref mp he).mono hlog, hwrites h.writes⟩

theorem run_traced {as : List Action} (h : (machine cfg).Run as sys) : sys.Traced := by
  have hinit : Sys.Traced {} := by
    refine ⟨?_, fun _ hst => (nomatch hst), fun _ _ _ hw => (nomatch hw)⟩
    rintro mp (⟨p, hp⟩ | ⟨p, hp⟩ | ⟨c, msg, hw⟩)
    · cases hp
    · cases hp
    · cases hw
  exact h.invariant_of (I := Sys.Traced) (J := Sys.ClientsTracked) (fun h => run_clientsTracked h.run) hinit
    (fun _ _ _ ht h _ hstep => traced_step hstep ht h)

end Interleaved

end Gabriel
