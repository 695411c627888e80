import Gabriel.Server.ClientHistory

/-!
# What streams take up

The messages that the consumers of an address take up, as the history has them, and the streams that the client entries
were made for.
-/

namespace Gabriel

/-- The message from `a` that an event takes up. -/
@[simp] def ClientEvent.messageFrom (a : Address) : ClientEvent → Option FromClient
  | .received _ b msg => if b = a then some msg else none
  | _ => none

/-- The messages from `a` that were taken up. -/
def ClientLog.messagesFrom (l : List ClientEvent) (a : Address) : List FromClient :=
  l.filterMap (ClientEvent.messageFrom a)

namespace Interleaved

open Frontend ClientLog

variable {cfg : Config} {s s' : Server} {sys sys' : Sys} {act : Action} {a : Address} {ref : ClientRef}

/-- Operations that take up no message. -/
theorem messagesFrom_of_records {f f' : Frontend} (h : Records (fun ev => ∀ a, ev.messageFrom a = none) f f')
    (a : Address) : messagesFrom f'.log a = messagesFrom f.log a := by
  obtain ⟨es, hes, hnone⟩ := h
  have hnil : es.filterMap (ClientEvent.messageFrom a) = [] :=
    List.filterMap_eq_nil_iff.2 fun ev hev => hnone ev hev a
  rw [messagesFrom, hes, List.filterMap_append, hnil, List.append_nil]
  rfl

/-- A message is taken up once. -/
theorem MessageStep.takes {msg : FromClient} {pc : StreamPc} (h : MessageStep cfg s a ref msg s' pc) :
    Records (fun ev => ∀ a, ev.messageFrom a = none) (s.frontend.emit (.received ref a msg)) s'.frontend := by
  have hreply : ∀ {f f' : Frontend} {w : ResultWrapper},
      Records (fun ev => ∀ a, ev.messageFrom a = none) (s.frontend.emit (.received ref a msg)) f →
      ErrorReplied ref a w f f' →
      Records (fun ev => ∀ a, ev.messageFrom a = none) (s.frontend.emit (.received ref a msg)) f' := by
    intro f f' w hf hreplied
    exact (hf.emit fun _ => rfl).trans (Replied.records hreplied (fun _ => rfl) fun _ _ => rfl)
  have htested : Records (fun ev => ∀ a, ev.messageFrom a = none) (s.frontend.emit (.received ref a msg))
      ((s.frontend.emit (.received ref a msg)).initTokens cfg ref msg.asInput.producerId) := .of_eq (by simp)
  cases h with
  | registered _ hf => exact (Records.of_eq (by rfl)).trans (Replied.records hf (fun _ => rfl) fun _ _ => rfl)
  | unregistered _ _ hf => exact hreply (.of_eq rfl) hf
  | noTokens _ _ hf => exact hreply htested hf
  | noEngine _ hf => exact hreply (htested.emit fun _ => rfl) hf
  | suspended => exact htested.emit fun _ => rfl
  | enqueued => exact ((htested.emit fun _ => rfl).trans (.of_eq (by rfl))).emit fun _ => rfl
  | dropped _ _ _ _ hf => exact hreply (htested.emit fun _ => rfl) hf

theorem messagesFrom_message {i : Nat} {stream : Stream} {msg : FromClient} {order : List Context} {b : Bool}
    (hstep : step cfg sys (.message i msg order b) = some sys') (hi : sys.streams[i]? = some stream)
    (howner : stream.owner = some ref) (a : Address) :
    messagesFrom sys'.server.frontend.log a =
      messagesFrom sys.server.frontend.log a ++ if stream.address = a then [msg] else [] := by
  cases step_cases hstep with
  | unknownClient hi' _ hclient =>
    cases hi.symm.trans hi'
    rw [Stream.client, howner] at hclient
    cases hclient
  | message hi' _ _ hm =>
    cases hi.symm.trans hi'
    simp only [Sys.setStream]
    rw [messagesFrom_of_records hm.takes]
    by_cases ha : stream.address = a <;> simp [messagesFrom, ha]
  | session _ _ _ hc => cases hc

theorem messagesFrom_step (hstep : step cfg sys act = some sys')
    (hact : ∀ i msg order b, act ≠ .message i msg order b) (a : Address) :
    messagesFrom sys'.server.frontend.log a = messagesFrom sys.server.frontend.log a := by
  obtain ⟨es, hes, hrecorded⟩ := history_step hstep
  refine messagesFrom_of_records ⟨es, hes, fun ev hev a => ?_⟩ a
  cases hrecorded ev hev with
  | pushed h => cases h <;> rfl
  | handled he => exact absurd he (hact _ _ _ _)
  | deducted => rfl

/-! ### Streams of the entries -/

/-- A stream keeps its address and its entry, and does not go on after its end. -/
theorem streams_step {i : Nat} {stream : Stream} (hstep : step cfg sys act = some sys')
    (hi : sys.streams[i]? = some stream) :
    ∃ stream', sys'.streams[i]? = some stream' ∧ stream'.address = stream.address ∧ stream'.owner = stream.owner ∧
      (¬ stream.pc.running → stream' = stream) := by
  have hset : ∀ {j : Nat} {st : Stream} {r : Server × StreamPc}, sys.streams[j]? = some st → st.pc.running →
      ∃ stream', (sys.setStream j st r).streams[i]? = some stream' ∧ stream'.address = stream.address ∧
        stream'.owner = stream.owner ∧ (¬ stream.pc.running → stream' = stream) := by
    intro j st r hj hrun
    by_cases hij : j = i
    · subst hij
      cases hi.symm.trans hj
      have hlt : j < sys.streams.length := (List.getElem?_eq_some_iff.1 hj).1
      exact ⟨{ stream with pc := r.2 }, by simp [Sys.setStream, hlt], rfl, rfl, fun hend => absurd hrun hend⟩
    · exact ⟨stream, by simp [Sys.setStream, hij, hi], rfl, rfl, fun _ => rfl⟩
  have hconcat : ∀ new, ∃ stream', (sys.streams ++ [new])[i]? = some stream' ∧ stream'.address = stream.address ∧
      stream'.owner = stream.owner ∧ (¬ stream.pc.running → stream' = stream) := by
    intro new
    have hlt : i < sys.streams.length := (List.getElem?_eq_some_iff.1 hi).1
    exact ⟨stream, by rw [List.getElem?_append_left hlt, hi], rfl, rfl, fun _ => rfl⟩
  cases step_cases hstep with
  | openClient => exact hconcat _
  | openProducer => exact hconcat _
  | unknownClient hj hidle => exact hset hj (by rw [hidle]; trivial)
  | message hj hidle => exact hset hj (by rw [hidle]; trivial)
  | resumed hj _ hrun => exact hset hj hrun
  | closed hj hidle => exact hset hj (by rw [hidle]; trivial)
  | openSession => exact ⟨stream, hi, rfl, rfl, fun _ => rfl⟩
  | session => exact ⟨stream, hi, rfl, rfl, fun _ => rfl⟩

/-- The entries of the table were made for streams at their addresses. -/
def Sys.Served (sys : Sys) : Prop := ∀ a ref, sys.server.frontend.clients.get? a = some ref →
  ∃ (i : Nat) (stream : Stream), sys.streams[i]? = some stream ∧ stream.address = a ∧ stream.owner = some ref

theorem served_step (hstep : step cfg sys act = some sys') (h : sys.Served) : sys'.Served := by
  intro a ref href
  by_cases hopen : act = .openClient a
  · subst hopen
    cases step_cases hstep with
    | openClient =>
      simp only [addClient, Dict.get?_set_self, Option.some.injEq] at href
      subst href
      exact ⟨sys.streams.length, _, List.getElem?_concat_length, rfl, rfl⟩
    | session _ _ _ hc => cases hc
  · obtain ⟨i, stream, hi, ha, ho⟩ := h a ref (clients_step hstep hopen href)
    obtain ⟨stream', hi', ha', ho', -⟩ := streams_step hstep hi
    exact ⟨i, stream', hi', ha'.trans ha, ho'.trans ho⟩

theorem run_served {as : List Action} (h : (machine cfg).Run as sys) : sys.Served := by
  have hinit : Sys.Served {} := fun _ _ hr => (nomatch hr)
  exact h.invariant (I := Sys.Served) hinit fun _ _ _ h _ hstep => served_step hstep h

/-- Two addresses do not share an entry. -/
theorem Sys.Served.address_eq {b : Address} (h : sys.Served) (howned : sys.Owned cfg)
    (ha : sys.server.frontend.clients.get? a = some ref) (hb : sys.server.frontend.clients.get? b = some ref) :
    a = b := by
  obtain ⟨i, stream, hi, rfl, ho⟩ := h a ref ha
  obtain ⟨j, stream', hj, rfl, ho'⟩ := h b ref hb
  obtain rfl := howned.distinct hi hj ho ho'
  cases hi.symm.trans hj
  rfl

end Interleaved

end Gabriel
