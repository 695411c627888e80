import Gabriel.Server.InterleavedLemmas

/-!
# The client entries

Entries are numbered in the order of their creation, so that a new entry has no history.  The `client_info` of an
entry is that of the last registration it was sent.
-/

namespace Gabriel

/-- The entry whose history an event belongs to.  Messages that go out are not counted to it. -/
@[simp] def ClientEvent.client : ClientEvent → Option ClientRef
  | .received ref _ _ | .submitted ref _ | .deducted ref _ | .errorReply ref _ _ | .resultFor ref _ _ => some ref
  | .toClient _ _ _ => none

/-- The client info that an event registers for the entry `ref`. -/
@[simp] def ClientEvent.registration (ref : ClientRef) : ClientEvent → Option AnyProto
  | .received ref' _ (.registration info) => if ref' = ref then some info else none
  | _ => none

namespace ClientLog

variable (l l' : List ClientEvent) (e : ClientEvent) (ref : ClientRef)

/-- The client infos that the entry `ref` was registered with. -/
def registrations : List AnyProto := l.filterMap (ClientEvent.registration ref)

@[simp] theorem registrations_nil : registrations [] ref = [] := rfl
@[simp] theorem registrations_append : registrations (l ++ l') ref = registrations l ref ++ registrations l' ref :=
  List.filterMap_append
@[simp] theorem registrations_cons :
    registrations (e :: l) ref = (e.registration ref).toList ++ registrations l ref := by
  rw [registrations, List.filterMap_cons]
  cases e.registration ref <;> rfl

end ClientLog

open ClientLog

namespace Frontend

variable {cfg : Config} {f f' : Frontend} {ref : ClientRef} {a : Address}

/-- Entries are numbered in order, and their client infos are those of their registrations. -/
structure Tracked (f : Frontend) : Prop where
  known : ∀ e ∈ f.log, ∀ ref, e.client = some ref → ref < f.nextClient
  table : ∀ a ref, f.clients.get? a = some ref → ref < f.nextClient
  info : ∀ ref, (f.clientObjs ref).clientInfo = (registrations f.log ref).getLast?

/-- A new entry has no history. -/
theorem Tracked.registrations_nextClient (h : f.Tracked) (href : f.nextClient ≤ ref) :
    registrations f.log ref = [] := by
  rw [registrations, List.filterMap_eq_nil_iff]
  intro e he
  cases hr : e.registration ref with
  | none => rfl
  | some info =>
    have hclient : e.client = some ref := by
      cases e with
      | received ref' _ msg =>
        cases msg with
        | registration => simp at hr; simp [hr.1]
        | _ => cases hr
      | _ => cases hr
    exact absurd (h.known e he ref hclient) (Nat.not_lt.2 href)

/-- Operations that register no client info. -/
theorem Tracked.of_append {l : List ClientEvent} (h : f.Tracked) (hlog : f'.log = f.log ++ l)
    (hclient : ∀ e ∈ l, ∀ ref, e.client = some ref → ref < f.nextClient) (hreg : ∀ ref, registrations l ref = [])
    (hnext : f'.nextClient = f.nextClient)
    (htable : ∀ a ref, f'.clients.get? a = some ref → f.clients.get? a = some ref)
    (hinfo : ∀ ref, (f'.clientObjs ref).clientInfo = (f.clientObjs ref).clientInfo) : f'.Tracked := by
  refine ⟨fun e he ref hr => ?_, fun a ref hr => hnext ▸ h.table a ref (htable a ref hr), fun ref => ?_⟩
  · rw [hlog, List.mem_append] at he
    rw [hnext]
    exact he.elim (fun he => h.known e he ref hr) (fun he => hclient e he ref hr)
  · rw [hinfo, h.info, hlog, registrations_append, hreg, List.append_nil]

theorem Tracked.quiet (h : f.Tracked) (hq : Quiet f f') : f'.Tracked := by
  obtain ⟨l, hlog, hl⟩ := hq.log
  refine h.of_append hlog ?_ ?_ hq.nextClient hq.clients (fun ref => by rw [hq.clientObjs])
  · intro e he ref hr
    obtain ⟨_, _, _, rfl, -⟩ := hl e he
    cases hr
  · intro ref
    rw [registrations, List.filterMap_eq_nil_iff]
    intro e he
    obtain ⟨_, _, _, rfl, -⟩ := hl e he
    rfl

/-- An event of an entry that is no registration. -/
theorem Tracked.emit {e : ClientEvent} (h : f.Tracked) (hclient : ∀ ref, e.client = some ref → ref < f.nextClient)
    (hreg : ∀ ref, e.registration ref = none) : (f.emit e).Tracked :=
  h.of_append (emit_log ..) (by simpa using hclient) (fun ref => by rw [registrations_cons, hreg]; rfl) rfl
    (fun _ _ => id) (fun _ => rfl)

theorem Tracked.replied {msg : ToClient} (h : f.Tracked) (hr : Replied ref a msg f f') : f'.Tracked := by
  obtain ⟨f₁, rfl | rfl, hq⟩ := hr
  · exact h.quiet hq
  · exact (h.emit (by simp) (by simp)).quiet hq

theorem Tracked.addTokens (h : f.Tracked) (p : String) (n : Int) : (f.addTokens ref p n).Tracked :=
  h.of_append (l := []) (by simp) (by simp) (by simp) rfl (fun _ _ => id) (fun ref' => by
    by_cases hr : ref' = ref <;> simp [Frontend.addTokens, hr])

theorem Tracked.initTokens (h : f.Tracked) (p : String) : (f.initTokens cfg ref p).Tracked := by
  unfold Frontend.initTokens
  split
  · exact h
  · exact h.of_append (l := []) (by simp) (by simp) (by simp) rfl (fun _ _ => id) (fun ref' => by
      by_cases hr : ref' = ref <;> simp [hr])

theorem Tracked.deductToken (h : f.Tracked) (mp : MetadataPayload) (href : ref < f.nextClient) :
    (f.deductToken ref mp).Tracked :=
  (h.addTokens _ _).emit (by rintro _ ⟨⟩; exact href) (by simp)

theorem Tracked.registered (h : f.Tracked) (info : AnyProto) (href : ref < f.nextClient) :
    ((f.emit (.received ref a (.registration info))).modifyClient ref fun client =>
      { client with clientInfo := some info }).Tracked := by
  refine ⟨fun e he r hr => ?_, h.table, fun r => ?_⟩
  · rcases List.mem_append.1 he with he | he
    · exact h.known e he r hr
    · obtain rfl := List.mem_singleton.1 he
      cases hr
      exact href
  · by_cases hr : r = ref
    · simp [hr]
    · simp [hr, Ne.symm hr, h.info]

theorem Tracked.resultSent {w : ResultWrapper} {r : Frontend × Bool} (h : f.Tracked) (hs : ResultSent f a w r) :
    r.1.Tracked := by
  cases hs with
  | noClient => exact h
  | @sent ref href =>
    have hresult : (f.emit (.resultFor ref a w)).Tracked :=
      h.emit (by rintro _ ⟨⟩; exact h.table a ref href) (by simp)
    refine Tracked.emit ?_ (by simp) (by simp)
    split
    · exact hresult.addTokens _ _
    · exact hresult

theorem Tracked.addClient (h : f.Tracked) (a : Address) : (f.addClient a).Tracked := by
  refine ⟨fun e he ref hr => Nat.lt_succ_of_lt (h.known e he ref hr), fun b ref hr => ?_, fun ref => ?_⟩
  · simp only [Frontend.addClient] at hr ⊢
    rw [Dict.get?_set] at hr
    split at hr
    · cases hr; exact Nat.lt_succ_self _
    · exact Nat.lt_succ_of_lt (h.table b ref hr)
  · by_cases hr : ref = f.nextClient
    · subst hr
      simp [Frontend.addClient, h.registrations_nextClient (Nat.le_refl _)]
    · simp [Frontend.addClient, hr, h.info]

end Frontend

namespace Interleaved

open Frontend

variable {cfg : Config} {s s' : Server} {sys sys' : Sys} {act : Action} {c : Context}

theorem Effects.tracked (h : Effects c s s') (ht : s.frontend.Tracked) :
    s'.frontend.Tracked ∧ s'.frontend.nextClient = s.frontend.nextClient := by
  refine ⟨?_, h.nextClient⟩
  exact h.frontend (P := Tracked) (fun hq ht => ht.quiet hq.toQuiet) (fun hs ht => ht.resultSent hs) ht

/-- The frontend is `Tracked`, and the handlers of streams only have entries that exist. -/
structure Sys.ClientsTracked (sys : Sys) : Prop where
  frontend : sys.server.frontend.Tracked
  owner : ∀ stream ∈ sys.streams, ∀ ref, stream.owner = some ref → ref < sys.server.frontend.nextClient
  input : ∀ stream ∈ sys.streams, ∀ ref mp, stream.pc.input = some (ref, mp) → ref < sys.server.frontend.nextClient

section Streams

variable {stream : Stream} {i : Nat} {r : Server × StreamPc} {ref : ClientRef}

theorem Sys.ClientsTracked.client (h : sys.ClientsTracked) (hmem : stream ∈ sys.streams)
    (hclient : stream.client sys.server = some ref) : ref < sys.server.frontend.nextClient := by
  unfold Stream.client at hclient
  split at hclient
  · rename_i ref' howner
    cases hclient
    exact h.owner stream hmem _ howner
  · exact h.frontend.table _ _ hclient

private theorem Sys.ClientsTracked.setStream (h : sys.ClientsTracked) (hmem : stream ∈ sys.streams)
    (ht : r.1.frontend.Tracked) (hnext : r.1.frontend.nextClient = sys.server.frontend.nextClient)
    (hinput : ∀ ref mp, r.2.input = some (ref, mp) → ref < sys.server.frontend.nextClient) :
    (sys.setStream i stream r).ClientsTracked := by
  refine ⟨ht, fun st hst => ?_, fun st hst => ?_⟩ <;>
    simp only [Sys.setStream, hnext] <;> rcases List.mem_or_eq_of_mem_set hst with hst | rfl
  · exact h.owner st hst
  · exact h.owner stream hmem
  · exact h.input st hst
  · exact hinput

theorem ErrorReplied.tracked {f f' : Frontend} {a : Address} {w : ResultWrapper} (h : ErrorReplied ref a w f f')
    (ht : f.Tracked) (href : ref < f.nextClient) : f'.Tracked ∧ f'.nextClient = f.nextClient :=
  ⟨(ht.emit (by rintro _ ⟨⟩; exact href) (by simp)).replied h, h.nextClient⟩

theorem MessageStep.tracked {a : Address} {msg : FromClient} {pc : StreamPc} (h : MessageStep cfg s a ref msg s' pc)
    (ht : s.frontend.Tracked) (href : ref < s.frontend.nextClient) :
    s'.frontend.Tracked ∧ s'.frontend.nextClient = s.frontend.nextClient := by
  have htaken : msg.isRegistration = false → ((s.frontend.emit (.received ref a msg))).Tracked := by
    intro hmsg
    refine ht.emit (by rintro _ ⟨⟩; exact href) (fun r => ?_)
    cases msg with
    | registration => cases hmsg
    | _ => rfl
  have hsubmit : ∀ p mp, msg.isRegistration = false →
      (((s.frontend.emit (.received ref a msg)).initTokens cfg ref p).emit (.submitted ref mp)).Tracked :=
    fun p mp hmsg => ((htaken hmsg).initTokens p).emit (by rintro _ ⟨⟩; simpa using href) (by simp)
  cases h with
  | registered hmsg hf =>
    subst hmsg
    exact ⟨(ht.registered _ href).replied hf, hf.nextClient⟩
  | unregistered hmsg _ hf => exact hf.tracked (htaken hmsg) href
  | noTokens hmsg _ hf =>
    obtain ⟨h, hn⟩ := hf.tracked ((htaken hmsg).initTokens _) (by simpa using href)
    exact ⟨h, by simpa using hn⟩
  | noEngine hmsg hf =>
    obtain ⟨h, hn⟩ := hf.tracked (hsubmit _ _ hmsg) (by simpa using href)
    exact ⟨h, by simpa using hn⟩
  | suspended hmsg => exact ⟨hsubmit _ _ hmsg, by simp⟩
  | enqueued hmsg => exact ⟨(hsubmit _ _ hmsg).deductToken _ (by simpa using href), by simp⟩
  | dropped hmsg _ _ _ hf =>
    obtain ⟨h, hn⟩ := hf.tracked (hsubmit _ _ hmsg) (by simpa using href)
    exact ⟨h, by simpa using hn⟩

theorem ResumeStep.tracked {pc : StreamPc} (h : ResumeStep cfg s stream s' pc) (ht : s.frontend.Tracked)
    (hinput : ∀ ref mp, stream.pc.input = some (ref, mp) → ref < s.frontend.nextClient) :
    s'.frontend.Tracked ∧ s'.frontend.nextClient = s.frontend.nextClient := by
  cases h with
  | settled hf => exact ⟨ht.quiet hf, hf.nextClient⟩
  | suspended => exact ⟨ht, rfl⟩
  | concluded hpc =>
    rw [hpc] at hinput
    exact ⟨ht.deductToken _ (hinput _ _ rfl), rfl⟩

end Streams

theorem clientsTracked_step (hstep : step cfg sys act = some sys') (h : sys.ClientsTracked) : sys'.ClientsTracked := by
  cases step_cases hstep with
  | openClient =>
    refine ⟨h.frontend.addClient _, fun st hst => ?_, fun st hst => ?_⟩ <;>
      rcases List.mem_append.1 hst with hst | hst
    · exact fun ref hr => Nat.lt_succ_of_lt (h.owner st hst ref hr)
    · obtain rfl := List.mem_singleton.1 hst
      rintro _ ⟨⟩
      exact Nat.lt_succ_self _
    · exact fun ref mp hr => Nat.lt_succ_of_lt (h.input st hst ref mp hr)
    · obtain rfl := List.mem_singleton.1 hst
      rintro _ _ ⟨⟩
  | openProducer =>
    refine ⟨h.frontend, fun st hst => ?_, fun st hst => ?_⟩ <;> rcases List.mem_append.1 hst with hst | hst
    · exact h.owner st hst
    · obtain rfl := List.mem_singleton.1 hst
      rintro _ ⟨⟩
    · exact h.input st hst
    · obtain rfl := List.mem_singleton.1 hst
      rintro _ _ ⟨⟩
  | unknownClient hi =>
    exact h.setStream (List.mem_of_getElem? hi) h.frontend rfl (by rintro _ _ ⟨⟩)
  | message hi _ hclient hm =>
    have href := h.client (List.mem_of_getElem? hi) hclient
    obtain ⟨ht, hn⟩ := hm.tracked h.frontend href
    exact h.setStream (List.mem_of_getElem? hi) ht hn (fun ref mp he => (hm.input he).1 ▸ href)
  | resumed hi hr =>
    have hmem := List.mem_of_getElem? hi
    obtain ⟨ht, hn⟩ := hr.tracked h.frontend (h.input _ hmem)
    exact h.setStream hmem ht hn (fun ref mp he => h.input _ hmem ref mp (hr.input he))
  | closed hi _ hr =>
    have hmem := List.mem_of_getElem? hi
    obtain ⟨ht, hn⟩ := hr.tracked h.frontend (h.input _ hmem)
    exact h.setStream hmem ht hn (fun ref mp he => h.input _ hmem ref mp (hr.input he))
  | openSession => exact ⟨h.frontend, h.owner, h.input⟩
  | session _ _ hs =>
    obtain ⟨ht, hn⟩ := hs.effects.tracked h.frontend
    exact ⟨ht, fun st hst ref hr => hn ▸ h.owner st hst ref hr, fun st hst ref mp hr => hn ▸ h.input st hst ref mp hr⟩

theorem run_clientsTracked {as : List Action} (h : (machine cfg).Run as sys) : sys.ClientsTracked := by
  have hinit : Sys.ClientsTracked {} :=
    ⟨⟨fun _ he => (nomatch he), fun _ _ hr => (nomatch hr), fun _ => rfl⟩, fun _ hst => (nomatch hst),
      fun _ hst => (nomatch hst)⟩
  exact h.invariant (I := Sys.ClientsTracked) hinit (fun _ _ _ h _ hstep => clientsTracked_step hstep h)

/-! ### Streams and the entries they were opened with -/

/-- Each entry was made for one stream, which consumes messages for it only; producer streams are gRPC's. -/
structure Sys.Owned (cfg : Config) (sys : Sys) : Prop where
  distinct : ∀ {i j : Nat} {stream stream' : Stream} {ref : ClientRef}, sys.streams[i]? = some stream →
    sys.streams[j]? = some stream' → stream.owner = some ref → stream'.owner = some ref → i = j
  producer : ∀ {i : Nat} {stream : Stream}, sys.streams[i]? = some stream → stream.owner = none →
    cfg.clientTransport = .grpc
  input : ∀ {i : Nat} {stream : Stream} {ref ref' : ClientRef} {mp : MetadataPayload},
    sys.streams[i]? = some stream → stream.pc.input = some (ref, mp) → stream.owner = some ref' → ref = ref'

private theorem Sys.Owned.setStream {i : Nat} {stream : Stream} {r : Server × StreamPc} (h : sys.Owned cfg)
    (hi : sys.streams[i]? = some stream)
    (hinput : ∀ {ref ref' mp}, r.2.input = some (ref, mp) → stream.owner = some ref' → ref = ref') :
    (sys.setStream i stream r).Owned cfg := by
  have howner : ∀ {j : Nat} {st : Stream}, (sys.setStream i stream r).streams[j]? = some st →
      ∃ st' : Stream, sys.streams[j]? = some st' ∧ st'.owner = st.owner := by
    intro j st hj
    rcases Sys.getElem?_setStream hi hj with ⟨rfl, rfl⟩ | ⟨-, hj⟩
    · exact ⟨stream, hi, rfl⟩
    · exact ⟨st, hj, rfl⟩
  refine ⟨fun hj hk ho ho' => ?_, fun hj ho => ?_, fun hj hp ho => ?_⟩
  · obtain ⟨st, hj, hst⟩ := howner hj
    obtain ⟨st', hk, hst'⟩ := howner hk
    exact h.distinct hj hk (hst.trans ho) (hst'.trans ho')
  · obtain ⟨st, hj, hst⟩ := howner hj
    exact h.producer hj (hst.trans ho)
  · rcases Sys.getElem?_setStream hi hj with ⟨rfl, rfl⟩ | ⟨-, hj⟩
    · exact hinput hp ho
    · exact h.input hj hp ho

private theorem Sys.Owned.concat {s : Server} {new : Stream} (h : sys.Owned cfg) (hpc : new.pc = .idle)
    (hgrpc : new.owner = none → cfg.clientTransport = .grpc)
    (hfresh : ∀ {j : Nat} {stream : Stream} {ref : ClientRef}, sys.streams[j]? = some stream →
      new.owner = some ref → stream.owner ≠ some ref) :
    Sys.Owned cfg { sys with server := s, streams := sys.streams ++ [new] } := by
  refine ⟨fun hj hk ho ho' => ?_, fun hj ho => ?_, fun hj hp ho => ?_⟩
  · rcases getElem?_concat hj with hj' | ⟨rfl, rfl⟩ <;> rcases getElem?_concat hk with hk' | ⟨rfl, rfl⟩
    · exact h.distinct hj' hk' ho ho'
    · exact absurd ho (hfresh hj' ho')
    · exact absurd ho' (hfresh hk' ho)
    · rfl
  · rcases getElem?_concat hj with hj | ⟨-, rfl⟩
    · exact h.producer hj ho
    · exact hgrpc ho
  · rcases getElem?_concat hj with hj | ⟨-, rfl⟩
    · exact h.input hj hp ho
    · rw [hpc] at hp
      cases hp

theorem owned_step (hstep : step cfg sys act = some sys') (htracked : sys.ClientsTracked) (h : sys.Owned cfg) :
    sys'.Owned cfg := by
  have hresume : ∀ {i stream s pc}, sys.streams[i]? = some stream → ResumeStep cfg sys.server stream s pc →
      (sys.setStream i stream (s, pc)).Owned cfg := fun hi hr =>
    h.setStream hi fun hp ho => h.input hi (hr.input hp) ho
  cases step_cases hstep with
  | openClient =>
    refine h.concat rfl (fun ho => by cases ho) (fun {j stream ref} hj ho ho' => ?_)
    cases ho
    exact Nat.lt_irrefl _ (htracked.owner _ (List.mem_of_getElem? hj) _ ho')
  | openProducer hgrpc => exact h.concat rfl (fun _ => hgrpc) (fun _ ho => by cases ho)
  | unknownClient hi => exact h.setStream hi (fun hp => by cases hp)
  | message hi _ hclient hm =>
    refine h.setStream hi fun hp ho => ?_
    obtain ⟨rfl, -⟩ := hm.input hp
    rw [Stream.client, ho] at hclient
    exact (Option.some.inj hclient).symm
  | resumed hi hr => exact hresume hi hr
  | closed hi _ hr => exact hresume hi hr
  | openSession => exact ⟨h.distinct, h.producer, h.input⟩
  | session => exact ⟨h.distinct, h.producer, h.input⟩

theorem run_owned {as : List Action} (h : (machine cfg).Run as sys) : sys.Owned cfg := by
  have hinit : Sys.Owned cfg {} := ⟨fun hi => (nomatch hi), fun hi => (nomatch hi), fun hi => (nomatch hi)⟩
  exact h.invariant_of (I := Sys.Owned cfg) (J := Sys.ClientsTracked) (fun h => run_clientsTracked h.run) hinit
    (fun _ _ _ htracked h _ hstep => owned_step hstep htracked h)

end Interleaved

end Gabriel
