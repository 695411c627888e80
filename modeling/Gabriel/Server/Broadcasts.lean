import Gabriel.Server.EngineIds
import Gabriel.Server.Registry

/-!
# Broadcasts of the engine ids

`_engines_updated_cb` sends the engine ids to the clients one after the other and suspends in each send.  Its iteration
over `_clients` fails if the number of entries has changed, and the ids of its message are those of its start.  If
client entries come and go, and engines register and leave, only while no such broadcast is suspended, and no broadcast
is cancelled (`Action.calm`), then no broadcast fails, and between two broadcasts every registered client has the ids
of the server (`Sys.Informed`).
-/

namespace Gabriel.Interleaved

open Dispatcher Frontend

variable {cfg : Config} {s s' : Server} {sys sys' : Sys} {act : Action} {c v : Context} {pc pc' : SessionPc}

/-! ### Broadcasts -/

/-- Every client has the engine ids of the server, or has been sent none yet. -/
def Current (s : Server) : Prop :=
  ∀ a ref, s.frontend.clients.get? a = some ref →
    s.frontend.heldIds ref = none ∨ s.frontend.heldIds ref = some s.dispatcher.engineIds

/-- A suspended broadcast of the server's engine ids: the clients that it has visited have them. -/
structure Broadcast.Sound (s : Server) (b : Broadcast) : Prop where
  engineIds : b.engineIds = s.dispatcher.engineIds
  size : b.size = s.frontend.clients.size
  visited : ∀ a ref, s.frontend.clients.get? a = some ref →
    a ∈ b.todo ∨ s.frontend.heldIds ref = some s.dispatcher.engineIds

/-- Every client has the engine ids of the server. -/
def Reached (s : Server) : Prop :=
  ∀ a ref, s.frontend.clients.get? a = some ref → s.frontend.heldIds ref = some s.dispatcher.engineIds

theorem Reached.current (h : Reached s) : Current s := fun a ref href => Or.inr (h a ref href)

def BroadcastOutcome.Sound (s : Server) : BroadcastOutcome → Prop
  | .suspended b => b.Sound s
  | .done => Reached s
  | .runtimeError => False

theorem broadcastFrom_sound {f : Frontend} (todo : List Address)
    (h : ∀ a ref, f.clients.get? a = some ref → a ∈ todo ∨ f.heldIds ref = some s.dispatcher.engineIds) :
    BroadcastOutcome.Sound
      { s with frontend := (broadcastFrom f s.dispatcher.engineIds f.clients.size todo).1 }
      (broadcastFrom f s.dispatcher.engineIds f.clients.size todo).2 := by
  induction todo with
  | nil =>
    intro a ref href
    exact (h a ref href).resolve_left (by simp)
  | cons a rest ih =>
    unfold broadcastFrom sendViaTransport
    cases hget : f.clients.get? a with
    | none =>
      refine ih fun a' ref href => (h a' ref href).imp_left fun hmem => ?_
      rcases List.mem_cons.1 hmem with rfl | hmem
      · rw [hget] at href; cases href
      · exact hmem
    | some ref =>
      refine ⟨rfl, rfl, fun a' ref' href' => ?_⟩
      have hheld := heldIds_emit f (.toClient ref a (.engineIdsUpdate s.dispatcher.engineIds)) ref'
      by_cases hr : ref = ref'
      · right
        simp only
        rw [hheld]
        simp [ClientEvent.messageFor, hr, ToClient.engineIds?]
      · rcases h a' ref' href' with hmem | hids
        · rcases List.mem_cons.1 hmem with rfl | hmem
          · simp only [emit_clients, hget] at href'
            exact absurd (Option.some.inj href') hr
          · exact Or.inl hmem
        · right
          simp only
          rw [hheld, hids]
          simp [ClientEvent.messageFor, hr]

/-- A broadcast that starts visits every client. -/
theorem startBroadcast_sound (s : Server) : (startBroadcast s).2.Sound (startBroadcast s).1 := by
  refine broadcastFrom_sound s.frontend.clients.keys fun a ref href => Or.inl ?_
  exact Dict.mem_keys_iff.2 ⟨ref, href⟩

theorem resumeBroadcast_sound {b : Broadcast} (h : b.Sound s) :
    (resumeBroadcast s b).2.Sound (resumeBroadcast s b).1 := by
  unfold resumeBroadcast
  rw [if_pos h.size.symm, h.engineIds, h.size]
  exact broadcastFrom_sound b.todo h.visited

/-! ### The functions of a session -/

/-- The server's engine ids, its clients and what they have been told stay the same. -/
structure SameIds (s s' : Server) : Prop where
  engineIds : s'.dispatcher.engineIds = s.dispatcher.engineIds
  clients : s'.frontend.clients = s.frontend.clients
  held : ∀ ref, s'.frontend.heldIds ref = s.frontend.heldIds ref

theorem SameIds.refl (s : Server) : SameIds s s := ⟨rfl, rfl, fun _ => rfl⟩

theorem Current.of_same (h : Current s) (hs : SameIds s s') : Current s' := by
  intro a ref href
  rw [hs.clients] at href
  rw [hs.held, hs.engineIds]
  exact h a ref href

theorem Broadcast.Sound.of_same {b : Broadcast} (h : b.Sound s) (hs : SameIds s s') : b.Sound s' := by
  refine ⟨h.engineIds.trans hs.engineIds.symm, by rw [hs.clients]; exact h.size, fun a ref href => ?_⟩
  rw [hs.clients] at href
  rw [hs.held, hs.engineIds]
  exact h.visited a ref href

theorem sameIds_feed (b : Bool) : SameIds s (feed s c b).1 := by
  have hids := (@feed_serving s c b).1.engineIds
  have hf : (feed s c b).1.frontend = s.frontend := by
    unfold feed
    split <;> rfl
  exact ⟨hids, by rw [hf], fun ref => by rw [hf]⟩

theorem sameIds_answer (k : Nat) (m : Option Metadata) (result : Result) (b : Bool) :
    SameIds s (answer s c k m result b).1 := by
  have hids := (@answer_serving s c k m result b).1.engineIds
  have hfeed : ∀ s₁ : Server, (feed s₁ c b).1.frontend = s₁.frontend := by
    intro s₁
    unfold feed
    split <;> rfl
  have hf : (answer s c k m result b).1.frontend = s.frontend ∨
      ∃ a w r, ResultSent s.frontend a w r ∧ (answer s c k m result b).1.frontend = r.1 := by
    unfold answer Server.answerResult Server.sendResult
    rcases s.dispatcher.answerResult c k m result with ⟨d, _ | ⟨a, w⟩ | _⟩
    · exact Or.inl rfl
    · refine Or.inr ⟨a, w, _, sendResult_cases rfl, ?_⟩
      simp only
      rcases s.frontend.sendResult a w with ⟨f, _ | _⟩
      · exact hfeed _
      · rfl
    · exact Or.inl (hfeed _)
  rcases hf with hf | ⟨a, w, r, hsent, hf⟩
  · exact ⟨hids, by rw [hf], fun ref => by rw [hf]⟩
  · exact ⟨hids, by rw [hf, hsent.clients], fun ref => by rw [hf, hsent.heldIds]⟩

theorem sameIds_nextMessage (msg : FromEngine) : SameIds s (nextMessage s c msg).1 := by
  unfold nextMessage
  split
  · exact .refl s
  · simp only
    split <;> exact ⟨rfl, rfl, fun _ => rfl⟩

theorem sameIds_beginRemoval : SameIds s (s.beginRemoval v).1 := by
  have hd := (@sameRegistry_beginRemoval s v).engineIds
  unfold Server.beginRemoval at *
  split
  · rename_i heq
    rw [heq] at hd
    exact ⟨hd, rfl, fun _ => rfl⟩
  · rename_i d a w heq
    rw [heq] at hd
    have hsent : ResultSent s.frontend a w (s.frontend.sendResult a w) := sendResult_cases rfl
    exact ⟨hd, hsent.clients, hsent.heldIds⟩

def RemovalOutcome.Sound (s : Server) : RemovalOutcome → Prop
  | .suspended .sending | .done => Current s
  | .suspended (.broadcasting b) => b.Sound s
  | .failed e => e ≠ .runtimeError ∧ Current s

theorem RemovalOutcome.sound_ofBroadcast {o : BroadcastOutcome} (h : o.Sound s) : (ofBroadcast o).Sound s := by
  cases o with
  | suspended b => exact h
  | done => exact h.current
  | runtimeError => exact h.elim

/-- The removal of a worker that is in the registry. -/
theorem afterSending_sound (h : Current s) (hv : v ∈ s.dispatcher.engineWorkers) :
    (afterSending s v).2.Sound (afterSending s v).1 := by
  unfold afterSending
  split
  · rename_i d heq
    -- the id is missing, and the registry is as before
    have hsame : d = s.dispatcher := by
      simp only [finishRemoval] at heq
      split at heq
      · cases heq; rfl
      · cases heq
    exact hsame ▸ ⟨by simp, h⟩
  · exact RemovalOutcome.sound_ofBroadcast (startBroadcast_sound _)

theorem startRemoval_sound (h : Current s) (hv : v ∈ s.dispatcher.engineWorkers) :
    (startRemoval s v).2.Sound (startRemoval s v).1 := by
  have hsame := @sameIds_beginRemoval s v
  have hworkers := (@sameRegistry_beginRemoval s v).engineWorkers
  unfold startRemoval
  split <;> rename_i heq <;> rw [heq] at hsame hworkers
  · exact h.of_same hsame
  · exact afterSending_sound (h.of_same hsame) (hworkers ▸ hv)

/-- The broadcast in which a session is suspended. -/
def SessionPc.broadcast : SessionPc → Option Broadcast
  | .takeover _ _ _ (.broadcasting b) | .announcing b | .closing _ (.broadcasting b) => some b
  | _ => none

/-- The session has failed because of a broadcast, or will when its worker is removed. -/
def SessionPc.runtimeError : SessionPc → Prop
  | .closing err _ | .finished err => err = some .runtimeError
  | _ => False

/-- What a session that alone sends broadcasts has achieved. -/
structure SessionPc.Sound (s : Server) (pc : SessionPc) : Prop where
  runtimeError : ¬ pc.runtimeError
  broadcast : ∀ b, pc.broadcast = some b → b.Sound s
  current : pc.broadcast = none → Current s

theorem SessionPc.Sound.of_current (h : Current s) (herr : ¬ pc.runtimeError) (hpc : pc.broadcast = none) :
    pc.Sound s :=
  ⟨herr, fun _ hb => (nomatch hpc.symm.trans hb), fun _ => h⟩

theorem SessionPc.Sound.of_broadcast {b : Broadcast} (h : b.Sound s) (herr : ¬ pc.runtimeError)
    (hpc : pc.broadcast = some b) : pc.Sound s := by
  refine ⟨herr, fun b' hb => ?_, fun hnone => (nomatch hpc.symm.trans hnone)⟩
  obtain rfl := Option.some.inj (hpc.symm.trans hb)
  exact h

theorem SessionPc.sound_ofBroadcast {o : BroadcastOutcome} (h : o.Sound s) : (SessionPc.ofBroadcast o).Sound s := by
  cases o with
  | suspended b => exact .of_broadcast h id rfl
  | done => exact .of_current h.current id rfl
  | runtimeError => exact h.elim

theorem register_sound (s : Server) (c : Context) (id : String) (ar : Bool) :
    (register s c id ar).2.Sound (register s c id ar).1 :=
  SessionPc.sound_ofBroadcast (startBroadcast_sound _)

theorem takeoverFrom_sound {r : Server × RemovalOutcome} (h : r.2.Sound r.1) (id : String) (ar : Bool) :
    (takeoverFrom c id ar v r).2.Sound (takeoverFrom c id ar v r).1 := by
  obtain ⟨s₁, (_ | b) | _ | e⟩ := r
  · exact .of_current h not_false rfl
  · exact .of_broadcast h not_false rfl
  · exact register_sound ..
  · exact .of_current h.2 (fun he => h.1 (Option.some.inj he)) rfl

theorem closingFrom_sound {r : Server × RemovalOutcome} {err : Option PyError} (h : r.2.Sound r.1)
    (herr : err ≠ some .runtimeError) : (closingFrom err r).2.Sound (closingFrom err r).1 := by
  obtain ⟨s₁, (_ | b) | _ | e⟩ := r
  · exact .of_current h herr rfl
  · exact .of_broadcast h herr rfl
  · exact .of_current h herr rfl
  · exact .of_current h.2 (fun he => h.1 (Option.some.inj he)) rfl

theorem leaveLoop_sound (h : Current s) {err : Option PyError} (herr : err ≠ some .runtimeError) :
    (leaveLoop s c err).2.Sound (leaveLoop s c err).1 := by
  unfold leaveLoop
  split
  · exact closingFrom_sound (startRemoval_sound h ‹_›) herr
  · exact .of_current h herr rfl

theorem firstMessage_sound (h : Current s) (msg : FromEngine) :
    (firstMessage s c msg).2.Sound (firstMessage s c msg).1 := by
  unfold firstMessage
  split
  · split
    · rename_i v hv
      exact takeoverFrom_sound (startRemoval_sound h (Registry.predecessor_eq_some hv).1) _ _
    · exact register_sound ..
  · exact .of_current h nofun rfl

/-! ### The system -/

/-- No session is suspended in a broadcast. -/
def Sys.NoBroadcast (sys : Sys) : Prop :=
  ∀ c < sys.server.dispatcher.nextContext, (sys.sessions c).any (·.broadcast.isSome) = false

instance : Decidable sys.NoBroadcast := inferInstanceAs (Decidable (∀ _ < _, _ = _))

/-- A suspended broadcast is not cancelled, and a removal begins or goes on after its `send_result` only when no
broadcast is suspended and the worker is still there. -/
def SessionPc.resumesCalmly (sys : Sys) (c : Context) (raises : Bool) : SessionPc → Prop
  | .takeover _ _ v .sending => raises = false → v ∈ sys.server.dispatcher.engineWorkers ∧ sys.NoBroadcast
  | .closing _ .sending => raises = false → c ∈ sys.server.dispatcher.engineWorkers ∧ sys.NoBroadcast
  | .takeover _ _ _ (.broadcasting _) | .announcing _ | .closing _ (.broadcasting _) => raises = false
  | .sinking _ _ _ | .answering | .feeding => raises = true → sys.NoBroadcast
  | _ => True

/-- Client entries come, at free addresses, and go, and engines register and leave, only while no broadcast is
suspended, and no broadcast is cancelled. -/
def Action.calm (sys : Sys) : Action → Prop
  | .openClient a => sys.server.frontend.clients.get? a = none ∧ sys.NoBroadcast
  | .resumeStream i raises _ => raises = true → ∀ stream ∈ sys.streams[i]?, stream.owner.isSome → sys.NoBroadcast
  | .closeStream i => ∀ stream ∈ sys.streams[i]?, stream.owner.isSome → sys.NoBroadcast
  | .engineMessage c (.register _ _) => sys.sessions c = some .connected → sys.NoBroadcast
  | .resumeSession c raises _ => ∀ pc ∈ sys.sessions c, pc.resumesCalmly sys c raises
  | .closeSession c => sys.sessions c = some .idle → sys.NoBroadcast
  | _ => True

instance (sys : Sys) (c : Context) (raises : Bool) : DecidablePred (SessionPc.resumesCalmly sys c raises)
  | .takeover _ _ _ .sending | .closing _ .sending => inferInstanceAs (Decidable (_ → _ ∧ _))
  | .takeover _ _ _ (.broadcasting _) | .announcing _ | .closing _ (.broadcasting _) =>
    inferInstanceAs (Decidable (_ = _))
  | .sinking _ _ _ | .answering | .feeding => inferInstanceAs (Decidable (_ → _))
  | .connected | .idle | .finished _ => inferInstanceAs (Decidable True)

instance (sys : Sys) : DecidablePred (Action.calm sys)
  | .openClient _ => inferInstanceAs (Decidable (_ ∧ _))
  | .resumeStream i _ _ =>
    inferInstanceAs (Decidable (_ → ∀ stream ∈ sys.streams[i]?, stream.owner.isSome → sys.NoBroadcast))
  | .closeStream i => inferInstanceAs (Decidable (∀ stream ∈ sys.streams[i]?, stream.owner.isSome → sys.NoBroadcast))
  | .engineMessage _ (.register _ _) => inferInstanceAs (Decidable (_ → _))
  | .resumeSession c raises _ => inferInstanceAs (Decidable (∀ pc ∈ sys.sessions c, pc.resumesCalmly sys c raises))
  | .closeSession _ => inferInstanceAs (Decidable (_ → _))
  | .openProducer _ | .message _ _ _ _ | .openSession | .engineMessage _ (.result _) | .engineMessage _ .unset =>
    inferInstanceAs (Decidable True)

theorem Action.calm.addressFree (h : act.calm sys) : act.addressFree sys := by
  cases act with
  | openClient => exact h.1
  | _ => trivial

theorem Sys.NoBroadcast.broadcast_eq_none (h : sys.NoBroadcast) (hused : sys.ContextsUsed)
    (hc : sys.sessions c = some pc) : pc.broadcast = none := by
  by_contra hne
  exact hused.any_eq_false h (Option.isSome_iff_ne_none.2 hne) hc

/-- At most one session is suspended in a broadcast, with which it will reach every client, and if there is none,
the clients have the engine ids of the server. -/
structure Sys.Informed (sys : Sys) : Prop where
  runtimeError : ∀ {c pc}, sys.sessions c = some pc → ¬ pc.runtimeError
  broadcast : ∀ {c pc b}, sys.sessions c = some pc → pc.broadcast = some b → b.Sound sys.server
  single : ∀ {c c' pc pc'}, sys.sessions c = some pc → sys.sessions c' = some pc' → pc.broadcast ≠ none →
    pc'.broadcast ≠ none → c = c'
  current : (∀ c pc, sys.sessions c = some pc → pc.broadcast = none) → Current sys.server
  greeted : sys.server.frontend.Greeted

namespace Sys.Informed

/-- A stream's handler. -/
theorem of_stream {streams : List Stream} (h : sys.Informed)
    (hids : s.dispatcher.engineIds = sys.server.dispatcher.engineIds)
    (hinf : Informs sys.server.dispatcher.engineIds sys.server.frontend s.frontend)
    (hsub : ∀ a ref, s.frontend.clients.get? a = some ref → sys.server.frontend.clients.get? a = some ref)
    (htable : s.frontend.clients = sys.server.frontend.clients ∨
      ∀ c pc, sys.sessions c = some pc → pc.broadcast = none) :
    Sys.Informed { sys with server := s, streams := streams } := by
  refine ⟨h.runtimeError, fun {c pc b} hc hb => ?_, h.single, fun hnone a ref href => ?_, hinf.greeted h.greeted⟩
  · rcases htable with htable | hnone
    · have hsound := h.broadcast hc hb
      refine ⟨hsound.engineIds.trans hids.symm, by rw [hsound.size, htable], fun a ref href => ?_⟩
      rw [hids]
      rcases hsound.visited a ref (hsub a ref href) with hmem | hheld
      · exact Or.inl hmem
      · rcases hinf.held ref with heq | heq
        · exact Or.inr (heq.trans hheld)
        · exact Or.inr heq
    · exact (nomatch (hnone c pc hc).symm.trans hb)
  · rw [hids]
    rcases hinf.held ref with heq | heq
    · rw [heq]
      exact h.current hnone a ref (hsub a ref href)
    · exact Or.inr heq

/-- A session that tells the clients nothing. -/
theorem goOn (h : sys.Informed) (hs : SameIds sys.server s) (hg : s.frontend.Greeted)
    (hc : ∀ pc, sys.sessions c = some pc → pc.broadcast = none) (herr : ¬ pc.runtimeError)
    (hpc : pc.broadcast = none) : (sys.setSession c (s, pc)).Informed := by
  -- where a session that broadcasts was before
  have hother : ∀ {c' pc'}, Function.update sys.sessions c (some pc) c' = some pc' → pc'.broadcast ≠ none →
      sys.sessions c' = some pc' := by
    intro c' pc' hc' hb
    refine Registry.of_update hc' ?_
    rintro rfl
    exact hb hpc
  refine ⟨fun {c' pc'} hc' => ?_, fun {c' pc' b} hc' hb => ?_, fun h₁ h₂ hb₁ hb₂ => ?_, fun hnone => ?_, hg⟩
  · by_cases he : pc' = pc
    · rwa [he]
    · exact h.runtimeError (Registry.of_update hc' he)
  · exact (h.broadcast (hother hc' (by simp [hb])) hb).of_same hs
  · exact h.single (hother h₁ hb₁) (hother h₂ hb₂) hb₁ hb₂
  · refine (h.current fun c' pc' hc' => ?_).of_same hs
    by_cases he : c' = c
    · subst he
      exact hc pc' hc'
    · exact hnone c' pc' ((Function.update_of_ne he ..).trans hc')

/-- A session that reads or answers a result. -/
theorem serve (h : sys.Informed) (hs : SameIds sys.server s) (hg : s.frontend.Greeted)
    (hc : sys.sessions c = some pc) (hpc : pc.broadcast = none) (hserving : pc'.serving) :
    (sys.setSession c (s, pc')).Informed := by
  refine h.goOn hs hg (fun pc₁ hc₁ => ?_) ?_ ?_
  · rwa [← Option.some.inj (hc.symm.trans hc₁)]
  · cases pc' <;> first | exact id | exact hserving.elim
  · cases pc' <;> first | rfl | exact hserving.elim

/-- A session that ends where it is not suspended in a broadcast. -/
theorem finish (h : sys.Informed) (hc : sys.sessions c = some pc) (hpc : pc.broadcast = none) {err : Option PyError}
    (herr : err ≠ some .runtimeError) : (sys.setSession c (sys.server, .finished err)).Informed := by
  refine h.goOn (.refl _) h.greeted (fun pc₁ hc₁ => ?_) herr rfl
  rwa [← Option.some.inj (hc.symm.trans hc₁)]

/-- A session while no other one is suspended in a broadcast. -/
theorem alone (h : sys.Informed) (hs : pc.Sound s) (hg : s.frontend.Greeted)
    (hothers : ∀ c' pc', c' ≠ c → sys.sessions c' = some pc' → pc'.broadcast = none) :
    (sys.setSession c (s, pc)).Informed := by
  have hself : ∀ {c' pc'}, Function.update sys.sessions c (some pc) c' = some pc' → pc'.broadcast ≠ none →
      c' = c ∧ pc' = pc := by
    intro c' pc' hc' hb
    by_cases he : c' = c
    · subst he
      rw [Function.update_self] at hc'
      exact ⟨rfl, (Option.some.inj hc').symm⟩
    · rw [Function.update_of_ne he] at hc'
      exact absurd (hothers c' pc' he hc') hb
  refine ⟨fun {c' pc'} hc' => ?_, fun {c' pc' b} hc' hb => ?_, fun h₁ h₂ hb₁ hb₂ => ?_, fun hnone => ?_, hg⟩
  · by_cases he : pc' = pc
    · rw [he]
      exact hs.runtimeError
    · exact h.runtimeError (Registry.of_update hc' he)
  · obtain ⟨rfl, rfl⟩ := hself hc' (by simp [hb])
    exact hs.broadcast b hb
  · exact (hself h₁ hb₁).1.trans (hself h₂ hb₂).1.symm
  · exact hs.current (hnone c pc (Function.update_self ..))

/-- A session of which no other one is suspended in a broadcast. -/
theorem others (h : sys.Informed) (hc : sys.sessions c = some pc) (hpc : pc.broadcast ≠ none) :
    ∀ c' pc', c' ≠ c → sys.sessions c' = some pc' → pc'.broadcast = none := by
  intro c' pc' hne hc'
  by_contra hb
  exact hne (h.single hc' hc hb hpc)

/-- A session while none is suspended in a broadcast. -/
theorem calm (h : sys.Informed) (hused : sys.ContextsUsed) (hno : sys.NoBroadcast)
    (hs : Current sys.server → pc.Sound s) (hg : s.frontend.Greeted) : (sys.setSession c (s, pc)).Informed :=
  h.alone (hs (h.current fun _ _ hc => hno.broadcast_eq_none hused hc)) hg
    fun _ _ _ hc => hno.broadcast_eq_none hused hc

theorem resumeSession {raises b : Bool} (h : sys.Informed) (hused : sys.ContextsUsed)
    (hc : sys.sessions c = some pc) (hact : pc.resumesCalmly sys c raises) (hg : s'.frontend.Greeted)
    (hr : Interleaved.resumeSession sys.server c raises b pc = some (s', pc')) :
    (sys.setSession c (s', pc')).Informed := by
  -- a session that answers a result, or fails at it
  have hserve : pc.broadcast = none → (raises = true → sys.NoBroadcast) → ∀ r : Server × SessionPc,
      SameIds sys.server r.1 → r.2.serving →
      (if raises then some (leaveLoop sys.server c (some .raised)) else some r) = some (s', pc') →
      (sys.setSession c (s', pc')).Informed := by
    intro hpc hno r hsame hserving heq
    split at heq <;> obtain ⟨rfl, rfl⟩ := Prod.ext_iff.1 (Option.some.inj heq)
    · exact h.calm hused (hno ‹_›) (fun hcur => leaveLoop_sound hcur (by simp)) hg
    · exact h.serve hsame hg hc hpc hserving
  cases pc with
  | connected => cases hr
  | idle => cases hr
  | finished => cases hr
  | sinking k m result => exact hserve rfl hact _ (sameIds_answer ..) (answer_serving ..).2 hr
  | answering => exact hserve rfl hact _ (sameIds_feed b) (feed_serving b).2 hr
  | feeding => exact hserve rfl hact (sys.server, .idle) (.refl _) trivial hr
  | announcing bc =>
    obtain rfl : raises = false := hact
    obtain ⟨rfl, rfl⟩ := Prod.ext_iff.1 (Option.some.inj hr)
    have hsound := resumeBroadcast_sound (h.broadcast hc rfl)
    exact h.alone (SessionPc.sound_ofBroadcast hsound) hg (h.others hc (by simp [SessionPc.broadcast]))
  | takeover id ar v rpc =>
    simp only [Interleaved.resumeSession] at hr
    cases rpc with
    | sending =>
      split at hr
      · cases hr
        exact h.finish hc rfl (by simp)
      · obtain ⟨hv, hno⟩ := hact (by simpa using ‹¬ raises = true›)
        obtain ⟨rfl, rfl⟩ := Prod.ext_iff.1 (Option.some.inj hr)
        exact h.calm hused hno (fun hcur => takeoverFrom_sound (afterSending_sound hcur hv) id ar) hg
    | broadcasting bc =>
      obtain rfl : raises = false := hact
      obtain ⟨rfl, rfl⟩ := Prod.ext_iff.1 (Option.some.inj hr)
      have hsound := resumeBroadcast_sound (h.broadcast hc rfl)
      exact h.alone (takeoverFrom_sound (RemovalOutcome.sound_ofBroadcast hsound) id ar) hg
        (h.others hc (by simp [SessionPc.broadcast]))
  | closing err rpc =>
    have herr : err ≠ some .runtimeError := h.runtimeError hc
    simp only [Interleaved.resumeSession] at hr
    cases rpc with
    | sending =>
      split at hr
      · cases hr
        exact h.finish hc rfl (by simp)
      · obtain ⟨hv, hno⟩ := hact (by simpa using ‹¬ raises = true›)
        obtain ⟨rfl, rfl⟩ := Prod.ext_iff.1 (Option.some.inj hr)
        exact h.calm hused hno (fun hcur => closingFrom_sound (afterSending_sound hcur hv) herr) hg
    | broadcasting bc =>
      obtain rfl : raises = false := hact
      obtain ⟨rfl, rfl⟩ := Prod.ext_iff.1 (Option.some.inj hr)
      have hsound := resumeBroadcast_sound (h.broadcast hc rfl)
      exact h.alone (closingFrom_sound (RemovalOutcome.sound_ofBroadcast hsound) herr) hg
        (h.others hc (by simp [SessionPc.broadcast]))

end Sys.Informed

/-- Sessions keep what the registered clients have been told. -/
theorem Effects.greeted (h : Effects c s s') (hg : s.frontend.Greeted) : s'.frontend.Greeted :=
  h.frontend (P := Frontend.Greeted) (fun ht hf => hf.of_log ht.log_grows fun ref => by rw [ht.clientObjs])
    (fun hr hf => hf.of_log hr.log_grows hr.clientInfo) hg

theorem greeted_session (hstep : step cfg sys act = some sys') (hact : act.session ≠ none)
    (hg : sys.server.frontend.Greeted) : sys'.server.frontend.Greeted := by
  cases step_cases hstep with
  | session _ _ hs => exact hs.effects.greeted hg
  | openSession => exact hg
  | _ => exact absurd rfl hact

namespace Sys.Informed

/-- A client connects while no engine ids are being sent. -/
private theorem openClient {a : Address} {streams : List Stream} (h : sys.Informed) (hused : sys.ContextsUsed)
    (hrec : sys.Recipients) (hno : sys.NoBroadcast) :
    Sys.Informed { sys with
      server := { sys.server with frontend := sys.server.frontend.addClient a }
      streams := streams } := by
  have hcur := h.current fun _ _ hc => hno.broadcast_eq_none hused hc
  have hnew := hrec.heldIds_nextClient
  refine ⟨h.runtimeError, fun hc hb => absurd hb (by simp [hno.broadcast_eq_none hused hc]), h.single,
    fun _ a' ref href => ?_, fun ref hinfo => ?_⟩
  · simp only [addClient] at href ⊢
    rw [Dict.get?_set] at href
    split at href
    · cases href
      exact Or.inl hnew
    · exact hcur a' ref href
  · refine h.greeted ref fun hnone => hinfo ?_
    by_cases he : ref = sys.server.frontend.nextClient
    · simp [addClient, he]
    · simpa [addClient, he] using hnone

/-- The stream of a session closes. -/
private theorem closeSession (h : sys.Informed) (hused : sys.ContextsUsed) (hc : sys.sessions c = some pc)
    (hact : sys.sessions c = some .idle → sys.NoBroadcast) (hg : s'.frontend.Greeted)
    (hr : Interleaved.closeSession sys.server c pc = some (s', pc')) :
    (sys.setSession c (s', pc')).Informed := by
  cases pc with
  | connected =>
    cases hr
    exact h.finish hc rfl (by simp)
  | idle =>
    obtain ⟨rfl, rfl⟩ := Prod.ext_iff.1 (Option.some.inj hr)
    exact h.calm hused (hact hc) (fun hcur => leaveLoop_sound hcur (by simp)) hg
  | _ => cases hr

end Sys.Informed

theorem informed_step (hstep : step cfg sys act = some sys') (hused : sys.ContextsUsed) (hrec : sys.Recipients)
    (hatt : sys.Attached cfg) (hact : act.calm sys) (h : sys.Informed) : sys'.Informed := by
  have hsub : (∀ a, act ≠ .openClient a) → ∀ a ref, sys'.server.frontend.clients.get? a = some ref →
      sys.server.frontend.clients.get? a = some ref := fun hne a _ href => clients_step hstep (hne a) href
  cases act with
  | openClient a =>
    obtain ⟨hfree, hno⟩ := hact
    simp only [step] at hstep
    split at hstep
    · cases hstep
    cases hstep
    exact h.openClient hused hrec hno
  | openProducer a =>
    simp only [step] at hstep
    split at hstep
    · cases hstep
      exact ⟨h.runtimeError, h.broadcast, h.single, h.current, h.greeted⟩
    · cases hstep
  | message i msg order b =>
    have hids := (sameRegistry_step hstep rfl (by simp)).1.engineIds
    obtain ⟨stream, hi, hstep⟩ := Option.bind_eq_some_iff.1 hstep
    obtain ⟨⟨s, pc⟩, hr, hstep⟩ := Option.bind_eq_some_iff.1 hstep
    cases hstep
    unfold streamMessage at hr
    split at hr
    · rename_i hpc
      split at hr
      · cases hr
        exact h.of_stream rfl (.of_same (fun _ => rfl) fun _ => rfl) (hsub (by simp)) (Or.inl rfl)
      · rename_i ref hclient
        have hentry := (hatt.attached hi (by rw [hpc]; trivial)).client hclient
        obtain ⟨hinf, hclients⟩ := informs_consume hentry hr
        exact h.of_stream hids hinf (hsub (by simp)) (Or.inl hclients)
    · cases hr
  | resumeStream i raises b =>
    have hids := (sameRegistry_step hstep rfl (by simp)).1.engineIds
    obtain ⟨stream, hi, hstep⟩ := Option.bind_eq_some_iff.1 hstep
    obtain ⟨⟨s, pc⟩, hr, hstep⟩ := Option.bind_eq_some_iff.1 hstep
    cases hstep
    obtain ⟨hinf, hclients⟩ := informs_resumeStream hr
    refine h.of_stream hids hinf (hsub (by simp)) ?_
    by_cases howner : raises = true → stream.owner = none
    · exact Or.inl (hclients howner)
    · obtain ⟨hraises, howner⟩ := Classical.not_imp.1 howner
      have hno := hact hraises stream hi (Option.isSome_iff_ne_none.2 howner)
      exact Or.inr fun _ _ hc => hno.broadcast_eq_none hused hc
  | closeStream i =>
    have hids := (sameRegistry_step hstep rfl (by simp)).1.engineIds
    obtain ⟨stream, hi, hstep⟩ := Option.bind_eq_some_iff.1 hstep
    obtain ⟨⟨s, pc⟩, hr, hstep⟩ := Option.bind_eq_some_iff.1 hstep
    cases hstep
    unfold closeStream at hr
    split at hr
    · obtain ⟨rfl, rfl⟩ := Prod.ext_iff.1 (Option.some.inj hr)
      obtain ⟨hinf, hclients⟩ := informs_endStream true none
      refine h.of_stream hids hinf (hsub (by simp)) ?_
      by_cases howner : stream.owner = none
      · exact Or.inl (hclients howner)
      · have hno := hact stream hi (Option.isSome_iff_ne_none.2 howner)
        exact Or.inr fun _ _ hc => hno.broadcast_eq_none hused hc
    · cases hr
  | openSession =>
    cases hstep
    refine h.goOn (s := { sys.server with dispatcher := sys.server.dispatcher.openContext }) ⟨rfl, rfl, fun _ => rfl⟩
      h.greeted (fun pc hc => ?_) id rfl
    rw [hused.fresh _ (Nat.le_refl _)] at hc
    cases hc
  | engineMessage c msg =>
    have hg := greeted_session hstep (by simp [Action.session]) h.greeted
    simp only [step] at hstep
    split at hstep
    · rename_i hc
      cases hstep
      cases msg with
      | register id ar => exact h.calm hused (hact hc) (fun hcur => firstMessage_sound hcur (.register id ar)) hg
      | _ => exact h.finish hc rfl (by simp)
    · rename_i hc
      cases hstep
      exact h.serve (sameIds_nextMessage msg) hg hc rfl (nextMessage_serving msg).2
    · cases hstep
  | resumeSession c raises b =>
    have hg := greeted_session hstep (by simp [Action.session]) h.greeted
    obtain ⟨pc, hc, hstep⟩ := Option.bind_eq_some_iff.1 hstep
    obtain ⟨⟨s, pc'⟩, hr, hstep⟩ := Option.bind_eq_some_iff.1 hstep
    cases hstep
    exact h.resumeSession hused hc (hact pc hc) hg hr
  | closeSession c =>
    have hg := greeted_session hstep (by simp [Action.session]) h.greeted
    obtain ⟨pc, hc, hstep⟩ := Option.bind_eq_some_iff.1 hstep
    obtain ⟨⟨s, pc'⟩, hr, hstep⟩ := Option.bind_eq_some_iff.1 hstep
    cases hstep
    exact h.closeSession hused hc hact hg hr

theorem run_informed {as : List Action} (h : (machine cfg).RunWhere (fun sys a => a.calm sys) as sys) :
    sys.Informed := by
  have hinit : Sys.Informed {} :=
    ⟨fun hc => (nomatch hc), fun hc => (nomatch hc), fun hc => (nomatch hc), fun _ _ _ href => (nomatch href),
      fun _ hinfo => absurd rfl hinfo⟩
  have hknown : ∀ {as : List Action} {sys : Sys}, (machine cfg).RunWhere (fun sys a => a.calm sys) as sys →
      sys.ContextsUsed ∧ sys.Recipients ∧ sys.Attached cfg :=
    fun h => ⟨run_contextsUsed h.run, run_recipients h.run, run_attached (fun _ _ => Action.calm.addressFree) h⟩
  exact h.invariant_of (I := Sys.Informed)
    (J := fun sys => sys.ContextsUsed ∧ sys.Recipients ∧ sys.Attached cfg) hknown hinit
    (fun _ _ _ hJ h hact hstep => informed_step hstep hJ.1 hJ.2.1 hJ.2.2 hact h)

end Gabriel.Interleaved
