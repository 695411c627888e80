import Gabriel.Server.Clients

/-!
# Streams and client entries

Two connections may share an address: the handler that ends first then deletes the entry of the other, which fails
with a `KeyError` when it ends or replies.  If clients connect only at addresses that are free, the entry that a
stream was opened with stays in the table until the stream's own handler deletes it (`Sys.Attached`).
-/

namespace Gabriel.Interleaved

open Frontend

variable {cfg : Config} {s s' : Server} {sys sys' : Sys} {stream : Stream} {act : Action}

/-- The client table has the entry that the stream was opened with; a stream without one is a gRPC producer stream. -/
def Stream.Attached (cfg : Config) (f : Frontend) (stream : Stream) : Prop :=
  match stream.owner with
  | some ref => f.clients.get? stream.address = some ref
  | none => cfg.clientTransport = .grpc

theorem Stream.Attached.of_clients {f f' : Frontend} (h : stream.Attached cfg f) (hf : f'.clients = f.clients) :
    stream.Attached cfg f' := by
  unfold Stream.Attached at *
  rw [hf]
  exact h

/-- What the handler of an attached stream does to the client table. -/
inductive TableStep (s : Server) (stream : Stream) : Server → StreamPc → Prop
  | kept {s' : Server} {pc : StreamPc} (h : s'.frontend.clients = s.frontend.clients)
      (hpc : pc ≠ .finished (some .keyError)) : TableStep s stream s' pc
  | left {s' : Server} {ref : ClientRef} {err : Option PyError} (howner : stream.owner = some ref)
      (h : s'.frontend.clients = s.frontend.clients.erase stream.address) (herr : err ≠ some .keyError) :
      TableStep s stream s' (.finished err)

/-! ### One handler -/

theorem tableStep_endStream (h : stream.Attached cfg s.frontend) (deletes : Bool) {err : Option PyError}
    (herr : err ≠ some .keyError) :
    TableStep s stream (endStream s stream deletes err).1 (endStream s stream deletes err).2 := by
  unfold endStream
  split
  · rename_i howner
    obtain ⟨ref, howner⟩ := Option.isSome_iff_exists.1 howner.1
    simp only [Stream.Attached, howner] at h
    simp only [removeClient, h]
    exact .left howner rfl herr
  · exact .kept rfl (by simpa using herr)

theorem tableStep_afterReply (s₁ : Server) {r : Frontend × Sent} (hf : r.1.clients = s.frontend.clients)
    (hr : r.2 ≠ .keyError) :
    TableStep s stream (afterReply cfg s₁ stream r).1 (afterReply cfg s₁ stream r).2 := by
  obtain ⟨f, _ | _ | _⟩ := r
  · exact .kept hf (by simp [afterReply])
  · exact .kept hf (by simp [afterReply])
  · exact absurd rfl hr

/-- An attached stream finds its write lock. -/
theorem Stream.Attached.reply {f : Frontend} (h : stream.Attached cfg f) (ref : ClientRef) (msg : ToClient) :
    (f.reply cfg ref stream.address msg).1.clients = f.clients ∧
      (f.reply cfg ref stream.address msg).2 ≠ .keyError := by
  unfold Frontend.reply
  split
  · exact ⟨rfl, by simp⟩
  · exact ⟨rfl, by simp⟩
  · rename_i hcfg hnone
    unfold Stream.Attached at h
    split at h
    · rw [hnone] at h; cases h
    · rw [hcfg] at h; cases h
  · exact ⟨rfl, by simp⟩

/-- A reply goes out if the entry is in the table. -/
theorem reply_of_entry {f : Frontend} {a : Address} {ref : ClientRef} {msg : ToClient}
    (h : f.clients.get? a = some ref) : f.reply cfg ref a msg = (f.emit (.toClient ref a msg), .sent) := by
  unfold Frontend.reply
  rw [h]
  cases cfg.clientTransport <;> rfl

/-- The entry that a message of an attached stream is for is in the table. -/
theorem Stream.Attached.client {ref : ClientRef} (h : stream.Attached cfg s.frontend)
    (hclient : stream.client s = some ref) : s.frontend.clients.get? stream.address = some ref := by
  unfold Stream.Attached at h
  unfold Stream.client at hclient
  split at hclient
  · rename_i howner
    cases hclient
    simpa only [howner] using h
  · exact hclient

theorem tableStep_reply {f : Frontend} (s₁ : Server) (h : stream.Attached cfg s.frontend)
    (hf : f.clients = s.frontend.clients) (ref : ClientRef) (msg : ToClient) :
    TableStep s stream (afterReply cfg s₁ stream (f.reply cfg ref stream.address msg)).1
      (afterReply cfg s₁ stream (f.reply cfg ref stream.address msg)).2 := by
  obtain ⟨hclients, hsent⟩ := (h.of_clients hf).reply ref msg
  exact tableStep_afterReply s₁ (hclients.trans hf) hsent

theorem tableStep_replyError {f : Frontend} (s₁ : Server) (h : stream.Attached cfg s.frontend)
    (hf : f.clients = s.frontend.clients) (ref : ClientRef) (msg : FromClient) (code : StatusCode) (text : String) :
    TableStep s stream (afterReply cfg s₁ stream (f.replyError cfg ref stream.address msg code text)).1
      (afterReply cfg s₁ stream (f.replyError cfg ref stream.address msg code text)).2 :=
  tableStep_reply (f := f.emit _) s₁ h hf ref _

theorem consumerHelper_clients {ref : ClientRef} {a : Address} {msg : FromClient} :
    (s.consumerHelper cfg ref a msg).1.frontend.clients = s.frontend.clients := by
  unfold Server.consumerHelper
  rcases hr : s.frontend.consumerHelper cfg ref a msg with ⟨f, adm⟩
  have hf : f.clients = s.frontend.clients := (consumerHelper_cases hr).clients
  cases adm with
  | registered => exact hf
  | refused => exact hf
  | forward =>
    simp only
    split <;> exact hf

theorem tableStep_startDispatch {s₁ : Server} {ref : ClientRef} {msg : FromClient} {mp : MetadataPayload}
    {order : List Context} {b : Bool} (h : stream.Attached cfg s.frontend)
    (hf : s₁.frontend.clients = s.frontend.clients) :
    TableStep s stream (startDispatch cfg s₁ stream ref msg mp order b).1
      (startDispatch cfg s₁ stream ref msg mp order b).2 := by
  unfold startDispatch
  split
  · exact .kept hf (by simp)
  · split
    · exact .kept (by simpa using hf) (by simp)
    · exact tableStep_replyError _ h hf ref msg _ _

theorem tableStep_consume {ref : ClientRef} {msg : FromClient} {order : List Context} {b : Bool} {pc : StreamPc}
    (h : stream.Attached cfg s.frontend) (hr : consume cfg s stream ref msg order b = some (s', pc)) :
    TableStep s stream s' pc := by
  have hf := @consumerHelper_clients cfg s ref stream.address msg
  unfold consume at hr
  split at hr <;> rename_i heq <;> rw [heq] at hf
  · obtain ⟨rfl, rfl⟩ := Prod.ext_iff.1 (Option.some.inj hr)
    exact tableStep_reply _ h hf ref _
  · obtain ⟨rfl, rfl⟩ := Prod.ext_iff.1 (Option.some.inj hr)
    exact tableStep_replyError _ h hf ref msg _ _
  · split at hr
    · obtain ⟨rfl, rfl⟩ := Prod.ext_iff.1 (Option.some.inj hr)
      exact tableStep_startDispatch h hf
    · cases hr

theorem tableStep_streamMessage {msg : FromClient} {order : List Context} {b : Bool} {pc : StreamPc}
    (h : stream.pc.running → stream.Attached cfg s.frontend)
    (hr : streamMessage cfg s stream msg order b = some (s', pc)) :
    stream.pc.running ∧ TableStep s stream s' pc := by
  unfold streamMessage at hr
  split at hr
  · rename_i hpc
    have hrun : stream.pc.running := by rw [hpc]; trivial
    refine ⟨hrun, ?_⟩
    split at hr
    · cases hr
      exact .kept rfl (by simp)
    · exact tableStep_consume (h hrun) hr
  · cases hr

theorem tableStep_resumeStream {raises b : Bool} {pc : StreamPc}
    (h : stream.pc.running → stream.Attached cfg s.frontend)
    (hr : resumeStream cfg s stream raises b = some (s', pc)) : stream.pc.running ∧ TableStep s stream s' pc := by
  have hfail : stream.pc.running → TableStep s stream (failStream cfg s stream .raised).1
      (failStream cfg s stream .raised).2 := fun hrun => tableStep_endStream (h hrun) _ (by simp)
  unfold resumeStream at hr
  split at hr
  · cases hr
  · cases hr
  · rename_i hpc
    have hrun : stream.pc.running := by rw [hpc]; trivial
    refine ⟨hrun, ?_⟩
    split at hr
    · obtain ⟨rfl, rfl⟩ := Prod.ext_iff.1 (Option.some.inj hr)
      exact hfail hrun
    · unfold resumeDispatch at hr
      split at hr
      · cases hr
        exact .kept rfl (by simp)
      · cases hr
        exact .kept (by simp) (by simp)
  · rename_i hpc
    have hrun : stream.pc.running := by rw [hpc]; trivial
    refine ⟨hrun, ?_⟩
    split at hr
    · obtain ⟨rfl, rfl⟩ := Prod.ext_iff.1 (Option.some.inj hr)
      exact hfail hrun
    · cases hr
      exact .kept rfl (by simp)

theorem tableStep_closeStream {pc : StreamPc} (h : stream.pc.running → stream.Attached cfg s.frontend)
    (hr : closeStream s stream = some (s', pc)) : stream.pc.running ∧ TableStep s stream s' pc := by
  unfold closeStream at hr
  split at hr
  · rename_i hpc
    have hrun : stream.pc.running := by rw [hpc]; trivial
    obtain ⟨rfl, rfl⟩ := Prod.ext_iff.1 (Option.some.inj hr)
    exact ⟨hrun, tableStep_endStream (h hrun) true (by simp)⟩
  · cases hr

/-! ### All handlers -/

/-- A client connects at an address that no client entry has. -/
def Action.addressFree (sys : Sys) : Action → Prop
  | .openClient a => sys.server.frontend.clients.get? a = none
  | _ => True

instance (sys : Sys) : DecidablePred (Action.addressFree sys)
  | .openClient _ => inferInstanceAs (Decidable (_ = _))
  | .openProducer _ | .message _ _ _ _ | .resumeStream _ _ _ | .closeStream _ | .openSession | .engineMessage _ _
  | .resumeSession _ _ _ | .closeSession _ => inferInstanceAs (Decidable True)

/-- The open streams are attached, and no stream's handler has failed with a `KeyError`. -/
structure Sys.Attached (cfg : Config) (sys : Sys) : Prop where
  attached : ∀ {i : Nat} {stream : Stream}, sys.streams[i]? = some stream → stream.pc.running →
    stream.Attached cfg sys.server.frontend
  keyError : ∀ {i : Nat} {stream : Stream}, sys.streams[i]? = some stream → stream.pc ≠ .finished (some .keyError)

theorem Sys.Attached.setStream {i : Nat} {pc : StreamPc} (h : sys.Attached cfg) (howned : sys.Owned cfg)
    (hi : sys.streams[i]? = some stream) (hrun : stream.pc.running) (ht : TableStep sys.server stream s pc) :
    (sys.setStream i stream (s, pc)).Attached cfg := by
  refine ⟨fun {j st} hj hst => ?_, fun {j st} hj => ?_⟩
  · rcases Sys.getElem?_setStream hi hj with ⟨rfl, rfl⟩ | ⟨hne, hother⟩
    · cases ht with
      | kept hf => exact (h.attached hi hrun).of_clients hf
      | left => exact hst.elim
    · have hatt := h.attached hother hst
      cases ht with
      | kept hf => exact hatt.of_clients hf
      | left hown hf =>
        -- the entry of another stream is at another address
        have hentry := h.attached hi hrun
        simp only [Stream.Attached, hown] at hentry
        unfold Stream.Attached at hatt ⊢
        split
        · rename_i ref' hown'
          simp only [hown'] at hatt
          simp only [Sys.setStream, hf]
          rw [Dict.get?_erase, if_neg, hatt]
          intro ha
          rw [ha, hentry] at hatt
          cases hatt
          exact hne (howned.distinct hother hi hown' hown)
        · rename_i hown'
          simpa only [hown'] using hatt
  · rcases Sys.getElem?_setStream hi hj with ⟨rfl, rfl⟩ | ⟨-, hj⟩
    · cases ht with
      | kept _ hpc => exact hpc
      | left _ _ herr => simpa using herr
    · exact h.keyError hj

/-- A stream opens. -/
theorem Sys.Attached.concat {f : Frontend} {new : Stream} (h : sys.Attached cfg) (hrun : new.pc.running)
    (hnew : new.Attached cfg f) (hold : ∀ {j : Nat} {stream : Stream}, sys.streams[j]? = some stream →
      stream.pc.running → stream.Attached cfg f) :
    Sys.Attached cfg { sys with
      server := { sys.server with frontend := f }
      streams := sys.streams ++ [new] } := by
  refine ⟨fun hj hst => ?_, fun hj => ?_⟩
  · rcases getElem?_concat hj with hj | ⟨-, rfl⟩
    · exact hold hj hst
    · exact hnew
  · rcases getElem?_concat hj with hj | ⟨-, rfl⟩
    · exact h.keyError hj
    · intro hpc
      rw [hpc] at hrun
      exact hrun

theorem attached_step (hstep : step cfg sys act = some sys') (howned : sys.Owned cfg)
    (hfree : act.addressFree sys) (h : sys.Attached cfg) : sys'.Attached cfg := by
  have hstreams : ∀ {sys₁ : Sys}, sys₁.server.frontend.clients = sys.server.frontend.clients →
      sys₁.streams = sys.streams → sys₁.Attached cfg := fun hf hs =>
    ⟨fun hi hst => (h.attached (hs ▸ hi) hst).of_clients hf, fun hi => h.keyError (hs ▸ hi)⟩
  cases act with
  | openClient a =>
    simp only [step] at hstep
    split at hstep
    · cases hstep
    cases hstep
    refine h.concat trivial (by simp [Stream.Attached, addClient]) (fun {j stream} hj hst => ?_)
    -- there was no entry at the new address
    have hatt := h.attached hj hst
    unfold Stream.Attached at hatt ⊢
    split
    · rename_i ref hown
      simp only [hown] at hatt
      simp only [addClient]
      rw [Dict.get?_set, if_neg, hatt]
      rintro rfl
      rw [show sys.server.frontend.clients.get? _ = none from hfree] at hatt
      cases hatt
    · rename_i hown
      simpa only [hown] using hatt
  | openProducer a =>
    simp only [step] at hstep
    split at hstep
    · cases hstep
      exact h.concat trivial ‹_› h.attached
    · cases hstep
  | message i msg order b =>
    obtain ⟨stream, hi, hstep⟩ := Option.bind_eq_some_iff.1 hstep
    obtain ⟨⟨s, pc⟩, hr, hstep⟩ := Option.bind_eq_some_iff.1 hstep
    cases hstep
    obtain ⟨hrun, ht⟩ := tableStep_streamMessage (h.attached hi) hr
    exact h.setStream howned hi hrun ht
  | resumeStream i raises b =>
    obtain ⟨stream, hi, hstep⟩ := Option.bind_eq_some_iff.1 hstep
    obtain ⟨⟨s, pc⟩, hr, hstep⟩ := Option.bind_eq_some_iff.1 hstep
    cases hstep
    obtain ⟨hrun, ht⟩ := tableStep_resumeStream (h.attached hi) hr
    exact h.setStream howned hi hrun ht
  | closeStream i =>
    obtain ⟨stream, hi, hstep⟩ := Option.bind_eq_some_iff.1 hstep
    obtain ⟨⟨s, pc⟩, hr, hstep⟩ := Option.bind_eq_some_iff.1 hstep
    cases hstep
    obtain ⟨hrun, ht⟩ := tableStep_closeStream (h.attached hi) hr
    exact h.setStream howned hi hrun ht
  | openSession => cases hstep; exact hstreams rfl rfl
  | engineMessage c msg =>
    cases step_cases hstep with
    | session _ _ hs => exact hstreams hs.effects.clients rfl
  | resumeSession c raises b =>
    cases step_cases hstep with
    | session _ _ hs => exact hstreams hs.effects.clients rfl
  | closeSession c =>
    cases step_cases hstep with
    | session _ _ hs => exact hstreams hs.effects.clients rfl

theorem run_attached {as : List Action} {G : Sys → Action → Prop} (hG : ∀ sys act, G sys act → act.addressFree sys)
    (h : (machine cfg).RunWhere G as sys) : sys.Attached cfg := by
  have hinit : Sys.Attached cfg {} := ⟨fun hi => (nomatch hi), fun hi => (nomatch hi)⟩
  exact h.invariant_of (I := Sys.Attached cfg) (J := Sys.Owned cfg) (fun h => run_owned h.run) hinit
    (fun _ _ _ howned h hact hstep => attached_step hstep howned (hG _ _ hact) h)

end Gabriel.Interleaved
