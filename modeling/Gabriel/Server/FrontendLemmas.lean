import Gabriel.Server.Frontend

/-!
# What the frontend's operations do

As for the dispatcher, one lemma for each operation that chooses what to do.  What the handlers do to the frontend
besides their own events is `Quiet`: they tell clients the engine ids, and delete client entries.  Engine sessions
only tell the engine ids (`Told`).  A consumer may also reply to the message it has taken up (`Replied`).
-/

namespace Gabriel

namespace Frontend

variable {cfg : Config} {f f' f'' : Frontend} {ref : ClientRef} {a : Address} {msg : ToClient} {w : ResultWrapper}

/-- Engine ids are sent to clients, and client entries are deleted. -/
structure Quiet (f f' : Frontend) : Prop where
  clientObjs : f'.clientObjs = f.clientObjs
  nextClient : f'.nextClient = f.nextClient
  clients : ∀ a ref, f'.clients.get? a = some ref → f.clients.get? a = some ref
  log : ∃ es, f'.log = f.log ++ es ∧
    ∀ e ∈ es, ∃ ref a ids, e = .toClient ref a (.engineIdsUpdate ids) ∧ f.clients.get? a = some ref

theorem Quiet.refl (f : Frontend) : Quiet f f := ⟨rfl, rfl, fun _ _ => id, [], by simp, by simp⟩

theorem Quiet.trans (h : Quiet f f') (h' : Quiet f' f'') : Quiet f f'' := by
  obtain ⟨es, hes, hq⟩ := h.log
  obtain ⟨es', hes', hq'⟩ := h'.log
  refine ⟨h'.clientObjs.trans h.clientObjs, h'.nextClient.trans h.nextClient,
    fun a ref hr => h.clients a ref (h'.clients a ref hr), es ++ es', by rw [hes', hes, List.append_assoc], ?_⟩
  intro e he
  rcases List.mem_append.1 he with he | he
  · exact hq e he
  · obtain ⟨ref, a, ids, rfl, hr⟩ := hq' e he
    exact ⟨ref, a, ids, rfl, h.clients a ref hr⟩

theorem Quiet.engineIdsUpdate (ids : Finset String) (hr : f.clients.get? a = some ref) :
    Quiet f (f.emit (.toClient ref a (.engineIdsUpdate ids))) :=
  ⟨rfl, rfl, fun _ _ => id, [_], rfl, by simpa using hr⟩

theorem Quiet.log_grows (h : Quiet f f') : f.log <+: f'.log := by
  obtain ⟨es, hes, -⟩ := h.log
  exact ⟨es, hes.symm⟩

/-- What is read off the events, if nothing is read off engine ids. -/
theorem Quiet.filterMap_log {β : Type} (h : Quiet f f') (g : ClientEvent → Option β)
    (hg : ∀ ref a ids, g (.toClient ref a (.engineIdsUpdate ids)) = none) :
    f'.log.filterMap g = f.log.filterMap g := by
  obtain ⟨es, hes, hq⟩ := h.log
  have hnil : es.filterMap g = [] := by
    rw [List.filterMap_eq_nil_iff]
    intro e he
    obtain ⟨ref, a, ids, rfl, -⟩ := hq e he
    exact hg ref a ids
  rw [hes, List.filterMap_append, hnil, List.append_nil]

/-- The number of events of a kind that engine ids are not of. -/
theorem Quiet.countP_log (h : Quiet f f') (P : ClientEvent → Bool)
    (hP : ∀ ref a ids, P (.toClient ref a (.engineIdsUpdate ids)) = false) : f'.log.countP P = f.log.countP P := by
  obtain ⟨es, hes, hq⟩ := h.log
  have hzero : es.countP P = 0 := by
    rw [List.countP_eq_zero]
    intro e he
    obtain ⟨ref, a, ids, rfl, -⟩ := hq e he
    simp [hP ref a ids]
  rw [hes, List.countP_append, hzero, Nat.add_zero]

/-- Engine ids are sent to clients. -/
structure Told (f f' : Frontend) : Prop extends Quiet f f' where
  table : f'.clients = f.clients

theorem Told.refl (f : Frontend) : Told f f := ⟨.refl f, rfl⟩

theorem Told.trans (h : Told f f') (h' : Told f' f'') : Told f f'' :=
  ⟨h.toQuiet.trans h'.toQuiet, h'.table.trans h.table⟩

theorem told_sendViaTransport (ids : Finset String) : Told f (f.sendViaTransport a (.engineIdsUpdate ids)).1 := by
  unfold sendViaTransport
  split
  · exact .refl f
  · exact ⟨.engineIdsUpdate ids ‹_›, rfl⟩

theorem quiet_removeClient : Quiet f (f.removeClient a).1 := by
  unfold removeClient
  split
  · exact .refl f
  · refine ⟨rfl, rfl, fun b ref hr => ?_, [], by simp, by simp⟩
    rw [Dict.get?_erase] at hr
    split at hr
    · cases hr
    · exact hr

@[simp] theorem initTokens_log (p : String) : (f.initTokens cfg ref p).log = f.log := by
  unfold initTokens; split <;> rfl
@[simp] theorem initTokens_clients (p : String) : (f.initTokens cfg ref p).clients = f.clients := by
  unfold initTokens; split <;> rfl
@[simp] theorem initTokens_nextClient (p : String) : (f.initTokens cfg ref p).nextClient = f.nextClient := by
  unfold initTokens; split <;> rfl
@[simp] theorem addTokens_log (p : String) (n : Int) : (f.addTokens ref p n).log = f.log := rfl
@[simp] theorem addTokens_clients (p : String) (n : Int) : (f.addTokens ref p n).clients = f.clients := rfl
@[simp] theorem addTokens_nextClient (p : String) (n : Int) : (f.addTokens ref p n).nextClient = f.nextClient := rfl
@[simp] theorem deductToken_log (mp : MetadataPayload) :
    (f.deductToken ref mp).log = f.log ++ [.deducted ref mp] := rfl
@[simp] theorem deductToken_clients (mp : MetadataPayload) : (f.deductToken ref mp).clients = f.clients := rfl
@[simp] theorem deductToken_nextClient (mp : MetadataPayload) :
    (f.deductToken ref mp).nextClient = f.nextClient := rfl

/-- The reply of a consumer goes out or not. -/
theorem reply_cases : (f.reply cfg ref a msg).1 = f ∨ (f.reply cfg ref a msg).1 = f.emit (.toClient ref a msg) := by
  unfold reply
  split
  · exact Or.inr rfl
  · exact Or.inl rfl
  · exact Or.inl rfl
  · exact Or.inr rfl

theorem reply_clients (cfg : Config) (ref : ClientRef) (a : Address) (msg : ToClient) :
    (f.reply cfg ref a msg).1.clients = f.clients := by
  unfold reply
  split <;> rfl

/-- The consumer's reply reaches the write as long as the client has an entry. -/
theorem reply_sent {ref' : ClientRef} (msg : ToClient) (ha : f.clients.get? a = some ref') :
    f.reply cfg ref a msg = ((f.reply cfg ref a msg).1, .sent) := by
  unfold reply
  rw [ha]
  cases cfg.clientTransport <;> rfl

theorem replyError_sent {ref' : ClientRef} (msg : FromClient) (code : StatusCode) (message : String)
    (ha : f.clients.get? a = some ref') :
    f.replyError cfg ref a msg code message = ((f.replyError cfg ref a msg code message).1, .sent) :=
  reply_sent _ ha

/-- The consumer replies `msg`, or drops the reply. -/
def Replied (ref : ClientRef) (a : Address) (msg : ToClient) (f f' : Frontend) : Prop :=
  ∃ f₁, (f₁ = f ∨ f₁ = f.emit (.toClient ref a msg)) ∧ Quiet f₁ f'

theorem Replied.clientObjs (h : Replied ref a msg f f') : f'.clientObjs = f.clientObjs := by
  obtain ⟨f₁, rfl | rfl, hq⟩ := h <;> exact hq.clientObjs

theorem Replied.nextClient (h : Replied ref a msg f f') : f'.nextClient = f.nextClient := by
  obtain ⟨f₁, rfl | rfl, hq⟩ := h <;> exact hq.nextClient

theorem Replied.clients (h : Replied ref a msg f f') {b : Address} {r : ClientRef}
    (hr : f'.clients.get? b = some r) : f.clients.get? b = some r := by
  obtain ⟨f₁, rfl | rfl, hq⟩ := h <;> exact hq.clients b r hr

theorem Replied.log_grows (h : Replied ref a msg f f') : f.log <+: f'.log := by
  obtain ⟨f₁, rfl | rfl, hq⟩ := h
  · exact hq.log_grows
  · exact List.IsPrefix.trans (by simp) hq.log_grows

/-- What is read off the events, if nothing is read off the reply and engine ids. -/
theorem Replied.filterMap_log {β : Type} (h : Replied ref a msg f f') (g : ClientEvent → Option β)
    (hmsg : g (.toClient ref a msg) = none) (hg : ∀ ref a ids, g (.toClient ref a (.engineIdsUpdate ids)) = none) :
    f'.log.filterMap g = f.log.filterMap g := by
  obtain ⟨f₁, rfl | rfl, hq⟩ := h
  · exact hq.filterMap_log g hg
  · rw [hq.filterMap_log g hg, emit_log, List.filterMap_append, List.filterMap_cons_none hmsg, List.filterMap_nil,
      List.append_nil]

/-- The number of events of a kind that neither the reply nor engine ids are of. -/
theorem Replied.countP_log (h : Replied ref a msg f f') (P : ClientEvent → Bool)
    (hmsg : P (.toClient ref a msg) = false) (hP : ∀ ref a ids, P (.toClient ref a (.engineIdsUpdate ids)) = false) :
    f'.log.countP P = f.log.countP P := by
  obtain ⟨f₁, rfl | rfl, hq⟩ := h
  · exact hq.countP_log P hP
  · rw [hq.countP_log P hP, emit_log, List.countP_append, List.countP_singleton, hmsg]
    rfl

/-- The outcomes of `_consumer_helper` up to the call of `_engine_cb`. -/
inductive Admitted (cfg : Config) (f : Frontend) (ref : ClientRef) (a : Address) :
    FromClient → Frontend × Admission → Prop
  | registered (info : AnyProto) :
      Admitted cfg f ref a (.registration info)
        ((f.emit (.received ref a (.registration info))).modifyClient ref fun client =>
          { client with clientInfo := some info }, .registered)
  | unregistered {msg : FromClient} (hmsg : msg.isRegistration = false)
      (hinfo : (f.clientObjs ref).clientInfo = none) :
      Admitted cfg f ref a msg (f.emit (.received ref a msg),
        .refused .unspecifiedError "Client must register before sending input")
  | noTokens {msg : FromClient} (hmsg : msg.isRegistration = false)
      (htokens : ((f.emit (.received ref a msg)).initTokens cfg ref msg.asInput.producerId).tokens ref
        msg.asInput.producerId < 1) :
      Admitted cfg f ref a msg ((f.emit (.received ref a msg)).initTokens cfg ref msg.asInput.producerId,
        .refused .noTokens "No tokens for producer")
  | forward {msg : FromClient} {info : AnyProto} (hmsg : msg.isRegistration = false)
      (hinfo : (f.clientObjs ref).clientInfo = some info)
      (htokens : 1 ≤ ((f.emit (.received ref a msg)).initTokens cfg ref msg.asInput.producerId).tokens ref
        msg.asInput.producerId) :
      Admitted cfg f ref a msg ((f.emit (.received ref a msg)).initTokens cfg ref msg.asInput.producerId,
        .forward info)

theorem consumerHelper_cases {msg : FromClient} {r : Frontend × Admission}
    (hr : f.consumerHelper cfg ref a msg = r) : Admitted cfg f ref a msg r := by
  subst hr
  unfold consumerHelper
  split
  · exact .registered _
  · rename_i hother
    have hmsg : msg.isRegistration = false := by
      cases msg with
      | registration info => exact absurd rfl (hother info)
      | unset => rfl
      | input i => rfl
    dsimp only
    split
    · exact .unregistered hmsg ‹_›
    · rename_i hinfo
      split
      · exact .noTokens hmsg ‹_›
      · exact .forward hmsg hinfo (by omega)

theorem Admitted.clients {msg : FromClient} {r : Frontend × Admission} (h : Admitted cfg f ref a msg r) :
    r.1.clients = f.clients := by
  cases h <;> simp

/-- The outcomes of `send_result` up to the send. -/
inductive ResultSent (f : Frontend) (a : Address) (w : ResultWrapper) : Frontend × Bool → Prop
  | noClient (hnone : f.clients.get? a = none) : ResultSent f a w (f, false)
  | sent {ref : ClientRef} (href : f.clients.get? a = some ref) :
      ResultSent f a w
        ((if w.returnToken then (f.emit (.resultFor ref a w)).addTokens ref w.producerId 1
          else f.emit (.resultFor ref a w)).emit (.toClient ref a (.resultWrapper w)), true)

theorem sendResult_cases {r : Frontend × Bool} (hr : f.sendResult a w = r) : ResultSent f a w r := by
  subst hr
  unfold sendResult
  cases href : f.clients.get? a with
  | none => exact .noClient href
  | some ref =>
    simp only [sendViaTransport]
    have hclients : (if w.returnToken = true then (f.emit (.resultFor ref a w)).addTokens ref w.producerId 1
        else f.emit (.resultFor ref a w)).clients.get? a = some ref := by
      split <;> exact href
    rw [hclients]
    exact .sent href

theorem ResultSent.clients {r : Frontend × Bool} (h : ResultSent f a w r) : r.1.clients = f.clients := by
  cases h with
  | noClient => rfl
  | sent => split <;> rfl

theorem ResultSent.nextClient {r : Frontend × Bool} (h : ResultSent f a w r) : r.1.nextClient = f.nextClient := by
  cases h with
  | noClient => rfl
  | sent => split <;> rfl

theorem ResultSent.log_grows {r : Frontend × Bool} (h : ResultSent f a w r) : f.log <+: r.1.log := by
  cases h with
  | noClient => exact List.prefix_rfl
  | sent => split <;> simp

end Frontend

end Gabriel
