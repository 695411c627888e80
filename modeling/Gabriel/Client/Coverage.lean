import Gabriel.Client.Composed
import Gabriel.Server.FlowControl
import Gabriel.Server.Provenance

/-!
# What the server holds of a client's tokens

For an address that only one client entry ever uses: the tokens of the client, those in the messages on their way to
it, and the inputs that are being dispatched are covered by the credit of the entry (`Sys.Covers`).  A client that is
covered and registered is not refused.
-/

namespace Gabriel

open Frontend ClientLog

/-! ### Messages to a client -/

theorem ClientLog.sentTo_append (l l' : List ClientEvent) (a : Address) :
    sentTo (l ++ l') a = sentTo l a ++ sentTo l' a := List.filterMap_append

theorem ClientLog.mem_sentTo {l : List ClientEvent} {a : Address} {msg : ToClient} :
    msg ∈ sentTo l a ↔ ∃ ref, .toClient ref a msg ∈ l := by
  simp only [sentTo, List.mem_filterMap]
  constructor
  · rintro ⟨ev, hev, hmsg⟩
    cases ev <;> simp at hmsg
    obtain ⟨rfl, rfl⟩ := hmsg
    exact ⟨_, hev⟩
  · rintro ⟨ref, hev⟩
    exact ⟨_, hev, by simp⟩

theorem Frontend.tokensSent_eq (f : Frontend) (a : Address) (p : String) :
    f.tokensSent a p = (sentTo f.log a).countP (ToClient.carriesToken p) := by
  unfold Frontend.tokensSent sentTo
  induction f.log with
  | nil => rfl
  | cons ev l ih =>
    rw [List.countP_cons, ih, List.filterMap_cons]
    cases ev with
    | toClient ref b msg =>
      by_cases hb : b = a
      · subst hb
        cases htoken : msg.carriesToken p <;> simp [ClientEvent.sendsToken, htoken]
      · simp [ClientEvent.sendsToken, hb]
    | _ => simp [ClientEvent.sendsToken]

namespace Interleaved

variable {cfg : Config} {sys sys' : Sys} {act : Action} {a : Address} {e : ClientRef}

/-- Nothing is left of an address that nobody has used. -/
theorem Sys.Rooted.cleared (h : sys.Rooted) (htraced : sys.Traced) (ha : a ∉ sys.addresses) : sys.Cleared a := by
  have hknown : ∀ mp, sys.server.dispatcher.Knows mp → mp.metadata.clientAddress ≠ a := by
    rintro mp hk rfl
    obtain ⟨l₁, l₂, ref, msg, info, hlog, -⟩ := htraced.knows mp hk
    have hev : ClientEvent.received ref mp.metadata.clientAddress msg ∈ sys.server.frontend.log := by
      rw [hlog]
      simp
    exact ha (h.log _ hev)
  have haddress : ∀ stream ∈ sys.streams, stream.address ≠ a := by
    rintro stream hst rfl
    exact ha (List.mem_map_of_mem hst)
  refine ⟨fun stream hst hs => absurd hs (haddress stream hst), fun stream hst x hx => ?_, fun mp _ _ => ?_⟩
  · rw [h.input stream hst x.1 x.2 hx]
    exact haddress stream hst
  · have hqueue : ∀ q, (sys.server.dispatcher.producer q).inputQueue.countP (·.metadata.clientAddress = a) = 0 := by
      intro q
      rw [List.countP_eq_zero]
      intro mp' hmp'
      simpa using hknown mp' (Or.inl ⟨q, hmp'⟩)
    have hpending : ¬ sys.server.dispatcher.Pending a mp.producerId := by
      rintro ⟨-, hlatest⟩
      obtain ⟨mp', hmp', he⟩ := Option.map_eq_some_iff.1 hlatest
      exact hknown mp' (Or.inr (Or.inl ⟨_, hmp'⟩)) he
    rw [Dispatcher.owed, hqueue, if_neg hpending]

/-- The tokens for `p` in the messages to `a` after the first `n`. -/
def Sys.undelivered (sys : Sys) (a : Address) (n : Nat) (p : String) : Nat :=
  ((sentTo sys.server.frontend.log a).drop n).countP (ToClient.carriesToken p)

/-- The credit of the entry `e`, the only one that the address `a` ever has, covers the tokens `client` of its client,
those in the messages it has still to get, and the inputs that are being dispatched. -/
structure Sys.Covers (cfg : Config) (sys : Sys) (a : Address) (e : ClientRef) (n : Nat) (client : String → Nat) :
    Prop where
  flow : sys.Flow cfg a e
  entry : ∀ ref msg, .toClient ref a msg ∈ sys.server.frontend.log → ref = e
  credit : ∀ p, (client p : Int) + sys.dispatchingFor e p + sys.undelivered a n p ≤ sys.server.frontend.credit cfg e p

theorem Sys.Covers.le {n : Nat} {client : String → Nat} (h : sys.Covers cfg a e n client) (p : String) :
    client p + sys.undelivered a n p ≤ cfg.numTokensPerProducer := by
  have hcredit := h.credit p
  have hbound := h.flow.balance.bound p
  omega

/-- A step of the server, in which it takes up `used` inputs of the client. -/
theorem Sys.Covers.step {n : Nat} {client client' : String → Nat} (h : sys.Covers cfg a e n client)
    (hstep : Interleaved.step cfg sys act = some sys') (hcounted : sys.Counted) (hopen : act ≠ .openClient a)
    (hn : n ≤ (sentTo sys.server.frontend.log a).length) (used : String → Nat)
    (hused : ∀ p, act.sendsInput sys a e p → 1 ≤ used p) (hclient : ∀ p, client' p + used p ≤ client p) :
    sys'.Covers cfg a e n client' := by
  obtain ⟨hflow, htransfers⟩ := flow_step hstep hcounted h.flow hopen
  obtain ⟨es, hes⟩ := (history_step hstep).log_grows
  refine ⟨hflow, fun ref msg hev => ?_, fun p => ?_⟩
  · rcases (history_step hstep).mem hev with hev | hev
    · exact h.entry ref msg hev
    · have htable : ∀ {r}, sys.server.frontend.clients.get? a = some r → r = e :=
        fun hr => (h.flow.balance.table hr).1 rfl
      have hpushed : ∀ {ref msg}, Pushed sys.server.frontend (.toClient ref a msg) → ref = e := by
        intro ref msg hp
        cases hp with
        | engineIds hr => exact htable hr
        | result hr => exact htable hr
      cases hev with
      | pushed hp => exact hpushed hp
      | handled _ hi hidle hclient hh =>
        -- the consumer's own reply goes to the address of its stream
        have hrun : ∀ {pc : StreamPc}, pc = .idle → pc.running := by rintro pc rfl; trivial
        have hentry := h.flow.client (List.mem_of_getElem? hi) (hrun hidle) hclient
        cases hh with
        | registered => exact hentry.1 rfl
        | replied => exact hentry.1 rfl
        | pushed hp => exact hpushed hp
  · obtain ⟨k, t, r, hcredit, hsent, hle, hsends, -⟩ := htransfers p
    have hold := h.credit p
    have hused' : t + r ≤ used p := by
      rcases Nat.eq_zero_or_pos (t + r) with hz | hpos
      · omega
      · exact Nat.le_trans hle (hused p (hsends hpos))
    have hund : sys'.undelivered a n p = sys.undelivered a n p + k + r := by
      rw [tokensSent_eq, tokensSent_eq, ← hes, sentTo_append, List.countP_append] at hsent
      rw [Sys.undelivered, Sys.undelivered, ← hes, sentTo_append, List.drop_append_of_le_length hn, List.countP_append]
      omega
    have hc := hclient p
    omega

/-- The error is one that a client with credit that is registered never gets. -/
def refuses (status : Gabriel.Status) : Prop :=
  status.code = .noTokens ∨ status = ⟨.unspecifiedError, "Client must register before sending input"⟩

/-- No input of the address was refused. -/
def Sys.Unrefused (sys : Sys) (a : Address) : Prop :=
  ∀ ref w, .errorReply ref a w ∈ sys.server.frontend.log → ¬ refuses w.result.status

/-- Inputs that find credit, from a client that is registered, are not refused. -/
theorem Sys.Unrefused.step (h : sys.Unrefused a) (hstep : Interleaved.step cfg sys act = some sys')
    (hinput : ∀ {i msg order b stream ref}, act = .message i msg order b → sys.streams[i]? = some stream →
      stream.address = a → stream.pc = .idle → stream.client sys.server = some ref → msg.isRegistration = false →
      1 ≤ sys.server.frontend.credit cfg ref msg.asInput.producerId ∧
        (sys.server.frontend.clientObjs ref).clientInfo ≠ none) : sys'.Unrefused a := by
  intro ref w hev hrefuses
  rcases (history_step hstep).mem hev with hev | hev
  · exact h ref w hev hrefuses
  · cases hev with
    | pushed hp => cases hp
    | handled hact hi hidle hclient hh =>
      cases hh with
      | pushed hp => cases hp
      | refused hmsg hw =>
        obtain ⟨hcredit, hinfo⟩ := hinput hact hi rfl hidle hclient hmsg
        generalize hstatus : w.result.status = status at hw hrefuses
        cases hw with
        | unregistered hnone => exact hinfo hnone
        | noTokens hlt => omega
        | noEngine => rcases hrefuses with hr | hr <;> cases hr
        | dropped => rcases hrefuses with hr | hr <;> cases hr

end Interleaved

end Gabriel
