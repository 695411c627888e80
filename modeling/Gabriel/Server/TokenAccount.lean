import Gabriel.Server.FlowControl

/-!
# The account of a client

Flow control bounds the counter of a client by what the dispatcher owes to it.  Here the account is exact: the tokens
that a client lacks are those of its accepted inputs for which none was issued yet (`Server.Account`).  The consumer
deducts a token when the dispatcher accepts an input, and `send_result` adds one when the dispatcher issues it, to the
entry that is then at the address.  So nothing that was accepted from a previous client may be open when a client
connects (`Sys.Settled`).
-/

namespace Gabriel

open Frontend

/-! ### The dispatcher -/

namespace Dispatcher

variable {d d' : Dispatcher} {c : Context} {b : Address} {w : ResultWrapper} {mp : MetadataPayload}

/-- No input is accepted and no token issued. -/
def SameTokens (d d' : Dispatcher) : Prop :=
  ∀ a p, d'.acceptedFrom a p = d.acceptedFrom a p ∧ d'.tokensIssued a p = d.tokensIssued a p

/-- The result `w` is for the client at `b`, and the token it may carry is all that is issued. -/
def Issues (d d' : Dispatcher) (b : Address) (w : ResultWrapper) : Prop :=
  ∀ a p, d'.acceptedFrom a p = d.acceptedFrom a p ∧
    d'.tokensIssued a p = d.tokensIssued a p + if b = a ∧ w.producerId = p ∧ w.returnToken = true then 1 else 0

theorem SameTokens.of_log (h : d'.log = d.log) : d.SameTokens d' := by
  intro a p
  simp only [acceptedFrom, tokensIssued, h, and_self]

theorem SameTokens.trans {d'' : Dispatcher} (h : d.SameTokens d') (h' : d'.SameTokens d'') : d.SameTokens d'' :=
  fun a p => ⟨(h' a p).1.trans (h a p).1, (h' a p).2.trans (h a p).2⟩

theorem SameTokens.enqueue (mp : MetadataPayload) : d.SameTokens (d.enqueue mp) := fun a p => by simp

theorem SameTokens.dispatchLoop {mp : MetadataPayload} {b : Bool} {order : List Context} {r : Option (List Context)}
    (hr : d.dispatchLoop mp b order = (d', r)) : d.SameTokens d' := by
  intro a p
  refine dispatchLoop_inv (P := fun d₁ => d₁.acceptedFrom a p = d.acceptedFrom a p ∧
    d₁.tokensIssued a p = d.tokensIssued a p) hr ⟨rfl, rfl⟩ (fun _ _ hd => hd) fun _ _ hd => ?_
  cases b <;> simpa [tokensIssued, acceptedFrom] using hd

theorem NextSent.sameTokens {b : Bool} {r : Dispatcher × Bool} (h : NextSent d c b r) : d.SameTokens r.1 := by
  intro a p
  cases h with
  | none => exact ⟨rfl, rfl⟩
  | dequeued => cases b <;> simp [tokensIssued, acceptedFrom]
  | pickedUp => cases b <;> simp [tokensIssued, acceptedFrom]

theorem issues_release {origin : Origin} {token : Bool} {result : Result} :
    d.Issues (d.release origin mp token result) mp.metadata.clientAddress
      { producerId := mp.producerId, returnToken := token, result := result } := by
  intro a p
  cases token <;> simp [tokensIssued, acceptedFrom]

theorem Answered.issues {k : Nat} {m : Option Metadata} {result : Result}
    (h : Answered d c k result m (d', .send b w)) : d.Issues d' b w := by
  cases h with
  | token => exact issues_release
  | copy =>
    intro a p
    simp

theorem Answered.sameTokens {k : Nat} {m : Option Metadata} {result : Result} {ans : Answer}
    (h : Answered d c k result m (d', ans)) (hans : ∀ b w, ans ≠ .send b w) : d.SameTokens d' := by
  cases h with
  | noMetadata => exact .of_log rfl
  | noProducer => exact .of_log rfl
  | token => exact absurd rfl (hans _ _)
  | copy => exact absurd rfl (hans _ _)
  | next => exact .of_log rfl

theorem RemovalBegun.issues (h : RemovalBegun d c (d', some (b, w))) : d.Issues d' b w := by
  cases h with
  | released => exact issues_release

end Dispatcher

/-! ### The shared state -/

/-- The entry `e` at the address `a` lacks the tokens for `p` that were not issued for its accepted inputs. -/
def Server.Account (cfg : Config) (s : Server) (a : Address) (e : ClientRef) (p : String) : Prop :=
  s.frontend.credit cfg e p + s.dispatcher.acceptedFrom a p =
    cfg.numTokensPerProducer + s.dispatcher.tokensIssued a p

/-- The entry `e` is the one at the address `a`, and at no other. -/
structure Server.Seated (s : Server) (a : Address) (e : ClientRef) : Prop where
  entry : s.frontend.clients.get? a = some e
  table : ∀ {b ref}, s.frontend.clients.get? b = some ref → (b = a ↔ ref = e)

namespace Server

variable {cfg : Config} {s : Server} {d : Dispatcher} {f : Frontend} {a b : Address} {e ref : ClientRef} {p : String}

theorem Seated.of_clients (h : s.Seated a e) {s' : Server} (hclients : s'.frontend.clients = s.frontend.clients) :
    s'.Seated a e := by
  refine ⟨?_, fun {b ref} hr => ?_⟩
  · rw [hclients]
    exact h.entry
  · rw [hclients] at hr
    exact h.table hr

theorem Account.keep (h : s.Account cfg a e p) (hd : s.dispatcher.SameTokens d)
    (hcredit : f.credit cfg = s.frontend.credit cfg) :
    Account cfg { dispatcher := d, frontend := f } a e p := by
  unfold Account at h ⊢
  simp only [hcredit, (hd a p).1, (hd a p).2]
  exact h

/-- An input is accepted, and its token deducted. -/
theorem Account.accept {mp : MetadataPayload} (h : s.Account cfg a e p) (hd : s.dispatcher.SameTokens d)
    (hcounter : s.frontend.HasCounter ref mp.producerId) (hentry : mp.metadata.clientAddress = a ↔ ref = e) :
    Account cfg { dispatcher := d.emit (.accepted mp), frontend := s.frontend.deductToken ref mp } a e p := by
  have hcredit : (s.frontend.deductToken ref mp).credit cfg e p =
      s.frontend.credit cfg e p - if ref = e ∧ mp.producerId = p then 1 else 0 := credit_deductToken hcounter
  have haccepted : (d.emit (.accepted mp)).acceptedFrom a p =
      s.dispatcher.acceptedFrom a p + if ref = e ∧ mp.producerId = p then 1 else 0 := by
    rw [Dispatcher.acceptedFrom_emit, (hd a p).1]
    simp [MetadataPayload.isFrom, hentry]
  have hissued : (d.emit (.accepted mp)).tokensIssued a p = s.dispatcher.tokensIssued a p := by
    rw [Dispatcher.tokensIssued_emit, (hd a p).2]
    simp
  unfold Account at h ⊢
  simp only [hcredit, haccepted, hissued]
  split <;> omega

/-- A client that lacks a token has a counter. -/
theorem Account.hasCounter (h : s.Account cfg a e p)
    (hlt : s.dispatcher.tokensIssued a p < s.dispatcher.acceptedFrom a p) : s.frontend.HasCounter e p := by
  unfold HasCounter
  cases hnone : (s.frontend.clientObjs e).tokensForProducer p with
  | some n => rfl
  | none =>
    rw [Account, credit, hnone, Option.getD_none] at h
    omega

/-- A result is sent to its client, if there is one. -/
theorem Account.result {w : ResultWrapper} {r : Frontend × Bool} (h : ∀ p, s.Account cfg a e p)
    (hseat : s.Seated a e) (hd : s.dispatcher.Issues d b w) (hf : ResultSent s.frontend b w r)
    (hlt : w.returnToken = true →
      s.dispatcher.tokensIssued b w.producerId < s.dispatcher.acceptedFrom b w.producerId) (p : String) :
    Account cfg { dispatcher := d, frontend := r.1 } a e p := by
  obtain ⟨haccepted, hissued⟩ := hd a p
  have haccount := h p
  unfold Account at haccount ⊢
  simp only [haccepted, hissued]
  cases hf with
  | noClient hnone =>
    have hb : b ≠ a := by
      rintro rfl
      rw [hseat.entry] at hnone
      cases hnone
    simpa [hb] using haccount
  | @sent ref href =>
    have hentry := hseat.table href
    by_cases htoken : w.returnToken = true
    · have hcredit : ((s.frontend.emit (.resultFor ref b w)).addTokens ref w.producerId 1).credit cfg e p =
          s.frontend.credit cfg e p + if ref = e ∧ w.producerId = p then 1 else 0 := by
        by_cases hr : ref = e
        · subst hr
          have hcounter : s.frontend.HasCounter ref w.producerId :=
            (h w.producerId).hasCounter (hentry.2 rfl ▸ hlt htoken)
          exact credit_addTokens (f := s.frontend.emit (.resultFor ref b w)) hcounter 1
        · rw [credit_addTokens_of_ne (Ne.symm hr), if_neg (fun he => hr he.1), credit_emit, Int.add_zero]
      simp only [htoken, ↓reduceIte, credit_emit, hcredit, and_true, hentry]
      split <;> omega
    · simpa [htoken] using haccount

end Server

/-! ### Interleaving handlers -/

namespace Interleaved

open Server DispatchLog

variable {cfg : Config} {s s' : Server} {sys sys' : Sys} {act : Action} {c : Context} {a b : Address}
  {e ref : ClientRef} {p : String}

/-- A message of the entry `ref`, which belongs to the address `b`. -/
theorem MessageStep.account {msg : FromClient} {pc : StreamPc} (h : MessageStep cfg s b ref msg s' pc)
    (hentry : b = a ↔ ref = e) (hs : s.Account cfg a e p) : s'.Account cfg a e p := by
  have hsame : s.dispatcher.SameTokens s.dispatcher := .of_log rfl
  have hbegin : ∀ ts, s.dispatcher.SameTokens (s.dispatcher.beginInput msg.asInput.producerId ts) :=
    fun ts => .of_log (by simp)
  cases h with
  | registered _ hf => exact hs.keep hsame (by rw [Replied.credit hf]; simp)
  | unregistered _ _ hf => exact hs.keep hsame (by rw [Replied.credit hf]; simp)
  | noTokens _ _ hf => exact hs.keep hsame (by rw [Replied.credit hf]; simp)
  | noEngine _ hf => exact hs.keep (hbegin _) (by rw [Replied.credit hf]; simp)
  | suspended _ _ _ _ hloop => exact hs.keep ((hbegin _).trans (.dispatchLoop hloop)) (by simp)
  | @enqueued info _ _ d _ _ _ _ hloop =>
    have hsub : Account cfg { dispatcher := d
                              frontend := ((s.frontend.emit (.received ref b msg)).initTokens cfg ref
                                msg.asInput.producerId).emit
                                  (.submitted ref (s.dispatcher.metadataPayload msg.asInput b info)) } a e p :=
      hs.keep ((hbegin _).trans (.dispatchLoop hloop)) (by simp)
    exact hsub.accept (.enqueue _) hasCounter_initTokens hentry
  | dropped _ _ _ hloop hf =>
    exact hs.keep ((hbegin _).trans (.dispatchLoop hloop)) (by rw [Replied.credit hf]; simp)

/-- The end of a dispatch loop. -/
theorem ResumeStep.account {stream : Stream} {pc : StreamPc} (h : ResumeStep cfg s stream s' pc)
    (hinput : ∀ ref mp, stream.pc.input = some (ref, mp) →
      (mp.metadata.clientAddress = a ↔ ref = e) ∧ s.frontend.HasCounter ref mp.producerId)
    (hs : s.Account cfg a e p) : s'.Account cfg a e p := by
  cases h with
  | settled hf => exact hs.keep (.of_log rfl) hf.credit
  | suspended _ hloop => exact hs.keep (.dispatchLoop hloop) rfl
  | concluded hpc hloop =>
    obtain ⟨hentry, hcounter⟩ := hinput _ _ (by rw [hpc]; rfl)
    exact hs.accept ((Dispatcher.SameTokens.dispatchLoop hloop).trans (.of_log rfl)) hcounter hentry

/-- A token that is issued was owed. -/
theorem issued_lt_of_repaid {d d' : Dispatcher} {w : ResultWrapper} (hsolvent : ∀ a p, d.Solvent a p)
    (h : d.Repaid d' b w) (htoken : w.returnToken = true) :
    d.tokensIssued b w.producerId < d.acceptedFrom b w.producerId := by
  have hle := hsolvent b w.producerId
  have hpaid := h b w.producerId
  unfold Dispatcher.Solvent at hle
  rw [if_pos ⟨rfl, rfl, htoken⟩] at hpaid
  omega

theorem RemovalEffect.account (h : RemovalEffect s s') (hsolvent : ∀ a p, s.dispatcher.Solvent a p)
    (hseat : s.Seated a e) (hs : ∀ p, s.Account cfg a e p) (p : String) : s'.Account cfg a e p := by
  cases h with
  | quiet hf => exact (hs p).keep (.of_log rfl) hf.toQuiet.credit
  | begunSilently h => cases h; exact hs p
  | begun h hf => exact Account.result hs hseat h.issues hf (issued_lt_of_repaid hsolvent h.repaid) p
  | finished v => exact (hs p).keep (.of_log (by simp)) rfl

theorem Removals.account (h : Removals s s') (hsolvent : ∀ a p, s.dispatcher.Solvent a p) (hseat : s.Seated a e)
    (hs : ∀ p, s.Account cfg a e p) : ∀ p, s'.Account cfg a e p := by
  induction h with
  | refl => exact hs
  | tail hr h ih =>
    have heffects := Removals.effects (c := 0) hr
    exact h.account (fun a p => heffects.keepsBooks.1 (hsolvent a p)) (hseat.of_clients heffects.clients) ih

/-- A session returns to the entry what the dispatcher issues to its address. -/
theorem SessionStep.account {pc pc' : SessionPc} (h : SessionStep act c pc s s' pc')
    (hsolvent : ∀ a p, s.dispatcher.Solvent a p) (hseat : s.Seated a e) (hs : ∀ p, s.Account cfg a e p)
    (p : String) : s'.Account cfg a e p := by
  cases h with
  | read => exact (hs p).keep (fun a p => by simp) rfl
  | unread => exact (hs p).keep (fun a p => by simp) rfl
  | forwarded _ h hf => exact Account.result hs hseat h.issues hf (issued_lt_of_repaid hsolvent h.repaid) p
  | stopped _ h => exact (hs p).keep (h.sameTokens (by simp)) rfl
  | @unsent _ _ _ d ans _ _ _ _ h hnext _ hgone =>
    -- a result that is not sent has no client
    have hans : Account cfg { s with dispatcher := d } a e p := by
      cases ans with
      | send b w =>
        exact Account.result hs hseat h.issues (.noClient (hgone b w rfl)) (issued_lt_of_repaid hsolvent h.repaid) p
      | stop => exact (hs p).keep (h.sameTokens (by simp)) rfl
      | next => exact (hs p).keep (h.sameTokens (by simp)) rfl
    exact hans.keep hnext.sameTokens rfl
  | fed _ hnext => exact (hs p).keep hnext.sameTokens rfl
  | inserted id ar _ h hf =>
    exact (h.account hsolvent hseat hs p).keep (.of_log (by simp)) hf.toQuiet.credit
  | takeover _ h => exact h.account hsolvent hseat hs p
  | managed h => exact h.account hsolvent hseat hs p

theorem account_step (hstep : step cfg sys act = some sys') (hcounted : sys.Counted)
    (hsolvent : ∀ a p, sys.server.dispatcher.Solvent a p) (hflow : sys.Flow cfg a e) (hopen : act ≠ .openClient a)
    (he : sys.server.frontend.clients.get? a = some e) (hs : ∀ p, sys.server.Account cfg a e p) (p : String) :
    sys'.server.Account cfg a e p := by
  have hinput : ∀ {i : Nat} {stream : Stream}, sys.streams[i]? = some stream → ∀ ref mp,
      stream.pc.input = some (ref, mp) →
        (mp.metadata.clientAddress = a ↔ ref = e) ∧ sys.server.frontend.HasCounter ref mp.producerId := by
    intro i stream hi ref mp hmp
    have hmem := List.mem_of_getElem? hi
    exact ⟨hflow.inputs hmem hmp, hcounted stream hmem ref mp hmp⟩
  cases step_cases hstep with
  | openClient =>
    have hne : e ≠ sys.server.frontend.nextClient := Nat.ne_of_lt hflow.balance.known
    have haccount := hs p
    simpa [Account, credit, addClient, hne] using haccount
  | openProducer => exact hs p
  | unknownClient => exact hs p
  | message hi hidle hclient hm =>
    exact hm.account (hflow.client (List.mem_of_getElem? hi) (by rw [hidle]; trivial) hclient) (hs p)
  | resumed hi hr => exact hr.account (hinput hi) (hs p)
  | closed hi _ hr => exact hr.account (hinput hi) (hs p)
  | openSession => exact hs p
  | session _ _ hs' => exact hs'.account hsolvent ⟨he, hflow.balance.table⟩ hs p

/-- Nothing is open of the previous clients at the address `a`: their handlers have ended, no input of them is being
dispatched, and every token for an accepted one was issued. -/
def Sys.Settled (sys : Sys) (a : Address) : Prop :=
  (∀ stream ∈ sys.streams, stream.address = a → stream.owner.isSome = true → ¬ stream.pc.running) ∧
  (∀ stream ∈ sys.streams, ∀ x ∈ stream.pc.input, x.2.metadata.clientAddress ≠ a) ∧
  ∀ mp ∈ accepted sys.server.dispatcher.log, mp.metadata.clientAddress = a →
    sys.server.dispatcher.acceptedFrom a mp.producerId = sys.server.dispatcher.tokensIssued a mp.producerId

instance : Decidable (sys.Settled a) := inferInstanceAs (Decidable (_ ∧ _ ∧ _))

/-- A client connects at an address of which nothing is open. -/
def Action.connectsSettled (sys : Sys) : Action → Prop
  | .openClient a => sys.Settled a
  | _ => True

instance (sys : Sys) : DecidablePred (Action.connectsSettled sys)
  | .openClient a => inferInstanceAs (Decidable (sys.Settled a))
  | .message _ _ _ _ | .openProducer _ | .resumeStream _ _ _ | .closeStream _ | .openSession | .engineMessage _ _
  | .resumeSession _ _ _ | .closeSession _ => inferInstanceAs (Decidable True)

theorem Sys.Settled.cleared (h : sys.Settled a) (hsolvent : ∀ a p, sys.server.dispatcher.Solvent a p) :
    sys.Cleared a := by
  refine ⟨h.1, h.2.1, fun mp hmp ha => ?_⟩
  have hissued := h.2.2 mp hmp ha
  have hle := hsolvent a mp.producerId
  unfold Dispatcher.Solvent at hle
  omega

/-- Tokens are issued for accepted inputs only. -/
theorem Sys.Settled.issued (h : sys.Settled a) (hsolvent : ∀ a p, sys.server.dispatcher.Solvent a p) (p : String) :
    sys.server.dispatcher.acceptedFrom a p = sys.server.dispatcher.tokensIssued a p := by
  have hle := hsolvent a p
  unfold Dispatcher.Solvent at hle
  rcases Nat.eq_zero_or_pos (sys.server.dispatcher.acceptedFrom a p) with hzero | hpos
  · omega
  · obtain ⟨ev, hev, hfrom⟩ := List.countP_pos_iff.1 hpos
    obtain ⟨mp, rfl, ha, rfl⟩ := DispatchEvent.acceptsFrom_iff.1 hfrom
    exact h.2.2 mp (List.mem_filterMap.2 ⟨_, hev, rfl⟩) ha

/-- The accounts of all clients are exact. -/
def Sys.Accounted (cfg : Config) (sys : Sys) : Prop :=
  ∀ a e, sys.server.frontend.clients.get? a = some e → sys.Flow cfg a e ∧ ∀ p, sys.server.Account cfg a e p

theorem accounted_step (hstep : step cfg sys act = some sys') (htracked : sys.ClientsTracked)
    (hcounted : sys.Counted) (hsolvent : ∀ a p, sys.server.dispatcher.Solvent a p) (hact : act.connectsSettled sys)
    (h : sys.Accounted cfg) : sys'.Accounted cfg := by
  intro a e he
  by_cases hopen : act = .openClient a
  · -- the new entry has all its tokens
    subst hopen
    simp only [step] at hstep
    split at hstep
    · cases hstep
    cases hstep
    simp only [addClient, Dict.get?_set_self, Option.some.injEq] at he
    subst he
    have hflow := @Sys.Cleared.flow cfg sys a (Sys.Settled.cleared hact hsolvent) htracked hsolvent
    refine ⟨hflow, fun p => ?_⟩
    have hissued := Sys.Settled.issued hact hsolvent p
    rw [Account, credit_addClient, hissued]
  · have hbefore := clients_step hstep hopen he
    obtain ⟨hflow, haccount⟩ := h a e hbefore
    exact ⟨(flow_step hstep hcounted hflow hopen).1,
      account_step hstep hcounted hsolvent hflow hopen hbefore haccount⟩

/-- The tokens that a connected client lacks for a producer are exactly those of its accepted inputs for which no token
was issued, in every run in which clients connect at addresses of which nothing is open. -/
theorem tokens_conserved {as : List Action}
    (h : (machine cfg).RunWhere (fun sys a => a.connectsSettled sys) as sys)
    (he : sys.server.frontend.clients.get? a = some e) (p : String) :
    sys.server.frontend.credit cfg e p + sys.server.dispatcher.acceptedFrom a p =
      cfg.numTokensPerProducer + sys.server.dispatcher.tokensIssued a p := by
  have hinit : Sys.Accounted cfg {} := by
    intro a e he
    cases he
  have hinv := h.invariant_of (I := Sys.Accounted cfg)
    (J := fun sys => sys.ClientsTracked ∧ sys.Counted ∧ ∀ a p, sys.server.dispatcher.Solvent a p)
    (fun h => ⟨run_clientsTracked h.run, run_counted h.run, fun a p => (run_ledger h.run a p).1⟩) hinit
    (fun _ _ _ hJ h hact hstep => accounted_step hstep hJ.1 hJ.2.1 hJ.2.2 hact h)
  exact (hinv a e he).2 p

/-- A client comes back to its address after its input was answered, and the engine is on its next input. -/
theorem tokens_conserved_of_reconnection :
    ∃ as sys, (machine { numTokensPerProducer := 2, sizeForQueues := 1 }).RunWhere
        (fun sys a => a.connectsSettled sys) as sys ∧
      sys.server.frontend.clients.get? "client" = some 1 ∧
      sys.server.dispatcher.acceptedFrom "client" "P" = 2 ∧ sys.server.dispatcher.tokensIssued "client" "P" = 1 ∧
      sys.server.frontend.credit { numTokensPerProducer := 2, sizeForQueues := 1 } 1 "P" +
        sys.server.dispatcher.acceptedFrom "client" "P" = 2 + sys.server.dispatcher.tokensIssued "client" "P" := by
  obtain ⟨sys, hrun, h⟩ := Machine.exists_runWhere (M := machine { numTokensPerProducer := 2, sizeForQueues := 1 })
    (G := fun sys a => a.connectsSettled sys) (g := fun sys a => decide (a.connectsSettled sys))
    (fun _ _ h => of_decide_eq_true h)
    (fun sys => sys.server.frontend.clients.get? "client" = some 1 ∧
      sys.server.dispatcher.acceptedFrom "client" "P" = 2 ∧ sys.server.dispatcher.tokensIssued "client" "P" = 1)
    [.openSession, .engineMessage 0 (.register "A" false), .openClient "client",
      .message 0 (.registration {}) [] false, .resumeStream 0 false false, .openProducer "client",
      .message 1 (.input { frameId := 1, producerId := "P", targetEngineIds := ["A"] }) [0] true,
      .resumeStream 1 false true, .engineMessage 0 (.result {}), .resumeSession 0 false true,
      .resumeSession 0 false true, .closeStream 0, .openClient "client",
      .message 2 (.registration {}) [] false, .resumeStream 2 false false,
      .message 1 (.input { frameId := 2, producerId := "P", targetEngineIds := ["A"] }) [0] true,
      .resumeStream 1 false true] (by decide)
  exact ⟨_, sys, hrun, h.1, h.2.1, h.2.2, tokens_conserved hrun h.1 "P"⟩

end Interleaved

end Gabriel
