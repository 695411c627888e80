import Gabriel.Server.Clients
import Gabriel.Server.Owed

/-!
# The credit of a client entry

The credit of a client entry for a producer is its counter in `tokens_for_producer`, and all tokens while there is no
counter yet.  What the entry may still send and what the dispatcher owes to its address stay below the number of
tokens per producer, as long as no other entry uses the address (`Server.InBalance`).
-/

namespace Gabriel

/-! ### What is counted -/

/-- The message returns a token for `p`. -/
def ToClient.carriesToken (p : String) : ToClient → Bool
  | .resultWrapper wrapper => wrapper.producerId = p ∧ wrapper.returnToken
  | _ => false

/-- The event sends a token to `a` for `p`. -/
def ClientEvent.sendsToken (a : Address) (p : String) : ClientEvent → Bool
  | .toClient _ a' msg => a' = a ∧ msg.carriesToken p
  | _ => false

/-- The event is a result that returns a token for `p` to the entry `ref`. -/
def ClientEvent.returnsToken (ref : ClientRef) (p : String) : ClientEvent → Bool
  | .resultFor ref' _ wrapper => ref' = ref ∧ wrapper.producerId = p ∧ wrapper.returnToken
  | _ => false

/-- The event takes a token for `p` from the entry `ref`. -/
def ClientEvent.takesToken (ref : ClientRef) (p : String) : ClientEvent → Bool
  | .deducted ref' mp => ref' = ref ∧ mp.producerId = p
  | _ => false

@[simp] theorem ToClient.carriesToken_iff {p : String} {msg : ToClient} :
    msg.carriesToken p = true ↔ ∃ w, msg = .resultWrapper w ∧ w.producerId = p ∧ w.returnToken = true := by
  cases msg <;> simp [carriesToken]

@[simp] theorem ClientEvent.sendsToken_iff {a : Address} {p : String} {e : ClientEvent} :
    e.sendsToken a p = true ↔ ∃ ref msg, e = .toClient ref a msg ∧ msg.carriesToken p = true := by
  cases e <;> simp [sendsToken]

@[simp] theorem ClientEvent.returnsToken_iff {ref : ClientRef} {p : String} {e : ClientEvent} :
    e.returnsToken ref p = true ↔ ∃ a w, e = .resultFor ref a w ∧ w.producerId = p ∧ w.returnToken = true := by
  cases e <;> simp [returnsToken]

@[simp] theorem ClientEvent.takesToken_iff {ref : ClientRef} {p : String} {e : ClientEvent} :
    e.takesToken ref p = true ↔ ∃ mp, e = .deducted ref mp ∧ mp.producerId = p := by
  cases e <;> simp [takesToken]

namespace Frontend

variable {cfg : Config} {f f' : Frontend} {ref e : ClientRef} {a : Address} {p q : String}

/-- The number of inputs for `p` that the entry may still send. -/
def credit (cfg : Config) (f : Frontend) (ref : ClientRef) (p : String) : Int :=
  ((f.clientObjs ref).tokensForProducer p).getD cfg.numTokensPerProducer

/-- The entry has a counter for `p`. -/
def HasCounter (f : Frontend) (ref : ClientRef) (p : String) : Prop :=
  ((f.clientObjs ref).tokensForProducer p).isSome = true

/-- The number of tokens for `p` sent to `a`. -/
def tokensSent (f : Frontend) (a : Address) (p : String) : Nat := f.log.countP (ClientEvent.sendsToken a p)

/-- The number of tokens for `p` that results returned to the entry `ref`. -/
def tokensReturned (f : Frontend) (ref : ClientRef) (p : String) : Nat :=
  f.log.countP (ClientEvent.returnsToken ref p)

/-- The number of inputs for `p` that were accepted from the entry `ref`. -/
def tokensTaken (f : Frontend) (ref : ClientRef) (p : String) : Nat := f.log.countP (ClientEvent.takesToken ref p)

@[simp] theorem credit_emit (ev : ClientEvent) : (f.emit ev).credit cfg = f.credit cfg := rfl

@[simp] theorem hasCounter_emit (ev : ClientEvent) : (f.emit ev).HasCounter = f.HasCounter := rfl

theorem Quiet.credit (h : Quiet f f') : f'.credit cfg = f.credit cfg := by
  funext ref p
  simp only [Frontend.credit, h.clientObjs]

theorem Quiet.hasCounter (h : Quiet f f') : f'.HasCounter = f.HasCounter := by
  funext ref p
  simp only [HasCounter, h.clientObjs]

theorem Replied.credit {msg : ToClient} (h : Replied ref a msg f f') : f'.credit cfg = f.credit cfg := by
  funext ref p
  simp only [Frontend.credit, h.clientObjs]

theorem Replied.hasCounter {msg : ToClient} (h : Replied ref a msg f f') : f'.HasCounter = f.HasCounter := by
  funext ref p
  simp only [HasCounter, h.clientObjs]

/-- `client_info` has nothing to do with tokens. -/
@[simp] theorem credit_modifyClient (info : Option AnyProto) :
    (f.modifyClient ref fun client => { client with clientInfo := info }).credit cfg = f.credit cfg := by
  funext ref' p
  by_cases hr : ref' = ref <;> simp [credit, hr]

@[simp] theorem hasCounter_modifyClient (info : Option AnyProto) :
    (f.modifyClient ref fun client => { client with clientInfo := info }).HasCounter = f.HasCounter := by
  funext ref' p
  by_cases hr : ref' = ref <;> simp [HasCounter, hr]

@[simp] theorem credit_initTokens : (f.initTokens cfg ref p).credit cfg = f.credit cfg := by
  funext e q
  unfold initTokens
  split
  · rfl
  · rename_i hnone
    by_cases he : e = ref
    · subst he
      by_cases hq : q = p
      · subst hq; simp [credit, hnone]
      · simp [credit, hq]
    · simp [credit, he]

theorem HasCounter.initTokens (h : f.HasCounter e q) (ref : ClientRef) (p : String) :
    (f.initTokens cfg ref p).HasCounter e q := by
  unfold Frontend.initTokens
  split
  · exact h
  · by_cases he : e = ref
    · subst he
      by_cases hq : q = p
      · subst hq; simp [HasCounter]
      · simpa [HasCounter, hq] using h
    · simpa [HasCounter, he] using h

theorem hasCounter_initTokens : (f.initTokens cfg ref p).HasCounter ref p := by
  unfold initTokens
  split
  · rename_i n hn
    simp [HasCounter, hn]
  · simp [HasCounter]

/-- The value that `_consumer_helper` tests. -/
theorem tokens_initTokens : (f.initTokens cfg ref p).tokens ref p = f.credit cfg ref p := by
  have hcounter : (f.initTokens cfg ref p).HasCounter ref p := hasCounter_initTokens
  have hcredit : (f.initTokens cfg ref p).credit cfg = f.credit cfg := credit_initTokens
  rw [← hcredit]
  obtain ⟨n, hn⟩ := Option.isSome_iff_exists.1 hcounter
  simp [tokens, credit, hn]

theorem HasCounter.addTokens (h : f.HasCounter e q) (ref : ClientRef) (p : String) (n : Int) :
    (f.addTokens ref p n).HasCounter e q := by
  by_cases he : e = ref
  · subst he
    by_cases hq : q = p
    · subst hq; simpa [HasCounter, Frontend.addTokens] using h
    · simpa [HasCounter, Frontend.addTokens, hq] using h
  · simpa [HasCounter, Frontend.addTokens, he] using h

theorem credit_addTokens (h : f.HasCounter ref p) (n : Int) :
    (f.addTokens ref p n).credit cfg e q = f.credit cfg e q + if ref = e ∧ p = q then n else 0 := by
  obtain ⟨k, hk⟩ := Option.isSome_iff_exists.1 h
  by_cases he : e = ref
  · subst he
    by_cases hq : q = p
    · subst hq; simp [credit, addTokens, hk]
    · simp [credit, addTokens, hq, Ne.symm hq]
  · simp [credit, addTokens, he, Ne.symm he]

theorem credit_addTokens_of_ne (h : e ≠ ref) (n : Int) : (f.addTokens ref p n).credit cfg e q = f.credit cfg e q := by
  simp [credit, addTokens, h]

theorem HasCounter.deductToken (h : f.HasCounter e q) (ref : ClientRef) (mp : MetadataPayload) :
    (f.deductToken ref mp).HasCounter e q :=
  h.addTokens ref mp.producerId (-1)

theorem credit_deductToken {mp : MetadataPayload} (h : f.HasCounter ref mp.producerId) :
    (f.deductToken ref mp).credit cfg e q =
      f.credit cfg e q - if ref = e ∧ mp.producerId = q then 1 else 0 := by
  rw [deductToken, credit_emit, credit_addTokens h]
  split <;> omega

theorem HasCounter.resultSent {w : ResultWrapper} {r : Frontend × Bool} (hf : ResultSent f a w r)
    (h : f.HasCounter e q) : r.1.HasCounter e q := by
  cases hf with
  | noClient => exact h
  | @sent ref =>
    simp only [hasCounter_emit]
    split
    · exact HasCounter.addTokens (f := f.emit (.resultFor ref a w)) h ref w.producerId 1
    · exact h

end Frontend

/-! ### Engine sessions -/

/-- What a result for the client `a` and its token cost. -/
def Dispatcher.Repaid (d d' : Dispatcher) (a : Address) (w : ResultWrapper) : Prop :=
  ∀ b p, d'.owed b p + (if a = b ∧ w.producerId = p ∧ w.returnToken = true then 1 else 0) ≤ d.owed b p

namespace Dispatcher

variable {d d' : Dispatcher} {c : Context} {a : Address} {w : ResultWrapper}

theorem repaid_release {mp : MetadataPayload} {origin : Origin} {token : Bool} {result : Result}
    (htoken : (d.producer mp.producerId).pendingTokenReturn = token)
    (hlatest : (d.producer mp.producerId).latestInputSentToEngine = some mp) :
    d.Repaid (d.release origin mp token result) mp.metadata.clientAddress
      { producerId := mp.producerId, returnToken := token, result := result } := by
  intro b p
  cases token with
  | true =>
    have howed := @owed_release_token d p b mp origin result htoken hlatest
    simp only [and_true]
    exact Nat.le_of_eq howed
  | false => simp [owed_release_of_not_pending htoken]

theorem Answered.repaid {k : Nat} {m : Option Metadata} {result : Result}
    (h : Answered d c k result m (d', .send a w)) : d.Repaid d' a w := by
  cases h with
  | token hpend hlatest => exact repaid_release hpend hlatest
  | copy => simp [Repaid]

theorem Answered.owed_le {k : Nat} {m : Option Metadata} {result : Result} {ans : Answer}
    (h : Answered d c k result m (d', ans)) (b : Address) (p : String) : d'.owed b p ≤ d.owed b p := by
  cases ans with
  | send a w => exact Nat.le_of_add_right_le (h.repaid b p)
  | stop => cases h <;> exact Nat.le_refl _
  | next => cases h; exact Nat.le_refl _

theorem RemovalBegun.repaid (h : RemovalBegun d c (d', some (a, w))) : d.Repaid d' a w := by
  cases h with
  | released hcur hlatest => exact repaid_release rfl hlatest

end Dispatcher

open Frontend

variable {cfg : Config} {s s' s'' : Server} {a : Address} {e : ClientRef}

/-- The entry `e` is the only one at the address `a`, and what it may still send together with what the dispatcher
owes to `a` does not exceed the number of tokens.  Its credit is what is left of the tokens after those taken and
returned. -/
structure Server.InBalance (cfg : Config) (s : Server) (a : Address) (e : ClientRef) : Prop where
  known : e < s.frontend.nextClient
  table : ∀ {b ref}, s.frontend.clients.get? b = some ref → (b = a ↔ ref = e)
  bound : ∀ p, s.frontend.credit cfg e p + s.dispatcher.owed a p ≤ cfg.numTokensPerProducer
  account : ∀ p, s.frontend.credit cfg e p + s.frontend.tokensTaken e p =
    cfg.numTokensPerProducer + s.frontend.tokensReturned e p

/-- What happens to the tokens of the entry `e` at the address `a`: for a producer `p`, `taken p` of them are taken for
accepted inputs and `replied p` are sent back with error replies; some are returned with results, which raises the
credit. -/
structure Server.Moves (cfg : Config) (a : Address) (e : ClientRef) (taken replied : String → Nat) (s s' : Server) :
    Prop where
  balance : s'.InBalance cfg a e
  moved : ∀ p, ∃ k : Nat, s.frontend.credit cfg e p + k = s'.frontend.credit cfg e p + taken p ∧
    s'.frontend.tokensSent a p = s.frontend.tokensSent a p + k + replied p

/-- Tokens are only returned. -/
abbrev Server.Returns (cfg : Config) (a : Address) (e : ClientRef) : Server → Server → Prop :=
  Server.Moves cfg a e (fun _ => 0) (fun _ => 0)

namespace Server

variable {taken replied : String → Nat}

theorem Returns.trans (h : Returns cfg a e s s') (h' : Moves cfg a e taken replied s' s'') :
    Moves cfg a e taken replied s s'' := by
  refine ⟨h'.balance, fun p => ?_⟩
  obtain ⟨k, hcredit, hsent⟩ := h.moved p
  obtain ⟨k', hcredit', hsent'⟩ := h'.moved p
  exact ⟨k + k', by omega, by omega⟩

theorem Moves.trans_returns (h : Moves cfg a e taken replied s s') (h' : Returns cfg a e s' s'') :
    Moves cfg a e taken replied s s'' := by
  refine ⟨h'.balance, fun p => ?_⟩
  obtain ⟨k, hcredit, hsent⟩ := h.moved p
  obtain ⟨k', hcredit', hsent'⟩ := h'.moved p
  exact ⟨k + k', by omega, by omega⟩

/-- The dispatcher forgets a debt or keeps it. -/
theorem InBalance.dispatcher (h : s.InBalance cfg a e) {d : Dispatcher}
    (howed : ∀ p, d.owed a p ≤ s.dispatcher.owed a p) : Returns cfg a e s { s with dispatcher := d } := by
  refine ⟨⟨h.known, h.table, fun p => ?_, h.account⟩, fun p => ⟨0, by simp, by simp⟩⟩
  have hbound := h.bound p
  have hle := howed p
  simp only
  omega

theorem InBalance.refl (h : s.InBalance cfg a e) : Returns cfg a e s s := h.dispatcher fun _ => Nat.le_refl _

/-- Engine ids, and deleted entries. -/
theorem InBalance.quiet (h : s.InBalance cfg a e) {f : Frontend} (hf : Quiet s.frontend f) :
    Returns cfg a e s { s with frontend := f } := by
  have hcount : ∀ P : ClientEvent → Bool, (∀ ref a ids, P (.toClient ref a (.engineIdsUpdate ids)) = false) →
      f.log.countP P = s.frontend.log.countP P := fun P hP => hf.countP_log P hP
  refine ⟨⟨hf.nextClient ▸ h.known, fun hr => h.table (hf.clients _ _ hr), fun p => ?_, fun p => ?_⟩, fun p => ?_⟩
  · simpa only [hf.credit] using h.bound p
  · have htaken : f.tokensTaken e p = s.frontend.tokensTaken e p := hcount _ fun _ _ _ => rfl
    have hreturned : f.tokensReturned e p = s.frontend.tokensReturned e p := hcount _ fun _ _ _ => rfl
    simpa only [hf.credit, htaken, hreturned] using h.account p
  · exact ⟨0, by simp [hf.credit], hcount _ fun _ _ _ => by simp [ClientEvent.sendsToken, ToClient.carriesToken]⟩

/-- A result is sent, and the dispatcher's debt repaid if it carries a token. -/
theorem InBalance.result (h : s.InBalance cfg a e) {d : Dispatcher} {b : Address} {w : ResultWrapper}
    {r : Frontend × Bool} (hd : s.dispatcher.Repaid d b w) (hf : ResultSent s.frontend b w r) :
    Returns cfg a e s { dispatcher := d, frontend := r.1 } := by
  cases hf with
  | noClient => exact h.dispatcher fun p => Nat.le_of_add_right_le (hd a p)
  | @sent ref href =>
    have hentry : b = a ↔ ref = e := h.table href
    by_cases htoken : w.returnToken = true
    · simp only [htoken, ↓reduceIte]
      -- a debt to `a` means that its entry has taken up an input, and so has a counter
      have hcredit : ∀ q, ((s.frontend.emit (.resultFor ref b w)).addTokens ref w.producerId 1).credit cfg e q =
          s.frontend.credit cfg e q + if ref = e ∧ w.producerId = q then 1 else 0 := by
        intro q
        by_cases hr : ref = e
        · subst hr
          have hcounter : s.frontend.HasCounter ref w.producerId := by
            have hbound := h.bound w.producerId
            have hpaid := hd a w.producerId
            simp only [hentry.2 rfl, htoken, and_self, ↓reduceIte] at hpaid
            unfold HasCounter
            cases hnone : (s.frontend.clientObjs ref).tokensForProducer w.producerId with
            | some n => rfl
            | none => simp only [credit, hnone, Option.getD_none] at hbound; omega
          exact credit_addTokens hcounter 1
        · rw [credit_addTokens_of_ne (Ne.symm hr), if_neg (fun he => hr he.1)]
          simp
      refine ⟨⟨h.known, h.table, fun q => ?_, fun q => ?_⟩, fun q => ?_⟩
      · have hbound := h.bound q
        have hpaid := hd a q
        rw [credit_emit, hcredit]
        by_cases hq : ref = e ∧ w.producerId = q
        · simp only [hentry, hq.1, hq.2, htoken, and_self, ↓reduceIte] at hpaid ⊢
          omega
        · rw [if_neg hq]
          have hle := Nat.le_of_add_right_le hpaid
          simp only
          omega
      · have haccount := h.account q
        rw [credit_emit, hcredit]
        by_cases hq : ref = e ∧ w.producerId = q
        · simp [tokensTaken, tokensReturned, hq.1, hq.2, htoken] at haccount ⊢
          omega
        · simpa [tokensTaken, tokensReturned, htoken, hq] using haccount
      · refine ⟨if ref = e ∧ w.producerId = q then 1 else 0, by rw [credit_emit, hcredit]; split <;> simp, ?_⟩
        simp [tokensSent, hentry, htoken]
    · simp only [htoken, Bool.false_eq_true, ↓reduceIte]
      refine ⟨⟨h.known, h.table, fun q => ?_, fun q => ?_⟩, fun q => ⟨0, by simp, ?_⟩⟩
      · have hbound := h.bound q
        have hle := Nat.le_of_add_right_le (hd a q)
        simp only [credit_emit]
        omega
      · simpa [tokensTaken, tokensReturned, htoken] using h.account q
      · simp [tokensSent, htoken]

end Server

namespace Interleaved

open Server

variable {act : Action} {c : Context} {pc pc' : SessionPc}

theorem RemovalEffect.returns (h : RemovalEffect s s') (hb : s.InBalance cfg a e) : Returns cfg a e s s' := by
  cases h with
  | quiet h => exact hb.quiet h.toQuiet
  | begunSilently h => cases h; exact hb.refl
  | begun h hf => exact hb.result h.repaid hf
  | finished v => exact hb.dispatcher fun p => by simp

theorem Removals.returns (h : Removals s s') (hb : s.InBalance cfg a e) : Returns cfg a e s s' := by
  induction h with
  | refl => exact hb.refl
  | tail _ h ih => exact ih.trans (h.returns ih.balance)

/-- A session only returns tokens. -/
theorem SessionStep.returns (h : SessionStep act c pc s s' pc') (hb : s.InBalance cfg a e) :
    Returns cfg a e s s' := by
  cases h with
  | read => exact hb.dispatcher fun p => by simp
  | unread => exact hb.dispatcher fun p => by simp
  | forwarded _ h hf => exact hb.result h.repaid hf
  | stopped _ h => exact hb.dispatcher (h.owed_le a)
  | unsent _ h hnext =>
    refine hb.dispatcher fun p => ?_
    rw [Dispatcher.owed_nextSent hnext]
    exact h.owed_le a p
  | fed _ hnext => exact hb.dispatcher fun p => by rw [Dispatcher.owed_nextSent hnext]
  | @inserted s₁ f _ id ar _ h hf =>
    have hr := h.returns hb
    have hins := hr.balance.dispatcher (d := s₁.dispatcher.insertWorker c id ar) fun p => by simp
    exact hr.trans (hins.trans (hins.balance.quiet hf.toQuiet))
  | takeover _ h => exact h.returns hb
  | managed h => exact h.returns hb

theorem Effects.hasCounter (h : Effects c s s') {ref : ClientRef} {p : String} (hc : s.frontend.HasCounter ref p) :
    s'.frontend.HasCounter ref p :=
  h.frontend (P := fun f => f.HasCounter ref p) (fun hq hc => hq.toQuiet.hasCounter ▸ hc)
    (fun hf hc => hc.resultSent hf) hc

end Interleaved

end Gabriel
