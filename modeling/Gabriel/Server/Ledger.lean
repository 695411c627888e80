import Gabriel.Server.InterleavedLemmas
import Gabriel.Server.Owed

/-!
# The ledger of tokens

Every token that the server issues to a client `a` for a producer `p` is backed by one message it received.  The two
halves of the argument are kept apart: the dispatcher does not issue more tokens than it accepted inputs (`Solvent`),
and the consumers accept or refuse every message at most once (`Booked`).
-/

namespace Gabriel

/-! ### What is counted -/

/-- The event issues a token to `a` for `p`. -/
def DispatchEvent.issuesToken (a : Address) (p : String) : DispatchEvent → Bool
  | .sendResult _ a' wrapper _ => a' = a ∧ wrapper.producerId = p ∧ wrapper.returnToken
  | _ => false

/-- The event accepts an input of `a` for `p`. -/
def DispatchEvent.acceptsFrom (a : Address) (p : String) : DispatchEvent → Bool
  | .accepted mp => mp.isFrom a p
  | _ => false

/-- The event is the receipt of a message of `a` for `p` other than a registration. -/
def ClientEvent.receivesFrom (a : Address) (p : String) : ClientEvent → Bool
  | .received _ a' msg => a' = a ∧ msg.isRegistration = false ∧ msg.asInput.producerId = p
  | _ => false

/-- The event is an error reply to `a` for `p`; it carries a token. -/
def ClientEvent.repliesError (a : Address) (p : String) : ClientEvent → Bool
  | .errorReply _ a' wrapper => a' = a ∧ wrapper.producerId = p ∧ wrapper.returnToken
  | _ => false

@[simp] theorem DispatchEvent.issuesToken_iff {a : Address} {p : String} {e : DispatchEvent} :
    e.issuesToken a p = true ↔
      ∃ origin w latest, e = .sendResult origin a w latest ∧ w.producerId = p ∧ w.returnToken = true := by
  cases e <;> simp [issuesToken]

@[simp] theorem DispatchEvent.acceptsFrom_iff {a : Address} {p : String} {e : DispatchEvent} :
    e.acceptsFrom a p = true ↔ ∃ mp : MetadataPayload, e = .accepted mp ∧ mp.isFrom a p := by
  cases e <;> simp [acceptsFrom]

@[simp] theorem ClientEvent.receivesFrom_iff {a : Address} {p : String} {e : ClientEvent} :
    e.receivesFrom a p = true ↔
      ∃ ref msg, e = .received ref a msg ∧ msg.isRegistration = false ∧ msg.asInput.producerId = p := by
  cases e <;> simp [receivesFrom]

@[simp] theorem ClientEvent.repliesError_iff {a : Address} {p : String} {e : ClientEvent} :
    e.repliesError a p = true ↔ ∃ ref w, e = .errorReply ref a w ∧ w.producerId = p ∧ w.returnToken = true := by
  cases e <;> simp [repliesError]

/-- The number of tokens for `p` that calls of `send_result` have issued to `a`. -/
def Dispatcher.tokensIssued (d : Dispatcher) (a : Address) (p : String) : Nat :=
  d.log.countP (DispatchEvent.issuesToken a p)

/-- The number of inputs of `a` for `p` that were accepted. -/
def Dispatcher.acceptedFrom (d : Dispatcher) (a : Address) (p : String) : Nat :=
  d.log.countP (DispatchEvent.acceptsFrom a p)

/-- The number of messages of `a` for `p`, other than registrations, that were taken up. -/
def Frontend.receivedFrom (f : Frontend) (a : Address) (p : String) : Nat :=
  f.log.countP (ClientEvent.receivesFrom a p)

/-- The number of error replies to `a` for `p`. -/
def Frontend.errorReplies (f : Frontend) (a : Address) (p : String) : Nat :=
  f.log.countP (ClientEvent.repliesError a p)

/-! ### The dispatcher -/

namespace Dispatcher

variable {d d' : Dispatcher} {c : Context} {a : Address} {p : String} {mp : MetadataPayload}

section Counts

variable (d a p) (e : DispatchEvent)

@[simp] theorem tokensIssued_emit :
    (d.emit e).tokensIssued a p = d.tokensIssued a p + if e.issuesToken a p then 1 else 0 := by
  simp only [tokensIssued, emit_log, List.countP_append, List.countP_singleton]
@[simp] theorem tokensIssued_enqueue : (d.enqueue mp).tokensIssued a p = d.tokensIssued a p := by
  simp [tokensIssued]
@[simp] theorem tokensIssued_setInFlight : (d.setInFlight mp).tokensIssued a p = d.tokensIssued a p := rfl
@[simp] theorem tokensIssued_beginInput (q : String) (ts : List Context) :
    (d.beginInput q ts).tokensIssued a p = d.tokensIssued a p := by
  simp [tokensIssued]

@[simp] theorem acceptedFrom_emit :
    (d.emit e).acceptedFrom a p = d.acceptedFrom a p + if e.acceptsFrom a p then 1 else 0 := by
  simp only [acceptedFrom, emit_log, List.countP_append, List.countP_singleton]
@[simp] theorem acceptedFrom_enqueue : (d.enqueue mp).acceptedFrom a p = d.acceptedFrom a p := by
  simp [acceptedFrom]
@[simp] theorem acceptedFrom_setInFlight : (d.setInFlight mp).acceptedFrom a p = d.acceptedFrom a p := rfl
@[simp] theorem acceptedFrom_beginInput (q : String) (ts : List Context) :
    (d.beginInput q ts).acceptedFrom a p = d.acceptedFrom a p := by
  simp [acceptedFrom]

end Counts

/-- The tokens issued and those still owed are at most the inputs accepted. -/
def Solvent (d : Dispatcher) (a : Address) (p : String) : Prop :=
  d.tokensIssued a p + d.owed a p ≤ d.acceptedFrom a p

theorem Solvent.nextSent {b : Bool} {r : Dispatcher × Bool} (h : NextSent d c b r) :
    (d.Solvent a p → r.1.Solvent a p) ∧ r.1.acceptedFrom a p = d.acceptedFrom a p := by
  have howed := congrFun₂ (owed_nextSent h) a p
  unfold Solvent
  rw [howed]
  cases h with
  | none => exact ⟨id, rfl⟩
  | dequeued => cases b <;> simp [tokensIssued, acceptedFrom]
  | pickedUp => cases b <;> simp [tokensIssued, acceptedFrom]

theorem Solvent.release {origin : Origin} {token : Bool} {result : Result}
    (htoken : (d.producer mp.producerId).pendingTokenReturn = token)
    (hlatest : (d.producer mp.producerId).latestInputSentToEngine = some mp) (h : d.Solvent a p) :
    (d.release origin mp token result).Solvent a p := by
  unfold Solvent at h ⊢
  have haccepted : (d.release origin mp token result).acceptedFrom a p = d.acceptedFrom a p := by
    simp [acceptedFrom]
  rw [haccepted]
  cases token with
  | true =>
    have howed := @owed_release_token d p a mp origin result htoken hlatest
    have hissued : (d.release origin mp true result).tokensIssued a p =
        d.tokensIssued a p + if mp.isFrom a p then 1 else 0 := by
      simp [tokensIssued]
    omega
  | false =>
    have hissued : (d.release origin mp false result).tokensIssued a p = d.tokensIssued a p := by
      simp [tokensIssued]
    rw [owed_release_of_not_pending htoken, hissued]
    exact h

theorem Solvent.answered {k : Nat} {m : Option Metadata} {result : Result} {ans : Answer}
    (h : Answered d c k result m (d', ans)) :
    (d.Solvent a p → d'.Solvent a p) ∧ d'.acceptedFrom a p = d.acceptedFrom a p := by
  cases h with
  | noMetadata => exact ⟨id, rfl⟩
  | noProducer => exact ⟨id, rfl⟩
  | token hpend hlatest => exact ⟨Solvent.release hpend hlatest, by simp [acceptedFrom]⟩
  | copy => simp [Solvent, tokensIssued, acceptedFrom]
  | next => exact ⟨id, rfl⟩

theorem Solvent.removalBegun {r : Option (Address × ResultWrapper)} (h : RemovalBegun d c (d', r)) :
    (d.Solvent a p → d'.Solvent a p) ∧ d'.acceptedFrom a p = d.acceptedFrom a p := by
  cases h with
  | silent => exact ⟨id, rfl⟩
  | released hcur hlatest => exact ⟨Solvent.release rfl hlatest, by simp [acceptedFrom]⟩

theorem Solvent.dispatchLoop {b : Bool} {order : List Context} {r : Option (List Context)}
    (h : d.dispatchLoop mp b order = (d', r)) :
    (d.Solvent a p → d'.Solvent a p) ∧ d'.acceptedFrom a p = d.acceptedFrom a p := by
  have hlog := dispatchLoop_inv
    (P := fun d₁ => d₁.tokensIssued a p = d.tokensIssued a p ∧ d₁.acceptedFrom a p = d.acceptedFrom a p) h
    ⟨rfl, rfl⟩ (fun _ _ hd => hd) (fun _ _ hd => by cases b <;> simpa [tokensIssued, acceptedFrom] using hd)
  unfold Solvent
  rw [hlog.1, hlog.2, owed_dispatchLoop h]
  exact ⟨id, rfl⟩

theorem Solvent.beginInput (ts : List Context) (h : d.Solvent a p) (q : String) : (d.beginInput q ts).Solvent a p := by
  simpa [Solvent] using h

theorem Solvent.enqueue (h : d.Solvent a p) : ((d.enqueue mp).emit (.accepted mp)).Solvent a p := by
  have howed := @owed_enqueue d p a mp
  have hissued : ((d.enqueue mp).emit (.accepted mp)).tokensIssued a p = d.tokensIssued a p := by
    simp [tokensIssued]
  have haccepted : ((d.enqueue mp).emit (.accepted mp)).acceptedFrom a p =
      d.acceptedFrom a p + if mp.isFrom a p then 1 else 0 := by
    simp [acceptedFrom]
  unfold Solvent at h ⊢
  rw [hissued, haccepted, owed_emit]
  omega

theorem Solvent.setInFlight (h : d.Solvent a p) : ((d.setInFlight mp).emit (.accepted mp)).Solvent a p := by
  have howed := @owed_setInFlight_le d p a mp
  have hissued : ((d.setInFlight mp).emit (.accepted mp)).tokensIssued a p = d.tokensIssued a p := by
    simp [tokensIssued]
  have haccepted : ((d.setInFlight mp).emit (.accepted mp)).acceptedFrom a p =
      d.acceptedFrom a p + if mp.isFrom a p then 1 else 0 := by
    simp [acceptedFrom]
  unfold Solvent at h ⊢
  rw [hissued, haccepted, owed_emit]
  omega

end Dispatcher

/-! ### The frontend -/

namespace Frontend

variable {cfg : Config} {f f' : Frontend} {a : Address} {p : String}

section Counts

variable (f a p) (e : ClientEvent) (ref : ClientRef) (q : String) (mp : MetadataPayload)

@[simp] theorem receivedFrom_emit :
    (f.emit e).receivedFrom a p = f.receivedFrom a p + if e.receivesFrom a p then 1 else 0 := by
  simp only [receivedFrom, emit_log, List.countP_append, List.countP_singleton]
@[simp] theorem receivedFrom_modifyClient (g : Client → Client) :
    (f.modifyClient ref g).receivedFrom a p = f.receivedFrom a p := rfl
@[simp] theorem receivedFrom_addClient (b : Address) : (f.addClient b).receivedFrom a p = f.receivedFrom a p := rfl
@[simp] theorem receivedFrom_initTokens : (f.initTokens cfg ref q).receivedFrom a p = f.receivedFrom a p := by
  simp [receivedFrom]
@[simp] theorem receivedFrom_addTokens (n : Int) : (f.addTokens ref q n).receivedFrom a p = f.receivedFrom a p := rfl
@[simp] theorem receivedFrom_deductToken : (f.deductToken ref mp).receivedFrom a p = f.receivedFrom a p := by
  simp [deductToken]

@[simp] theorem errorReplies_emit :
    (f.emit e).errorReplies a p = f.errorReplies a p + if e.repliesError a p then 1 else 0 := by
  simp only [errorReplies, emit_log, List.countP_append, List.countP_singleton]
@[simp] theorem errorReplies_modifyClient (g : Client → Client) :
    (f.modifyClient ref g).errorReplies a p = f.errorReplies a p := rfl
@[simp] theorem errorReplies_addClient (b : Address) : (f.addClient b).errorReplies a p = f.errorReplies a p := rfl
@[simp] theorem errorReplies_initTokens : (f.initTokens cfg ref q).errorReplies a p = f.errorReplies a p := by
  simp [errorReplies]
@[simp] theorem errorReplies_addTokens (n : Int) : (f.addTokens ref q n).errorReplies a p = f.errorReplies a p := rfl
@[simp] theorem errorReplies_deductToken : (f.deductToken ref mp).errorReplies a p = f.errorReplies a p := by
  simp [deductToken]

end Counts

/-- Neither a message is taken up nor an error reply made. -/
def SameBooks (f f' : Frontend) (a : Address) (p : String) : Prop :=
  f'.receivedFrom a p = f.receivedFrom a p ∧ f'.errorReplies a p = f.errorReplies a p

theorem Quiet.sameBooks (h : Quiet f f') : SameBooks f f' a p :=
  ⟨h.countP_log _ fun _ _ _ => rfl, h.countP_log _ fun _ _ _ => rfl⟩

theorem Replied.sameBooks {ref : ClientRef} {b : Address} {msg : ToClient} (h : Replied ref b msg f f') :
    SameBooks f f' a p :=
  ⟨h.countP_log _ rfl fun _ _ _ => rfl, h.countP_log _ rfl fun _ _ _ => rfl⟩

theorem ResultSent.sameBooks {b : Address} {w : ResultWrapper} {r : Frontend × Bool} (h : ResultSent f b w r) :
    SameBooks f r.1 a p := by
  cases h with
  | noClient => exact ⟨rfl, rfl⟩
  | @sent ref =>
    unfold SameBooks
    split <;> simp

end Frontend

namespace Interleaved

open Frontend

variable {cfg : Config} {s s' : Server} {sys sys' : Sys} {c : Context} {a : Address} {p : String}

/-- The dispatcher stays solvent, and the other counts do not change. -/
def KeepsBooks (a : Address) (p : String) (s s' : Server) : Prop :=
  (s.dispatcher.Solvent a p → s'.dispatcher.Solvent a p) ∧
    s'.dispatcher.acceptedFrom a p = s.dispatcher.acceptedFrom a p ∧ SameBooks s.frontend s'.frontend a p

theorem RemovalEffect.keepsBooks (h : RemovalEffect s s') : KeepsBooks a p s s' := by
  cases h with
  | quiet h => exact ⟨id, rfl, h.sameBooks⟩
  | begunSilently h =>
    exact ⟨(Dispatcher.Solvent.removalBegun h).1, (Dispatcher.Solvent.removalBegun h).2, rfl, rfl⟩
  | begun h hf =>
    exact ⟨(Dispatcher.Solvent.removalBegun h).1, (Dispatcher.Solvent.removalBegun h).2, hf.sameBooks⟩
  | finished v =>
    simp [KeepsBooks, Dispatcher.Solvent, Dispatcher.tokensIssued, Dispatcher.acceptedFrom, SameBooks]

theorem Effect.keepsBooks (h : Effect c s s') : KeepsBooks a p s s' := by
  cases h with
  | removal h => exact h.keepsBooks
  | quiet h => exact ⟨id, rfl, h.sameBooks⟩
  | gotResult => simp [KeepsBooks, Dispatcher.Solvent, SameBooks]
  | answered h => exact ⟨(Dispatcher.Solvent.answered h).1, (Dispatcher.Solvent.answered h).2, rfl, rfl⟩
  | resultSent h => exact ⟨id, rfl, h.sameBooks⟩
  | fed h => exact ⟨(Dispatcher.Solvent.nextSent h).1, (Dispatcher.Solvent.nextSent h).2, rfl, rfl⟩
  | inserted => simp [KeepsBooks, Dispatcher.Solvent, Dispatcher.tokensIssued, Dispatcher.acceptedFrom, SameBooks]

theorem Effects.keepsBooks (h : Effects c s s') : KeepsBooks a p s s' := by
  induction h with
  | refl => exact ⟨id, rfl, rfl, rfl⟩
  | tail _ h ih =>
    obtain ⟨hs, ha, hr, he⟩ := ih
    obtain ⟨hs', ha', hr', he'⟩ := h.keepsBooks (a := a) (p := p)
    exact ⟨hs' ∘ hs, ha'.trans ha, hr'.trans hr, he'.trans he⟩

/-! ### The system -/

/-- The stream is in the dispatch loop of an input of `a` for `p`. -/
def StreamPc.dispatches (a : Address) (p : String) : StreamPc → Bool
  | .dispatching _ mp _ => mp.isFrom a p
  | _ => false

@[simp] theorem StreamPc.dispatches_dispatching (ref : ClientRef) (mp : MetadataPayload) (rest : List Context) :
    (StreamPc.dispatching ref mp rest).dispatches a p = true ↔ mp.isFrom a p := by
  simp [dispatches]

/-- The number of inputs of `a` for `p` that are being dispatched. -/
def Sys.dispatching (sys : Sys) (a : Address) (p : String) : Nat :=
  sys.streams.countP fun stream => stream.pc.dispatches a p

/-- The inputs accepted, refused and being dispatched are at most the messages received. -/
def Sys.Booked (sys : Sys) (a : Address) (p : String) : Prop :=
  sys.server.dispatcher.acceptedFrom a p + sys.server.frontend.errorReplies a p + sys.dispatching a p ≤
    sys.server.frontend.receivedFrom a p

theorem StreamPc.dispatches_of_settled {pc : StreamPc} (h : pc.settled) : pc.dispatches a p = false := by
  cases pc with
  | dispatching => exact h.elim
  | _ => rfl

theorem Sys.dispatching_setStream {i : Nat} {stream : Stream} (hi : sys.streams[i]? = some stream)
    (s : Server) (pc : StreamPc) :
    (sys.setStream i stream (s, pc)).dispatching a p + (if stream.pc.dispatches a p then 1 else 0) =
      sys.dispatching a p + if pc.dispatches a p then 1 else 0 :=
  Sys.countP_setStream hi _ (s, pc)

/-- A message that is taken up and refused is booked as received and as replied to. -/
theorem ErrorReplied.books {f f₀ f' : Frontend} {ref : ClientRef} {b : Address} {msg : FromClient} {code : StatusCode}
    {text : String} (h : ErrorReplied ref b (makeErrorResponse msg code text) f₀ f')
    (hr : f₀.receivedFrom a p = f.receivedFrom a p + if b = a ∧ msg.asInput.producerId = p then 1 else 0)
    (he : f₀.errorReplies a p = f.errorReplies a p) :
    f'.errorReplies a p + f.receivedFrom a p = f.errorReplies a p + f'.receivedFrom a p := by
  obtain ⟨hr', he'⟩ := h.sameBooks (a := a) (p := p)
  rw [hr', he']
  simp [makeErrorResponse, hr, he]
  omega

/-- A message is booked once: as accepted, as refused or as being dispatched. -/
theorem MessageStep.ledger {b : Address} {ref : ClientRef} {msg : FromClient} {pc : StreamPc}
    (h : MessageStep cfg s b ref msg s' pc) :
    (s.dispatcher.Solvent a p → s'.dispatcher.Solvent a p) ∧
      s'.dispatcher.acceptedFrom a p + s'.frontend.errorReplies a p + (if pc.dispatches a p then 1 else 0) +
          s.frontend.receivedFrom a p =
        s.dispatcher.acceptedFrom a p + s.frontend.errorReplies a p + s'.frontend.receivedFrom a p := by
  cases h with
  | registered hmsg hf hpc =>
    obtain ⟨hr, he⟩ := hf.sameBooks (a := a) (p := p)
    simp only [hr, he, StreamPc.dispatches_of_settled hpc]
    simp [hmsg, FromClient.isRegistration]
  | unregistered hmsg _ hf hpc =>
    have hbooks := hf.books (f := s.frontend) (a := a) (p := p) (by simp [hmsg]) (by simp)
    simp only [StreamPc.dispatches_of_settled hpc]
    exact ⟨id, by simp; omega⟩
  | noTokens hmsg _ hf hpc =>
    have hbooks := hf.books (f := s.frontend) (a := a) (p := p) (by simp [hmsg]) (by simp)
    simp only [StreamPc.dispatches_of_settled hpc]
    exact ⟨id, by simp; omega⟩
  | noEngine hmsg hf hpc =>
    have hbooks := hf.books (f := s.frontend) (a := a) (p := p) (by simp [hmsg]) (by simp)
    simp only [StreamPc.dispatches_of_settled hpc]
    exact ⟨fun h => h.beginInput _ _, by simp; omega⟩
  | suspended hmsg _ _ _ hloop =>
    obtain ⟨hs, ha⟩ := Dispatcher.Solvent.dispatchLoop (a := a) (p := p) hloop
    refine ⟨fun h => hs (h.beginInput _ _), ?_⟩
    simp [ha, hmsg, Dispatcher.metadataPayload_isFrom]
    omega
  | enqueued hmsg _ _ _ hloop =>
    obtain ⟨hs, ha⟩ := Dispatcher.Solvent.dispatchLoop (a := a) (p := p) hloop
    refine ⟨fun h => (hs (h.beginInput _ _)).enqueue, ?_⟩
    simp [ha, hmsg, Dispatcher.metadataPayload_isFrom, StreamPc.dispatches]
    omega
  | dropped hmsg _ _ hloop hf hpc =>
    obtain ⟨hs, ha⟩ := Dispatcher.Solvent.dispatchLoop (a := a) (p := p) hloop
    have hbooks := hf.books (f := s.frontend) (a := a) (p := p) (by simp [hmsg]) (by simp)
    refine ⟨fun h => hs (h.beginInput _ _), ?_⟩
    simp only [ha, StreamPc.dispatches_of_settled hpc]
    simp; omega

/-- The end of a dispatch loop turns the input from being dispatched into accepted. -/
theorem ResumeStep.ledger {stream : Stream} {pc : StreamPc} (h : ResumeStep cfg s stream s' pc) :
    (s.dispatcher.Solvent a p → s'.dispatcher.Solvent a p) ∧
      s'.dispatcher.acceptedFrom a p + (if pc.dispatches a p then 1 else 0) ≤
        s.dispatcher.acceptedFrom a p + (if stream.pc.dispatches a p then 1 else 0) ∧
      SameBooks s.frontend s'.frontend a p := by
  cases h with
  | settled hf hpc =>
    simp only [StreamPc.dispatches_of_settled hpc]
    exact ⟨id, by simp, hf.sameBooks⟩
  | suspended hpc hloop =>
    obtain ⟨hs, ha⟩ := Dispatcher.Solvent.dispatchLoop (a := a) (p := p) hloop
    exact ⟨hs, by simp [ha, hpc], rfl, rfl⟩
  | concluded hpc hloop =>
    obtain ⟨hs, ha⟩ := Dispatcher.Solvent.dispatchLoop (a := a) (p := p) hloop
    exact ⟨fun h => (hs h).setInFlight, by simp [ha, hpc, StreamPc.dispatches], by simp [SameBooks]⟩

theorem ledger_step {act : Action} (hstep : step cfg sys act = some sys')
    (h : sys.server.dispatcher.Solvent a p ∧ sys.Booked a p) :
    sys'.server.dispatcher.Solvent a p ∧ sys'.Booked a p := by
  obtain ⟨hsolvent, hbooked⟩ := h
  unfold Sys.Booked at hbooked ⊢
  cases step_cases hstep with
  | openClient => exact ⟨hsolvent, by simpa [Sys.dispatching, StreamPc.dispatches] using hbooked⟩
  | openProducer => exact ⟨hsolvent, by simpa [Sys.dispatching, StreamPc.dispatches] using hbooked⟩
  | openSession => exact ⟨hsolvent, hbooked⟩
  | unknownClient hi hidle =>
    have hd := Sys.dispatching_setStream (a := a) (p := p) hi sys.server (.finished none)
    refine ⟨hsolvent, ?_⟩
    simp [hidle, StreamPc.dispatches] at hd
    rw [hd]
    exact hbooked
  | @message i _ _ _ stream _ s pc hi hidle _ h =>
    have hd := Sys.dispatching_setStream (a := a) (p := p) hi s pc
    obtain ⟨hs, hb⟩ := h.ledger (a := a) (p := p)
    refine ⟨hs hsolvent, ?_⟩
    simp only [Sys.setStream] at hd ⊢
    omega
  | @resumed i _ _ stream s pc hi h =>
    have hd := Sys.dispatching_setStream (a := a) (p := p) hi s pc
    obtain ⟨hs, ha, hr, he⟩ := h.ledger (a := a) (p := p)
    refine ⟨hs hsolvent, ?_⟩
    simp only [Sys.setStream] at hd ⊢
    omega
  | @closed i stream s pc hi _ h =>
    have hd := Sys.dispatching_setStream (a := a) (p := p) hi s pc
    obtain ⟨hs, ha, hr, he⟩ := h.ledger (a := a) (p := p)
    refine ⟨hs hsolvent, ?_⟩
    simp only [Sys.setStream] at hd ⊢
    omega
  | session _ _ h =>
    obtain ⟨hs, ha, hr, he⟩ := h.effects.keepsBooks (a := a) (p := p)
    refine ⟨hs hsolvent, ?_⟩
    simp only [Sys.setSession, Sys.dispatching, ha, hr, he]
    exact hbooked

theorem run_ledger {as : List Action} (h : (machine cfg).Run as sys) (a : Address) (p : String) :
    sys.server.dispatcher.Solvent a p ∧ sys.Booked a p :=
  h.invariant (I := fun sys => sys.server.dispatcher.Solvent a p ∧ sys.Booked a p)
    ⟨Nat.le_refl 0, Nat.le_refl 0⟩ (fun _ _ _ h _ hstep => ledger_step hstep h)

/-- No token is returned twice: the server never issues more tokens to a client for a producer than it received
messages that are not registrations. -/
theorem tokens_issued_le_received {as : List Action} (h : (machine cfg).Run as sys) (a : Address) (p : String) :
    sys.server.dispatcher.tokensIssued a p + sys.server.frontend.errorReplies a p ≤
      sys.server.frontend.receivedFrom a p := by
  obtain ⟨hsolvent, hbooked⟩ := run_ledger h a p
  unfold Dispatcher.Solvent at hsolvent
  unfold Sys.Booked at hbooked
  omega

/-- Two engines work on one frame.  One of them leaves, which returns the token; the other answers.  A second frame
has no engine. -/
theorem tokens_issued_le_received_of_two_frames :
    ∃ as sys, (machine { numTokensPerProducer := 2, sizeForQueues := 2 }).Run as sys ∧
      sys.server.dispatcher.tokensIssued "client" "P" = 1 ∧ sys.server.frontend.errorReplies "client" "P" = 1 ∧
      sys.server.dispatcher.tokensIssued "client" "P" + sys.server.frontend.errorReplies "client" "P" ≤
        sys.server.frontend.receivedFrom "client" "P" := by
  obtain ⟨sys, hrun, h⟩ := Machine.exists_run (M := machine { numTokensPerProducer := 2, sizeForQueues := 2 })
    (fun sys => sys.server.dispatcher.tokensIssued "client" "P" = 1 ∧
      sys.server.frontend.errorReplies "client" "P" = 1)
    [.openSession, .engineMessage 0 (.register "A" false), .openSession, .engineMessage 1 (.register "B" false),
      .openClient "client", .message 0 (.registration {}) [] false, .resumeStream 0 false false,
      .message 0 (.input { frameId := 1, producerId := "P", targetEngineIds := ["A", "B"] }) [0, 1] true,
      .resumeStream 0 false true, .resumeStream 0 false true, .closeSession 0, .engineMessage 1 (.result {}),
      .resumeSession 1 false false, .resumeSession 0 false false, .resumeSession 0 false false,
      .message 0 (.input { frameId := 2, producerId := "P", targetEngineIds := ["A"] }) [] false] (by decide)
  exact ⟨_, sys, hrun, h.1, h.2, tokens_issued_le_received hrun "client" "P"⟩

end Interleaved

end Gabriel
