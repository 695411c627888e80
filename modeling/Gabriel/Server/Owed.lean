import Gabriel.Server.History

/-!
# The tokens the dispatcher owes

The dispatcher owes a client one token for each of its inputs in a queue, and one more if an input of it is in flight
with a pending token.  Accepting an input raises the debt by at most one, returning a token lowers it by one, and
nothing else changes it.  (Taking the in-flight slot of another input forgets a debt, it never creates one.)
-/

namespace Gabriel

/-- The input came from the client `a` and its producer `p`. -/
abbrev MetadataPayload.isFrom (mp : MetadataPayload) (a : Address) (p : String) : Prop :=
  mp.metadata.clientAddress = a ∧ mp.producerId = p

theorem Dispatcher.metadataPayload_isFrom {d : Dispatcher} {input : Input} {b a : Address} {info : AnyProto}
    {p : String} : (d.metadataPayload input b info).isFrom a p ↔ b = a ∧ input.producerId = p := Iff.rfl

namespace Dispatcher

variable {cfg : Config} {d d' : Dispatcher} {c : Context} {p : String} {a : Address} {mp : MetadataPayload}

/-- The number of inputs of `p` with the property `P` that the dispatcher owes a token for: those in the queue, and
the one in flight while its token is pending. -/
def debt (d : Dispatcher) (p : String) (P : MetadataPayload → Bool) : Nat :=
  (d.producer p).inputQueue.countP P +
    if (d.producer p).pendingTokenReturn = true ∧ (d.producer p).latestInputSentToEngine.any P = true then 1 else 0

section Debt

variable {P : MetadataPayload → Bool}

/-- Operations that leave queues, in-flight inputs and flags alone. -/
theorem debt_of_eq (hq : ∀ p, (d'.producer p).inputQueue = (d.producer p).inputQueue)
    (hl : ∀ p, (d'.producer p).latestInputSentToEngine = (d.producer p).latestInputSentToEngine)
    (hp : ∀ p, (d'.producer p).pendingTokenReturn = (d.producer p).pendingTokenReturn) : d'.debt = d.debt := by
  funext p P
  simp only [debt, hq, hl, hp]

@[simp] theorem debt_emit (e : DispatchEvent) : (d.emit e).debt = d.debt := rfl

@[simp] theorem debt_modifyWorker (f : EngineWorker → EngineWorker) : (d.modifyWorker c f).debt = d.debt := rfl

@[simp] theorem debt_sendPayload (b : Bool) : (d.sendPayload c mp b).debt = d.debt :=
  debt_of_eq (by simp) (by simp) (by simp)

@[simp] theorem debt_beginInput (ts : List Context) : (d.beginInput p ts).debt = d.debt :=
  debt_of_eq (by simp) (by simp) (by simp)

@[simp] theorem debt_finishRemoval : (d.finishRemoval c).1.debt = d.debt :=
  debt_of_eq (by simp) (by simp) (by simp)

theorem debt_enqueue : (d.enqueue mp).debt p P = d.debt p P + if mp.producerId = p ∧ P mp then 1 else 0 := by
  simp only [debt, enqueue_inputQueue, enqueue_latestInputSentToEngine, enqueue_pendingTokenReturn]
  by_cases hp : p = mp.producerId
  · subst hp
    by_cases hP : P mp
    · simp [hP]; omega
    · simp [hP]
  · simp [hp, Ne.symm hp]

theorem debt_setInFlight_le :
    (d.setInFlight mp).debt p P ≤ d.debt p P + if mp.producerId = p ∧ P mp then 1 else 0 := by
  simp only [debt, setInFlight_inputQueue, setInFlight_latestInputSentToEngine, setInFlight_pendingTokenReturn]
  by_cases hp : p = mp.producerId
  · subst hp
    by_cases hP : P mp <;> simp [hP]
  · simp [hp, Ne.symm hp]

/-- An input leaves the queue for the in-flight slot. -/
theorem debt_dequeue {rest : List MetadataPayload} (hq : (d.producer p).inputQueue = mp :: rest)
    (hpend : (d.producer p).pendingTokenReturn = false) : (d.dequeue p mp rest).debt = d.debt := by
  funext q P
  simp only [debt, dequeue_inputQueue, dequeue_latestInputSentToEngine, dequeue_pendingTokenReturn]
  by_cases hqp : q = p
  · subst hqp
    simp [hq, hpend, List.countP_cons]
  · simp [hqp]

/-- The token of the in-flight input is returned. -/
theorem debt_release_token {origin : Origin} {result : Result}
    (hpend : (d.producer mp.producerId).pendingTokenReturn = true)
    (hlatest : (d.producer mp.producerId).latestInputSentToEngine = some mp) :
    (d.release origin mp true result).debt p P + (if mp.producerId = p ∧ P mp then 1 else 0) = d.debt p P := by
  simp only [debt, release_inputQueue, release_latestInputSentToEngine, release_pendingTokenReturn]
  by_cases hp : p = mp.producerId
  · subst hp
    by_cases hP : P mp <;> simp [hP, hpend, hlatest]
  · simp [hp, Ne.symm hp]

theorem debt_release_of_not_pending {origin : Origin} {token : Bool} {result : Result}
    (hpend : (d.producer mp.producerId).pendingTokenReturn = false) :
    (d.release origin mp token result).debt = d.debt := by
  funext p P
  simp only [debt, release_inputQueue, release_latestInputSentToEngine, release_pendingTokenReturn]
  by_cases hp : p = mp.producerId
  · subst hp; simp [hpend]
  · simp [hp]

theorem debt_nextSent {b : Bool} {r : Dispatcher × Bool} (h : NextSent d c b r) : r.1.debt = d.debt := by
  cases h with
  | none => simp
  | @dequeued k p mp rest hp hpend hq =>
    have hdeq := debt_dequeue (d := d.modifyWorker c (·.rotateProducers k)) hq hpend
    simpa using hdeq
  | pickedUp => simp

/-- The dispatch loop changes no debt. -/
theorem debt_dispatchLoop {b : Bool} {order : List Context} {r : Option (List Context)}
    (h : d.dispatchLoop mp b order = (d', r)) : d'.debt = d.debt :=
  dispatchLoop_inv (P := fun d₁ => d₁.debt = d.debt) h rfl (fun _ _ h => h) (fun _ _ h => by simpa using h)

end Debt

/-! ### The debt to a client -/

/-- The input of `p` in flight is of the client `a`, and its token is pending. -/
abbrev Pending (d : Dispatcher) (a : Address) (p : String) : Prop :=
  (d.producer p).pendingTokenReturn = true ∧
    (d.producer p).latestInputSentToEngine.map (·.metadata.clientAddress) = some a

/-- The number of tokens that the dispatcher owes to the client `a` for its producer `p`. -/
def owed (d : Dispatcher) (a : Address) (p : String) : Nat :=
  (d.producer p).inputQueue.countP (·.metadata.clientAddress = a) + if d.Pending a p then 1 else 0

theorem owed_eq_debt : d.owed a p = d.debt p fun mp => mp.metadata.clientAddress = a := by
  have hpending : d.Pending a p ↔ (d.producer p).pendingTokenReturn = true ∧
      (d.producer p).latestInputSentToEngine.any (fun mp => mp.metadata.clientAddress = a) = true := by
    unfold Pending
    cases (d.producer p).latestInputSentToEngine <;> simp
  simp only [owed, debt, hpending]

theorem owed_of_debt (h : d'.debt = d.debt) : d'.owed = d.owed := by
  funext a p
  rw [owed_eq_debt, owed_eq_debt, h]

@[simp] theorem owed_emit (e : DispatchEvent) : (d.emit e).owed = d.owed := rfl

@[simp] theorem owed_beginInput (ts : List Context) : (d.beginInput p ts).owed = d.owed :=
  owed_of_debt (debt_beginInput ts)

@[simp] theorem owed_insertWorker (id : String) (ar : Bool) : (d.insertWorker c id ar).owed = d.owed := rfl

@[simp] theorem owed_finishRemoval : (d.finishRemoval c).1.owed = d.owed := owed_of_debt debt_finishRemoval

theorem owed_enqueue : (d.enqueue mp).owed a p = d.owed a p + if mp.isFrom a p then 1 else 0 := by
  rw [owed_eq_debt, owed_eq_debt, debt_enqueue]
  simp [and_comm]

theorem owed_setInFlight_le : (d.setInFlight mp).owed a p ≤ d.owed a p + if mp.isFrom a p then 1 else 0 := by
  have hle := @debt_setInFlight_le d p mp fun mp => mp.metadata.clientAddress = a
  rw [owed_eq_debt, owed_eq_debt]
  simpa [and_comm] using hle

/-- The token of the in-flight input is returned. -/
theorem owed_release_token {origin : Origin} {result : Result}
    (hpend : (d.producer mp.producerId).pendingTokenReturn = true)
    (hlatest : (d.producer mp.producerId).latestInputSentToEngine = some mp) :
    (d.release origin mp true result).owed a p + (if mp.isFrom a p then 1 else 0) = d.owed a p := by
  have hdebt := @debt_release_token d p mp (fun mp => mp.metadata.clientAddress = a) origin result hpend hlatest
  rw [owed_eq_debt, owed_eq_debt, ← hdebt]
  simp [and_comm]

theorem owed_release_of_not_pending {origin : Origin} {token : Bool} {result : Result}
    (hpend : (d.producer mp.producerId).pendingTokenReturn = false) :
    (d.release origin mp token result).owed = d.owed := owed_of_debt (debt_release_of_not_pending hpend)

theorem owed_nextSent {b : Bool} {r : Dispatcher × Bool} (h : NextSent d c b r) : r.1.owed = d.owed :=
  owed_of_debt (debt_nextSent h)

theorem owed_dispatchLoop {b : Bool} {order : List Context} {r : Option (List Context)}
    (h : d.dispatchLoop mp b order = (d', r)) : d'.owed = d.owed := owed_of_debt (debt_dispatchLoop h)

end Dispatcher

end Gabriel
