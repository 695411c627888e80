import Gabriel.Server.DispatcherLemmas

/-!
# Reading the history of the dispatcher

The parts of the dispatcher's log that the results speak of, as lists in the order of the events.
-/

namespace Gabriel

namespace DispatchEvent

@[simp] def acceptedInput : DispatchEvent → Option MetadataPayload
  | accepted mp => some mp
  | _ => none

@[simp] def enqueuedInput (p : String) : DispatchEvent → Option MetadataPayload
  | enqueued q mp => if q = p then some mp else none
  | _ => none

@[simp] def dequeuedInput (p : String) : DispatchEvent → Option MetadataPayload
  | dequeued q mp => if q = p then some mp else none
  | _ => none

@[simp] def writtenInput (c : Context) : DispatchEvent → Option MetadataPayload
  | wrote c' _ mp => if c' = c then some mp else none
  | _ => none

@[simp] def engineResult (c : Context) : DispatchEvent → Option Result
  | gotResult c' result => if c' = c then some result else none
  | _ => none

@[simp] def tokenInput : DispatchEvent → Option MetadataPayload
  | sendResult _ _ wrapper latestInput => if wrapper.returnToken then latestInput else none
  | _ => none

/-- The engine, the number of its result, the address and the message of a result that is forwarded. -/
@[simp] def forwardedResult : DispatchEvent → Option (Context × Nat × Address × ResultWrapper)
  | sendResult (.result c k) address wrapper _ => some (c, k, address, wrapper)
  | _ => none

end DispatchEvent

/-- A call of `send_result`; `latestInput` is the in-flight input of the producer at the call. -/
structure ResultMessage where
  origin : Origin
  address : Address
  wrapper : ResultWrapper
  latestInput : Option MetadataPayload

@[simp] def DispatchEvent.resultMessage : DispatchEvent → Option ResultMessage
  | sendResult origin address wrapper latestInput => some ⟨origin, address, wrapper, latestInput⟩
  | _ => none

/-- The event of the call. -/
def ResultMessage.event (x : ResultMessage) : DispatchEvent :=
  .sendResult x.origin x.address x.wrapper x.latestInput

namespace DispatchLog

variable (l l' : List DispatchEvent) (e : DispatchEvent) (p : String) (c : Context)

/-- The inputs that `process_input_from_client` has accepted. -/
def accepted : List MetadataPayload := l.filterMap DispatchEvent.acceptedInput

/-- The inputs that were put into the queue of `p`. -/
def enqueued : List MetadataPayload := l.filterMap (DispatchEvent.enqueuedInput p)

/-- The inputs that were taken out of the queue of `p`. -/
def dequeued : List MetadataPayload := l.filterMap (DispatchEvent.dequeuedInput p)

/-- The inputs that were written to the stream of `c`. -/
def writtenTo : List MetadataPayload := l.filterMap (DispatchEvent.writtenInput c)

/-- The results that were read from the stream of `c`. -/
def results : List Result := l.filterMap (DispatchEvent.engineResult c)

/-- The inputs whose token was returned by a call of `send_result`. -/
def tokensReturned : List MetadataPayload := l.filterMap DispatchEvent.tokenInput

/-- The results of engines that were forwarded to clients. -/
def forwarded : List (Context × Nat × Address × ResultWrapper) := l.filterMap DispatchEvent.forwardedResult

/-- The calls of `send_result`. -/
def resultMessages : List ResultMessage := l.filterMap DispatchEvent.resultMessage

theorem filterMap_cons_toList {α β : Type} (f : α → Option β) (e : α) (l : List α) :
    (e :: l).filterMap f = (f e).toList ++ l.filterMap f := by
  rw [List.filterMap_cons]
  cases f e <;> rfl

@[simp] theorem accepted_nil : accepted [] = [] := rfl
@[simp] theorem accepted_append : accepted (l ++ l') = accepted l ++ accepted l' := List.filterMap_append
@[simp] theorem accepted_cons : accepted (e :: l) = e.acceptedInput.toList ++ accepted l :=
  filterMap_cons_toList _ e l

@[simp] theorem enqueued_nil : enqueued [] p = [] := rfl
@[simp] theorem enqueued_append : enqueued (l ++ l') p = enqueued l p ++ enqueued l' p := List.filterMap_append
@[simp] theorem enqueued_cons : enqueued (e :: l) p = (e.enqueuedInput p).toList ++ enqueued l p :=
  filterMap_cons_toList _ e l

@[simp] theorem dequeued_nil : dequeued [] p = [] := rfl
@[simp] theorem dequeued_append : dequeued (l ++ l') p = dequeued l p ++ dequeued l' p := List.filterMap_append
@[simp] theorem dequeued_cons : dequeued (e :: l) p = (e.dequeuedInput p).toList ++ dequeued l p :=
  filterMap_cons_toList _ e l

@[simp] theorem writtenTo_nil : writtenTo [] c = [] := rfl
@[simp] theorem writtenTo_append : writtenTo (l ++ l') c = writtenTo l c ++ writtenTo l' c :=
  List.filterMap_append
@[simp] theorem writtenTo_cons : writtenTo (e :: l) c = (e.writtenInput c).toList ++ writtenTo l c :=
  filterMap_cons_toList _ e l

theorem mem_writtenTo {l : List DispatchEvent} {c : Context} {mp : MetadataPayload} :
    mp ∈ writtenTo l c ↔ ∃ msg, .wrote c msg mp ∈ l := by
  simp only [writtenTo, List.mem_filterMap]
  constructor
  · rintro ⟨e, he, hmp⟩
    cases e <;> simp at hmp
    obtain ⟨rfl, rfl⟩ := hmp
    exact ⟨_, he⟩
  · rintro ⟨msg, he⟩
    exact ⟨_, he, by simp⟩

@[simp] theorem results_nil : results [] c = [] := rfl
@[simp] theorem results_append : results (l ++ l') c = results l c ++ results l' c := List.filterMap_append
@[simp] theorem results_cons : results (e :: l) c = (e.engineResult c).toList ++ results l c :=
  filterMap_cons_toList _ e l

@[simp] theorem tokensReturned_nil : tokensReturned [] = [] := rfl
@[simp] theorem tokensReturned_append : tokensReturned (l ++ l') = tokensReturned l ++ tokensReturned l' :=
  List.filterMap_append
@[simp] theorem tokensReturned_cons : tokensReturned (e :: l) = e.tokenInput.toList ++ tokensReturned l :=
  filterMap_cons_toList _ e l

@[simp] theorem forwarded_nil : forwarded [] = [] := rfl
@[simp] theorem forwarded_append : forwarded (l ++ l') = forwarded l ++ forwarded l' := List.filterMap_append
@[simp] theorem forwarded_cons : forwarded (e :: l) = e.forwardedResult.toList ++ forwarded l :=
  filterMap_cons_toList _ e l

@[simp] theorem resultMessages_nil : resultMessages [] = [] := rfl
@[simp] theorem resultMessages_append : resultMessages (l ++ l') = resultMessages l ++ resultMessages l' :=
  List.filterMap_append
@[simp] theorem resultMessages_cons : resultMessages (e :: l) = e.resultMessage.toList ++ resultMessages l :=
  filterMap_cons_toList _ e l

/-- What is read off the calls of `send_result` is read off their events. -/
theorem filterMap_resultMessages {β : Type} {f : DispatchEvent → Option β}
    (hf : ∀ e, e.resultMessage = none → f e = none) :
    (resultMessages l).filterMap (fun x => f x.event) = l.filterMap f := by
  rw [resultMessages, List.filterMap_filterMap]
  congr 1
  funext e
  cases e with
  | sendResult origin a w latest => rfl
  | _ => exact (hf _ rfl).symm

theorem forwarded_eq : forwarded l = (resultMessages l).filterMap fun x => x.event.forwardedResult :=
  (filterMap_resultMessages l fun e he => by cases e <;> simp_all).symm

theorem tokensReturned_eq : tokensReturned l = (resultMessages l).filterMap fun x => x.event.tokenInput :=
  (filterMap_resultMessages l fun e he => by cases e <;> simp_all).symm

variable {l l'} in
theorem tokensReturned_mono (h : l <+: l') : tokensReturned l ⊆ tokensReturned l' := by
  obtain ⟨t, rfl⟩ := h
  simp

end DispatchLog

theorem Dispatcher.resultsRead_eq (d : Dispatcher) (c : Context) :
    d.resultsRead c = (DispatchLog.results d.log c).length := by
  unfold resultsRead DispatchLog.results
  rw [List.length_filterMap_eq_countP]
  congr 1
  funext e
  cases e <;> simp
  split <;> simp_all

theorem Dispatcher.Answered.results {d d' : Dispatcher} {c c' : Context} {k : Nat} {m : Option Metadata}
    {result : Result} {ans : Answer} (h : Answered d c k result m (d', ans)) :
    DispatchLog.results d'.log c' = DispatchLog.results d.log c' := by
  cases h <;> simp

theorem Dispatcher.NextSent.results {d : Dispatcher} {c c' : Context} {b : Bool} {r : Dispatcher × Bool}
    (h : NextSent d c b r) : DispatchLog.results r.1.log c' = DispatchLog.results d.log c' := by
  cases h <;> cases b <;> simp

end Gabriel
