import Gabriel.Server.History
import Gabriel.Server.WellFormed

/-!
# A pending input has an owner

While a producer waits for the token of its in-flight input, some connected engine is working on that input and has
the producer in its deque, so that the engine's next result or its removal returns the token.  The link is kept by
all handlers as long as each runs without another one in between, also when a write raises.

A handler of the engine `c` first settles the input that `c` works on.  From then on no pending input depends on `c`
(`OwnedApartFrom`), and `c` may be given another input or be removed.
-/

namespace Gabriel

open DispatchLog

namespace Dispatcher

variable {cfg : Config} {d d' : Dispatcher} {c : Context} {p : String} {mp : MetadataPayload}

/-- The worker `c` is on the in-flight input of `p`, and will turn to `p` for more. -/
def Owns (d : Dispatcher) (c : Context) (p : String) : Prop :=
  ∃ mp, (d.producer p).latestInputSentToEngine = some mp ∧
    (d.workers c).currentInputMetadata = some mp.metadata ∧ p ∈ (d.workers c).producers

/-- Every pending input is owned by a connected worker that satisfies `A`. -/
def OwnedBy (A : Context → Prop) (d : Dispatcher) : Prop :=
  ∀ p, (d.producer p).pendingTokenReturn = true → ∃ c ∈ d.engineWorkers, A c ∧ d.Owns c p

/-- Every pending input is owned by a connected worker. -/
abbrev Owned : Dispatcher → Prop := OwnedBy fun _ => True

/-- Every pending input is owned by a connected worker other than `c`. -/
abbrev OwnedApartFrom (c : Context) : Dispatcher → Prop := OwnedBy (· ≠ c)

theorem OwnedBy.owned {A : Context → Prop} (h : OwnedBy A d) : Owned d := fun p hp =>
  let ⟨c, hc, _, ho⟩ := h p hp
  ⟨c, hc, trivial, ho⟩

/-- Operations that leave the producers and the busy workers alone. -/
theorem OwnedBy.of_eq {A : Context → Prop} (h : OwnedBy A d)
    (hpend : ∀ p, (d'.producer p).pendingTokenReturn = (d.producer p).pendingTokenReturn)
    (hlatest : ∀ p, (d'.producer p).latestInputSentToEngine = (d.producer p).latestInputSentToEngine)
    (hmem : ∀ c ∈ d.engineWorkers, A c → c ∈ d'.engineWorkers)
    (hworker : ∀ c ∈ d.engineWorkers, A c → ∀ m, (d.workers c).currentInputMetadata = some m →
      (d'.workers c).currentInputMetadata = some m ∧ (d.workers c).producers ⊆ (d'.workers c).producers) :
    OwnedBy A d' := by
  intro p hp
  obtain ⟨c, hc, hA, mp, hl, hcur, hprod⟩ := h p (hpend p ▸ hp)
  obtain ⟨hcur', hsub⟩ := hworker c hc hA _ hcur
  exact ⟨c, hmem c hc hA, hA, mp, hlatest p ▸ hl, hcur', hsub hprod⟩

theorem OwnedBy.emit {A : Context → Prop} (h : OwnedBy A d) (e : DispatchEvent) : OwnedBy A (d.emit e) := h

theorem OwnedBy.beginInput {A : Context → Prop} (h : OwnedBy A d) (targets : List Context) :
    OwnedBy A (d.beginInput p targets) :=
  h.of_eq (by simp) (by simp) (fun _ hc _ => by simpa using hc) (fun c _ _ m hm => by simpa using hm)

/-- Operations on a worker that no owned input depends on. -/
theorem OwnedApartFrom.modifyWorker (h : OwnedApartFrom c d) (f : EngineWorker → EngineWorker) :
    OwnedApartFrom c (d.modifyWorker c f) :=
  h.of_eq (fun _ => rfl) (fun _ => rfl) (fun _ hc _ => hc) fun c' _ hne m hm => by simp [hne, hm]

/-! ### The dispatch loop -/

theorem Owned.addProducer (h : Owned d) : Owned (d.addProducer c p) := by
  refine h.of_eq (fun _ => rfl) (fun _ => rfl) (fun _ hc _ => hc) fun c' _ _ m hm => ?_
  by_cases hc : c' = c
  · subst hc
    exact ⟨by simpa using hm, fun q hq => by simp [hq]⟩
  · simp [hc, hm]

/-- An idle worker owns nothing. -/
theorem Owned.apartFrom_idle (h : Owned d) (hidle : (d.workers c).currentInputMetadata = none) :
    OwnedApartFrom c d := by
  intro p hp
  obtain ⟨c', hc', -, hown⟩ := h p hp
  refine ⟨c', hc', ?_, hown⟩
  rintro rfl
  obtain ⟨mp, -, hcur, -⟩ := hown
  rw [hidle] at hcur
  cases hcur

theorem OwnedApartFrom.sendPayload (h : OwnedApartFrom c d) (b : Bool) : OwnedApartFrom c (d.sendPayload c mp b) :=
  h.of_eq (by simp) (by simp) (fun _ hc _ => by simpa using hc) fun c' _ hne m hm => by simp [hne, hm]

/-- After a write to the worker `c` the input may become the in-flight input of its producer. -/
theorem Owned.setInFlight (h : Owned d) (hc : c ∈ d.engineWorkers)
    (hcur : (d.workers c).currentInputMetadata = some mp.metadata)
    (hprod : mp.producerId ∈ (d.workers c).producers) : Owned (d.setInFlight mp) := by
  intro q hq
  by_cases hqp : q = mp.producerId
  · subst hqp
    exact ⟨c, hc, trivial, mp, by simp, hcur, hprod⟩
  · obtain ⟨c', hc', -, mp', hl, hown⟩ := h q (by simpa [hqp] using hq)
    exact ⟨c', hc', trivial, mp', by simpa [hqp] using hl, hown⟩

/-- The loop keeps every link, and if some target was idle then one of the targets is now on the input. -/
private theorem dispatchAll_owned {raising order : List Context} {r : Option Bool} (h : Owned d)
    (horder : ∀ c ∈ order, c ∈ d.engineWorkers) (hr : d.dispatchAll mp raising order true = (d', r)) :
    Owned d' ∧ (r = some false → ∃ c ∈ d'.engineWorkers,
      (d'.workers c).currentInputMetadata = some mp.metadata ∧ mp.producerId ∈ (d'.workers c).producers) := by
  have hind := dispatchAll_ind
    (P := fun rest d b => Owned d ∧ (∀ c ∈ rest, c ∈ d.engineWorkers) ∧ (b = false → ∃ c ∈ d.engineWorkers,
      (d.workers c).currentInputMetadata = some mp.metadata ∧ mp.producerId ∈ (d.workers c).producers))
    ?_ ?_ ⟨h, horder, by simp⟩ hr
  · cases r with
    | none => exact ⟨(hind.2 rfl).2.choose_spec.1, by simp⟩
    | some b =>
      obtain ⟨hown, -, hsent⟩ := hind.1 b rfl
      exact ⟨hown, fun hb => hsent (Option.some.inj hb)⟩
  · rintro d c rest b ⟨hown, hrest, hsent⟩ -
    refine ⟨hown.addProducer, fun c' hc' => hrest c' (List.mem_cons_of_mem _ hc'), fun hb => ?_⟩
    obtain ⟨c', hc', hcur, hprod⟩ := hsent hb
    refine ⟨c', hc', ?_⟩
    by_cases he : c' = c
    · subst he; simp [hcur]
    · simp [he, hcur, hprod]
  · rintro d c rest b ⟨hown, hrest, -⟩ hidle
    have hapart : OwnedApartFrom c (d.addProducer c mp.producerId) :=
      hown.addProducer.apartFrom_idle (by simpa using hidle)
    refine ⟨(hapart.sendPayload _).owned, fun c' hc' => ?_, fun _ => ?_⟩
    · simpa using hrest c' (List.mem_cons_of_mem _ hc')
    · exact ⟨c, by simpa using hrest c (List.mem_cons_self ..), by simp, by simp⟩

/-! ### Results and removals -/

/-- Once the input that `c` works on is settled, no pending input depends on `c`. -/
private theorem Owned.release (h : Owned d) (hwf : WellFormed d)
    (hcur : (d.workers c).currentInputMetadata = some mp.metadata) (origin : Origin) (token : Bool)
    (result : Result) : OwnedApartFrom c (d.release origin mp token result) := by
  intro q hq
  have hqp : q ≠ mp.producerId := by rintro rfl; simp at hq
  obtain ⟨c', hc', -, mp', hl, hcur', hprod⟩ := h q (by simpa [hqp] using hq)
  refine ⟨c', hc', ?_, mp', by simpa [hqp] using hl, hcur', hprod⟩
  rintro rfl
  -- `c'` would be on an input of `q` and on one of another producer
  rw [hcur] at hcur'
  have hname := hwf.latest_named q mp' hl
  rw [MetadataPayload.producerId, ← Option.some.inj hcur'] at hname
  exact hqp hname.symm

/-- If nothing of what `c` works on is pending, no pending input depends on `c`. -/
private theorem Owned.apartFrom_of_settled (h : Owned d) (hwf : WellFormed d)
    (hno : ∀ mp, (d.workers c).currentInputMetadata = some mp.metadata →
      (d.producer mp.producerId).latestInputSentToEngine = some mp →
      (d.producer mp.producerId).pendingTokenReturn = false) : OwnedApartFrom c d := by
  intro q hq
  obtain ⟨c', hc', -, mp, hl, hcur, hprod⟩ := h q hq
  refine ⟨c', hc', ?_, mp, hl, hcur, hprod⟩
  rintro rfl
  obtain rfl : mp.producerId = q := hwf.latest_named q mp hl
  rw [hno mp hcur hl] at hq
  cases hq

theorem Owned.answered {k : Nat} {result : Result} {m : Metadata} {ans : Answer} (h : Owned d)
    (hwf : WellFormed d) (hcur : (d.workers c).currentInputMetadata = some m)
    (hans : Answered d c k result (some m) (d', ans)) (hgo : ans ≠ .stop) : OwnedApartFrom c d' := by
  have hsettled : ∀ {m : Metadata}, (d.workers c).currentInputMetadata = some m →
      ((d.producer m.producerId).pendingTokenReturn = true →
        ∀ mp, (d.producer m.producerId).latestInputSentToEngine = some mp → mp.metadata ≠ m) →
      OwnedApartFrom c d := by
    intro m hcur hno
    refine h.apartFrom_of_settled hwf fun mp hmp hl => ?_
    obtain rfl : m = mp.metadata := by rw [hcur] at hmp; exact Option.some.inj hmp
    by_contra hpend
    exact hno (by simpa using hpend) mp hl rfl
  cases hans with
  | noProducer => exact absurd rfl hgo
  | token => exact h.release hwf hcur _ _ _
  | copy hno => exact hsettled hcur hno
  | next hno => exact hsettled hcur hno

theorem Owned.beginRemoval (h : Owned d) (hwf : WellFormed d) : OwnedApartFrom c (d.beginRemoval c).1 := by
  generalize hr : d.beginRemoval c = r
  cases beginRemoval_cases hr with
  | silent hno => exact h.apartFrom_of_settled hwf hno
  | released hcur => exact h.release hwf hcur _ _ _

theorem OwnedApartFrom.finishRemoval (h : OwnedApartFrom c d) : Owned (d.finishRemoval c).1 := by
  refine OwnedBy.owned (A := (· ≠ c)) (h.of_eq (by simp) (by simp) (fun c' hc' hne => ?_) (by simp +contextual))
  rcases finishRemoval_engineWorkers d c with he | he <;> rw [he]
  · exact hc'
  · exact (List.mem_erase_of_ne hne).2 hc'

theorem Owned.removeEngineWorker (h : Owned d) (hwf : WellFormed d) : Owned (d.removeEngineWorker c) :=
  (h.beginRemoval hwf).finishRemoval

/-- A worker that nothing depends on is given its next input. -/
theorem OwnedApartFrom.sendNextInput (h : OwnedApartFrom c d) (hc : c ∈ d.engineWorkers) (b : Bool) :
    Owned (d.sendNextInput c b).1 := by
  generalize hr : d.sendNextInput c b = r
  cases sendNextInput_cases hr with
  | none k => exact ((h.modifyWorker _).modifyWorker _).owned
  | pickedUp k => exact ((h.modifyWorker _).sendPayload b).owned
  | @dequeued k p mp rest hp hpend hq =>
    intro q hq'
    by_cases hqp : q = p
    · subst hqp
      exact ⟨c, by simpa using hc, trivial, mp, by simp, by simp, by simpa using hp⟩
    · obtain ⟨c', hc', hne, mp', hl, hcur, hprod⟩ := h q (by simpa [hqp] using hq')
      exact ⟨c', by simpa using hc', trivial, mp', by simpa [hqp] using hl, by simpa [hne] using hcur,
        by simpa [hne] using hprod⟩

theorem OwnedApartFrom.feedEngine (h : OwnedApartFrom c d) (hwf : WellFormed d) (hc : c ∈ d.engineWorkers)
    (raises : Bool) : Owned (d.feedEngine c raises) := by
  have hown := h.sendNextInput hc (!raises)
  have hwf' := hwf.sendNextInput (c := c) (!raises)
  unfold Dispatcher.feedEngine
  split
  · rename_i hr
    rw [hr] at hown hwf'
    split
    · exact hown.removeEngineWorker hwf'
    · exact hown
  · rename_i hr
    rwa [hr] at hown

theorem Owned.openContext (h : Owned d) : Owned d.openContext := h

theorem Owned.insertWorker (h : Owned d) (hc : c ∉ d.engineWorkers) (id : String) (ar : Bool) :
    Owned (d.insertWorker c id ar) := by
  refine h.of_eq (by simp) (by simp) (fun c' hc' _ => by simp [hc']) fun c' hc' _ m hm => ?_
  have hne : c' ≠ c := fun he => hc (he ▸ hc')
  simp [hne, hm]

/-! ### Steps and runs -/

theorem step_owned {a : Action} (hwf : WellFormed d) (h : Owned d) (hstep : step cfg d a = some d') :
    Owned d' := by
  cases step_cases hstep with
  | noTarget => exact h.beginInput _
  | raised hperm hne he =>
    refine (dispatchAll_owned (h.beginInput _) (fun c hc => ?_) he).1
    simpa using (mem_targetEngines.1 (hperm.mem_iff.1 hc)).1
  | @dispatched input address info order raising d₁ b hperm hne he =>
    obtain ⟨hown, hsent⟩ := dispatchAll_owned (h.beginInput _)
      (fun c hc => by simpa using (mem_targetEngines.1 (hperm.mem_iff.1 hc)).1) he
    generalize hr : d₁.concludeInput cfg (d.metadataPayload input address info) b = r
    cases concludeInput_cases hr with
    | dropped => exact hown
    | inFlight =>
      obtain ⟨c, hc, hcur, hprod⟩ := hsent rfl
      exact hown.setInFlight hc hcur hprod
    | enqueued => exact hown.of_eq (by simp) (by simp) (fun _ hc _ => hc) (fun _ _ _ m hm => ⟨hm, fun _ => id⟩)
  | registered old hold =>
    cases old with
    | none => exact h.openContext.insertWorker hwf.nextContext_not_mem _ _
    | some v =>
      have hremoved : Owned (d.openContext.removeEngineWorker v) := h.openContext.removeEngineWorker hwf.openContext
      exact hremoved.insertWorker hwf.nextContext_not_mem_removed _ _
  | ignored => exact h
  | unregistered => exact h.emit _
  | unanswered => exact h.emit _
  | answered hc hm hans hgo =>
    have hapart := Owned.answered (d := d.emit _) h (hwf.emit _) hm hans hgo
    exact hapart.feedEngine ((hwf.emit _).answered hans) (by rw [hans.engineWorkers]; exact hc) _
  | removed => exact h.removeEngineWorker hwf

/-- The next result of an engine that is on a pending input returns its token. -/
theorem token_of_result {msg : FromEngine} {raises : Bool} (hwf : WellFormed d)
    (hpend : (d.producer p).pendingTokenReturn = true) (hlatest : (d.producer p).latestInputSentToEngine = some mp)
    (hc : c ∈ d.engineWorkers) (hcur : (d.workers c).currentInputMetadata = some mp.metadata)
    (hmsg : ∀ id ar, msg ≠ .register id ar) (hstep : step cfg d (.fromEngine c msg raises) = some d') :
    mp ∈ tokensReturned d'.log := by
  obtain rfl : mp.producerId = p := hwf.latest_named p mp hlatest
  cases step_cases hstep with
  | ignored => exact absurd rfl (hmsg _ _)
  | unregistered hc' => exact absurd hc hc'
  | unanswered _ hm =>
    have hinfo := hm _ hcur
    rw [producerInfos_of_latest hlatest] at hinfo
    cases hinfo
  | answered _ hm hans =>
    rw [hcur] at hm
    rw [hans.eq_release (Option.some.inj hm).symm hpend hlatest]
    exact tokensReturned_mono (feedEngine_log_grows _) (by simp)

/-- The removal of an engine that is on a pending input returns its token. -/
theorem token_of_removal (hwf : WellFormed d) (hpend : (d.producer p).pendingTokenReturn = true)
    (hlatest : (d.producer p).latestInputSentToEngine = some mp)
    (hcur : (d.workers c).currentInputMetadata = some mp.metadata) (hstep : step cfg d (.remove c) = some d') :
    mp ∈ tokensReturned d'.log := by
  obtain rfl : mp.producerId = p := hwf.latest_named p mp hlatest
  cases step_cases hstep with
  | removed hc =>
    rw [removeEngineWorker_log]
    generalize hr : d.beginRemoval c = r
    cases beginRemoval_cases hr with
    | silent hno =>
      rw [hno mp hcur hlatest] at hpend
      cases hpend
    | @released mp' hcur' hlatest' =>
      have hname : mp'.producerId = mp.producerId := by
        rw [hcur] at hcur'
        exact (congrArg Metadata.producerId (Option.some.inj hcur')).symm
      obtain rfl : mp' = mp := by rw [hname, hlatest] at hlatest'; exact (Option.some.inj hlatest').symm
      simp [hpend]

theorem run_owned {G : Dispatcher → Action → Prop} {as : List Action} (h : (machine cfg).RunWhere G as d) :
    Owned d :=
  h.invariant_of (J := WellFormed) run_wellFormed (fun p hp => by simp [machine, producer] at hp)
    fun _ _ _ hwf hI _ hstep => step_owned hwf hI hstep

end Dispatcher

namespace Atomic

variable {cfg : Config} {s : Server}

/-- In every state of the server with atomic handlers, a producer that waits for a token has an in-flight input,
some connected engine is on it and has the producer in its deque, and the next result of that engine or its
disconnection returns the token. -/
theorem pending_input_has_owner {as : List Action} (h : (machine cfg).Run as s) {p : String}
    (hpend : (s.dispatcher.producer p).pendingTokenReturn = true) :
    ∃ mp, (s.dispatcher.producer p).latestInputSentToEngine = some mp ∧ ∃ c ∈ s.dispatcher.engineWorkers,
      (s.dispatcher.workers c).currentInputMetadata = some mp.metadata ∧ p ∈ (s.dispatcher.workers c).producers ∧
      (∀ msg raises s', (∀ id ar, msg ≠ .register id ar) → step cfg s (.fromEngine c msg raises) = some s' →
        mp ∈ tokensReturned s'.dispatcher.log) ∧
      (∀ s', step cfg s (.disconnectEngine c) = some s' → mp ∈ tokensReturned s'.dispatcher.log) := by
  obtain ⟨as', hrun⟩ : ∃ as', (Dispatcher.machine cfg).Run as' s.dispatcher :=
    run_dispatcher (fun _ _ _ _ _ => trivial) h
  have hwf := Dispatcher.run_wellFormed hrun
  obtain ⟨c, hc, -, mp, hl, hcur, hprod⟩ := Dispatcher.run_owned hrun p hpend
  refine ⟨mp, hl, c, hc, hcur, hprod, fun msg raises s' hmsg hstep => ?_, fun s' hstep => ?_⟩
  · exact Dispatcher.token_of_result hwf hpend hl hc hcur hmsg (step_dispatcher hstep)
  · exact Dispatcher.token_of_removal hwf hpend hl hcur (step_dispatcher hstep)

/-- A client sends one frame to the only engine. -/
theorem pending_input_has_owner_of_frame :
    ∃ as s, (machine { numTokensPerProducer := 2, sizeForQueues := 1 }).Run as s ∧
      (s.dispatcher.producer "P").pendingTokenReturn = true ∧ ∃ c ∈ s.dispatcher.engineWorkers,
        "P" ∈ (s.dispatcher.workers c).producers := by
  obtain ⟨s, hrun, hpend⟩ := Machine.exists_run
    (M := machine { numTokensPerProducer := 2, sizeForQueues := 1 })
    (fun s => (s.dispatcher.producer "P").pendingTokenReturn = true)
    [.connect "client", .registerEngine "A" false, .fromClient "client" (.registration {}) [] [],
      .fromClient "client" (.input { frameId := 1, producerId := "P", targetEngineIds := ["A"] }) [0] []] (by decide)
  obtain ⟨_, -, c, hc, -, hprod, -⟩ := pending_input_has_owner hrun hpend
  exact ⟨_, s, hrun, hpend, c, hc, hprod⟩

end Atomic

end Gabriel
