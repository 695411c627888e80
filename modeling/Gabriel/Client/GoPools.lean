import Gabriel.Client.GoLemmas

/-!
# The token pools of the Go client

The tokens that a producer handler and its outstanding inputs hold are from the pool that the handler has fetched
(`Producer.Accounted`), and a handler in its loop has fetched one (`State.Ready`); both hold in every run.  Results
return tokens to the pool that `client.tokenPool` has, which is the same one as long as no `Registered` message puts
another pool in its place (`State.keepsPool`).  Then every token is returned to the pool that it was taken from, and
no `Release` panics.
-/

namespace Gabriel.GoClient

/-! ### The tokens of the fetched pool -/

namespace Producer

variable {P P' : Producer}

/-- The handler and the outstanding inputs have tokens of the pool that the handler has fetched. -/
structure Accounted (P : Producer) : Prop where
  starting : P.pc.starting = true → P.tokenPool = none
  unfetched : P.tokenPool = none → P.pc.held = 0 ∧ P.outstanding = [] ∧ P.returned = []
  fetched : ∀ i, P.tokenPool = some i → (∀ sent ∈ P.outstanding, sent.pool = i) ∧
    ∃ pool, P.pools[i]? = some pool ∧ P.pc.held + P.outstanding.length ≤ pool.acquired

namespace Accounted

theorem of_fetched {i : Nat} {pool : TokenPool} (hpc : P.pc.starting = false) (htoken : P.tokenPool = some i)
    (hsent : ∀ sent ∈ P.outstanding, sent.pool = i) (hpool : P.pools[i]? = some pool)
    (hle : P.pc.held + P.outstanding.length ≤ pool.acquired) : P.Accounted := by
  refine ⟨fun hs => ?_, fun hnone => ?_, fun j hj => ?_⟩
  · exact absurd hs (by simp [hpc])
  · exact nomatch htoken.symm.trans hnone
  · obtain rfl : i = j := Option.some.inj (htoken.symm.trans hj)
    exact ⟨hsent, pool, hpool, hle⟩

theorem acquired_le (h : P.Accounted) {i : Nat} {pool : TokenPool} (htoken : P.tokenPool = some i)
    (hpool : P.pools[i]? = some pool) : P.pc.held + P.outstanding.length ≤ pool.acquired := by
  obtain ⟨-, pool', hpool', hle⟩ := h.fetched i htoken
  obtain rfl : pool = pool' := Option.some.inj (hpool.symm.trans hpool')
  exact hle

/-- The pool of an outstanding input is the fetched one. -/
theorem tokenPool_of_sent (h : P.Accounted) {sent : Sent} (hsent : sent ∈ P.outstanding) :
    P.tokenPool = some sent.pool := by
  cases htoken : P.tokenPool with
  | none =>
    rw [(h.unfetched htoken).2.1] at hsent
    cases hsent
  | some i => rw [(h.fetched i htoken).1 sent hsent]

theorem moved {view : View} {pc : HandlerPc} {frameId : Int} (h : P.Accounted) (hmoves : Moves view P.pc pc) :
    Accounted { P with
      pc := pc
      frameId := frameId } := by
  have hheld := hmoves.held_le
  refine ⟨fun hs => h.starting (hmoves.starting hs), fun htoken => ?_, fun i htoken => ?_⟩
  · obtain ⟨hzero, hrest⟩ := h.unfetched htoken
    exact ⟨by simp only; omega, hrest⟩
  · obtain ⟨hsent, pool, hpool, hle⟩ := h.fetched i htoken
    exact ⟨hsent, pool, hpool, by simp only; omega⟩

theorem fetch (h : P.Accounted) (hpc : P.pc = .fetching) :
    Accounted { P with
      pc := .looping
      tokenPool := P.current
      frameId := 1 } := by
  obtain ⟨-, houtstanding, hreturned⟩ := h.unfetched (h.starting (by rw [hpc]; rfl))
  refine ⟨fun hs => (nomatch hs), fun _ => ⟨rfl, houtstanding, hreturned⟩, fun i hi => ?_⟩
  have hlen := current_eq_some.1 hi
  simp only [houtstanding, HandlerPc.held, List.length_nil]
  exact ⟨by simp, P.pools[i], List.getElem?_eq_getElem (by omega), Nat.zero_le _⟩

theorem getToken {i : Nat} (h : P.Accounted) (htoken : P.tokenPool = some i)
    (hget : P.getToken i = some P') : Accounted { P' with pc := .producing } := by
  obtain ⟨pool, hpool, rfl⟩ := getToken_cases hget
  have hle := h.acquired_le htoken hpool
  have hlt : i < P.pools.length := (List.getElem?_eq_some_iff.1 hpool).1
  refine of_fetched rfl htoken (h.fetched i htoken).1 (List.getElem?_set_self hlt) ?_
  simp only [HandlerPc.held]
  omega

theorem skip {i : Nat} (h : P.Accounted) (hpc : P.pc = .producing) (htoken : P.tokenPool = some i)
    (hret : P.returnToken i i = some P') : Accounted { P' with pc := .looping } := by
  obtain ⟨pool, hpool, rfl⟩ := returnToken_cases hret
  have hle := h.acquired_le htoken hpool
  have hlt : i < P.pools.length := (List.getElem?_eq_some_iff.1 hpool).1
  refine of_fetched rfl htoken (h.fetched i htoken).1 (List.getElem?_set_self hlt) ?_
  simp only [hpc, HandlerPc.held] at hle ⊢
  omega

theorem send {i : Nat} {input : Input} {sent : Sent} {frameId : Int} (h : P.Accounted) (hpc : P.pc = .producing)
    (htoken : P.tokenPool = some i) (hsent : sent.pool = i) :
    Accounted { P with
      pc := .sending input
      frameId := frameId
      outstanding := P.outstanding ++ [sent] } := by
  obtain ⟨hall, pool, hpool, hle⟩ := h.fetched i htoken
  refine of_fetched rfl htoken ?_ hpool ?_
  · intro x hx
    rcases List.mem_append.1 hx with hx | hx
    · exact hall x hx
    · rw [List.mem_singleton.1 hx, hsent]
  · simp only [hpc, HandlerPc.held, List.length_append, List.length_singleton] at hle ⊢
    omega

theorem handler {view : View} {o : Outcome} (h : P.Accounted) (hstep : HandlerStep view P P' o) : P'.Accounted := by
  cases hstep with
  | moved hmoves _ => exact h.moved hmoves
  | fetched hpc => exact h.fetch hpc
  | acquired _ htoken hget => exact h.getToken htoken hget
  | skipped hpc htoken hret => exact h.skip hpc htoken hret
  | sent hpc htoken => exact h.send hpc htoken rfl
  | nilPool _ _ => exact h
  | overReleased _ _ _ => exact h

theorem newPool (h : P.Accounted) (n : Nat) : (P.newPool n).Accounted := by
  refine ⟨h.starting, h.unfetched, fun i htoken => ?_⟩
  obtain ⟨hsent, pool, hpool, hle⟩ := h.fetched i htoken
  have hlt : i < P.pools.length := (List.getElem?_eq_some_iff.1 hpool).1
  exact ⟨hsent, pool, (List.getElem?_append_left hlt).trans hpool, hle⟩

/-- Whichever pool the answer of an input is returned to, the fetched one has the tokens of the others. -/
theorem answered {sent : Sent} {i : Nat} (h : P.Accounted) (hsent : sent ∈ P.outstanding)
    (hret : P.returnToken sent.pool i = some P') :
    Accounted { P' with outstanding := P'.outstanding.erase sent } := by
  obtain ⟨pool, hpool, rfl⟩ := returnToken_cases hret
  have htoken := h.tokenPool_of_sent hsent
  obtain ⟨hall, pool', hpool', hle⟩ := h.fetched _ htoken
  have hpc : P.pc.starting = false :=
    Bool.eq_false_of_not_eq_true fun hs => nomatch htoken.symm.trans (h.starting hs)
  have hall' : ∀ x ∈ P.outstanding.erase sent, x.pool = sent.pool := fun x hx => hall x (List.mem_of_mem_erase hx)
  have hlen := List.length_erase_of_mem hsent
  have hpos := List.length_pos_of_mem hsent
  by_cases hi : i = sent.pool
  · subst hi
    obtain rfl : pool = pool' := Option.some.inj (hpool.symm.trans hpool')
    have hlt : sent.pool < P.pools.length := (List.getElem?_eq_some_iff.1 hpool).1
    refine of_fetched hpc htoken hall' (List.getElem?_set_self hlt) ?_
    simp only [hlen]
    omega
  · refine of_fetched hpc htoken hall' ((List.getElem?_set_ne hi).trans hpool') ?_
    simp only [hlen]
    omega

theorem restart (P : Producer) : P.restart.Accounted :=
  ⟨fun _ => rfl, fun _ => ⟨rfl, rfl, rfl⟩, fun _ h => (nomatch h)⟩

theorem change {s : State} {a : Action} {name : String} (h : (s.producers name).Accounted)
    (hchange : s.Change a name P) : P.Accounted := by
  cases hchange with
  | same => exact h
  | handler _ hstep => exact h.handler hstep
  | newPool _ _ => exact h.newPool _
  | answered _ hsent hret => exact h.answered hsent hret
  | user _ _ => exact ⟨h.starting, h.unfetched, h.fetched⟩
  | restarted => exact restart _

end Accounted

end Producer

theorem run_accounted {settings : Settings} {G : State → Action → Prop} {as : List Action} {s : State}
    (h : settings.machine.RunWhere G as s) : ∀ name, (s.producers name).Accounted := by
  refine h.invariant (I := fun s => ∀ name, (s.producers name).Accounted)
    (fun name => .restart { targetEngineIds := settings.targets name }) fun s a s' hs _ hstep name => ?_
  exact (hs name).change ((State.step_cases hstep).2.change name)

/-! ### The fetched pools -/

namespace State

variable {s s' : State} {a : Action} {name : String} {P : Producer}

/-- When the client is connected there is a pool for every producer, and the handlers wait for that. -/
structure Ready (s : State) : Prop where
  connected : s.connected = true → ∀ name ∈ s.names, (s.producers name).pools ≠ []
  registering : ∀ todo, s.consumer = .registering todo →
    ∀ name ∈ s.names, name ∉ todo → (s.producers name).pools ≠ []
  started : ∀ name, (s.producers name).pc ≠ .waiting → s.connected = true
  inLoop : ∀ name, (s.producers name).pc.inLoop = true → (s.producers name).tokenPool ≠ none

namespace Change

theorem pools_ne_nil (h : Change s a name P) (hne : (s.producers name).pools ≠ []) : P.pools ≠ [] := by
  cases h with
  | same => exact hne
  | handler _ hstep =>
    cases hstep with
    | acquired _ _ hget =>
      obtain ⟨_, _, rfl⟩ := Producer.getToken_cases hget
      simpa using hne
    | skipped _ _ hret =>
      obtain ⟨_, _, rfl⟩ := Producer.returnToken_cases hret
      simpa using hne
    | moved | fetched | sent | nilPool | overReleased => exact hne
  | newPool _ _ => simp [Producer.newPool]
  | answered _ _ hret =>
    obtain ⟨_, _, rfl⟩ := Producer.returnToken_cases hret
    simpa using hne
  | user _ _ => exact hne
  | restarted => exact hne

/-- A handler goes on when the client is connected, and has a pool in its loop. -/
theorem started (h : Change s a name P) (hs : s.Ready) :
    (P.pc ≠ .waiting → s.connected = true) ∧ (P.pc.inLoop = true → P.tokenPool ≠ none) := by
  have hstarted := hs.started name
  have hloop := hs.inLoop name
  cases h with
  | same => exact ⟨hstarted, hloop⟩
  | handler hname hstep =>
    cases hstep with
    | moved hmoves _ =>
      refine ⟨fun _ => ?_, fun hin => hloop (hmoves.inLoop hin)⟩
      by_cases hpc : (s.producers name).pc = .waiting
      · exact hmoves.connected_of_waiting hpc
      · exact hstarted hpc
    | fetched hpc =>
      have hconnected := hstarted (by simp [hpc])
      refine ⟨fun _ => hconnected, fun _ hnone => ?_⟩
      exact hs.connected hconnected name hname (Producer.current_eq_none.1 hnone)
    | acquired hpc htoken hget =>
      obtain ⟨_, _, rfl⟩ := Producer.getToken_cases hget
      exact ⟨fun _ => hstarted (by simp [hpc]), fun _ => by simp [htoken]⟩
    | skipped hpc htoken hret =>
      obtain ⟨_, _, rfl⟩ := Producer.returnToken_cases hret
      exact ⟨fun _ => hstarted (by simp [hpc]), fun _ => by simp [htoken]⟩
    | sent hpc htoken => exact ⟨fun _ => hstarted (by simp [hpc]), fun _ => by simp [htoken]⟩
    | nilPool | overReleased => exact ⟨hstarted, hloop⟩
  | newPool _ _ => exact ⟨hstarted, hloop⟩
  | answered _ _ hret =>
    obtain ⟨_, _, rfl⟩ := Producer.returnToken_cases hret
    exact ⟨hstarted, hloop⟩
  | user _ _ => exact ⟨hstarted, hloop⟩
  | restarted => exact ⟨fun hne => absurd rfl hne, fun hin => (nomatch hin)⟩

end Change

namespace Ready

/-- A step that does not take part in the registration. -/
private theorem frame (h : s.Ready) (hstep : Step s a s') (hnames : s'.names = s.names)
    (hconnected : s'.connected = s.connected)
    (hconsumer : ∀ todo, s'.consumer = .registering todo → s.consumer = .registering todo) : s'.Ready := by
  refine ⟨fun hc name hname => ?_, fun todo hpc name hname hn => ?_, fun name hne => ?_, fun name => ?_⟩
  · exact (hstep.change name).pools_ne_nil (h.connected (hconnected ▸ hc) name (hnames ▸ hname))
  · exact (hstep.change name).pools_ne_nil (h.registering todo (hconsumer todo hpc) name (hnames ▸ hname) hn)
  · exact hconnected ▸ ((hstep.change name).started h).1 hne
  · exact ((hstep.change name).started h).2

theorem step (h : s.Ready) (hstep : Step s a s') : s'.Ready := by
  have hframe := h.frame hstep
  have hchange := hstep.change
  cases hstep with
  | handler | registration => exact hframe (by simp) (by simp) (by simp)
  | user ev => exact hframe (by cases ev <;> rfl) (by cases ev <;> rfl) (by cases ev <;> exact fun _ hpc => hpc)
  | outside => exact hframe rfl rfl fun _ hpc => hpc
  | overReleased => exact hframe rfl rfl fun _ hpc => hpc
  | checked => exact hframe rfl rfl fun todo hpc => by simp only at hpc; split at hpc <;> cases hpc
  | read | returned => exact hframe rfl rfl fun todo hpc => (nomatch hpc)
  | recvError => exact hframe (by simp) (by simp) fun todo hpc => (by simp at hpc)
  | registered =>
    refine ⟨h.connected, fun todo hpc name hname hn => ?_, h.started, h.inLoop⟩
    cases hpc
    exact absurd hname hn
  | @newPool name todo hlaunch hpc =>
    refine ⟨fun hc name' hname => (hchange name').pools_ne_nil (h.connected hc name' hname),
      fun todo' hpc' name' hname hn => ?_, fun name' hne => ((hchange name').started h).1 hne,
      fun name' => ((hchange name').started h).2⟩
    cases hpc'
    by_cases heq : name' = name
    · subst heq
      simp [Producer.newPool]
    · exact (hchange name').pools_ne_nil (h.registering _ hpc name' hname (by simp [heq, hn]))
  | connected hlaunch hpc =>
    exact ⟨fun _ name hname => h.registering [] hpc name hname (by simp), fun todo hpc => (nomatch hpc),
      fun _ _ => rfl, h.inLoop⟩
  | newSession =>
    exact ⟨fun hc => (nomatch hc), fun todo hpc => (nomatch hpc), fun name hne => absurd rfl hne,
      fun name hin => (nomatch hin)⟩

end Ready

end State

theorem run_ready {settings : Settings} {G : State → Action → Prop} {as : List Action} {s : State}
    (h : settings.machine.RunWhere G as s) : s.Ready := by
  refine h.invariant (I := State.Ready) ?_ fun s a s' hs _ hstep => hs.step (State.step_cases hstep).2
  exact ⟨fun hc => (nomatch hc), fun todo hpc => (nomatch hpc), fun name hne => absurd rfl hne,
    fun name hin => (nomatch hin)⟩

/-- No step of a producer handler is a panic. -/
theorem HandlerStep.ne_panic {view : View} {P P' : Producer} {o : Outcome} (h : HandlerStep view P P' o)
    (haccounted : P.Accounted) (hloop : P.pc.inLoop = true → P.tokenPool ≠ none) : o ≠ .panic := by
  cases h with
  | moved _ ho => exact ho
  | nilPool hpc htoken => exact absurd htoken (hloop hpc)
  | overReleased hpc htoken hret =>
    obtain ⟨-, pool, hpool, hle⟩ := haccounted.fetched _ htoken
    rw [hpc] at hle
    exact absurd hret (Producer.returnToken_ne_none hpool (by simp only [HandlerPc.held] at hle; omega))
  | fetched | acquired | skipped | sent => simp

/-! ### The pool of the map -/

namespace Producer

variable {P P' : Producer}

theorem current_congr (h : P.pools.length = P'.pools.length) : P.current = P'.current := by
  simp only [current, h]

/-- The fetched pool is the one that `client.tokenPool` has, and all tokens were taken from it and returned to it. -/
structure Matched (P : Producer) : Prop where
  current : ∀ i, P.tokenPool = some i → P.current = some i
  returned : ∀ r ∈ P.returned, r.released = r.acquired ∧ P.tokenPool = some r.acquired

namespace Matched

/-- A token is returned to the fetched pool. -/
private theorem returnToken {i : Nat} {pc : HandlerPc} {outstanding : List Sent} (h : P.Matched)
    (htoken : P.tokenPool = some i) (hret : P.returnToken i i = some P') :
    Matched { P' with
      pc := pc
      outstanding := outstanding } := by
  obtain ⟨pool, hpool, rfl⟩ := returnToken_cases hret
  refine ⟨fun j hj => (current_congr (by simp)).trans (h.current j hj), fun r hr => ?_⟩
  rcases List.mem_append.1 hr with hr | hr
  · exact h.returned r hr
  · cases List.mem_singleton.1 hr
    exact ⟨rfl, htoken⟩

theorem handler {view : View} {o : Outcome} (h : P.Matched) (haccounted : P.Accounted)
    (hstep : HandlerStep view P P' o) : P'.Matched := by
  cases hstep with
  | moved _ _ => exact ⟨h.current, h.returned⟩
  | fetched hpc =>
    obtain ⟨-, -, hreturned⟩ := haccounted.unfetched (haccounted.starting (by rw [hpc]; rfl))
    exact ⟨fun i hi => hi, by simp [hreturned]⟩
  | acquired _ htoken hget =>
    obtain ⟨pool, hpool, rfl⟩ := getToken_cases hget
    exact ⟨fun j hj => (current_congr (by simp)).trans (h.current j hj), h.returned⟩
  | skipped _ htoken hret => exact h.returnToken htoken hret
  | sent _ _ => exact ⟨h.current, h.returned⟩
  | nilPool | overReleased => exact h

end Matched

end Producer

/-- The producer that `processRegistered` makes the next pool for. -/
def ConsumerPc.next : ConsumerPc → Option String
  | .registering (name :: _) => some name
  | _ => none

/-- `processRegistered` makes a pool for a producer only while the handler of the producer has not fetched one. -/
def State.keepsPool (s : State) : Action → Prop
  | .consumer .register => ∀ name ∈ s.consumer.next, (s.producers name).tokenPool = none
  | _ => True

instance (s : State) : DecidablePred s.keepsPool
  | .consumer .register => inferInstanceAs (Decidable (∀ name ∈ s.consumer.next, _))
  | .consumer .checkContext | .consumer (.receive _) | .consumer (.recvError _) | .handler _ _ | .registration _
  | .user _ | .launch _ => .isTrue trivial

namespace State

variable {s s' : State} {a : Action} {name : String} {P : Producer}

theorem Change.matched (h : Change s a name P) (hkeeps : s.keepsPool a) (haccounted : (s.producers name).Accounted)
    (hs : (s.producers name).Matched) : P.Matched := by
  cases h with
  | same => exact hs
  | handler _ hstep => exact hs.handler haccounted hstep
  | newPool ha hpc =>
    subst ha
    have hnone : (s.producers name).tokenPool = none := hkeeps name (by simp [hpc, ConsumerPc.next])
    exact ⟨fun i hi => (nomatch hnone.symm.trans hi), hs.returned⟩
  | answered hcurrent hsent hret =>
    have htoken := haccounted.tokenPool_of_sent hsent
    obtain rfl := Option.some.inj ((hs.current _ htoken).symm.trans hcurrent)
    exact hs.returnToken htoken hret
  | user _ _ => exact ⟨hs.current, hs.returned⟩
  | restarted => exact ⟨fun _ h => (nomatch h), fun _ h => (nomatch h)⟩

/-- A step of a client whose results return their tokens to the fetched pools is not a panic. -/
theorem Step.not_panicked (h : Step s a s') (hpanicked : s.panicked = false)
    (haccounted : ∀ name, (s.producers name).Accounted) (hready : s.Ready)
    (hmatched : ∀ name, (s.producers name).Matched) : s'.panicked = false := by
  cases h with
  | @handler name _ _ _ _ _ hstep =>
    rw [report_panicked _ (hstep.ne_panic (haccounted name) (hready.inLoop name))]
    exact hpanicked
  | @overReleased _ name sent i _ _ hcurrent hsent hret =>
    have htoken := (haccounted name).tokenPool_of_sent hsent
    obtain rfl := Option.some.inj (((hmatched name).current _ htoken).symm.trans hcurrent)
    obtain ⟨-, pool, hpool, hle⟩ := (haccounted name).fetched _ htoken
    have hpos := List.length_pos_of_mem hsent
    exact absurd hret (Producer.returnToken_ne_none hpool (by omega))
  | recvError _ _ ho =>
    rw [report_panicked _ (by rcases ho with ⟨-, rfl⟩ | ⟨-, rfl⟩ <;> simp)]
    exact hpanicked
  | registration _ _ ho =>
    rw [report_panicked _ ho]
    exact hpanicked
  | user ev => cases ev <;> exact hpanicked
  | newSession => rfl
  | checked | read | registered | returned | newPool | connected | outside => exact hpanicked

end State

private theorem run_matched {settings : Settings} {as : List Action} {s : State}
    (h : settings.machine.RunWhere State.keepsPool as s) : ∀ name, (s.producers name).Matched := by
  refine h.invariant_of (I := fun s => ∀ name, (s.producers name).Matched)
    (J := fun s => ∀ name, (s.producers name).Accounted) run_accounted ?_ ?_
  · exact fun _ => ⟨fun _ h => (nomatch h), fun _ h => (nomatch h)⟩
  · intro s a s' hJ hs hkeeps hstep name
    exact ((State.step_cases hstep).2.change name).matched hkeeps (hJ name) (hs name)

/-- In every run in which no pool is put in the place of one that a handler has fetched, no goroutine panics, every
token is returned to the pool that it was taken from, which is the pool that the handler waits on, and the tokens of the
outstanding inputs will be, too. -/
theorem tokens_returned_to_fetched_pool {settings : Settings} {as : List Action} {s : State}
    (h : settings.machine.RunWhere State.keepsPool as s) :
    s.panicked = false ∧ ∀ name,
      (∀ r ∈ (s.producers name).returned,
        r.released = r.acquired ∧ (s.producers name).tokenPool = some r.acquired) ∧
      ∀ i, (s.producers name).tokenPool = some i →
        (s.producers name).current = some i ∧ ∀ sent ∈ (s.producers name).outstanding, sent.pool = i := by
  constructor
  · refine h.invariant_of (I := fun s => s.panicked = false)
      (J := fun s => (∀ name, (s.producers name).Accounted) ∧ s.Ready ∧ ∀ name, (s.producers name).Matched)
      (fun h => ⟨run_accounted h, run_ready h, run_matched h⟩) rfl ?_
    intro s a s' hJ hs _ hstep
    exact (State.step_cases hstep).2.not_panicked hs hJ.1 hJ.2.1 hJ.2.2
  · intro name
    have hmatched := run_matched h name
    exact ⟨hmatched.returned, fun i hi => ⟨hmatched.current i hi, ((run_accounted h name).fetched i hi).1⟩⟩

/-- One producer that targets one engine. -/
def Settings.oneProducer : Settings where
  inputProducers := [{ name := "P", targetEngineIds := ["E"] }]
  names_nodup := by decide
  targets_ne_nil := by decide

/-- A client registers twice before it opens its producer stream, sends an input and is answered. -/
theorem tokens_returned_to_fetched_pool_of_retry :
    ∃ as s, Settings.oneProducer.machine.RunWhere State.keepsPool as s ∧
      (s.producers "P").returned = [⟨1, 1⟩] ∧ (s.producers "P").tokenPool = some 1 ∧ s.panicked = false := by
  obtain ⟨s, hrun, hreturned, htoken⟩ := Machine.exists_runWhere (M := Settings.oneProducer.machine)
    (G := State.keepsPool) (g := fun s a => decide (s.keepsPool a)) (fun _ _ h => of_decide_eq_true h)
    (fun s => (s.producers "P").returned = [⟨1, 1⟩] ∧ (s.producers "P").tokenPool = some 1)
    [.registration (.send true), .registration .tick, .registration (.send true),
      .consumer .checkContext, .consumer (.receive (.registered 1 {"E"})), .consumer .register, .consumer .register,
      .handler "P" .connected, .handler "P" (.openStream true),
      .consumer .checkContext, .consumer (.receive (.registered 1 {"E"})), .consumer .register, .consumer .register,
      .handler "P" .fetch, .handler "P" .checkContext, .handler "P" .checkRunning, .handler "P" .getToken,
      .handler "P" (.produce (some { payload := .stringPayload "frame" })), .handler "P" (.send true),
      .consumer .checkContext,
      .consumer (.receive (.resultWrapper
        { producerId := "P", returnToken := true, result := { status := { code := .success }, frameId := 1 } }))]
    (by decide)
  exact ⟨_, s, hrun, hreturned, htoken, (tokens_returned_to_fetched_pool hrun).1⟩

/-- The second acknowledgement of a client arrives when its handler has sent an input.  The token for the input is then
returned to the new pool, from which no token was taken, and `Release` panics. -/
theorem returned_token_panics :
    ∃ as s, Settings.oneProducer.machine.Run as s ∧ s.panicked = true ∧ (s.producers "P").tokenPool = some 0 ∧
      (s.producers "P").current = some 1 ∧ (s.producers "P").outstanding = [⟨1, 0⟩] := by
  obtain ⟨s, hrun, h⟩ := Machine.exists_run (M := Settings.oneProducer.machine)
    (fun s => s.panicked = true ∧ (s.producers "P").tokenPool = some 0 ∧ (s.producers "P").current = some 1 ∧
      (s.producers "P").outstanding = [⟨1, 0⟩])
    [.registration (.send true), .registration .tick, .registration (.send true),
      .consumer .checkContext, .consumer (.receive (.registered 1 {"E"})), .consumer .register, .consumer .register,
      .handler "P" .connected, .handler "P" (.openStream true), .handler "P" .fetch, .handler "P" .checkContext,
      .handler "P" .checkRunning, .handler "P" .getToken,
      .handler "P" (.produce (some { payload := .stringPayload "frame" })), .handler "P" (.send true),
      .consumer .checkContext, .consumer (.receive (.registered 1 {"E"})), .consumer .register, .consumer .register,
      .consumer .checkContext,
      .consumer (.receive (.resultWrapper
        { producerId := "P", returnToken := true, result := { status := { code := .success }, frameId := 1 } }))]
    (by decide)
  exact ⟨_, s, hrun, h⟩

end Gabriel.GoClient
