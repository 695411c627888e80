import Gabriel.Client.Grpc
import Gabriel.Server.Credit

/-!
# The tokens of a gRPC session

A step of a session moves tokens between a pool, the task that holds one, and the streams; a result adds one.
`step_sound` says so for a session whose pools have room for what comes back.
-/

namespace Gabriel.GrpcClient

variable {N : Nat} {s s' : Session} {p q : String} {ev : Event} {out : Output} {producer : Producer} {pool : TokenPool}

theorem TokenPool.returnToken_eq_some {pool' : TokenPool} (h : pool.returnToken = some pool') :
    pool'.maxTokens = pool.maxTokens ∧ pool'.value = pool.value + 1 := by
  unfold TokenPool.returnToken at h
  split at h
  · cases h
    exact ⟨rfl, rfl⟩
  · cases h

theorem TokenPool.returnToken_of_lt (h : pool.value < pool.maxTokens) : ∃ pool', pool.returnToken = some pool' := by
  simp [TokenPool.returnToken, h]

theorem TokenPool.getToken_eq_some {pool' : TokenPool} (h : pool.getToken = some pool') :
    pool'.maxTokens = pool.maxTokens ∧ pool'.value + 1 = pool.value := by
  unfold TokenPool.getToken at h
  split at h
  · cases h
    exact ⟨rfl, Nat.sub_add_cancel ‹_›⟩
  · cases h

/-! ### Counting -/

/-- The tokens in the pool of `p`, all of them if the pool is still to be made. -/
def Session.stock (N : Nat) (s : Session) (p : String) : Nat := (s.tokens p).elim N TokenPool.value

/-- The task of `p` holds a token. -/
def Session.held (s : Session) (p : String) : Nat :=
  if (s.producers p).map Producer.pc = some .producing then 1 else 0

/-- The token for `p` that an event brings. -/
def Event.tokens (p : String) : Event → Nat
  | .read msg _ => if msg.carriesToken p then 1 else 0
  | _ => 0

/-- The input for `p` that a step writes. -/
def Output.inputs (p : String) : Output → Nat
  | .write (.producer q) _ => if q = p then 1 else 0
  | _ => 0

@[simp] theorem Output.inputs_nothing : Output.nothing.inputs p = 0 := rfl

/-! ### Sessions without a failure of the token pools -/

/-- The pools are those of the tasks that are past the registration, with the number of tokens the server told. -/
structure Session.Sound (N : Nat) (s : Session) : Prop where
  count : ∀ n, s.registered = some n → n = N
  pool : ∀ p pool, s.tokens p = some pool → pool.maxTokens = N
  registered : ∀ p, s.tokens p ≠ none → s.registered ≠ none
  fresh : ∀ p producer, s.producers p = some producer → producer.pc = .starting → s.tokens p = none
  active : ∀ p producer, s.producers p = some producer → producer.pc ≠ .starting → producer.pc ≠ .finished →
    s.tokens p ≠ none
  healthy : s.status ≠ .ended (some .tooManyTokens) ∧ s.status ≠ .ended (some .noTokenPool)

/-- What a step writes, and how it changes which pools there are. -/
inductive Output.From (s s' : Session) : Output → Prop
  | nothing (h : ∀ p, s'.tokens p = none ↔ s.tokens p = none) : Output.From s s' .nothing
  | openStream {p : String} (hnone : s.tokens p = none) (h : ∀ q, s'.tokens q = none ↔ s.tokens q = none ∧ q ≠ p) :
      Output.From s s' (.openStream p)
  | register (info : AnyProto) (h : s'.tokens = s.tokens) : Output.From s s' (.write .control (.registration info))
  | input {p : String} {input : Input} (hp : input.producerId = p) (hpool : s.tokens p ≠ none)
      (h : s'.tokens = s.tokens) : Output.From s s' (.write (.producer p) (.input input))

/-- A step of a sound session: it stays sound, and creates no tokens. -/
structure Session.Moves (N : Nat) (s : Session) (ev : Event) (s' : Session) (out : Output) : Prop where
  sound : s'.Sound N
  tokens : ∀ p, s'.stock N p + s'.held p + out.inputs p ≤ s.stock N p + s.held p + ev.tokens p
  output : out.From s s'
  told : s'.registered = s.registered ∨ ∃ n ids raises, ev = .read (.registered n ids) raises

namespace Session

theorem held_setProducer : (s.setProducer p producer).held q =
    if q = p then (if producer.pc = .producing then 1 else 0) else s.held q := by
  by_cases hq : q = p
  · subst hq; simp [held, setProducer]
  · simp [held, setProducer, hq]

theorem stock_setPool : (s.setPool p pool).stock N q = if q = p then pool.value else s.stock N q := by
  by_cases hq : q = p
  · subst hq; simp [stock, setPool]
  · simp [stock, setPool, hq]

@[simp] theorem stock_setProducer : (s.setProducer p producer).stock N q = s.stock N q := rfl

@[simp] theorem held_setPool : (s.setPool p pool).held q = s.held q := rfl

theorem held_of_pc (h : s.producers p = some producer) : s.held p = if producer.pc = .producing then 1 else 0 := by
  simp [held, h]

theorem stock_of_pool (h : s.tokens p = some pool) : s.stock N p = pool.value := by simp [stock, h]

/-- Changes that have nothing to do with tokens. -/
theorem Sound.moves_of_eq (h : s.Sound N) (ht : s'.tokens = s.tokens) (hp : s'.producers = s.producers)
    (hr : s'.registered = s.registered)
    (hs : s'.status ≠ .ended (some .tooManyTokens) ∧ s'.status ≠ .ended (some .noTokenPool)) :
    s.Moves N ev s' .nothing := by
  refine ⟨⟨hr ▸ h.count, ht ▸ h.pool, ?_, ?_, ?_, hs⟩, fun p => ?_, .nothing fun p => by rw [ht], .inl hr⟩
  · rw [ht, hr]
    exact h.registered
  · rw [ht, hp]
    exact h.fresh
  · rw [ht, hp]
    exact h.active
  · simp [stock, held, ht, hp]

/-- The session fails for another reason than its token pools. -/
theorem Sound.moves_fail (h : s.Sound N) {err : SessionError} (h₁ : err ≠ .tooManyTokens) (h₂ : err ≠ .noTokenPool) :
    s.Moves N ev (s.fail err) .nothing :=
  h.moves_of_eq rfl rfl rfl ⟨by simpa [fail] using h₁, by simpa [fail] using h₂⟩

/-- The task of `p` goes on with its pool. -/
theorem Sound.setProducer (h : s.Sound N) (hstart : producer.pc ≠ .starting)
    (hpool : producer.pc ≠ .finished → s.tokens p ≠ none) : (s.setProducer p producer).Sound N := by
  refine ⟨h.count, h.pool, h.registered, fun q prod hq hpc => ?_, fun q prod hq hpc hpc' => ?_, h.healthy⟩
  · by_cases hqp : q = p
    · subst hqp
      simp only [Session.setProducer, Function.update_self, Option.some.injEq] at hq
      exact absurd (hq ▸ hpc) hstart
    · simp only [Session.setProducer, ne_eq, hqp, not_false_eq_true, Function.update_of_ne] at hq
      exact h.fresh q prod hq hpc
  · by_cases hqp : q = p
    · subst hqp
      simp only [Session.setProducer, Function.update_self, Option.some.injEq] at hq
      exact hpool (hq ▸ hpc')
    · simp only [Session.setProducer, ne_eq, hqp, not_false_eq_true, Function.update_of_ne] at hq
      exact h.active q prod hq hpc hpc'

/-- The pool of `p` is replaced. -/
theorem Sound.setPool (h : s.Sound N) (hold : s.tokens p ≠ none) (hmax : pool.maxTokens = N) :
    (s.setPool p pool).Sound N := by
  have hnone : ∀ q, (s.setPool p pool).tokens q = none ↔ s.tokens q = none := by
    intro q
    by_cases hq : q = p
    · subst hq; simp [Session.setPool, hold]
    · simp [Session.setPool, hq]
  refine ⟨h.count, fun q pool' hq => ?_, fun q hq => ?_, fun q prod hq hpc => ?_, fun q prod hq hpc hpc' => ?_,
    h.healthy⟩
  · by_cases hqp : q = p
    · subst hqp
      simp only [Session.setPool, Function.update_self, Option.some.injEq] at hq
      exact hq ▸ hmax
    · simp only [Session.setPool, ne_eq, hqp, not_false_eq_true, Function.update_of_ne] at hq
      exact h.pool q pool' hq
  · exact h.registered q (mt (hnone q).2 hq)
  · exact (hnone q).2 (h.fresh q prod hq hpc)
  · exact mt (hnone q).1 (h.active q prod hq hpc hpc')

theorem tokens_setPool_eq_none (hold : s.tokens p ≠ none) :
    (s.setPool p pool).tokens q = none ↔ s.tokens q = none := by
  by_cases hq : q = p
  · subst hq; simp [Session.setPool, hold]
  · simp [Session.setPool, hq]

/-- A pool with room takes a token back. -/
theorem Sound.returnToken (h : s.Sound N) (hroom : s.stock N p < N) :
    ∃ pool pool', s.tokens p = some pool ∧ s.returnToken p = .ok (s.setPool p pool') ∧
      pool'.maxTokens = N ∧ pool'.value = pool.value + 1 := by
  cases hp : s.tokens p with
  | none => simp [stock, hp] at hroom
  | some pool =>
    have hmax := h.pool p pool hp
    rw [stock_of_pool hp] at hroom
    have hlt : pool.value < pool.maxTokens := by omega
    obtain ⟨pool', hpool'⟩ := TokenPool.returnToken_of_lt hlt
    obtain ⟨hmax', hvalue⟩ := TokenPool.returnToken_eq_some hpool'
    exact ⟨pool, pool', rfl, by simp [Session.returnToken, hp, hpool'], hmax'.trans hmax, hvalue⟩

/-! ### The steps -/

theorem processResponse_cases (s : Session) (w : ResultWrapper) (raises : Bool) :
    (∃ err, s.processResponse w raises = .error err ∧ err ≠ .tooManyTokens ∧ err ≠ .noTokenPool) ∨
      s.processResponse w raises = if w.returnToken then s.returnToken w.producerId else .ok s := by
  unfold processResponse
  cases w.result.status.code with
  | success => cases raises <;> simp
  | noEngineForInput => exact Or.inl ⟨.noEngineForInput, rfl, by decide, by decide⟩
  | unrecognized => exact Or.inl ⟨.unknownStatus, rfl, by decide, by decide⟩
  | _ => exact Or.inr rfl

theorem Sound.moves_read (h : s.Sound N) {msg : ToClient} {raises : Bool}
    (hroom : ∀ p, s.stock N p + s.held p + (Event.read msg raises).tokens p ≤ N)
    (hcount : ∀ n ids, msg = .registered n ids → n = N) :
    s.Moves N (.read msg raises) (s.read msg raises) .nothing := by
  -- the consumer's loop goes on or ends, and a response may return its token first
  have hdone : s.Moves N (.read msg raises) { s with reading := s.running } .nothing :=
    h.moves_of_eq rfl rfl rfl h.healthy
  cases msg with
  | registered n ids =>
    refine ⟨⟨?_, h.pool, fun _ _ => by simp [Session.read, processMessage, processRegistered], h.fresh, h.active,
      h.healthy⟩, fun p => ?_, .nothing fun p => Iff.rfl, .inr ⟨_, _, _, rfl⟩⟩
    · intro n' hn'
      obtain rfl : n = n' := by simpa [Session.read, processMessage, processRegistered] using hn'
      exact hcount n ids rfl
    · exact Nat.le_add_right _ _
  | engineIdsUpdate ids => exact h.moves_of_eq rfl rfl rfl h.healthy
  | resultWrapper w =>
    simp only [Session.read, processMessage]
    rcases processResponse_cases s w raises with ⟨err, hr, hmany, hpool⟩ | hr
    · rw [hr]
      exact h.moves_fail hmany hpool
    · rw [hr]
      by_cases htoken : w.returnToken = true
      · have hone : (Event.read (.resultWrapper w) raises).tokens w.producerId = 1 := by
          simp [Event.tokens, ToClient.carriesToken, htoken]
        have hlt := hroom w.producerId
        rw [hone] at hlt
        obtain ⟨pool, pool', hpool, hreturn, hmax, hvalue⟩ := h.returnToken (p := w.producerId) (by omega)
        have hsome : s.tokens w.producerId ≠ none := by simp [hpool]
        simp only [htoken, ↓reduceIte, hreturn]
        have hsound := h.setPool hsome hmax
        refine ⟨⟨hsound.count, hsound.pool, hsound.registered, hsound.fresh, hsound.active, hsound.healthy⟩,
          fun p => ?_, .nothing fun p => tokens_setPool_eq_none hsome, .inl rfl⟩
        have hstock : (s.setPool w.producerId pool').stock N p =
            if p = w.producerId then pool'.value else s.stock N p := stock_setPool
        have hgoal : (s.setPool w.producerId pool').stock N p + s.held p ≤
            s.stock N p + s.held p + (Event.read (.resultWrapper w) raises).tokens p := by
          rw [hstock]
          split
          · rename_i hp
            subst hp
            rw [hone, hvalue, stock_of_pool hpool]
            omega
          · omega
        exact hgoal
      · simp only [htoken, Bool.false_eq_true, ↓reduceIte]
        exact hdone

/-- The task of `p` goes on without a change to its token. -/
theorem Sound.moves_task (h : s.Sound N) {old : Producer} (hp : s.producers p = some old)
    (hstart : old.pc ≠ .starting) (hfinished : old.pc ≠ .finished)
    (hstart' : producer.pc ≠ .starting) (hnew : producer.pc ≠ .producing) :
    s.Moves N ev (s.setProducer p producer) .nothing := by
  refine ⟨h.setProducer hstart' fun _ => h.active p old hp hstart hfinished, fun q => ?_, .nothing fun _ => Iff.rfl,
    .inl rfl⟩
  have hheld : (s.setProducer p producer).held q ≤ s.held q := by
    rw [held_setProducer, if_neg hnew]
    split
    · exact Nat.zero_le _
    · exact Nat.le_refl _
  simp only [stock_setProducer, Output.inputs_nothing]
  omega

theorem Sound.moves_openStream (h : s.Sound N) (hp : s.producers p = some producer) (hstart : producer.pc = .starting)
    (hstep : s.openStream p producer = some (s', out)) : s.Moves N (.openStream p) s' out := by
  have hnone := h.fresh p producer hp hstart
  have hheld : s.held p = 0 := by rw [held_of_pc hp, hstart]; rfl
  unfold Session.openStream at hstep
  split at hstep
  · obtain ⟨n, hn, he⟩ := Option.map_eq_some_iff.1 hstep
    cases he
    obtain rfl := h.count n hn
    have htokens : ∀ q, ((s.setPool p (.new n)).setProducer p { producer with pc := .looping }).tokens q = none ↔
        s.tokens q = none ∧ q ≠ p := by
      intro q
      by_cases hq : q = p
      · subst hq; simp [Session.setPool, Session.setProducer]
      · simp [Session.setPool, Session.setProducer, hq]
    refine ⟨⟨h.count, fun q pool hq => ?_, fun q hq => ?_, fun q prod hq hpc => ?_, fun q prod hq hpc hpc' => ?_,
      h.healthy⟩, fun q => ?_, .openStream hnone htokens, .inl rfl⟩
    · by_cases hqp : q = p
      · subst hqp
        simp only [Session.setProducer, Session.setPool, Function.update_self, Option.some.injEq] at hq
        exact hq ▸ rfl
      · simp only [Session.setProducer, Session.setPool, ne_eq, hqp, not_false_eq_true, Function.update_of_ne] at hq
        exact h.pool q pool hq
    · simp [Session.setProducer, Session.setPool, hn]
    · by_cases hqp : q = p
      · subst hqp
        simp only [Session.setProducer, Function.update_self, Option.some.injEq] at hq
        rw [← hq] at hpc
        cases hpc
      · simp only [Session.setProducer, Session.setPool, ne_eq, hqp, not_false_eq_true, Function.update_of_ne] at hq
        exact (htokens q).2 ⟨h.fresh q prod hq hpc, hqp⟩
    · by_cases hqp : q = p
      · exact fun hq' => ((htokens q).1 hq').2 hqp
      · simp only [Session.setProducer, Session.setPool, ne_eq, hqp, not_false_eq_true, Function.update_of_ne] at hq
        exact fun hq' => h.active q prod hq hpc hpc' ((htokens q).1 hq').1
    · -- the pool is full, as was assumed of it before
      rw [stock_setProducer, stock_setPool, held_setProducer]
      split
      · rename_i hq
        subst hq
        simp only [stock, hnone, Output.inputs, TokenPool.new, Option.elim_none, reduceCtorEq, ↓reduceIte]
        omega
      · simp [Output.inputs]
  · cases hstep
    refine ⟨h.setProducer (by simp) (by simp), fun q => ?_, .nothing fun _ => Iff.rfl, .inl rfl⟩
    rw [held_setProducer, stock_setProducer, Output.inputs_nothing]
    split
    · simp only [reduceCtorEq, ↓reduceIte]
      omega
    · omega

theorem Sound.moves_getToken (h : s.Sound N) (hp : s.producers p = some producer) (hpc : producer.pc = .acquiring)
    (hpool : s.tokens p = some pool) {pool' : TokenPool} (hget : pool.getToken = some pool') :
    s.Moves N (.getToken p) ((s.setPool p pool').setProducer p { producer with pc := .producing }) .nothing := by
  obtain ⟨hmax, hvalue⟩ := TokenPool.getToken_eq_some hget
  have hsome : s.tokens p ≠ none := by simp [hpool]
  have hsound : (s.setPool p pool').Sound N := h.setPool hsome (hmax.trans (h.pool p pool hpool))
  refine ⟨hsound.setProducer (by simp) fun _ => by simp [Session.setPool], fun q => ?_,
    .nothing fun _ => tokens_setPool_eq_none hsome, .inl rfl⟩
  have hheld : s.held p = 0 := by rw [held_of_pc hp, hpc]; rfl
  rw [stock_setProducer, stock_setPool, held_setProducer]
  split
  · rename_i hq
    subst hq
    rw [stock_of_pool hpool]
    simp only [↓reduceIte, Output.inputs_nothing]
    omega
  · simp

/-- A token that is not used goes back to the pool. -/
theorem Sound.moves_skip (h : s.Sound N) (hp : s.producers p = some producer) (hpc : producer.pc = .producing)
    (hroom : s.stock N p + s.held p ≤ N) : s.Moves N ev (s.skip p producer) .nothing := by
  have hheld : s.held p = 1 := by rw [held_of_pc hp, hpc]; rfl
  obtain ⟨pool, pool', hpool, hreturn, hmax, hvalue⟩ := h.returnToken (p := p) (by omega)
  have hsome : s.tokens p ≠ none := by simp [hpool]
  simp only [Session.skip, hreturn]
  refine ⟨(h.setPool hsome hmax).setProducer (by simp) fun _ => by simp [Session.setPool], fun q => ?_,
    .nothing fun _ => tokens_setPool_eq_none hsome, .inl rfl⟩
  rw [stock_setProducer, stock_setPool, held_setProducer]
  split
  · rename_i hq
    subst hq
    rw [hheld, hvalue, stock_of_pool hpool]
    simp only [reduceCtorEq, ↓reduceIte, Output.inputs_nothing]
    omega
  · simp

theorem Sound.moves_produce (h : s.Sound N) (ev : Event) (hp : s.producers p = some producer)
    (hpc : producer.pc = .producing) (hroom : s.stock N p + s.held p ≤ N) (produced : Produced) :
    s.Moves N ev (s.produce p producer produced).1 (s.produce p producer produced).2 := by
  have hheld : s.held p = 1 := by rw [held_of_pc hp, hpc]; rfl
  have hsome : s.tokens p ≠ none := h.active p producer hp (by simp [hpc]) (by simp [hpc])
  cases produced with
  | raises => exact h.moves_fail (by decide) (by decide)
  | nothing => exact h.moves_skip hp hpc hroom
  | frame frame checked targets =>
    simp only [Session.produce]
    split
    · exact h.moves_skip hp hpc hroom
    split
    · -- the token goes out with the input
      refine ⟨h.setProducer (by simp) fun _ => hsome, fun q => ?_, .input rfl hsome rfl, .inl rfl⟩
      rw [held_setProducer]
      by_cases hq : q = p
      · subst hq
        simp [Output.inputs, hheld]
      · simp [Output.inputs, hq, Ne.symm hq]
    · exact h.moves_fail (by decide) (by decide)

/-- Every step of a sound session whose pools have room for the token that the event brings. -/
theorem Sound.moves (h : s.Sound N) (hroom : ∀ p, s.stock N p + s.held p + ev.tokens p ≤ N)
    (hcount : ∀ n ids raises, ev = .read (.registered n ids) raises → n = N)
    (hstep : s.step ev = some (s', out)) : s.Moves N ev s' out := by
  have hroom' : ∀ p, s.stock N p + s.held p ≤ N := fun p => Nat.le_trans (Nat.le_add_right _ _) (hroom p)
  unfold Session.step at hstep
  split at hstep
  case isFalse => cases hstep
  cases ev with
  | stop =>
    cases hstep
    exact h.moves_of_eq rfl rfl rfl h.healthy
  | register =>
    simp only [stepRunning] at hstep
    split at hstep
    · cases hstep
      exact ⟨h, fun p => by simp [Output.inputs], .register _ rfl, .inl rfl⟩
    · cases hstep
  | acknowledged =>
    simp only [stepRunning] at hstep
    split at hstep
    · cases hstep
      exact h.moves_of_eq rfl rfl rfl h.healthy
    · cases hstep
  | read msg raises =>
    simp only [stepRunning] at hstep
    split at hstep
    · cases hstep
      exact h.moves_read hroom fun n ids he => hcount n ids raises (he ▸ rfl)
    · cases hstep
  | openStream p =>
    obtain ⟨producer, hp, hstep⟩ := Option.bind_eq_some_iff.1 hstep
    split at hstep
    · exact h.moves_openStream hp ‹_› hstep
    · cases hstep
  | loop p wanted =>
    obtain ⟨producer, hp, hstep⟩ := Option.bind_eq_some_iff.1 hstep
    split at hstep
    · rename_i hpc
      cases hstep
      refine h.moves_task hp (by simp [hpc]) (by simp [hpc]) ?_ ?_ <;> simp only <;> split <;> simp
    · cases hstep
  | getToken p =>
    obtain ⟨producer, hp, hstep⟩ := Option.bind_eq_some_iff.1 hstep
    split at hstep
    · obtain ⟨pool, hpool, hstep⟩ := Option.bind_eq_some_iff.1 hstep
      obtain ⟨pool', hget, hstep⟩ := Option.bind_eq_some_iff.1 hstep
      cases hstep
      exact h.moves_getToken hp ‹_› hpool hget
    · cases hstep
  | produce p produced =>
    obtain ⟨producer, hp, hstep⟩ := Option.bind_eq_some_iff.1 hstep
    split at hstep
    · have hmoves := h.moves_produce (.produce p produced) hp ‹_› (hroom' p) produced
      rwa [Option.some.inj hstep] at hmoves
    · cases hstep
  | written p =>
    obtain ⟨producer, hp, hstep⟩ := Option.bind_eq_some_iff.1 hstep
    split at hstep
    · rename_i hpc
      cases hstep
      exact h.moves_task hp (by simp [hpc]) (by simp [hpc]) (by simp) (by simp)
    · cases hstep
  | disconnect =>
    cases hstep
    exact h.moves_fail (by decide) (by decide)
  | cancel =>
    cases hstep
    exact h.moves_fail (by decide) (by decide)
  | finish =>
    simp only [stepRunning] at hstep
    split at hstep
    · cases hstep
      exact h.moves_of_eq rfl rfl rfl ⟨by simp, by simp⟩
    · cases hstep

/-- A session that starts has no pools. -/
theorem sound_start (N : Nat) (info : Option AnyProto) (ps : List String) : (Session.start info ps).Sound N := by
  refine ⟨nofun, nofun, fun _ hp => absurd rfl hp, fun _ _ _ _ => rfl, fun p producer hp hpc => ?_, by simp [start]⟩
  simp only [Session.start] at hp
  split at hp
  · cases hp
    exact absurd rfl hpc
  · cases hp

end Session

end Gabriel.GrpcClient
