import Gabriel.Client.GrpcLemmas
import Gabriel.Client.Websocket

/-!
# What the steps of a session do

A step of a session of `GrpcClient`, or of a `WebsocketClient`, takes a token from a pool, puts one back, sends one away
with an input, or does nothing to the tokens (`Session.Progress`).
-/

namespace Gabriel.GrpcClient

/-- The clients with a session as in `GrpcClient`. -/
inductive Client
  | grpc
  | websocket
  deriving DecidableEq, Repr

namespace Client

def step : Client → Session → Event → Option (Session × Output)
  | .grpc => Session.step
  | .websocket => WebsocketClient.step

/-- The producer loop waits until its producer is running. -/
def waitsForRunning : Client → Bool
  | .grpc => true
  | .websocket => false

end Client

/-- The producer to which an event returns a token. -/
def Event.returnsTo : Event → Option String
  | .read (.resultWrapper wrapper) _ => if wrapper.returnToken then some wrapper.producerId else none
  | _ => none

/-! ### What a step of a session does -/

namespace Session

variable {s s' : Session} {p q : String} {ev : Event} {out : Output} {c : Client}

/-- What a step of a session can do to the tokens and the tasks. -/
inductive Progress (s : Session) (ev : Event) : Session → Output → Prop
  | quiet {s' : Session} {out : Output} (htokens : s'.tokens = s.tokens) (hproducers : s'.producers = s.producers)
      (hout : ∀ p, out.inputs p = 0) (hreturns : s'.status = .running → ev.returnsTo = none) : Progress s ev s' out
  | returned {s' : Session} {p : String} {pool pool' : TokenPool} (hreturns : ev.returnsTo = some p)
      (hpool : s.tokens p = some pool) (hreturn : pool.returnToken = some pool')
      (htokens : s'.tokens = Function.update s.tokens p (some pool')) (hproducers : s'.producers = s.producers)
      (hstatus : s'.status = .running) : Progress s ev s' .nothing
  /-- A task goes on without a token, possibly to its end. -/
  | moved {p : String} {producer : Producer} {pc : ProducerPc} (hreturns : ev.returnsTo = none)
      (hp : s.producers p = some producer) (hlive : producer.pc ≠ .finished) (hold : producer.pc ≠ .producing)
      (hnew : pc ≠ .producing ∧ pc ≠ .starting) (hstart : producer.pc = .starting → pc = .finished)
      (hacquiring : pc = .acquiring → ∃ wanted, ev = .loop p wanted) :
      Progress s ev (s.setProducer p { producer with pc := pc }) .nothing
  | opened {p : String} {producer : Producer} {n : Nat} {out : Output} (hreturns : ev.returnsTo = none)
      (hp : s.producers p = some producer) (hpc : producer.pc = .starting) (hout : ∀ p, out.inputs p = 0) :
      Progress s ev ((s.setPool p (.new n)).setProducer p { producer with pc := .looping }) out
  | acquired {p : String} {producer : Producer} {pool pool' : TokenPool} (hev : ev = .getToken p)
      (hp : s.producers p = some producer) (hpc : producer.pc = .acquiring) (hpool : s.tokens p = some pool)
      (hget : pool.getToken = some pool') :
      Progress s ev ((s.setPool p pool').setProducer p { producer with pc := .producing }) .nothing
  | skipped {p : String} {producer : Producer} {pool pool' : TokenPool} (hreturns : ev.returnsTo = none)
      (hp : s.producers p = some producer) (hpc : producer.pc = .producing) (hpool : s.tokens p = some pool)
      (hreturn : pool.returnToken = some pool') :
      Progress s ev ((s.setPool p pool').setProducer p { producer with pc := .looping }) .nothing
  | wrote {p : String} {producer : Producer} {msg : FromClient} {frameId : Int} (hreturns : ev.returnsTo = none)
      (hp : s.producers p = some producer) (hpc : producer.pc = .producing) :
      Progress s ev (s.setProducer p { pc := .writing, frameId := frameId }) (.write (.producer p) msg)

theorem returnToken_cases (s : Session) (p : String) : (∃ err, s.returnToken p = .error err) ∨
    ∃ pool pool', s.tokens p = some pool ∧ pool.returnToken = some pool' ∧
      s.returnToken p = .ok (s.setPool p pool') := by
  unfold returnToken
  split
  · exact .inl ⟨_, rfl⟩
  · split
    · exact .inl ⟨_, rfl⟩
    · exact .inr ⟨_, _, ‹_›, ‹_›, rfl⟩

theorem fail_progress (err : SessionError) : Progress s ev (s.fail err) .nothing :=
  .quiet rfl rfl (fun _ => rfl) fun h => by cases h

theorem read_progress (hrunning : s.status = .running) (msg : ToClient) (raises : Bool) :
    Progress s (.read msg raises) (s.read msg raises) .nothing := by
  cases msg with
  | registered | engineIdsUpdate => exact .quiet rfl rfl (fun _ => rfl) fun _ => rfl
  | resultWrapper w =>
    simp only [Session.read, processMessage]
    rcases processResponse_cases s w raises with ⟨err, herr, -⟩ | hresponse
    · rw [herr]
      exact fail_progress err
    · rw [hresponse]
      by_cases htoken : w.returnToken = true
      · rw [if_pos htoken]
        rcases returnToken_cases s w.producerId with ⟨err, herr⟩ | ⟨pool, pool', hpool, hreturn, hok⟩
        · rw [herr]
          exact fail_progress err
        · rw [hok]
          exact .returned (by simp [Event.returnsTo, htoken]) hpool hreturn rfl rfl hrunning
      · rw [if_neg htoken]
        exact .quiet rfl rfl (fun _ => rfl) fun _ => by simp [Event.returnsTo, htoken]

theorem skip_progress {producer : Producer} (hreturns : ev.returnsTo = none) (hp : s.producers p = some producer)
    (hpc : producer.pc = .producing) : Progress s ev (s.skip p producer) .nothing := by
  unfold skip
  rcases returnToken_cases s p with ⟨err, herr⟩ | ⟨pool, pool', hpool, hreturn, hok⟩
  · rw [herr]
    exact fail_progress err
  · rw [hok]
    exact .skipped hreturns hp hpc hpool hreturn

/-- The steps that the two clients share. -/
theorem stepRunning_progress (hrunning : s.status = .running) (hstep : s.stepRunning ev = some (s', out)) :
    Progress s ev s' out := by
  cases ev with
  | stop =>
    cases hstep
    exact .quiet rfl rfl (fun _ => rfl) fun _ => rfl
  | register =>
    obtain ⟨-, hstep⟩ := Option.ite_none_right_eq_some.1 hstep
    cases hstep
    exact .quiet rfl rfl (fun _ => rfl) fun _ => rfl
  | acknowledged =>
    obtain ⟨-, hstep⟩ := Option.ite_none_right_eq_some.1 hstep
    cases hstep
    exact .quiet rfl rfl (fun _ => rfl) fun _ => rfl
  | read msg raises =>
    obtain ⟨-, hstep⟩ := Option.ite_none_right_eq_some.1 hstep
    cases hstep
    exact read_progress hrunning msg raises
  | openStream p =>
    obtain ⟨producer, hp, hstep⟩ := Option.bind_eq_some_iff.1 hstep
    obtain ⟨hpc, hstep⟩ := Option.ite_none_right_eq_some.1 hstep
    unfold openStream at hstep
    split at hstep
    · obtain ⟨n, -, heq⟩ := Option.map_eq_some_iff.1 hstep
      cases heq
      exact .opened rfl hp hpc fun _ => rfl
    · cases hstep
      exact .moved rfl hp (by simp [hpc]) (by simp [hpc]) (by simp) (fun _ => rfl) (by simp)
  | loop p wanted =>
    obtain ⟨producer, hp, hstep⟩ := Option.bind_eq_some_iff.1 hstep
    obtain ⟨hpc, hstep⟩ := Option.ite_none_right_eq_some.1 hstep
    cases hstep
    refine .moved rfl hp (by simp [hpc]) (by simp [hpc]) ?_ (by simp [hpc]) fun _ => ⟨wanted, rfl⟩
    split <;> simp
  | getToken p =>
    obtain ⟨producer, hp, hstep⟩ := Option.bind_eq_some_iff.1 hstep
    obtain ⟨hpc, hstep⟩ := Option.ite_none_right_eq_some.1 hstep
    obtain ⟨pool, hpool, hstep⟩ := Option.bind_eq_some_iff.1 hstep
    obtain ⟨pool', hget, hstep⟩ := Option.bind_eq_some_iff.1 hstep
    cases hstep
    exact .acquired rfl hp hpc hpool hget
  | produce p produced =>
    obtain ⟨producer, hp, hstep⟩ := Option.bind_eq_some_iff.1 hstep
    obtain ⟨hpc, hstep⟩ := Option.ite_none_right_eq_some.1 hstep
    cases produced with
    | raises =>
      cases hstep
      exact fail_progress _
    | nothing =>
      cases hstep
      exact skip_progress rfl hp hpc
    | frame frame checked targets =>
      simp only [produce] at hstep
      split at hstep
      · cases hstep
        exact skip_progress rfl hp hpc
      · split at hstep <;> cases hstep
        · exact .wrote rfl hp hpc
        · exact fail_progress _
  | written p =>
    obtain ⟨producer, hp, hstep⟩ := Option.bind_eq_some_iff.1 hstep
    obtain ⟨hpc, hstep⟩ := Option.ite_none_right_eq_some.1 hstep
    cases hstep
    exact .moved rfl hp (by simp [hpc]) (by simp [hpc]) (by simp) (by simp [hpc]) (by simp)
  | disconnect =>
    cases hstep
    exact fail_progress _
  | cancel =>
    cases hstep
    exact fail_progress _
  | finish =>
    obtain ⟨-, hstep⟩ := Option.ite_none_right_eq_some.1 hstep
    cases hstep
    exact .quiet rfl rfl (fun _ => rfl) fun _ => rfl

theorem step_progress (hstep : c.step s ev = some (s', out)) : Progress s ev s' out := by
  cases c with
  | grpc =>
    obtain ⟨hrunning, hstep⟩ := Option.ite_none_right_eq_some.1 hstep
    exact stepRunning_progress hrunning hstep
  | websocket =>
    obtain ⟨hrunning, hstep⟩ := Option.ite_none_right_eq_some.1 hstep
    cases ev with
    | openStream p =>
      obtain ⟨producer, hp, hstep⟩ := Option.bind_eq_some_iff.1 hstep
      obtain ⟨hpc, hstep⟩ := Option.ite_none_right_eq_some.1 hstep
      obtain ⟨s₁, hs₁, heq⟩ := Option.map_eq_some_iff.1 hstep
      cases heq
      unfold WebsocketClient.start at hs₁
      split at hs₁
      · obtain ⟨n, -, rfl⟩ := Option.map_eq_some_iff.1 hs₁
        exact .opened rfl hp hpc fun _ => rfl
      · cases hs₁
        exact .moved rfl hp (by simp [hpc]) (by simp [hpc]) (by simp) (fun _ => rfl) (by simp)
    | loop p wanted =>
      obtain ⟨producer, hp, hstep⟩ := Option.bind_eq_some_iff.1 hstep
      obtain ⟨hpc, hstep⟩ := Option.ite_none_right_eq_some.1 hstep
      cases hstep
      refine .moved rfl hp (by simp [hpc]) (by simp [hpc]) ?_ (by simp [hpc]) fun _ => ⟨wanted, rfl⟩
      split <;> simp
    | produce p produced =>
      obtain ⟨producer, hp, hstep⟩ := Option.bind_eq_some_iff.1 hstep
      obtain ⟨hpc, hstep⟩ := Option.ite_none_right_eq_some.1 hstep
      cases produced with
      | raises =>
        cases hstep
        exact fail_progress _
      | nothing =>
        cases hstep
        exact skip_progress rfl hp hpc
      | frame frame checked targets =>
        simp only [WebsocketClient.produce] at hstep
        split at hstep <;> cases hstep
        · exact .wrote rfl hp hpc
        · exact fail_progress _
    | finish =>
      obtain ⟨-, hstep⟩ := Option.ite_none_right_eq_some.1 hstep
      cases hstep
      exact .quiet rfl rfl (fun _ => rfl) fun _ => rfl
    | stop | register | acknowledged | read | getToken | written | disconnect | cancel =>
      exact stepRunning_progress hrunning hstep

end Session

end Gabriel.GrpcClient
