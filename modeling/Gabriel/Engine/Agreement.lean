import Gabriel.Engine.Runner
import Gabriel.Local.Lockstep

/-!
# Local and networked engines produce the same results

The conversion of what `handle` returns exists twice, in `_run_engine` and in `_build_result_proto`.  On a result that
the engine made up wrongly the local engine sends an error and goes on, while the networked one writes the same error
and ends; otherwise the two agree, except that the networked one raises an exception on a status code without a name.

`worker` and `runEngine` are the two loops on a sequence of inputs.  In the systems that the loops are part of, the
messages written are those of the loops: `EngineRunner.run_written` and `LocalEngine.run_written`.
-/

namespace Gabriel

/-! ### What `handle` returns -/

namespace LocalEngine

/-- The engine made a mistake: the result or its status has the wrong type, or the payload of a success is missing or
of a type that is not supported. -/
def Handled.malformed : Handled → Bool
  | .other _ => true
  | .result (.other _) _ => true
  | .result (.status status) .none => status.code = .success
  | .result (.status status) (.other _) => status.code = .success
  | .result (.status _) _ => false

/-- The status code has a name. -/
def Handled.named : Handled → Bool
  | .result (.status ⟨.unrecognized _ _, _⟩) _ => false
  | _ => true

def Outcome.malformed : Outcome → Bool
  | .returned value => value.malformed
  | .raised => false

@[simp] theorem Outcome.malformed_returned (value : Handled) : (returned value).malformed = value.malformed := rfl

def Outcome.named : Outcome → Bool
  | .returned value => value.named
  | .raised => true

end LocalEngine

namespace EngineRunner

open LocalEngine

variable {cfg : Config} {engineId : String} {value : Handled}

/-- The two conversions agree, up to the frame id and the way in which a mistake is reported. -/
theorem buildResultProto_eq (hnamed : value.named) : buildResultProto engineId value =
    if value.malformed then
      .error (.engineHandler (resultProto engineId 0 value).status.message (resultProto engineId 0 value))
    else .ok (resultProto engineId 0 value) := by
  rcases value with ⟨⟨code, message⟩ | type, payload⟩ | type
  · cases code with
    | success => cases payload <;> rfl
    | unrecognized => cases hnamed
    | _ => cases payload <;> rfl
  · rfl
  · rfl

theorem resultProto_withFrameId (frameId : Int) (value : Handled) :
    { resultProto engineId frameId value with frameId := 0 } = resultProto engineId 0 value := by
  rcases value with ⟨⟨code, message⟩ | type, payload⟩ | type
  · cases code with
    | success => cases payload <;> rfl
    | _ => cases payload <;> rfl
  · rfl
  · rfl

end EngineRunner

/-! ### The two loops -/

/-- An input and what `handle` does on it. -/
structure EngineCall where
  /-- The message of which the engine gets the input frame. -/
  fromClient : FromClient
  clientInfo : AnyProto
  outcome : LocalEngine.Outcome
  deriving DecidableEq, Repr

namespace EngineCall

/-- The call as the local engine makes it. -/
def onLocal (call : EngineCall) : FromClient × LocalEngine.Outcome := (call.fromClient, call.outcome)

/-- The call as the networked engine makes it. -/
def onNetwork (call : EngineCall) : ToEngine × LocalEngine.Outcome :=
  ({ inputFrame := call.fromClient.asInput.inputFrame, clientInfo := call.clientInfo }, call.outcome)

end EngineCall

namespace EngineRunner

open LocalEngine

variable {cfg : Config} {engineId : String} {script : List EngineCall}

private theorem worker_eq_take (hnamed : ∀ call ∈ script, call.outcome.named) :
    worker engineId (script.map EngineCall.onNetwork) =
      ((runEngine engineId (script.map EngineCall.onLocal)).map fun result => { result with frameId := 0 }).take
        (script.findIdx (·.outcome.malformed) + 1) := by
  induction script with
  | nil => rfl
  | cons call script ih =>
    obtain ⟨fromClient, clientInfo, value | _⟩ := call
    · have hvalue : value.named := hnamed _ (List.mem_cons_self ..)
      have hrest := ih fun call hcall => hnamed call (List.mem_cons_of_mem _ hcall)
      simp only [List.map_cons, EngineCall.onNetwork, EngineCall.onLocal, worker, runEngine,
        buildResultProto_eq hvalue, resultProto_withFrameId, List.take_succ_cons, List.findIdx_cons,
        Outcome.malformed_returned]
      cases value.malformed with
      | true => simp
      | false => simpa using hrest
    · rfl

/-- Nothing is sent for an input on which `handle` raises, or after it. -/
theorem runEngine_of_raised (before after : List (FromClient × Outcome)) (fromClient : FromClient) :
    runEngine engineId (before ++ (fromClient, .raised) :: after) = runEngine engineId before := by
  induction before with
  | nil => rfl
  | cons call before ih =>
    obtain ⟨fromClient', value | _⟩ := call
    · exact congrArg (List.cons _) ih
    · rfl

theorem worker_of_raised (before after : List (ToEngine × Outcome)) (msg : ToEngine) :
    worker engineId (before ++ (msg, .raised) :: after) = worker engineId before := by
  induction before with
  | nil => rfl
  | cons call before ih =>
    obtain ⟨msg', value | _⟩ := call
    · simp only [List.cons_append, worker, ih]
    · rfl

/-- The worker has not ended and is not about to. -/
def WorkerPc.goesOn : WorkerPc → Prop
  | .getting | .handling _ | .writing => True
  | .writingError | .ended _ => False

/-- The worker goes on after each of the calls. -/
def GoesOn (engineId : String) (calls : List (ToEngine × Outcome)) : Prop :=
  ∀ call ∈ calls, ∃ value result, call.2 = .returned value ∧ buildResultProto engineId value = .ok result

theorem worker_append {calls : List (ToEngine × Outcome)} (h : GoesOn engineId calls)
    (rest : List (ToEngine × Outcome)) :
    worker engineId (calls ++ rest) = worker engineId calls ++ worker engineId rest := by
  induction calls with
  | nil => rfl
  | cons call calls ih =>
    obtain ⟨value, result, houtcome, hresult⟩ := h call (List.mem_cons_self ..)
    obtain ⟨msg, outcome⟩ := call
    subst houtcome
    simp only [List.cons_append, worker, hresult]
    rw [ih fun call hcall => h call (List.mem_cons_of_mem _ hcall)]

/-- What is written are the results of the worker's loop for the calls that it has seen the end of. -/
structure Written (cfg : Config) (s : State) : Prop where
  written : s.written =
    .register cfg.engineId cfg.allResponsesRequired :: (worker cfg.engineId s.calls).map FromEngine.result
  goesOn : s.worker.goesOn → GoesOn cfg.engineId s.calls

theorem Written.handled {s : State} {msg : ToEngine} (h : Written cfg s) (hpc : s.worker = .handling msg)
    (outcome : Outcome) : Written cfg (s.handled cfg msg outcome) := by
  have hgoes : GoesOn cfg.engineId s.calls := h.goesOn (by rw [hpc]; trivial)
  have hwritten : ∀ call, .register cfg.engineId cfg.allResponsesRequired ::
      (worker cfg.engineId (s.calls ++ [call])).map FromEngine.result =
        s.written ++ (worker cfg.engineId [call]).map FromEngine.result := by
    intro call
    rw [worker_append hgoes, List.map_append, h.written, List.cons_append]
  cases outcome with
  | raised =>
    simp only [State.handled]
    exact ⟨by rw [hwritten]; simp [worker], False.elim⟩
  | returned value =>
    cases hbuild : buildResultProto cfg.engineId value with
    | ok result =>
      refine ⟨?_, fun _ => ?_⟩
      · simp only [State.handled, hbuild, State.write]
        rw [hwritten]
        simp [worker, hbuild]
      · simp only [State.handled, hbuild, State.write]
        intro call hcall
        rcases List.mem_append.1 hcall with hcall | hcall
        · exact hgoes call hcall
        · obtain rfl := List.mem_singleton.1 hcall
          exact ⟨value, result, rfl, hbuild⟩
    | error err =>
      cases err with
      | engineHandler message result =>
        simp only [State.handled, hbuild, State.write]
        exact ⟨by rw [hwritten]; simp [worker, hbuild], False.elim⟩
      | unknownStatus =>
        simp only [State.handled, hbuild]
        exact ⟨by rw [hwritten]; simp [worker, hbuild], False.elim⟩

theorem written_step {s s' : State} {a : Action} (h : Written cfg s) (hstep : s.step cfg a = some s') :
    Written cfg s' := by
  -- the worker goes on only if it did so before
  have hsame : ∀ {t : State}, t.written = s.written → t.calls = s.calls → (t.worker.goesOn → s.worker.goesOn) →
      Written cfg t := by
    intro t hwritten hcalls hgoes
    exact ⟨by rw [hwritten, hcalls, h.written], fun hpc => hcalls ▸ h.goesOn (hgoes hpc)⟩
  unfold State.step at hstep
  split at hstep
  · split at hstep
    · cases hstep
      exact hsame rfl rfl id
    · cases hstep
  · cases a with
    | registered => cases hstep
    | read msg =>
      obtain ⟨-, hs⟩ := Option.ite_none_right_eq_some.1 hstep
      cases hs
      exact hsame rfl rfl id
    | readEnd how =>
      obtain ⟨-, hs⟩ := Option.ite_none_right_eq_some.1 hstep
      cases hs
      exact hsame rfl rfl id
    | stop =>
      obtain ⟨-, hs⟩ := Option.ite_none_right_eq_some.1 hstep
      cases hs
      exact hsame rfl rfl id
    | get =>
      simp only [State.stepTask] at hstep
      split at hstep
      · rename_i hpc _
        cases hstep
        exact hsame rfl rfl fun _ => by rw [hpc]; trivial
      · cases hstep
    | handled value =>
      simp only [State.stepTask] at hstep
      split at hstep
      · cases hstep
        exact h.handled ‹_› _
      · cases hstep
    | handleRaised =>
      simp only [State.stepTask] at hstep
      split at hstep
      · cases hstep
        exact h.handled ‹_› _
      · cases hstep
    | wrote ok =>
      simp only [State.stepTask] at hstep
      split at hstep
      · rename_i hpc
        cases hstep
        exact hsame rfl rfl fun _ => by rw [hpc]; trivial
      · cases hstep
        exact hsame rfl rfl False.elim
      · cases hstep
    | wake =>
      obtain ⟨-, hs⟩ := Option.ite_none_right_eq_some.1 hstep
      cases hs
      refine hsame rfl rfl fun hpc => ?_
      simp only [State.finish] at hpc
      split at hpc <;> exact hpc.elim
  · cases hstep

/-- The messages of `engine_loop` are the registration and the results of the worker's loop. -/
theorem run_written {as : List Action} {s : State} (h : (machine cfg).Run as s) : s.written =
    .register cfg.engineId cfg.allResponsesRequired :: (worker cfg.engineId s.calls).map FromEngine.result := by
  have hinit : Written cfg (machine cfg).init := ⟨rfl, fun _ _ hcall => absurd hcall List.not_mem_nil⟩
  exact (h.invariant hinit fun _ _ _ h _ hstep => written_step h hstep).written

end EngineRunner

namespace LocalEngine

variable {β : Type} {cd : Codec β} {cfg : Config} {s : State β}

/-- The results that `_run_engine` has sent: those that the server has read, and those that are still on the pipe or
in the hands of the executor. -/
def State.written (cd : Codec β) (s : State β) : List Result :=
  s.read ++ (match s.comm with
    | .received _ data => (cd.toResult data).toList
    | _ => []) ++ s.toServer.filterMap cd.toResult

/-- In every run of the local server, `_run_engine` has sent the results of its loop. -/
theorem run_written {as : List Action} (h : (machine cd cfg).Run as s) : ∃ jobs : List (Job × Handled),
    s.computed = jobs.map (fun job => job.1.computation job.2) ∧
      s.written cd = runEngine cfg.engineId (jobs.map fun job => (job.1.fromClient, .returned job.2)) := by
  have hresults : ∀ jobs : List (Job × Handled),
      runEngine cfg.engineId (jobs.map fun job => (job.1.fromClient, .returned job.2)) =
        jobs.map fun job => job.1.result cfg job.2 := by
    intro jobs
    induction jobs with
    | nil => rfl
    | cons job jobs ih => exact congrArg (List.cons _) ih
  obtain ⟨done, current, calls, -, hcomputed, hread, -, hphase⟩ := run_inLockstep h
  -- the job in work has a result on its way to the server, or has none yet
  obtain ⟨last, hcalls, hwritten⟩ : ∃ last : List (Job × Handled),
      calls = last.map (fun job => job.1.computation job.2) ∧
        s.written cd = s.read ++ last.map fun job => job.1.result cfg job.2 := by
    obtain ⟨inputQueue, comm, engine, toEngine, toServer, resultReady, callbacks, accepted, computed, read, sent⟩ := s
    simp only at hphase
    cases hphase with
    | noJob hcomm => exact ⟨[], rfl, by rcases hcomm with rfl | rfl | rfl | rfl <;> simp [State.written]⟩
    | sendingInput => exact ⟨[], rfl, by simp [State.written]⟩
    | inputSent => exact ⟨[], rfl, by simp [State.written]⟩
    | inputRead => exact ⟨[], rfl, by simp [State.written]⟩
    | bothSent hcomm => exact ⟨[], rfl, by rcases hcomm with rfl | rfl <;> simp [State.written]⟩
    | infoSent hcomm => exact ⟨[], rfl, by rcases hcomm with rfl | rfl <;> simp [State.written]⟩
    | handling hcomm => exact ⟨[], rfl, by rcases hcomm with rfl | rfl <;> simp [State.written]⟩
    | died hcomm => exact ⟨[], rfl, by rcases hcomm with rfl | rfl <;> simp [State.written]⟩
    | @answered job returned _ hcomm =>
      refine ⟨[(job, returned)], rfl, ?_⟩
      rcases hcomm with rfl | rfl <;> simp [State.written, cd.toResult_of]
    | @received job returned => exact ⟨[(job, returned)], rfl, by simp [State.written, cd.toResult_of]⟩
  refine ⟨done ++ last, ?_, ?_⟩
  · rw [hcomputed, hcalls, List.map_append]
  · rw [hwritten, hread, hresults, List.map_append]

end LocalEngine

end Gabriel
