import Gabriel.Local.Engine

/-!
# The local server and its engine work in lockstep

Neither the results nor the event say which input they are for.  The server sends the two messages of a job only when
the result of the previous job has been read, so at any time the pipe and the engine hold what belongs to one job:
`Phase` lists the stages of this job.  The event plays no role in it: when it is set too early, the executor's read
blocks until there is a result.  It is never set too late, because the selector reports the pipe as readable as long as
it holds a message.
-/

namespace Gabriel

namespace LocalEngine

variable {β : Type} {cd : Codec β} {cfg : Config} {s s' : State β} {job : Job}

/-- The result for a job if `handle` returns `r`. -/
def Job.result (cfg : Config) (job : Job) (r : Handled) : Result :=
  resultProto cfg.engineId job.fromClient.asInput.frameId r

/-- The call of `handle` for a job that returns `r`. -/
def Job.computation (job : Job) (r : Handled) : Computation :=
  { inputFrame := job.fromClient.asInput.inputFrame, clientInfo := job.clientInfo, returned := r }

/-- The call of `send_result` for a job if `handle` returns `r`. -/
def Job.sendResult (cfg : Config) (job : Job) (r : Handled) : SendResult :=
  { address := job.address
    producerId := job.fromClient.asInput.producerId
    engineId := cfg.engineId
    result := job.result cfg r
    returnToken := true }

@[simp] theorem resultProto_frameId (engineId : String) (frameId : Int) (r : Handled) :
    (resultProto engineId frameId r).frameId = frameId := by
  rcases r with ⟨_ | _, payload⟩ | _
  · simp only [resultProto]
    split
    · rfl
    · cases payload <;> rfl
  · rfl
  · rfl

/-- The stages of the job in work: where the server and the engine are, what is on the two directions of the pipe, and
the calls of `handle` made for the job. -/
inductive Phase (cd : Codec β) (cfg : Config) :
    Option Job → Comm β → EnginePc → List β → List β → List Computation → Prop
  | noJob {comm : Comm β} (hcomm : comm = .starting ∨ comm = .getting ∨ comm = .sendingResult ∨ comm = .stopped) :
      Phase cd cfg none comm .receiving [] [] []
  | sendingInput {job : Job} : Phase cd cfg (some job) (.sendingInput job) .receiving [] [] []
  | inputSent {job : Job} :
      Phase cd cfg (some job) (.sendingInfo job) .receiving [cd.ofFromClient job.fromClient] [] []
  | inputRead {job : Job} : Phase cd cfg (some job) (.sendingInfo job) (.gotInput job.fromClient) [] [] []
  | bothSent {job : Job} {comm : Comm β} (hcomm : comm = .waiting job ∨ comm = .receiving job) :
      Phase cd cfg (some job) comm .receiving [cd.ofFromClient job.fromClient, cd.ofAny job.clientInfo] [] []
  | infoSent {job : Job} {comm : Comm β} (hcomm : comm = .waiting job ∨ comm = .receiving job) :
      Phase cd cfg (some job) comm (.gotInput job.fromClient) [cd.ofAny job.clientInfo] [] []
  | handling {job : Job} {comm : Comm β} (hcomm : comm = .waiting job ∨ comm = .receiving job) :
      Phase cd cfg (some job) comm (.handling job.fromClient job.clientInfo) [] [] []
  | died {job : Job} {comm : Comm β} (hcomm : comm = .waiting job ∨ comm = .receiving job) :
      Phase cd cfg (some job) comm .dead [] [] []
  | answered {job : Job} {r : Handled} {comm : Comm β} (hcomm : comm = .waiting job ∨ comm = .receiving job) :
      Phase cd cfg (some job) comm .receiving [] [cd.ofResult (job.result cfg r)] [job.computation r]
  | received {job : Job} {r : Handled} :
      Phase cd cfg (some job) (.received job (cd.ofResult (job.result cfg r))) .receiving [] [] [job.computation r]

/-- The jobs `done` were worked off one after the other, and `current` is in work. -/
structure Lockstep (cd : Codec β) (cfg : Config) (s : State β) (done : List (Job × Handled)) (current : Option Job)
    (calls : List Computation) : Prop where
  accepted : s.accepted = done.map (·.1) ++ current.toList ++ s.inputQueue
  computed : s.computed = done.map (fun x => x.1.computation x.2) ++ calls
  read : s.read = done.map fun x => x.1.result cfg x.2
  sent : s.sent = done.map fun x => x.1.sendResult cfg x.2
  phase : Phase cd cfg current s.comm s.engine s.toEngine s.toServer calls

/-- Some jobs are done and at most one is in work. -/
def InLockstep (cd : Codec β) (cfg : Config) (s : State β) : Prop :=
  ∃ done current calls, Lockstep cd cfg s done current calls

/-- What the engine makes of the second message of a job. -/
theorem toAny_ofAny (a : AnyProto) :
    (if cd.isEmpty (cd.ofAny a) then some {} else cd.toAny (cd.ofAny a)) = some a := by
  split
  · rename_i hempty
    rw [cd.eq_default_of_isEmpty a hempty]
  · exact cd.toAny_of a

theorem step_inLockstep {a : Action} (h : InLockstep cd cfg s) (hstep : step cd cfg s a = some s') :
    InLockstep cd cfg s' := by
  obtain ⟨done, current, calls, haccepted, hcomputed, hread, hsent, hphase⟩ := h
  obtain ⟨inputQueue, comm, engine, toEngine, toServer, resultReady, callbacks, accepted, computed, read, sent⟩ := s
  simp only at haccepted hcomputed hread hsent hphase
  cases a with
  | sendToEngine job =>
    cases hstep
    unfold sendToEngine
    split
    · exact ⟨done, current, calls, haccepted, hcomputed, hread, hsent, hphase⟩
    · refine ⟨done, current, calls, ?_, hcomputed, hread, hsent, hphase⟩
      simp [haccepted]
  | poll =>
    simp only [step] at hstep
    split at hstep
    · cases hstep
      exact ⟨done, current, calls, haccepted, hcomputed, hread, hsent, hphase⟩
    · cases hstep
  | fire =>
    cases callbacks with
    | zero => cases hstep
    | succ n =>
      cases hstep
      exact ⟨done, current, calls, haccepted, hcomputed, hread, hsent, hphase⟩
  | start isRunning =>
    cases comm <;> cases hstep
    cases hphase
    case noJob =>
      have hcomm : loopTest isRunning = (.getting : Comm β) ∨ loopTest isRunning = (.stopped : Comm β) := by
        cases isRunning <;> simp [loopTest]
      exact ⟨done, none, [], haccepted, hcomputed, hread, hsent, .noJob (by tauto)⟩
    all_goals rename_i hcomm; simp at hcomm
  | get =>
    cases comm <;> cases inputQueue <;> cases hstep
    rename_i job rest
    cases hphase
    case noJob => exact ⟨done, some job, [], by simpa using haccepted, hcomputed, hread, hsent, .sendingInput⟩
    all_goals rename_i hcomm; simp at hcomm
  | inputSent =>
    cases comm <;> cases hstep
    cases hphase
    case sendingInput => exact ⟨done, _, [], haccepted, hcomputed, hread, hsent, .inputSent⟩
    all_goals rename_i hcomm; simp at hcomm
  | infoSent =>
    cases comm <;> cases hstep
    cases hphase
    case inputSent => exact ⟨done, _, [], haccepted, hcomputed, hread, hsent, .bothSent (Or.inl rfl)⟩
    case inputRead => exact ⟨done, _, [], haccepted, hcomputed, hread, hsent, .infoSent (Or.inl rfl)⟩
    all_goals rename_i hcomm; simp at hcomm
  | wake =>
    cases comm <;> cases resultReady <;> cases hstep
    cases hphase with
    | noJob hcomm => simp at hcomm
    | bothSent hcomm =>
      cases hcomm.resolve_right (by simp)
      exact ⟨done, _, [], haccepted, hcomputed, hread, hsent, .bothSent (Or.inr rfl)⟩
    | infoSent hcomm =>
      cases hcomm.resolve_right (by simp)
      exact ⟨done, _, [], haccepted, hcomputed, hread, hsent, .infoSent (Or.inr rfl)⟩
    | handling hcomm =>
      cases hcomm.resolve_right (by simp)
      exact ⟨done, _, [], haccepted, hcomputed, hread, hsent, .handling (Or.inr rfl)⟩
    | died hcomm =>
      cases hcomm.resolve_right (by simp)
      exact ⟨done, _, [], haccepted, hcomputed, hread, hsent, .died (Or.inr rfl)⟩
    | answered hcomm =>
      cases hcomm.resolve_right (by simp)
      exact ⟨done, _, _, haccepted, hcomputed, hread, hsent, .answered (Or.inr rfl)⟩
  | recv =>
    cases comm <;> cases toServer <;> cases hstep
    cases hphase with
    | answered hcomm =>
      cases hcomm.resolve_left (by simp)
      exact ⟨done, _, _, haccepted, hcomputed, hread, hsent, .received⟩
  | resume =>
    cases comm <;> cases hstep
    cases hphase
    case received job r =>
      refine ⟨done ++ [(job, r)], none, [], ?_⟩
      unfold resume
      rw [cd.toResult_of]
      refine ⟨by simpa using haccepted, by simpa using hcomputed, by simp [hread], ?_, .noJob (by simp)⟩
      simp [hsent, Job.sendResult]
    all_goals rename_i hcomm; simp at hcomm
  | resultSent raises isRunning =>
    cases comm <;> cases hstep
    cases hphase
    case noJob =>
      have hcomm : (if raises then .stopped else loopTest isRunning) = (.getting : Comm β) ∨
          (if raises then .stopped else loopTest isRunning) = (.stopped : Comm β) := by
        cases raises <;> cases isRunning <;> simp [loopTest]
      exact ⟨done, none, [], haccepted, hcomputed, hread, hsent, .noJob (by tauto)⟩
    all_goals rename_i hcomm; simp at hcomm
  | engineRecv =>
    cases hphase with
    | inputSent =>
      simp only [step, engineRecv, cd.toFromClient_of, Option.some.injEq] at hstep
      subst hstep
      exact ⟨done, _, [], haccepted, hcomputed, hread, hsent, .inputRead⟩
    | bothSent hcomm =>
      simp only [step, engineRecv, cd.toFromClient_of, Option.some.injEq] at hstep
      subst hstep
      exact ⟨done, _, [], haccepted, hcomputed, hread, hsent, .infoSent hcomm⟩
    | infoSent hcomm =>
      simp only [step, engineRecv, toAny_ofAny, Option.some.injEq] at hstep
      subst hstep
      exact ⟨done, _, [], haccepted, hcomputed, hread, hsent, .handling hcomm⟩
    | _ => cases hstep
  | handled returned =>
    cases hphase with
    | @handling job comm hcomm =>
      cases hstep
      exact ⟨done, some job, [job.computation returned], haccepted,
        by simpa [Job.computation] using hcomputed, hread, hsent, .answered hcomm⟩
    | _ => cases hstep
  | handleRaised =>
    cases hphase with
    | handling hcomm =>
      cases hstep
      exact ⟨done, _, [], haccepted, hcomputed, hread, hsent, .died hcomm⟩
    | _ => cases hstep

theorem run_inLockstep {as : List Action} (h : (machine cd cfg).Run as s) : InLockstep cd cfg s :=
  h.invariant (I := InLockstep cd cfg) ⟨[], none, [], rfl, rfl, rfl, rfl, .noJob (Or.inl rfl)⟩
    fun _ _ _ hI _ hstep => step_inLockstep hI hstep

/-- If the server waits for the event while a result is on the pipe, the selector finds the pipe readable, its callback
wakes the server, and the result is read. -/
private theorem waiting_read (h : InLockstep cd cfg s) (hcomm : s.comm = .waiting job) (hunread : s.toServer ≠ []) :
    ∃ s', (machine cd cfg).exec s [.poll, .fire, .wake, .recv, .resume] = some s' ∧
      s'.read.length = s.read.length + 1 := by
  obtain ⟨done, current, calls, -, -, -, -, hphase⟩ := h
  obtain ⟨inputQueue, comm, engine, toEngine, toServer, resultReady, callbacks, accepted, computed, read, sent⟩ := s
  obtain rfl : comm = .waiting job := hcomm
  cases hphase
  case answered => exact ⟨_, rfl, by simp [resume, cd.toResult_of]⟩
  all_goals exact absurd rfl hunread

/-- The `i`-th result that the server reads is the one the engine computed from the `i`-th accepted input and its client
info.  It has the frame id of that input, and `send_result` is called for it once, with the address and producer of
that input and with the token.  The server does not wait for the event forever while a result is unread. -/
theorem results_in_lockstep {as : List Action} (h : (machine cd cfg).Run as s) :
    s.sent.length = s.read.length ∧
    (∀ (i : Nat) (result : Result), s.read[i]? = some result → ∃ (job : Job) (returned : Handled),
      s.accepted[i]? = some job ∧
      s.computed[i]? = some
        { inputFrame := job.fromClient.asInput.inputFrame
          clientInfo := job.clientInfo
          returned := returned } ∧
      result = resultProto cfg.engineId job.fromClient.asInput.frameId returned ∧
      result.frameId = job.fromClient.asInput.frameId ∧
      s.sent[i]? = some
        { address := job.address
          producerId := job.fromClient.asInput.producerId
          engineId := cfg.engineId
          result := result
          returnToken := true }) ∧
    ∀ job, s.comm = .waiting job → s.toServer ≠ [] →
      ∃ s', (machine cd cfg).exec s [.poll, .fire, .wake, .recv, .resume] = some s' ∧
        s'.read.length = s.read.length + 1 := by
  have hinv := run_inLockstep h
  obtain ⟨done, current, calls, haccepted, hcomputed, hread, hsent, -⟩ := hinv
  refine ⟨by simp [hread, hsent], fun i result hresult => ?_, fun job => waiting_read (run_inLockstep h)⟩
  rw [hread, List.getElem?_map, Option.map_eq_some_iff] at hresult
  obtain ⟨⟨job, returned⟩, hjob, rfl⟩ := hresult
  have hlt : i < done.length := (List.getElem?_eq_some_iff.1 hjob).1
  refine ⟨job, returned, ?_, ?_, rfl, by simp [Job.result], ?_⟩
  · rw [haccepted, List.append_assoc, List.getElem?_append_left (by simpa using hlt), List.getElem?_map, hjob]
    rfl
  · rw [hcomputed, List.getElem?_append_left (by simpa using hlt), List.getElem?_map, hjob]
    rfl
  · rw [hsent, List.getElem?_map, hjob]
    rfl

/-- Messages that are not serialised at all. -/
inductive Plain
  | fromClient (m : FromClient)
  | any (a : AnyProto)
  | result (r : Result)
  deriving DecidableEq

/-- The serialisation of `Plain` messages. -/
def Plain.codec : Codec Plain where
  ofFromClient := .fromClient
  toFromClient m := match m with | .fromClient m => some m | _ => none
  ofAny := .any
  toAny m := match m with | .any a => some a | _ => none
  isEmpty m := match m with | .any a => a = {} | _ => false
  ofResult := .result
  toResult m := match m with | .result r => some r | _ => none
  toFromClient_of _ := rfl
  toAny_of _ := rfl
  eq_default_of_isEmpty _ h := of_decide_eq_true h
  toResult_of _ := rfl

/-- Two clients send one input each.  The event is set again while the first result is read, so that the server is
woken for the second result before the engine has computed it. -/
theorem results_in_lockstep_of_two_clients :
    ∃ as s, (machine Plain.codec { engineId := "E", inputQueueMaxsize := 2 }).Run as s ∧ s.read.length = 2 ∧
      s.sent.length = s.read.length ∧
      (∀ (i : Nat) (result : Result), s.read[i]? = some result → ∃ (job : Job) (returned : Handled),
        s.accepted[i]? = some job ∧
        s.computed[i]? = some
          { inputFrame := job.fromClient.asInput.inputFrame
            clientInfo := job.clientInfo
            returned := returned } ∧
        result = resultProto "E" job.fromClient.asInput.frameId returned ∧
        result.frameId = job.fromClient.asInput.frameId ∧
        s.sent[i]? = some
          { address := job.address
            producerId := job.fromClient.asInput.producerId
            engineId := "E"
            result := result
            returnToken := true }) := by
  obtain ⟨s, hrun, hread⟩ := Machine.exists_run
    (M := machine Plain.codec { engineId := "E", inputQueueMaxsize := 2 }) (fun s => s.read.length = 2)
    [.start true, .sendToEngine ⟨.input { frameId := 7, producerId := "p" }, "one", {}⟩, .get,
      .sendToEngine ⟨.input { frameId := 3, producerId := "q" }, "two", { typeUrl := "t" }⟩, .inputSent, .engineRecv,
      .infoSent, .engineRecv, .handled (.result (.status { code := .success }) (.str "first")), .poll, .poll, .fire,
      .wake, .fire, .recv, .resume, .resultSent false true, .get, .inputSent, .infoSent, .wake, .engineRecv,
      .engineRecv, .handled (.other "<class 'int'>"), .recv, .resume] (by decide)
  obtain ⟨hsent, hresults, -⟩ := results_in_lockstep hrun
  exact ⟨_, s, hrun, hread, hsent, hresults⟩

end LocalEngine

end Gabriel
