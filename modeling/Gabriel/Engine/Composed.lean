import Gabriel.Engine.Agreement
import Gabriel.Server.Attribution

/-!
# The server and its engines

The server together with any number of `EngineRunner`s, each at the other end of the stream of an `EngineSession`.
The messages of a stream arrive in order: the reader of an engine gets those that the server wrote to its context, the
session those that the engine gave to `call.write`.  The clients, and the ends of the streams, are free.

A `Result` of an engine does not name its input, and the server attributes it to the input it wrote last
(`Gabriel.Server.Attribution`).  An `EngineRunner` works on its inputs one after the other and writes one message for
each of them, so what a client gets for a frame was computed by `handle` from that frame (`results_computed`).
-/

namespace Gabriel

open DispatchLog

/-- The message that an event writes to the stream of `c`. -/
@[simp] def DispatchEvent.writtenMessage (c : Context) : DispatchEvent → Option ToEngine
  | .wrote c' msg _ => if c' = c then some msg else none
  | _ => none

/-- The messages that were written to the stream of `c`. -/
def DispatchLog.messagesTo (l : List DispatchEvent) (c : Context) : List ToEngine := l.filterMap (DispatchEvent.writtenMessage c)

/-- The messages on a stream are those of the inputs that were written to it. -/
theorem Dispatcher.WritesInputs.messagesTo {d : Dispatcher} (h : d.WritesInputs) (c : Context) :
    messagesTo d.log c = (writtenTo d.log c).map MetadataPayload.toEngine := by
  unfold DispatchLog.messagesTo writtenTo
  rw [List.map_filterMap]
  refine List.filterMap_congr fun e he => ?_
  cases e with
  | wrote c' msg mp =>
    simp only [DispatchEvent.writtenMessage, DispatchEvent.writtenInput]
    split
    · simp [h c' msg mp he]
    · rfl
  | _ => rfl

/-! ### The inputs of an engine -/

namespace EngineRunner

open LocalEngine (Handled Outcome)

/-- The result that the worker writes if `handle` returns `value`. -/
def resultFor (engineId : String) (value : Handled) : Option Result :=
  match buildResultProto engineId value with
  | .ok result => some result
  | .error (.engineHandler _ result) => some result
  | .error .unknownStatus => none

/-- The `k`-th result of the worker is that of its `k`-th call of `handle`. -/
theorem worker_getElem? {engineId : String} {calls : List (ToEngine × Outcome)} {k : Nat} {r : Result}
    (h : (worker engineId calls)[k]? = some r) :
    ∃ msg value, calls[k]? = some (msg, .returned value) ∧ resultFor engineId value = some r := by
  induction calls generalizing k with
  | nil => cases h
  | cons call calls ih =>
    obtain ⟨msg, value | _⟩ := call
    · cases hbuild : buildResultProto engineId value with
      | ok result =>
        simp only [worker, hbuild] at h
        cases k with
        | zero =>
          obtain rfl := Option.some.inj h
          exact ⟨msg, value, rfl, by simp [resultFor, hbuild]⟩
        | succ k => exact ih h
      | error err =>
        cases err with
        | engineHandler message result =>
          simp only [worker, hbuild] at h
          cases k with
          | zero =>
            obtain rfl := Option.some.inj h
            exact ⟨msg, value, rfl, by simp [resultFor, hbuild]⟩
          | succ k => cases h
        | unknownStatus =>
          simp only [worker, hbuild] at h
          cases h
    · cases h

/-- The input that the reader gets. -/
def Action.input : Action → Option ToEngine
  | .read msg => some msg
  | _ => none

/-- The inputs that the reader gets in a run. -/
def inputs (as : List Action) : List ToEngine := as.filterMap Action.input

/-- The input that `handle` runs on. -/
def WorkerPc.inHand : WorkerPc → List ToEngine
  | .handling msg => [msg]
  | _ => []

/-- The worker takes the inputs one after the other; once it has ended it may leave some of them. -/
structure Consumes (read : List ToEngine) (s : State) : Prop where
  calls : s.calls.map Prod.fst <+: read
  goesOn : s.worker.goesOn → s.calls.map Prod.fst ++ s.worker.inHand ++ s.frameQueue = read

variable {cfg : Config} {s s' : State} {read : List ToEngine}

/-- A step that leaves the worker and its queue alone, or ends the worker. -/
theorem Consumes.of_eq (h : Consumes read s) (hcalls : s'.calls = s.calls)
    (hgoes : s'.worker.goesOn → s.worker.goesOn ∧ s'.worker.inHand ++ s'.frameQueue = s.worker.inHand ++ s.frameQueue) :
    Consumes read s' := by
  refine ⟨hcalls ▸ h.calls, fun hpc => ?_⟩
  obtain ⟨hpc, heq⟩ := hgoes hpc
  rw [hcalls, List.append_assoc, heq, ← List.append_assoc]
  exact h.goesOn hpc

theorem Consumes.handled {msg : ToEngine} (h : Consumes read s) (hpc : s.worker = .handling msg) (outcome : Outcome) :
    Consumes read (s.handled cfg msg outcome) := by
  have hread := h.goesOn (by rw [hpc]; trivial)
  rw [hpc] at hread
  have hnew : ∀ t : State, t.calls = s.calls ++ [(msg, outcome)] → t.frameQueue = s.frameQueue →
      t.worker.inHand = [] → Consumes read t := by
    intro t hcalls hqueue hhand
    have heq : t.calls.map Prod.fst ++ t.worker.inHand ++ t.frameQueue = read := by
      rw [hcalls, hqueue, hhand, ← hread]
      simp [WorkerPc.inHand]
    exact ⟨⟨t.frameQueue, by simpa [hhand] using heq⟩, fun _ => heq⟩
  cases outcome with
  | raised => exact hnew _ rfl rfl rfl
  | returned value =>
    simp only [State.handled]
    split
    · exact hnew _ rfl rfl rfl
    · exact hnew _ rfl rfl rfl
    · exact hnew _ rfl rfl rfl

theorem consumes_stepTask {a : Action} (h : Consumes read s) (hstep : s.stepTask cfg a = some s') :
    Consumes (read ++ a.input.toList) s' := by
  have hsame : a.input = none → Consumes read s' → Consumes (read ++ a.input.toList) s' := by
    intro hnone h'
    simpa [hnone] using h'
  cases a with
  | registered => cases hstep
  | read msg =>
    obtain ⟨-, hs⟩ := Option.ite_none_right_eq_some.1 hstep
    cases hs
    refine ⟨h.calls.trans (List.prefix_append _ _), fun hpc => ?_⟩
    rw [← List.append_assoc, h.goesOn hpc]
    rfl
  | readEnd how =>
    obtain ⟨-, hs⟩ := Option.ite_none_right_eq_some.1 hstep
    cases hs
    exact hsame rfl (h.of_eq rfl fun hpc => ⟨hpc, rfl⟩)
  | stop =>
    obtain ⟨-, hs⟩ := Option.ite_none_right_eq_some.1 hstep
    cases hs
    exact hsame rfl (h.of_eq rfl fun hpc => ⟨hpc, rfl⟩)
  | get =>
    simp only [State.stepTask] at hstep
    split at hstep
    · rename_i hpc hqueue
      cases hstep
      exact hsame rfl (h.of_eq rfl fun _ => ⟨by rw [hpc]; trivial, by rw [hpc, hqueue]; rfl⟩)
    · cases hstep
  | handled value =>
    simp only [State.stepTask] at hstep
    split at hstep
    · cases hstep
      exact hsame rfl (h.handled ‹_› _)
    · cases hstep
  | handleRaised =>
    simp only [State.stepTask] at hstep
    split at hstep
    · cases hstep
      exact hsame rfl (h.handled ‹_› _)
    · cases hstep
  | wrote ok =>
    simp only [State.stepTask] at hstep
    split at hstep
    · rename_i hpc
      cases hstep
      cases ok with
      | true => exact hsame rfl (h.of_eq rfl fun _ => ⟨by rw [hpc]; trivial, by rw [hpc]; rfl⟩)
      | false => exact hsame rfl (h.of_eq rfl False.elim)
    · cases hstep
      exact hsame rfl (h.of_eq rfl False.elim)
    · cases hstep
  | wake =>
    obtain ⟨-, hs⟩ := Option.ite_none_right_eq_some.1 hstep
    cases hs
    have hended : s.finish.worker.goesOn → False := by
      intro hpc
      simp only [State.finish] at hpc
      split at hpc <;> exact hpc
    exact hsame rfl (h.of_eq rfl fun hpc => (hended hpc).elim)

/-- The worker calls `handle` on the inputs of the stream, in order. -/
theorem run_consumes {as : List Action} (h : (machine cfg).Run as s) : Consumes (inputs as) s := by
  induction h with
  | init => exact ⟨List.prefix_rfl, fun _ => rfl⟩
  | @step as s s' a _ _ hstep ih =>
    have hinputs : inputs (as ++ [a]) = inputs as ++ a.input.toList := by
      cases a <;> simp [inputs, Action.input]
    rw [hinputs]
    simp only [machine, State.step] at hstep
    split at hstep
    · split at hstep
      · cases hstep
        simp only [Action.input, Option.toList_none, List.append_nil]
        exact ih.of_eq rfl fun hpc => ⟨hpc, rfl⟩
      · cases hstep
    · exact consumes_stepTask ih hstep
    · cases hstep

end EngineRunner

/-! ### The composed system -/

namespace Deployment

open Interleaved (Sys SessionPc)

/-- An engine at the other end of a stream, the number of messages that its reader has got, and the number of its own
messages that the session has taken up. -/
structure Link where
  cfg : EngineRunner.Config
  state : EngineRunner.State
  read : Nat := 0
  taken : Nat := 0

/-- A new engine. -/
def Link.start (cfg : EngineRunner.Config) : Link := { cfg := cfg, state := (EngineRunner.machine cfg).init }

structure World where
  sys : Sys := {}
  engines : Context → Option Link := fun _ => none

inductive Action
  /-- An engine opens a stream. -/
  | connect (cfg : EngineRunner.Config)
  /-- A step of an engine other than the reading of an input. -/
  | engine (c : Context) (act : EngineRunner.Action)
  /-- The reader of an engine gets its next input. -/
  | readInput (c : Context)
  /-- A session takes up the next message of its engine. -/
  | takeUp (c : Context)
  /-- A client, or a session that is suspended or ends. -/
  | server (act : Interleaved.Action)

namespace World

def setEngine (w : World) (c : Context) (link : Link) : World :=
  { w with engines := Function.update w.engines c (some link) }

/-- The messages on the stream to an engine. -/
def messagesTo (w : World) (c : Context) : List ToEngine := DispatchLog.messagesTo w.sys.server.dispatcher.log c

end World

/-- The action does not speak for an engine. -/
def foreign : Interleaved.Action → Bool
  | .openSession | .engineMessage _ _ => false
  | _ => true

def step (cfg : Config) (w : World) : Action → Option World
  | .connect engineCfg => do
    let sys ← Interleaved.step cfg w.sys .openSession
    return { w with sys := sys }.setEngine w.sys.server.dispatcher.nextContext (.start engineCfg)
  | .engine c act => do
    let link ← w.engines c
    if act.input = none then
      let state ← link.state.step link.cfg act
      return w.setEngine c { link with state := state }
    else none
  | .readInput c => do
    let link ← w.engines c
    let msg ← (w.messagesTo c)[link.read]?
    let state ← link.state.step link.cfg (.read msg)
    return w.setEngine c { link with state := state, read := link.read + 1 }
  | .takeUp c => do
    let link ← w.engines c
    let msg ← link.state.written[link.taken]?
    let sys ← Interleaved.step cfg w.sys (.engineMessage c msg)
    return { w with sys := sys }.setEngine c { link with taken := link.taken + 1 }
  | .server act =>
    if foreign act then (Interleaved.step cfg w.sys act).map fun sys => { w with sys := sys } else none

/-- The server with its engines. -/
def machine (cfg : Config) : Machine World Action := { init := {}, step := step cfg }

variable {cfg : Config} {w w' : World} {c : Context} {link : Link}

/-- What a step of the composed system can do. -/
inductive Step (cfg : Config) (w : World) : Action → World → Prop
  | connect {engineCfg : EngineRunner.Config} {sys : Sys}
      (hstep : Interleaved.step cfg w.sys .openSession = some sys) :
      Step cfg w (.connect engineCfg)
        ({ w with sys := sys }.setEngine w.sys.server.dispatcher.nextContext (.start engineCfg))
  | engine {c : Context} {act : EngineRunner.Action} {link : Link} {state : EngineRunner.State}
      (hc : w.engines c = some link) (hact : act.input = none) (hstep : link.state.step link.cfg act = some state) :
      Step cfg w (.engine c act) (w.setEngine c { link with state := state })
  | readInput {c : Context} {link : Link} {msg : ToEngine} {state : EngineRunner.State}
      (hc : w.engines c = some link) (hmsg : (w.messagesTo c)[link.read]? = some msg)
      (hstep : link.state.step link.cfg (.read msg) = some state) :
      Step cfg w (.readInput c) (w.setEngine c { link with state := state, read := link.read + 1 })
  | takeUp {c : Context} {link : Link} {msg : FromEngine} {sys : Sys} (hc : w.engines c = some link)
      (hmsg : link.state.written[link.taken]? = some msg)
      (hstep : Interleaved.step cfg w.sys (.engineMessage c msg) = some sys) :
      Step cfg w (.takeUp c) ({ w with sys := sys }.setEngine c { link with taken := link.taken + 1 })
  | server {act : Interleaved.Action} {sys : Sys} (hact : foreign act = true)
      (hstep : Interleaved.step cfg w.sys act = some sys) : Step cfg w (.server act) { w with sys := sys }

theorem step_cases {act : Action} (h : step cfg w act = some w') : Step cfg w act w' := by
  cases act with
  | connect engineCfg =>
    obtain rfl := Option.some.inj h
    exact .connect rfl
  | engine c act =>
    obtain ⟨link, hc, h⟩ := Option.bind_eq_some_iff.1 h
    split at h
    · obtain ⟨state, hstep, h⟩ := Option.bind_eq_some_iff.1 h
      cases h
      exact .engine hc ‹_› hstep
    · cases h
  | readInput c =>
    obtain ⟨link, hc, h⟩ := Option.bind_eq_some_iff.1 h
    obtain ⟨msg, hmsg, h⟩ := Option.bind_eq_some_iff.1 h
    obtain ⟨state, hstep, h⟩ := Option.bind_eq_some_iff.1 h
    cases h
    exact .readInput hc hmsg hstep
  | takeUp c =>
    obtain ⟨link, hc, h⟩ := Option.bind_eq_some_iff.1 h
    obtain ⟨msg, hmsg, h⟩ := Option.bind_eq_some_iff.1 h
    obtain ⟨sys, hstep, h⟩ := Option.bind_eq_some_iff.1 h
    cases h
    exact .takeUp hc hmsg hstep
  | server act =>
    simp only [step] at h
    split at h
    · obtain ⟨sys, hstep, rfl⟩ := Option.map_eq_some_iff.1 h
      exact .server ‹_› hstep
    · cases h

/-- A run of the composed system is one of the server. -/
theorem run_server {as : List Action} (h : (machine cfg).Run as w) : ∃ bs, (Interleaved.machine cfg).Run bs w.sys := by
  refine h.refines World.sys rfl fun w act w' _ hstep => ?_
  cases step_cases hstep with
  | connect hsys => exact Or.inr ⟨.openSession, trivial, hsys⟩
  | engine => exact Or.inl rfl
  | readInput => exact Or.inl rfl
  | @takeUp c _ msg _ _ _ hsys => exact Or.inr ⟨.engineMessage c msg, trivial, hsys⟩
  | server _ hsys => exact Or.inr ⟨_, trivial, hsys⟩

end Deployment

/-! ### What the server reads from an engine -/

namespace Interleaved

variable {cfg : Config} {s s' : Server} {sys sys' : Sys} {act : Action} {c c' : Context} {msg : FromEngine}

theorem Removals.results (h : Removals s s') : results s'.dispatcher.log c = results s.dispatcher.log c := by
  refine h.dispatcher (P := fun d => DispatchLog.results d.log c = DispatchLog.results s.dispatcher.log c)
    (fun h hd => ?_) (fun _ hd => by simpa using hd) rfl
  cases h with
  | silent => exact hd
  | released => simpa using hd

theorem SessionStep.results {pc pc' : SessionPc} (h : SessionStep act c' pc s s' pc')
    (hact : ∀ msg, act = .engineMessage c msg → ∃ id ar, msg = .register id ar) :
    results s'.dispatcher.log c = results s.dispatcher.log c := by
  have hread : ∀ msg, act = .engineMessage c' msg → (∀ id ar, msg ≠ .register id ar) →
      DispatchLog.results (s.dispatcher.emit (.gotResult c' msg.asResult)).log c =
        DispatchLog.results s.dispatcher.log c := by
    intro msg ha hne
    have hother : c' ≠ c := by
      rintro rfl
      obtain ⟨id, ar, rfl⟩ := hact msg ha
      exact hne id ar rfl
    simp [hother]
  cases h with
  | read ha hmsg => exact hread _ ha hmsg
  | unread ha hmsg => exact hread _ ha hmsg
  | forwarded _ h => exact h.results
  | stopped _ h => exact h.results
  | unsent _ h hnext => exact hnext.results.trans h.results
  | fed _ hnext => exact hnext.results
  | inserted _ _ _ h => exact h.results
  | takeover _ h => exact h.results
  | managed h => exact h.results

/-- A result of `c` is read only by taking up a message of `c`. -/
theorem results_step (hstep : step cfg sys act = some sys')
    (hact : ∀ msg, act = .engineMessage c msg → ∃ id ar, msg = .register id ar) :
    results sys'.server.dispatcher.log c = results sys.server.dispatcher.log c := by
  cases step_outline hstep with
  | stream _ _ h =>
    refine h.invariant (P := fun d => DispatchLog.results d.log c = DispatchLog.results sys.server.dispatcher.log c)
      (fun h hd => ?_) rfl
    cases h with
    | sent c mp b => cases b <;> simpa using hd
    | _ => simpa using hd
  | opened _ h => rw [h]; rfl
  | session _ _ h => exact h.results hact

/-- A session that waits for a result reads it. -/
theorem results_engineMessage (hstep : step cfg sys (.engineMessage c msg) = some sys')
    (hidle : sys.sessions c = some .idle) (hmsg : ∀ id ar, msg ≠ .register id ar) :
    results sys'.server.dispatcher.log c = results sys.server.dispatcher.log c ++ [msg.asResult] := by
  simp only [step, hidle, Option.some.injEq] at hstep
  subst hstep
  have hlog : (nextMessage sys.server c msg).1.dispatcher = sys.server.dispatcher.emit (.gotResult c msg.asResult) := by
    cases msg with
    | register id ar => exact absurd rfl (hmsg id ar)
    | unset => simp only [nextMessage]; split <;> rfl
    | result r => simp only [nextMessage]; split <;> rfl
  simp [Sys.setSession, hlog]

/-- The session waits for its first message, or has ended. -/
def Sys.Unstarted (sys : Sys) (c : Context) : Prop :=
  sys.sessions c = some .connected ∨ ∃ err, sys.sessions c = some (.finished err)

/-- A session stays in the table. -/
theorem opened_step (hstep : step cfg sys act = some sys') (h : (sys.sessions c).isSome) :
    (sys'.sessions c).isSome := by
  have hupdate : ∀ c₀ pc, (Function.update sys.sessions c₀ (some pc) c).isSome := by
    intro c₀ pc
    by_cases he : c = c₀
    · rw [he, Function.update_self]
      rfl
    · rwa [Function.update_of_ne he]
  cases step_outline hstep with
  | stream _ _ _ hsessions => rwa [hsessions]
  | opened _ _ hsessions => rw [hsessions]; exact hupdate _ _
  | session _ _ _ hsessions => rw [hsessions]; exact hupdate _ _

/-- A session is opened as the next one. -/
theorem unopened_step (hstep : step cfg sys act = some sys')
    (hact : act = .openSession → c ≠ sys.server.dispatcher.nextContext) (h : sys.sessions c = none) :
    sys'.sessions c = none := by
  cases step_outline hstep with
  | stream _ _ _ hsessions => rwa [hsessions]
  | opened ha _ hsessions => rwa [hsessions, Function.update_of_ne (hact ha)]
  | @session c₀ _ _ _ hc _ hsessions =>
    have hne : c ≠ c₀ := by
      rintro rfl
      rw [h] at hc
      cases hc
    rwa [hsessions, Function.update_of_ne hne]

/-- Only its first message starts a session. -/
theorem unstarted_step (hstep : step cfg sys act = some sys')
    (hfresh : ∀ c, sys.server.dispatcher.nextContext ≤ c → sys.sessions c = none)
    (hact : ∀ msg, act ≠ .engineMessage c msg) (h : sys.Unstarted c) : sys'.Unstarted c := by
  by_cases hown : act.session = some c
  · cases act with
    | engineMessage c₀ msg =>
      obtain rfl := Option.some.inj hown
      exact absurd rfl (hact msg)
    | resumeSession c₀ raises b =>
      obtain rfl := Option.some.inj hown
      rcases h with hc | ⟨err, hc⟩ <;> simp [step, hc, resumeSession] at hstep
    | closeSession c₀ =>
      obtain rfl := Option.some.inj hown
      rcases h with hc | ⟨err, hc⟩
      · simp only [step, hc, closeSession, Option.bind_eq_bind, Option.bind_some, Option.pure_def,
          Option.some.injEq] at hstep
        subst hstep
        exact Or.inr ⟨none, by simp [Sys.setSession]⟩
      · simp [step, hc, closeSession] at hstep
    | _ => cases hown
  · rcases h with hc | ⟨err, hc⟩
    · exact Or.inl (sessions_of_other hstep hfresh hown hc)
    · exact Or.inr ⟨err, sessions_of_other hstep hfresh hown hc⟩

/-- A session waits for its first message only from its start on. -/
theorem connected_step (hstep : step cfg sys act = some sys') (hc : sys'.sessions c = some .connected) :
    (act = .openSession ∧ c = sys.server.dispatcher.nextContext) ∨
      (act.session ≠ some c ∧ sys.sessions c = some .connected) := by
  cases step_outline hstep with
  | stream hact _ _ hsessions => exact Or.inr ⟨by simp [hact], hsessions ▸ hc⟩
  | opened hact _ hsessions =>
    rw [hsessions] at hc
    by_cases he : c = sys.server.dispatcher.nextContext
    · exact Or.inl ⟨hact, he⟩
    · exact Or.inr ⟨by simp [hact, Action.session], by rwa [Function.update_of_ne he] at hc⟩
  | @session c₀ pc pc' hact _ h hsessions =>
    rw [hsessions] at hc
    by_cases he : c = c₀
    · subst he
      rw [Function.update_self, Option.some.injEq] at hc
      subst hc
      generalize sys'.server = s' at h
      cases h <;> contradiction
    · exact Or.inr ⟨by simpa [hact] using Ne.symm he, by rwa [Function.update_of_ne he] at hc⟩

end Interleaved

/-! ### The links -/

namespace EngineRunner

/-- What was written stays written. -/
theorem written_grows {cfg : Config} {s s' : State} {a : Action} (hstep : s.step cfg a = some s') :
    s.written <+: s'.written := by
  have hhandled : ∀ msg outcome, s.written <+: (s.handled cfg msg outcome).written := by
    intro msg outcome
    cases outcome with
    | raised => exact List.prefix_rfl
    | returned value =>
      simp only [State.handled]
      split
      · exact List.prefix_append _ _
      · exact List.prefix_append _ _
      · exact List.prefix_rfl
  unfold State.step at hstep
  split at hstep
  · split at hstep
    · cases hstep
      exact List.prefix_rfl
    · cases hstep
  · cases a with
    | handled value =>
      simp only [State.stepTask] at hstep
      split at hstep
      · cases hstep
        exact hhandled _ _
      · cases hstep
    | handleRaised =>
      simp only [State.stepTask] at hstep
      split at hstep
      · cases hstep
        exact hhandled _ _
      · cases hstep
    | registered => cases hstep
    | _ =>
      simp only [State.stepTask] at hstep
      split at hstep <;> cases hstep <;> exact List.prefix_rfl
  · cases hstep

end EngineRunner

namespace Deployment

open Interleaved (Sys)

variable {cfg : Config} {w w' : World} {c : Context} {link : Link} {sys sys' : Sys}

/-- An engine has read the first messages on its stream, and the session has taken up the first messages of the
engine. -/
structure Linked (sys : Sys) (c : Context) (link : Link) : Prop where
  run : ∃ as, (EngineRunner.machine link.cfg).Run as link.state ∧
    EngineRunner.inputs as = (DispatchLog.messagesTo sys.server.dispatcher.log c).take link.read
  read_le : link.read ≤ (DispatchLog.messagesTo sys.server.dispatcher.log c).length
  taken_le : link.taken ≤ link.state.written.length
  results : DispatchLog.results sys.server.dispatcher.log c =
    ((link.state.written.take link.taken).drop 1).map FromEngine.asResult
  opened : (sys.sessions c).isSome
  fresh : sys.sessions c = some .connected → link.taken = 0
  unstarted : link.taken = 0 → sys.Unstarted c

namespace Linked

theorem written (h : Linked sys c link) : link.state.written =
    .register link.cfg.engineId link.cfg.allResponsesRequired ::
      (EngineRunner.worker link.cfg.engineId link.state.calls).map FromEngine.result := by
  obtain ⟨as, hrun, -⟩ := h.run
  exact EngineRunner.run_written hrun

/-- The calls of `handle` are on the first messages of the stream. -/
theorem calls (h : Linked sys c link) :
    link.state.calls.map Prod.fst <+: DispatchLog.messagesTo sys.server.dispatcher.log c := by
  obtain ⟨as, hrun, hinputs⟩ := h.run
  exact (EngineRunner.run_consumes hrun).calls.trans (hinputs ▸ List.take_prefix _ _)

/-- The first message of an engine registers it. -/
theorem registers (h : Linked sys c link) {msg : FromEngine} (hmsg : link.state.written[link.taken]? = some msg)
    (htaken : link.taken = 0) : ∃ id ar, msg = .register id ar := by
  rw [h.written, htaken] at hmsg
  exact ⟨_, _, (Option.some.inj hmsg).symm⟩

/-- A later message is a result for an input that has none yet. -/
theorem answers (h : Linked sys c link) {msg : FromEngine} (hmsg : link.state.written[link.taken]? = some msg)
    (htaken : link.taken ≠ 0) : (∃ r, msg = .result r) ∧
      (DispatchLog.results sys.server.dispatcher.log c).length <
        (DispatchLog.messagesTo sys.server.dispatcher.log c).length := by
  obtain ⟨k, hk⟩ := Nat.exists_eq_succ_of_ne_zero htaken
  have hlen : (DispatchLog.results sys.server.dispatcher.log c).length = k := by
    have hle := h.taken_le
    rw [h.results]
    simp
    omega
  rw [h.written, hk, List.getElem?_cons_succ, List.getElem?_map, Option.map_eq_some_iff] at hmsg
  obtain ⟨r, hr, rfl⟩ := hmsg
  refine ⟨⟨r, rfl⟩, ?_⟩
  obtain ⟨input, value, hcall, -⟩ := EngineRunner.worker_getElem? hr
  have hcalls := h.calls.length_le
  have hlt := (List.getElem?_eq_some_iff.1 hcall).1
  rw [List.length_map] at hcalls
  omega

/-- The `k`-th result that the session has read is for the `k`-th call of `handle`. -/
theorem result_getElem? (h : Linked sys c link) {k : Nat} {r : Result}
    (hr : (DispatchLog.results sys.server.dispatcher.log c)[k]? = some r) :
    ∃ msg value, link.state.calls[k]? = some (msg, .returned value) ∧
      (DispatchLog.messagesTo sys.server.dispatcher.log c)[k]? = some msg ∧
      EngineRunner.resultFor link.cfg.engineId value = some r := by
  rw [h.results, List.getElem?_map, Option.map_eq_some_iff] at hr
  obtain ⟨msg, hmsg, rfl⟩ := hr
  have hwritten : link.state.written[k + 1]? = some msg := by
    rw [List.getElem?_drop, Nat.add_comm] at hmsg
    exact Interleaved.getElem?_of_prefix (List.take_prefix _ _) hmsg
  rw [h.written, List.getElem?_cons_succ, List.getElem?_map, Option.map_eq_some_iff] at hwritten
  obtain ⟨r, hr, rfl⟩ := hwritten
  obtain ⟨input, value, hcall, hresult⟩ := EngineRunner.worker_getElem? hr
  refine ⟨input, value, hcall, ?_, hresult⟩
  exact Interleaved.getElem?_of_prefix h.calls (by rw [List.getElem?_map, hcall]; rfl)

/-- A step of the server that does not take up a message of the engine. -/
theorem server {act : Interleaved.Action} (h : Linked sys c link) (hstep : Interleaved.step cfg sys act = some sys')
    (hfresh : ∀ c, sys.server.dispatcher.nextContext ≤ c → sys.sessions c = none)
    (hact : ∀ msg, act ≠ .engineMessage c msg) : Linked sys' c link := by
  have hgrows : DispatchLog.messagesTo sys.server.dispatcher.log c <+:
      DispatchLog.messagesTo sys'.server.dispatcher.log c :=
    (Interleaved.dispatcher_log_grows hstep).filterMap _
  obtain ⟨as, hrun, hinputs⟩ := h.run
  refine ⟨⟨as, hrun, ?_⟩, h.read_le.trans hgrows.length_le, h.taken_le, ?_, Interleaved.opened_step hstep h.opened, ?_,
    fun htaken => Interleaved.unstarted_step hstep hfresh hact (h.unstarted htaken)⟩
  · rw [hinputs]
    obtain ⟨l, hl⟩ := hgrows
    rw [← hl, List.take_append_of_le_length h.read_le]
  · rw [Interleaved.results_step hstep fun msg ha => absurd ha (hact msg)]
    exact h.results
  · intro hc
    rcases Interleaved.connected_step hstep hc with ⟨-, rfl⟩ | ⟨-, hc⟩
    · have hopened := h.opened
      rw [hfresh _ (Nat.le_refl _)] at hopened
      cases hopened
    · exact h.fresh hc

/-- A step of the engine. -/
theorem engine {act : EngineRunner.Action} {state : EngineRunner.State} {read : Nat} (h : Linked sys c link)
    (hstep : link.state.step link.cfg act = some state)
    (hread : link.read ≤ read ∧ read ≤ (DispatchLog.messagesTo sys.server.dispatcher.log c).length)
    (hinput : (DispatchLog.messagesTo sys.server.dispatcher.log c).take read =
      (DispatchLog.messagesTo sys.server.dispatcher.log c).take link.read ++ act.input.toList) :
    Linked sys c { link with state := state, read := read } := by
  have hgrows := EngineRunner.written_grows hstep
  obtain ⟨as, hrun, hinputs⟩ := h.run
  refine ⟨⟨as ++ [act], hrun.step trivial hstep, ?_⟩, hread.2, h.taken_le.trans hgrows.length_le, ?_, h.opened,
    h.fresh, h.unstarted⟩
  · rw [hinput, ← hinputs]
    cases act <;> simp [EngineRunner.inputs, EngineRunner.Action.input]
  · obtain ⟨l, hl⟩ := hgrows
    rw [h.results, ← hl]
    simp only
    rw [List.take_append_of_le_length h.taken_le]

/-- The session takes up the next message of the engine. -/
theorem takeUp {msg : FromEngine} (h : Linked sys c link) (hmsg : link.state.written[link.taken]? = some msg)
    (hstep : Interleaved.step cfg sys (.engineMessage c msg) = some sys') :
    Linked sys' c { link with taken := link.taken + 1 } := by
  have hgrows : DispatchLog.messagesTo sys.server.dispatcher.log c <+:
      DispatchLog.messagesTo sys'.server.dispatcher.log c :=
    (Interleaved.dispatcher_log_grows hstep).filterMap _
  have hlt : link.taken < link.state.written.length := (List.getElem?_eq_some_iff.1 hmsg).1
  have htake : link.state.written.take (link.taken + 1) = link.state.written.take link.taken ++ [msg] := by
    rw [List.take_add_one, hmsg]
    rfl
  obtain ⟨as, hrun, hinputs⟩ := h.run
  refine ⟨⟨as, hrun, ?_⟩, h.read_le.trans hgrows.length_le, hlt, ?_, Interleaved.opened_step hstep h.opened, ?_,
    fun hzero => absurd hzero (Nat.succ_ne_zero _)⟩
  · rw [hinputs]
    obtain ⟨l, hl⟩ := hgrows
    rw [← hl, List.take_append_of_le_length h.read_le]
  · simp only [htake]
    by_cases htaken : link.taken = 0
    · obtain ⟨id, ar, rfl⟩ := h.registers hmsg htaken
      rw [Interleaved.results_step hstep fun msg ha => ⟨id, ar, (Interleaved.Action.engineMessage.inj ha).2.symm⟩,
        h.results, htaken]
      rfl
    · obtain ⟨⟨r, rfl⟩, -⟩ := h.answers hmsg htaken
      have hidle : sys.sessions c = some .idle := by
        simp only [Interleaved.step] at hstep
        split at hstep
        · exact absurd (h.fresh ‹_›) htaken
        · assumption
        · cases hstep
      rw [Interleaved.results_engineMessage hstep hidle (by simp), h.results]
      rw [List.drop_append_of_le_length (by simp; omega), List.map_append]
      rfl
  · intro hc
    rcases Interleaved.connected_step hstep hc with ⟨ha, -⟩ | ⟨ha, -⟩
    · cases ha
    · exact absurd rfl ha

end Linked

/-- Every session has an engine. -/
structure World.Sound (w : World) : Prop where
  linked : ∀ c link, w.engines c = some link → Linked w.sys c link
  unlinked : ∀ c, w.engines c = none → w.sys.sessions c = none ∧
    DispatchLog.results w.sys.server.dispatcher.log c = []

namespace World.Sound

/-- A step of the server that takes up no message of an engine. -/
theorem server {act : Interleaved.Action} (h : w.Sound) (hstep : Interleaved.step cfg w.sys act = some sys')
    (hfresh : ∀ c, w.sys.server.dispatcher.nextContext ≤ c → w.sys.sessions c = none)
    (hact : ∀ msg, act ≠ .engineMessage c msg)
    (hopen : act = .openSession → c ≠ w.sys.server.dispatcher.nextContext) :
    (∀ link, w.engines c = some link → Linked sys' c link) ∧
      (w.engines c = none → sys'.sessions c = none ∧ DispatchLog.results sys'.server.dispatcher.log c = []) := by
  refine ⟨fun link hc => (h.linked c link hc).server hstep hfresh hact, fun hc => ?_⟩
  obtain ⟨hnone, hres⟩ := h.unlinked c hc
  exact ⟨Interleaved.unopened_step hstep hopen hnone,
    (Interleaved.results_step hstep fun msg ha => absurd ha (hact msg)).trans hres⟩

/-- One engine goes on, with or without the server. -/
theorem setEngine {c₀ : Context} (hother : ∀ c ≠ c₀, (∀ link, w.engines c = some link → Linked sys' c link) ∧
      (w.engines c = none → sys'.sessions c = none ∧ DispatchLog.results sys'.server.dispatcher.log c = []))
    (hself : Linked sys' c₀ link) : Sound ({ w with sys := sys' }.setEngine c₀ link) := by
  constructor
  · intro c link' hc
    by_cases he : c = c₀
    · subst he
      simp only [World.setEngine, Function.update_self, Option.some.injEq] at hc
      exact hc ▸ hself
    · simp only [World.setEngine, Function.update_of_ne he] at hc
      exact (hother c he).1 link' hc
  · intro c hc
    by_cases he : c = c₀
    · subst he
      simp [World.setEngine] at hc
    · simp only [World.setEngine, Function.update_of_ne he] at hc
      exact (hother c he).2 hc

theorem step {act : Action} (h : w.Sound) (hstep : Deployment.step cfg w act = some w')
    (hfresh : ∀ c, w.sys.server.dispatcher.nextContext ≤ c → w.sys.sessions c = none) : w'.Sound := by
  cases step_cases hstep with
  | @connect engineCfg sys hsys =>
    refine setEngine (fun c hne => h.server hsys hfresh (by simp) fun _ => hne) ?_
    obtain ⟨hnone, hres⟩ : w.sys.sessions w.sys.server.dispatcher.nextContext = none ∧ DispatchLog.results
        w.sys.server.dispatcher.log w.sys.server.dispatcher.nextContext = [] := by
      cases hc : w.engines w.sys.server.dispatcher.nextContext with
      | none => exact h.unlinked _ hc
      | some link =>
        have hopened := (h.linked _ _ hc).opened
        rw [hfresh _ (Nat.le_refl _)] at hopened
        cases hopened
    obtain rfl := Option.some.inj hsys
    have hconnected : Function.update w.sys.sessions w.sys.server.dispatcher.nextContext
        (some Interleaved.SessionPc.connected) w.sys.server.dispatcher.nextContext = some .connected :=
      Function.update_self ..
    exact ⟨⟨[], .init, rfl⟩, Nat.zero_le _, Nat.zero_le _, hres, by simp, fun _ => rfl, fun _ => Or.inl hconnected⟩
  | @engine c act link state hc hact hengine =>
    refine setEngine (fun c _ => ⟨h.linked c, h.unlinked c⟩) ?_
    exact (h.linked c link hc).engine hengine ⟨Nat.le_refl _, (h.linked c link hc).read_le⟩ (by simp [hact])
  | @readInput c link msg state hc hmsg hengine =>
    refine setEngine (fun c _ => ⟨h.linked c, h.unlinked c⟩) ?_
    have hlt : link.read < (w.messagesTo c).length := (List.getElem?_eq_some_iff.1 hmsg).1
    refine (h.linked c link hc).engine hengine ⟨Nat.le_succ _, hlt⟩ ?_
    rw [List.take_add_one]
    exact congrArg (_ ++ Option.toList ·) hmsg
  | @takeUp c₀ link msg sys hc hmsg hsys =>
    refine setEngine (fun c hne => h.server hsys hfresh ?_ (by simp)) ((h.linked c₀ link hc).takeUp hmsg hsys)
    exact fun msg' he => hne (Interleaved.Action.engineMessage.inj he).1.symm
  | @server act sys hact hsys =>
    have hkeep : ∀ c, (∀ link, w.engines c = some link → Linked sys c link) ∧
        (w.engines c = none → sys.sessions c = none ∧ DispatchLog.results sys.server.dispatcher.log c = []) :=
      fun c => h.server hsys hfresh (by rintro msg rfl; cases hact) (by rintro rfl; cases hact)
    exact ⟨fun c => (hkeep c).1, fun c => (hkeep c).2⟩

end World.Sound

theorem run_sound {as : List Action} (h : (machine cfg).Run as w) : w.Sound := by
  have hinit : World.Sound {} := by
    refine ⟨?_, fun c _ => ⟨rfl, rfl⟩⟩
    intro c link hc
    cases hc
  refine h.invariant_of (I := World.Sound)
    (J := fun w => ∀ c, w.sys.server.dispatcher.nextContext ≤ c → w.sys.sessions c = none) ?_ hinit
    fun w a w' hfresh hsound _ hstep => hsound.step hstep hfresh
  intro as w h
  obtain ⟨bs, hrun⟩ := run_server h
  exact (Interleaved.run_contextsUsed hrun).fresh

/-- The engines answer their inputs in order, with one result each. -/
theorem run_answersInOrder {as : List Action} (h : (machine cfg).Run as w) :
    ∃ bs, (Interleaved.machine cfg).RunWhere (fun sys a => a.answersInOrder sys) bs w.sys := by
  have hstrong := Machine.RunWhere.strengthen (J := fun w => w.Sound ∧ w.sys.server.dispatcher.WritesInputs) ?_ h
  · refine hstrong.refines World.sys rfl fun w act w' hG hstep => ?_
    obtain ⟨⟨hsound, hwrites⟩, -⟩ := hG
    cases step_cases hstep with
    | connect hsys => exact Or.inr ⟨.openSession, trivial, hsys⟩
    | engine => exact Or.inl rfl
    | readInput => exact Or.inl rfl
    | @takeUp c link msg sys hc hmsg hsys =>
      refine Or.inr ⟨.engineMessage c msg, ?_, hsys⟩
      have hlink := hsound.linked c link hc
      by_cases htaken : link.taken = 0
      · obtain ⟨id, ar, rfl⟩ := hlink.registers hmsg htaken
        trivial
      · obtain ⟨⟨r, rfl⟩, hlt⟩ := hlink.answers hmsg htaken
        rw [hwrites.messagesTo, List.length_map, ← Dispatcher.resultsRead_eq] at hlt
        exact hlt
    | @server act sys hact hsys =>
      refine Or.inr ⟨act, ?_, hsys⟩
      cases act with
      | engineMessage c msg => cases hact
      | _ => trivial
  · intro as w h
    obtain ⟨bs, hrun⟩ := run_server h
    exact ⟨run_sound h, (Interleaved.run_traced hrun).writes⟩

/-- What a client gets for a frame was computed from that frame.  A result that is forwarded is the message that the
engine of its stream wrote for its `k`-th call of `handle`; the call was made on the frame and the client info of the
`k`-th input written to the engine, which was taken up from a message of its client; and the result goes to that client
under the producer and the frame id of that input. -/
theorem results_computed {as : List Action} (h : (machine cfg).Run as w) {k : Nat} {a : Address}
    {wrapper : ResultWrapper} {latest : Option MetadataPayload}
    (hsent : .sendResult (.result c k) a wrapper latest ∈ w.sys.server.dispatcher.log) :
    ∃ link mp value r, w.engines c = some link ∧ (writtenTo w.sys.server.dispatcher.log c)[k]? = some mp ∧
      link.state.calls[k]? = some (mp.toEngine, .returned value) ∧
      EngineRunner.resultFor link.cfg.engineId value = some r ∧
      a = mp.metadata.clientAddress ∧ wrapper.producerId = mp.producerId ∧
      wrapper.result = { r with frameId := mp.metadata.frameId } ∧ ClientLog.TakenUp w.sys.server.frontend.log mp := by
  obtain ⟨bs, hrun⟩ := run_answersInOrder h
  have htraced := Interleaved.run_traced hrun.run
  have hsound := run_sound h
  obtain ⟨mp, r, hmp, hr, ha, hp, hw⟩ := (Interleaved.run_forwards hrun).attributed c k a wrapper
    (List.mem_filterMap.2 ⟨_, hsent, rfl⟩)
  cases hc : w.engines c with
  | none =>
    rw [(hsound.unlinked c hc).2] at hr
    cases hr
  | some link =>
    obtain ⟨msg, value, hcall, hmsg, hresult⟩ := (hsound.linked c link hc).result_getElem? hr
    rw [htraced.writes.messagesTo, List.getElem?_map, hmp] at hmsg
    obtain rfl := Option.some.inj hmsg
    obtain ⟨e, he, hmem⟩ := List.mem_filterMap.1 (List.mem_of_getElem? hmp)
    obtain ⟨msg, rfl⟩ : ∃ msg, e = .wrote c msg mp := by
      cases e with
      | wrote c' msg mp' =>
        simp only [DispatchEvent.writtenInput, Option.ite_none_right_eq_some, Option.some.injEq] at hmem
        obtain ⟨rfl, rfl⟩ := hmem
        exact ⟨msg, rfl⟩
      | _ => cases hmem
    exact ⟨link, mp, value, r, rfl, hmp, hcall, hresult, ha, hp, hw,
      htraced.knows mp (Or.inr (Or.inr ⟨c, msg, he⟩))⟩

/-- An engine answers the frame of a client in upper case. -/
theorem results_computed_of_echo :
    ∃ (w : World) (wrapper : ResultWrapper) (latest : Option MetadataPayload),
      DispatchEvent.sendResult (.result 0 0) "a" wrapper latest ∈ w.sys.server.dispatcher.log ∧
      wrapper.result.payload = .stringResult "HELLO" ∧
      ∃ link, ∃ mp : MetadataPayload, ∃ value r, w.engines 0 = some link ∧
        link.state.calls[0]? = some (mp.toEngine, .returned value) ∧
        EngineRunner.resultFor link.cfg.engineId value = some r ∧
        wrapper.result = { r with frameId := mp.metadata.frameId } := by
  let frame : InputFrame := { payloadType := .text, payload := .stringPayload "hello" }
  let metadata : Metadata :=
    { frameId := 7, producerId := "P", clientAddress := "a", targetEngineIds := ["E"], clientInfo := {} }
  let result : Result :=
    { status := { code := .success }, payload := .stringResult "HELLO", targetEngineId := "E", frameId := 7 }
  obtain ⟨w, hrun, hsent⟩ := Machine.exists_run
    (M := machine { numTokensPerProducer := 1, sizeForQueues := 1 })
    (fun w => DispatchEvent.sendResult (.result 0 0) "a" ⟨"P", true, result⟩ (some ⟨metadata, frame, 0⟩) ∈
      w.sys.server.dispatcher.log)
    [.connect ⟨"E", false⟩, .engine 0 (.registered true), .takeUp 0, .server (.openClient "a"),
      .server (.message 0 (.registration {}) [] false), .server (.resumeStream 0 false false),
      .server (.message 0 (.input ⟨7, "P", ["E"], frame⟩) [0] true),
      .server (.resumeStream 0 false false), .readInput 0, .engine 0 .get,
      .engine 0 (.handled (.result (.status { code := .success }) (.str "HELLO"))), .takeUp 0,
      .server (.resumeSession 0 false false)] (by decide)
  obtain ⟨link, mp, value, r, hlink, -, hcall, hr, -, -, hw, -⟩ := results_computed hrun hsent
  exact ⟨w, _, _, hsent, rfl, link, mp, value, r, hlink, hcall, hr, hw⟩

end Deployment

end Gabriel
