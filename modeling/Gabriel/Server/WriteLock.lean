import Gabriel.Lib.Lock
import Gabriel.Server.Connections
import Gabriel.Server.EngineIds

/-!
# The write locks

gRPC and WebSocket do not allow two writes on one connection at once, so the server has an `asyncio.Lock` for each
client, made together with its entry and kept in `_write_locks` under the same address.  `_send_via_transport` and the
consumers take the lock around their writes.

Here the server runs together with the locks: each message that a handler sends asks for the lock that the table has
for the address, and is written once the lock is taken.  Which handler waits for which write is not recorded: a handler
may go on, and a waiting write may be cancelled, at any time, so that the runs of the server are among those here.

The lock is that of the address, while a consumer writes to the connection it was started for.  If two clients do not
have one address at the same time, lock and connection belong together.
-/

namespace Gabriel.WriteLock

open Interleaved Frontend

/-- A write on the connection of a client entry, under the lock that was made for the entry `lock`. -/
structure Write where
  number : Nat
  connection : ClientRef
  lock : ClientRef
  msg : ToClient
  deriving DecidableEq

structure World where
  sys : Sys := {}
  /-- The lock that was made together with a client entry. -/
  locks : ClientRef → Lock Write := fun _ => {}
  /-- The writes for which a handler has asked. -/
  requests : List Write := []
  /-- Those whose handler was cancelled while it waited for the lock. -/
  cancelled : List Write := []
  /-- Those that have begun. -/
  started : List Write := []
  /-- Those that have not returned. -/
  writing : List Write := []

namespace World

def setLock (w : World) (l : ClientRef) (lock : Lock Write) : World :=
  { w with locks := Function.update w.locks l lock }

/-- A handler comes out of its wait for a lock; the flag tells whether it has the lock. -/
def enter (w : World) (x : Write) (r : Lock Write × Bool) : World :=
  let entered := if r.2 then [x] else []
  { w.setLock x.lock r.1 with started := w.started ++ entered, writing := w.writing ++ entered }

/-- A handler asks for a write.  A message is only sent if its address has a lock. -/
def request (table : Dict Address ClientRef) (w : World) : ClientEvent → World
  | .toClient ref a msg =>
    let x : Write := ⟨w.requests.length, ref, (table.get? a).getD ref, msg⟩
    { w with requests := w.requests ++ [x] }.enter x ((w.locks x.lock).acquire x)
  | _ => w

end World

inductive Action
  | server (act : Interleaved.Action)
  /-- A waiting handler goes on. -/
  | resume (x : Write)
  /-- A waiting handler is cancelled. -/
  | cancel (x : Write)
  /-- A write returns or raises, and its handler releases the lock. -/
  | finish (x : Write)

/-- ZeroMQ has no write locks. -/
def step (cfg : Config) (w : World) : Action → Option World
  | .server act =>
    if cfg.clientTransport = .zeromq then none
    else do
      let sys ← Interleaved.step cfg w.sys act
      let f := w.sys.server.frontend
      return (sys.server.frontend.log.drop f.log.length).foldl (World.request f.clients) { w with sys := sys }
  | .resume x => ((w.locks x.lock).resume x).map (w.enter x)
  | .cancel x =>
    if x ∈ (w.locks x.lock).queue then
      some { w.setLock x.lock ((w.locks x.lock).cancel x) with cancelled := w.cancelled ++ [x] }
    else none
  | .finish x =>
    if x ∈ w.writing then
      (w.locks x.lock).release.map fun lock => { w.setLock x.lock lock with writing := w.writing.erase x }
    else none

def machine (cfg : Config) : Machine World Action := { init := {}, step := step cfg }

variable {cfg : Config} {w w' : World} {x : Write} {act : Action}

/-! ### One lock -/

/-- The writes under the lock `l` that are asked for and not cancelled. -/
def uncancelled (requests cancelled : List Write) (l : ClientRef) : List Write :=
  requests.filter fun x => x.lock = l ∧ x ∉ cancelled

theorem uncancelled_append (requests extra cancelled : List Write) (l : ClientRef) :
    uncancelled (requests ++ extra) cancelled l = uncancelled requests cancelled l ++ uncancelled extra cancelled l :=
  List.filter_append ..

theorem mem_uncancelled {requests cancelled : List Write} {l : ClientRef} :
    x ∈ uncancelled requests cancelled l ↔ x ∈ requests ∧ x.lock = l ∧ x ∉ cancelled := by
  simp [uncancelled]

theorem uncancelled_concat (requests cancelled : List Write) (l : ClientRef) :
    uncancelled requests (cancelled ++ [x]) l = (uncancelled requests cancelled l).filter (· ≠ x) := by
  unfold uncancelled
  rw [List.filter_filter]
  refine List.filter_congr fun y _ => ?_
  rw [← Bool.decide_and, decide_eq_decide, List.mem_append, List.mem_singleton]
  tauto

/-- The locks do what they are for: at most one of the writes under a lock is in progress, and they begin in the order
in which they were asked for, except for those that were cancelled. -/
structure World.Locked (w : World) : Prop where
  orderly : ∀ l, (w.locks l).Orderly
  callers : ∀ l, ∀ x ∈ (w.locks l).callers, x.lock = l
  held : ∀ l, w.writing.countP (·.lock = l) = (w.locks l).locked.toNat
  order : ∀ l, w.started.filter (·.lock = l) ++ (w.locks l).queue = uncancelled w.requests w.cancelled l
  begun : ∀ x ∈ w.writing, x ∈ w.started
  numbers : w.requests.map (·.number) = List.range w.requests.length
  asked : ∀ x ∈ w.cancelled, x ∈ w.requests

theorem World.Locked.nodup (h : w.Locked) : w.requests.Nodup := by
  refine List.Nodup.of_map (·.number) ?_
  rw [h.numbers]
  exact List.nodup_range

/-- What began was asked for. -/
theorem World.Locked.requested (h : w.Locked) (hx : x ∈ w.started) : x ∈ w.requests := by
  have hmem : x ∈ w.started.filter (·.lock = x.lock) ++ (w.locks x.lock).queue :=
    List.mem_append_left _ (List.mem_filter.2 ⟨hx, by simp⟩)
  rw [h.order] at hmem
  exact (mem_uncancelled.1 hmem).1

/-- Only the lock of `x` changes, and only writes under it. -/
theorem World.Locked.update {lock : Lock Write} (h : w.Locked) (hlocks : w'.locks = Function.update w.locks x.lock lock)
    (horderly : lock.Orderly) (hcallers : ∀ y ∈ lock.callers, y.lock = x.lock)
    (hheld : ∀ l, w'.writing.countP (·.lock = l) = (w'.locks l).locked.toNat)
    (horder : ∀ l, w'.started.filter (·.lock = l) ++ (w'.locks l).queue = uncancelled w'.requests w'.cancelled l)
    (hbegun : ∀ y ∈ w'.writing, y ∈ w'.started)
    (hnumbers : w'.requests.map (·.number) = List.range w'.requests.length)
    (hasked : ∀ y ∈ w'.cancelled, y ∈ w'.requests) : w'.Locked := by
  refine ⟨fun l => ?_, fun l => ?_, hheld, horder, hbegun, hnumbers, hasked⟩
  · rw [hlocks]
    by_cases hl : l = x.lock
    · rw [hl, Function.update_self]
      exact horderly
    · rw [Function.update_of_ne hl]
      exact h.orderly l
  · rw [hlocks]
    by_cases hl : l = x.lock
    · rw [hl, Function.update_self]
      exact hcallers
    · rw [Function.update_of_ne hl]
      exact h.callers l

/-- A handler comes out of its wait for a lock.  `extra` are the writes that it adds to those that are asked for. -/
theorem World.Locked.enter {r : Lock Write × Bool} (extra : List Write) (h : w.Locked)
    (horderly : r.1.Orderly) (hcallers : ∀ y ∈ r.1.callers, y.lock = x.lock)
    (hlocked : r.1.locked.toNat = (w.locks x.lock).locked.toNat + r.2.toNat)
    (hqueue : (if r.2 then [x] else []) ++ r.1.queue = (w.locks x.lock).queue ++ extra)
    (hextra : ∀ y ∈ extra, y.lock = x.lock ∧ y ∉ w.cancelled)
    (hnumbers : (w.requests ++ extra).map (·.number) = List.range (w.requests ++ extra).length) :
    World.Locked ({ w with requests := w.requests ++ extra }.enter x r) := by
  -- what is new is under the lock of `x`
  have hnew : uncancelled extra w.cancelled x.lock = extra := by
    refine List.filter_eq_self.2 fun y hy => ?_
    simpa using hextra y hy
  have hnew' : ∀ l, l ≠ x.lock → uncancelled extra w.cancelled l = [] := by
    intro l hl
    refine List.filter_eq_nil_iff.2 fun y hy => ?_
    rw [(hextra y hy).1]
    simp [Ne.symm hl]
  have hentered : (if r.2 then [x] else []).filter (·.lock = x.lock) = if r.2 then [x] else [] := by
    split <;> simp
  have hentered' : ∀ l, l ≠ x.lock → (if r.2 then [x] else []).filter (·.lock = l) = [] := by
    intro l hl
    split <;> simp [Ne.symm hl]
  refine h.update (x := x) rfl horderly hcallers (fun l => ?_) (fun l => ?_) ?_ hnumbers ?_
  · change (w.writing ++ if r.2 then [x] else []).countP _ = (Function.update w.locks x.lock r.1 l).locked.toNat
    rw [List.countP_append, h.held l, List.countP_eq_length_filter]
    by_cases hl : l = x.lock
    · rw [hl, hentered, Function.update_self, hlocked]
      cases r.2 <;> rfl
    · rw [hentered' l hl, Function.update_of_ne hl]
      rfl
  · change (w.started ++ if r.2 then [x] else []).filter _ ++ (Function.update w.locks x.lock r.1 l).queue =
      uncancelled (w.requests ++ extra) w.cancelled l
    rw [List.filter_append, uncancelled_append, ← h.order l]
    by_cases hl : l = x.lock
    · rw [hl, hentered, hnew, Function.update_self, List.append_assoc, hqueue, List.append_assoc]
    · rw [hentered' l hl, hnew' l hl, Function.update_of_ne hl, List.append_nil, List.append_nil]
  · intro y hy
    rcases List.mem_append.1 hy with hy | hy
    · exact List.mem_append_left _ (h.begun y hy)
    · exact List.mem_append_right _ hy
  · intro y hy
    exact List.mem_append_left _ (h.asked y hy)

/-- A handler asks for the write `x`. -/
theorem World.Locked.ask (h : w.Locked) (hnumber : x.number = w.requests.length) :
    World.Locked ({ w with requests := w.requests ++ [x] }.enter x ((w.locks x.lock).acquire x)) := by
  have hfresh : x ∉ w.cancelled := by
    intro hmem
    have hnum := List.mem_map_of_mem (f := Write.number) (h.asked x hmem)
    rw [h.numbers, hnumber] at hnum
    simp at hnum
  refine h.enter [x] ((h.orderly x.lock).acquire x) ?_ (Lock.locked_acquire _ _) (Lock.queue_acquire _ _) ?_ ?_
  · intro y hy
    rcases Lock.mem_callers_acquire hy with hy | rfl
    · exact h.callers _ y hy
    · rfl
  · intro y hy
    rw [List.mem_singleton.1 hy]
    exact ⟨rfl, hfresh⟩
  · rw [List.map_append, h.numbers, List.length_append, List.length_singleton, List.range_succ, List.map_singleton,
      hnumber]

theorem World.Locked.resume {r : Lock Write × Bool} (h : w.Locked) (hr : (w.locks x.lock).resume x = some r) :
    (w.enter x r).Locked := by
  obtain ⟨lock, b⟩ := r
  have horderly := h.orderly x.lock
  have hqueue := horderly.queue_resume hr
  have henter := h.enter (x := x) (r := (lock, b)) [] (horderly.resume hr)
    (fun y hy => h.callers _ y ((Lock.callers_resume hr).mem hy)) (horderly.locked_resume hr)
    (by rw [List.append_nil]; exact hqueue) (by simp) (by simpa using h.numbers)
  simpa using henter

theorem World.Locked.cancel (h : w.Locked) (hx : x ∈ (w.locks x.lock).queue) :
    World.Locked { w.setLock x.lock ((w.locks x.lock).cancel x) with cancelled := w.cancelled ++ [x] } := by
  have hmem : x ∈ uncancelled w.requests w.cancelled x.lock := by
    rw [← h.order]
    exact List.mem_append_right _ hx
  -- a write is asked for once, so what waits has not begun
  have hnodup : (w.started.filter (·.lock = x.lock) ++ (w.locks x.lock).queue).Nodup := by
    rw [h.order]
    exact h.nodup.filter _
  have hidle : ∀ y ∈ w.started.filter (·.lock = x.lock), y ≠ x :=
    fun y hy => (List.nodup_append.1 hnodup).2.2 y hy x hx
  refine h.update (x := x) rfl ((h.orderly _).cancel x) ?_ (fun l => ?_) (fun l => ?_) h.begun h.numbers ?_
  · rw [Lock.callers_cancel]
    exact h.callers x.lock
  · change w.writing.countP _ = (Function.update w.locks x.lock _ l).locked.toNat
    rw [h.held l]
    by_cases hl : l = x.lock
    · rw [hl, Function.update_self]
      rfl
    · rw [Function.update_of_ne hl]
  · change w.started.filter _ ++ (Function.update w.locks x.lock _ l).queue =
      uncancelled w.requests (w.cancelled ++ [x]) l
    rw [uncancelled_concat, ← h.order l]
    by_cases hl : l = x.lock
    · have hkept : (w.started.filter (·.lock = x.lock)).filter (· ≠ x) = w.started.filter (·.lock = x.lock) :=
        List.filter_eq_self.2 fun y hy => by simpa using hidle y hy
      rw [hl, Function.update_self, Lock.queue_cancel, List.filter_append, hkept]
    · have hother : ∀ y ∈ uncancelled w.requests w.cancelled l, y ≠ x := by
        rintro y hy rfl
        exact hl (mem_uncancelled.1 hy).2.1.symm
      rw [← h.order l] at hother
      rw [Function.update_of_ne hl]
      exact (List.filter_eq_self.2 fun y hy => by simpa using hother y hy).symm
  · intro y hy
    rcases List.mem_append.1 hy with hy | hy
    · exact h.asked y hy
    · rw [List.mem_singleton.1 hy]
      exact (mem_uncancelled.1 hmem).1

theorem World.Locked.finish {lock : Lock Write} (h : w.Locked) (hx : x ∈ w.writing)
    (hr : (w.locks x.lock).release = some lock) :
    World.Locked { w.setLock x.lock lock with writing := w.writing.erase x } := by
  refine h.update (x := x) rfl ((h.orderly _).release hr) ?_ (fun l => ?_) (fun l => ?_) ?_ h.numbers h.asked
  · rw [Lock.callers_release hr]
    exact h.callers x.lock
  · change (w.writing.erase x).countP _ = (Function.update w.locks x.lock lock l).locked.toNat
    have hcount := (List.perm_cons_erase hx).countP_eq (·.lock = l)
    rw [List.countP_cons, h.held l] at hcount
    by_cases hl : l = x.lock
    · have hfreed := Lock.locked_release hr
      rw [hl, Function.update_self]
      simp only [hl, decide_true, if_true] at hcount ⊢
      omega
    · rw [Function.update_of_ne hl]
      simpa [Ne.symm hl] using hcount.symm
  · change w.started.filter _ ++ (Function.update w.locks x.lock lock l).queue = uncancelled w.requests w.cancelled l
    rw [← h.order l]
    by_cases hl : l = x.lock
    · rw [hl, Function.update_self, Lock.queue_release hr]
    · rw [Function.update_of_ne hl]
  · intro y hy
    exact h.begun y (List.mem_of_mem_erase hy)

/-! ### The server with its locks -/

theorem World.Locked.request (h : w.Locked) (table : Dict Address ClientRef) (ev : ClientEvent) :
    (w.request table ev).Locked := by
  cases ev with
  | toClient => exact h.ask rfl
  | _ => exact h

theorem World.Locked.requestAll (h : w.Locked) (table : Dict Address ClientRef) (es : List ClientEvent) :
    (es.foldl (World.request table) w).Locked := by
  induction es generalizing w with
  | nil => exact h
  | cons ev es ih => exact ih (h.request table ev)

theorem locked_step (hstep : step cfg w act = some w') (h : w.Locked) : w'.Locked := by
  cases act with
  | server act =>
    obtain ⟨-, hstep⟩ := Option.ite_none_left_eq_some.1 hstep
    obtain ⟨sys, -, hstep⟩ := Option.bind_eq_some_iff.1 hstep
    cases hstep
    exact World.Locked.requestAll (w := { w with sys := sys }) { h with } _ _
  | resume x =>
    obtain ⟨r, hr, rfl⟩ := Option.map_eq_some_iff.1 hstep
    exact h.resume hr
  | cancel x =>
    obtain ⟨hx, hstep⟩ := Option.ite_none_right_eq_some.1 hstep
    cases hstep
    exact h.cancel hx
  | finish x =>
    obtain ⟨hx, hstep⟩ := Option.ite_none_right_eq_some.1 hstep
    obtain ⟨lock, hr, rfl⟩ := Option.map_eq_some_iff.1 hstep
    exact h.finish hx hr

/-- A message that a step sends goes to the entry that the table has for its address. -/
theorem recipient_of_recorded {sys sys' : Sys} {act : Interleaved.Action} {ref : ClientRef} {a : Address}
    {msg : ToClient} (hatt : sys.Attached cfg) (h : Recorded cfg sys act sys' (.toClient ref a msg)) :
    sys.server.frontend.clients.get? a = some ref := by
  have hpushed : ∀ {b msg}, Pushed sys.server.frontend (.toClient ref b msg) →
      sys.server.frontend.clients.get? b = some ref := by
    intro b msg h
    cases h with
    | engineIds href => exact href
    | result href => exact href
  cases h with
  | pushed h => exact hpushed h
  | handled _ hi hidle hclient h =>
    have hentry := (hatt.attached hi (by rw [hidle]; trivial)).client hclient
    cases h with
    | registered => exact hentry
    | replied => exact hentry
    | pushed h => exact hpushed h

/-- The writes that are asked for are the messages that the handlers send, each under the lock of its connection. -/
structure World.Matched (w : World) : Prop where
  messages : ∀ ref, (w.requests.filter (·.connection = ref)).map (·.msg) =
    w.sys.server.frontend.log.filterMap (ClientEvent.messageFor ref)
  owned : ∀ x ∈ w.requests, x.lock = x.connection

theorem requestAll_sys (table : Dict Address ClientRef) (es : List ClientEvent) (w : World) :
    (es.foldl (World.request table) w).sys = w.sys := by
  induction es generalizing w with
  | nil => rfl
  | cons ev es ih =>
    rw [List.foldl_cons, ih]
    cases ev <;> rfl

theorem requestAll_messages (table : Dict Address ClientRef) (es : List ClientEvent) (w : World) (ref : ClientRef) :
    ((es.foldl (World.request table) w).requests.filter (·.connection = ref)).map (·.msg) =
      (w.requests.filter (·.connection = ref)).map (·.msg) ++ es.filterMap (ClientEvent.messageFor ref) := by
  induction es generalizing w with
  | nil => simp
  | cons ev es ih =>
    rw [List.foldl_cons, ih]
    cases ev with
    | toClient ref' a msg =>
      by_cases href : ref' = ref
      · simp [World.request, World.enter, World.setLock, ClientEvent.messageFor, href]
      · simp [World.request, World.enter, World.setLock, ClientEvent.messageFor, href]
    | _ => rfl

theorem requestAll_owned {table : Dict Address ClientRef} {es : List ClientEvent}
    (hes : ∀ ref a msg, .toClient ref a msg ∈ es → table.get? a = some ref) (h : ∀ x ∈ w.requests, x.lock = x.connection) :
    ∀ x ∈ (es.foldl (World.request table) w).requests, x.lock = x.connection := by
  induction es generalizing w with
  | nil => exact h
  | cons ev es ih =>
    refine ih (fun ref a msg hmem => hes ref a msg (List.mem_cons_of_mem _ hmem)) ?_
    cases ev with
    | toClient ref a msg =>
      intro x hx
      rcases List.mem_append.1 hx with hx | hx
      · exact h x hx
      · rw [List.mem_singleton.1 hx]
        simp [hes ref a msg List.mem_cons_self]
    | _ => exact h

theorem matched_step (hstep : step cfg w act = some w') (hatt : w.sys.Attached cfg) (h : w.Matched) : w'.Matched := by
  cases act with
  | server act =>
    obtain ⟨-, hstep⟩ := Option.ite_none_left_eq_some.1 hstep
    obtain ⟨sys, hsys, hstep⟩ := Option.bind_eq_some_iff.1 hstep
    cases hstep
    obtain ⟨es, hlog, hrecorded⟩ := history_step hsys
    have hdrop : sys.server.frontend.log.drop w.sys.server.frontend.log.length = es := by
      rw [hlog, List.drop_left]
    rw [hdrop]
    refine ⟨fun ref => ?_, requestAll_owned (fun ref a msg hmem => ?_) h.owned⟩
    · rw [requestAll_messages, requestAll_sys, hlog, List.filterMap_append]
      exact congrArg (· ++ _) (h.messages ref)
    · exact recipient_of_recorded hatt (hrecorded _ hmem)
  | resume x =>
    obtain ⟨r, -, rfl⟩ := Option.map_eq_some_iff.1 hstep
    exact ⟨h.messages, h.owned⟩
  | cancel x =>
    obtain ⟨-, hstep⟩ := Option.ite_none_right_eq_some.1 hstep
    cases hstep
    exact ⟨h.messages, h.owned⟩
  | finish x =>
    obtain ⟨-, hstep⟩ := Option.ite_none_right_eq_some.1 hstep
    obtain ⟨lock, -, rfl⟩ := Option.map_eq_some_iff.1 hstep
    exact ⟨h.messages, h.owned⟩

/-! ### Runs -/

/-- Clients connect at addresses that are free. -/
def Action.addressFree (w : World) : Action → Prop
  | .server act => act.addressFree w.sys
  | .resume _ | .cancel _ | .finish _ => True

instance (w : World) : DecidablePred (Action.addressFree w)
  | .server act => inferInstanceAs (Decidable (act.addressFree w.sys))
  | .resume _ | .cancel _ | .finish _ => inferInstanceAs (Decidable True)

theorem sys_step (hstep : step cfg w act = some w') :
    w'.sys = w.sys ∨ ∃ act', act = .server act' ∧ Interleaved.step cfg w.sys act' = some w'.sys := by
  cases act with
  | server act =>
    obtain ⟨-, hstep⟩ := Option.ite_none_left_eq_some.1 hstep
    obtain ⟨sys, hsys, hstep⟩ := Option.bind_eq_some_iff.1 hstep
    cases hstep
    refine Or.inr ⟨act, rfl, ?_⟩
    rw [requestAll_sys]
    exact hsys
  | resume x =>
    obtain ⟨r, -, rfl⟩ := Option.map_eq_some_iff.1 hstep
    exact Or.inl rfl
  | cancel x =>
    obtain ⟨-, hstep⟩ := Option.ite_none_right_eq_some.1 hstep
    cases hstep
    exact Or.inl rfl
  | finish x =>
    obtain ⟨-, hstep⟩ := Option.ite_none_right_eq_some.1 hstep
    obtain ⟨lock, -, rfl⟩ := Option.map_eq_some_iff.1 hstep
    exact Or.inl rfl

/-- The server in a run with its locks is a run of the server. -/
theorem run_sys {as : List Action} (h : (machine cfg).RunWhere (fun w act => act.addressFree w) as w) :
    ∃ acts, (Interleaved.machine cfg).RunWhere (fun sys act => act.addressFree sys) acts w.sys := by
  refine h.refines World.sys rfl fun w act w' hfree hstep => ?_
  rcases sys_step hstep with hsame | ⟨act', rfl, hsys⟩
  · exact Or.inl hsame
  · exact Or.inr ⟨act', hfree, hsys⟩

theorem run_locked {G : World → Action → Prop} {as : List Action} (h : (machine cfg).RunWhere G as w) : w.Locked := by
  have hinit : World.Locked {} := by
    refine ⟨fun l => Lock.orderly_init, ?_, ?_, ?_, ?_, ?_, ?_⟩ <;> intros <;>
      simp_all [Lock.callers, Lock.queue, uncancelled]
  exact h.invariant (I := World.Locked) hinit fun _ _ _ h _ hstep => locked_step hstep h

theorem run_matched {as : List Action} (h : (machine cfg).RunWhere (fun w act => act.addressFree w) as w) :
    w.Matched := by
  have hatt : ∀ {as w}, (machine cfg).RunWhere (fun w act => act.addressFree w) as w → w.sys.Attached cfg := by
    intro as w h
    obtain ⟨acts, hsys⟩ := run_sys h
    exact run_attached (fun _ _ => id) hsys
  exact h.invariant_of (I := World.Matched) (J := fun w => w.sys.Attached cfg) hatt ⟨fun _ => rfl, fun _ hx => by cases hx⟩
    (fun _ _ _ hatt h _ hstep => matched_step hstep hatt h)

/-! ### Progress -/

/-- A write returns, or a handler whose wait is over goes on. -/
def Action.proceeds : Action → Prop
  | .resume _ | .finish _ => True
  | .server _ | .cancel _ => False

/-- If writes return, then all writes that wait for a lock begin. -/
theorem World.Locked.drain (cfg : Config) (h : w.Locked) (l : ClientRef) :
    (machine cfg).Leads Action.proceeds (fun w' => w'.Locked ∧ w'.requests = w.requests ∧
      w'.started.filter (·.lock = l) = w.started.filter (·.lock = l) ++ (w.locks l).queue) w := by
  by_cases hempty : (w.locks l).queue = []
  · exact ⟨[], w, by simp, rfl, h, rfl, by rw [hempty, List.append_nil]⟩
  have hsame : ∀ w' : World, w'.Locked → w'.requests = w.requests → w'.cancelled = w.cancelled →
      w'.started.filter (·.lock = l) ++ (w'.locks l).queue = w.started.filter (·.lock = l) ++ (w.locks l).queue := by
    intro w' hw' hreq hcan
    rw [hw'.order, h.order, hreq, hcan]
  refine Machine.exists_exec (I := fun w' => w'.Locked ∧ w'.requests = w.requests ∧ w'.cancelled = w.cancelled ∧
    (w'.locks l).queue ≠ []) (fun w' => 2 * (w'.locks l).waiters.length + (w'.locks l).locked.toNat) ?_
    ⟨h, rfl, rfl, hempty⟩
  rintro w' ⟨hw', hreq, hcan, hne⟩
  cases hlocked : (w'.locks l).locked with
  | true =>
    -- the write that holds the lock returns
    have hpos : 0 < w'.writing.countP (·.lock = l) := by
      rw [hw'.held l, hlocked]
      decide
    obtain ⟨x, hx, hxl⟩ := List.countP_pos_iff.1 hpos
    obtain rfl : x.lock = l := of_decide_eq_true hxl
    obtain ⟨lock, hr⟩ : ∃ lock, (w'.locks x.lock).release = some lock := by simp [Lock.release, hlocked]
    refine ⟨.finish x, _, trivial, ?_, Or.inr ⟨⟨hw'.finish hx hr, hreq, hcan, ?_⟩, ?_⟩⟩
    · simp [machine, step, hx, hr]
    · simpa [World.setLock, Lock.queue_release hr] using hne
    · have hfreed := Lock.locked_release hr
      rw [hlocked] at hfreed
      simp only [World.setLock, Function.update_self, Lock.length_release hr, Bool.toNat_true] at hfreed ⊢
      omega
  | false =>
    -- the first waiter goes on
    have hwaiters : (w'.locks l).waiters ≠ [] := by
      intro hnil
      exact hne (by simp [Lock.queue, hnil])
    obtain ⟨x, lock, b, hx, hr⟩ := (hw'.orderly l).exists_resume hlocked hwaiters
    obtain rfl : x.lock = l := hw'.callers l x hx
    have hnext := hw'.resume hr
    refine ⟨.resume x, w'.enter x (lock, b), trivial, by simp [machine, step, hr], ?_⟩
    by_cases hdone : lock.queue = []
    · have hall := hsame _ hnext hreq hcan
      refine Or.inl ⟨hnext, hreq, ?_⟩
      simpa [World.enter, World.setLock, hdone] using hall
    · refine Or.inr ⟨⟨hnext, hreq, hcan, by simpa [World.enter, World.setLock] using hdone⟩, ?_⟩
      have hlen := Lock.length_resume hr
      have hbit := lock.locked.toNat_le
      simp only [World.enter, World.setLock, Function.update_self, Bool.toNat_false]
      omega

/-- Under locks of their own, the writes on a connection are those under its lock. -/
theorem World.Matched.filter_lock (h : w.Matched) {l : List Write} (hl : ∀ x ∈ l, x ∈ w.requests) (ref : ClientRef) :
    l.filter (·.lock = ref) = l.filter (·.connection = ref) :=
  List.filter_congr fun x hx => by rw [h.owned x (hl x hx)]

/-- If clients connect only at addresses that are free, then on every connection at most one write is in progress.  The
writes on it are asked for in the order of the messages that the handlers send to the client, and they begin in this
order, except for those whose handler is cancelled while it waits; and all that wait begin if writes return. -/
theorem connection_writes_in_order {as : List Action}
    (h : (machine cfg).RunWhere (fun w act => act.addressFree w) as w) (ref : ClientRef) :
    (w.writing.filter (·.connection = ref)).length ≤ 1 ∧
    (w.requests.filter (·.connection = ref)).map (·.msg) =
      w.sys.server.frontend.log.filterMap (ClientEvent.messageFor ref) ∧
    w.started.filter (·.connection = ref) ++ (w.locks ref).queue =
      w.requests.filter (fun x => x.connection = ref ∧ x ∉ w.cancelled) ∧
    (machine cfg).Leads Action.proceeds (fun w' => w'.started.filter (·.connection = ref) =
      w.started.filter (·.connection = ref) ++ (w.locks ref).queue) w := by
  have hlocked := run_locked h
  have hmatched := run_matched h
  have hstarted := hmatched.filter_lock (fun x => hlocked.requested) ref
  refine ⟨?_, hmatched.messages ref, ?_, ?_⟩
  · have hheld := hlocked.held ref
    rw [List.countP_eq_length_filter,
      hmatched.filter_lock (fun x hx => hlocked.requested (hlocked.begun x hx)) ref] at hheld
    rw [hheld]
    exact Bool.toNat_le _
  · rw [← hstarted, hlocked.order]
    refine List.filter_congr fun x hx => ?_
    rw [hmatched.owned x hx]
  · obtain ⟨acts, w', hacts, hexec, hw', hreq, hdrained⟩ := hlocked.drain cfg ref
    refine ⟨acts, w', hacts, hexec, ?_⟩
    have hstarted' : w'.started.filter (·.lock = ref) = w'.started.filter (·.connection = ref) :=
      hmatched.filter_lock (fun x hx => hreq ▸ hw'.requested hx) ref
    calc w'.started.filter (·.connection = ref) = w'.started.filter (·.lock = ref) := hstarted'.symm
      _ = w.started.filter (·.lock = ref) ++ (w.locks ref).queue := hdrained
      _ = w.started.filter (·.connection = ref) ++ (w.locks ref).queue := by rw [hstarted]

private def lockConfig : Config := { numTokensPerProducer := 1, sizeForQueues := 1 }

/-- An engine registers while the reply to a client's registration is being written: the update for the client waits. -/
theorem connection_writes_in_order_of_update : ∃ as w,
    (machine lockConfig).RunWhere (fun w act => act.addressFree w) as w ∧ (w.locks 0).queue.length = 1 ∧
    (w.writing.filter (·.connection = 0)).length ≤ 1 ∧
    (machine lockConfig).Leads Action.proceeds (fun w' => w'.started.filter (·.connection = 0) =
      w.started.filter (·.connection = 0) ++ (w.locks 0).queue) w := by
  obtain ⟨w, hrun, hqueue⟩ := Machine.exists_runWhere (M := machine lockConfig)
    (G := fun w act => act.addressFree w) (g := fun w act => decide (act.addressFree w))
    (fun _ _ h => of_decide_eq_true h) (fun w => (w.locks 0).queue.length = 1)
    [.server (.openClient "session"), .server (.message 0 (.registration {}) [] true), .server .openSession,
      .server (.engineMessage 0 (.register "A" false))] (by decide)
  have hwrites := connection_writes_in_order hrun 0
  exact ⟨_, w, hrun, hqueue, hwrites.1, hwrites.2.2.2⟩

/-- A second client connects under a session id while an update for the first is being written, and the first registers
again: the reply to it is written under the lock of the second, at the same time as the update. -/
theorem takeover_writes_overlap : ∃ as w, (machine lockConfig).Run as w ∧
    (w.writing.filter (·.connection = 0)).length = 2 := by
  obtain ⟨w, hrun, hwriting⟩ := Machine.exists_run (M := machine lockConfig)
    (fun w => (w.writing.filter (·.connection = 0)).length = 2)
    [.server (.openClient "session"), .server .openSession, .server (.engineMessage 0 (.register "A" false)),
      .server (.openClient "session"), .server (.message 0 (.registration {}) [] true)] (by decide)
  exact ⟨_, w, hrun, hwriting⟩

end Gabriel.WriteLock
