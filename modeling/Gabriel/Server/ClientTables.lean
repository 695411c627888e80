import Gabriel.Server.Connections

/-!
# The tables of client sessions

The gRPC and WebSocket servers keep two tables under the key of a session: `_clients` and `_write_locks`.  A session
inserts its entries when it starts and deletes whatever is under its key when it ends.  The key is the `session-id`
that the client chooses, or the remote address of the connection, so two sessions may have the same one: then the one
that ends first deletes the entries of the other.

The machine of this module has both tables and all orders of starts, messages and ends; what `_consumer_helper` returns
for a message is left open.  Where every session starts under a key that no running session has, the sessions do not
disturb each other (`sessions_undisturbed`).  The server with interleaving handlers, which has one table for the two,
refines the machine (`Interleaved.run_tables`).
-/

namespace Gabriel

namespace ClientTables

/-- The two transports whose sessions keep a lock for their writes. -/
inductive Transport
  | grpc
  | websocket
  deriving DecidableEq

/-- Where the handler of a session is suspended. -/
inductive Pc
  /-- Waiting for the next message. -/
  | waiting
  /-- In `_consumer_helper`, awaiting `_engine_cb`. -/
  | handling
  /-- Awaiting the write of a reply. -/
  | writing
  | finished (err : Option PyError)
  deriving DecidableEq

/-- The handler has not ended. -/
def Pc.live : Pc → Prop
  | .finished _ => False
  | _ => True

instance : DecidablePred Pc.live
  | .waiting | .handling | .writing => isTrue trivial
  | .finished _ => isFalse id

/-- A session; `client` is the entry it made, and a gRPC producer stream has none. -/
structure Session where
  key : Address
  client : Option ClientRef
  pc : Pc
  deriving DecidableEq

/-- The tables and the sessions so far.  A lock has the number of the client entry that was made with it. -/
structure Tables where
  clients : Dict Address ClientRef := .empty
  writeLocks : Dict Address ClientRef := .empty
  nextClient : ClientRef := 0
  sessions : List Session := []

/-- What comes of a message: `_consumer_helper` suspends, accepts an input, or returns something to reply to. -/
inductive Outcome
  | suspended
  | accepted
  | reply

/-- `del self._clients[key]; del self._write_locks[key]`, and the exception it raises. -/
def cleanUp (t : Tables) (key : Address) : Tables × Option PyError :=
  match t.clients.get? key with
  | none => (t, some .keyError)
  | some _ =>
    let t := { t with clients := t.clients.erase key }
    match t.writeLocks.get? key with
    | none => (t, some .keyError)
    | some _ => ({ t with writeLocks := t.writeLocks.erase key }, none)

/-- The end of a handler, by the exception `err` or without one. -/
def endSession (t : Tables) (session : Session) (err : Option PyError) : Tables × Pc :=
  match session.client with
  | none => (t, .finished err)
  | some _ =>
    match cleanUp t session.key with
    | (t, none) => (t, .finished err)
    | (t, some e) => (t, .finished (some e))

/-- The reply to a message: gRPC drops it if there is no lock, WebSocket looks the lock up with `[]`. -/
def reply (tr : Transport) (t : Tables) (session : Session) : Tables × Pc :=
  match t.writeLocks.get? session.key, tr with
  | some _, _ => (t, .writing)
  | none, .grpc => (t, .waiting)
  | none, .websocket => endSession t session (some .keyError)

def goOn (tr : Transport) (t : Tables) (session : Session) : Outcome → Tables × Pc
  | .suspended => (t, .handling)
  | .accepted => (t, .waiting)
  | .reply => reply tr t session

/-- A message of a session.  A producer stream looks the client up, and ends if there is none. -/
def message (tr : Transport) (t : Tables) (session : Session) (outcome : Outcome) : Tables × Pc :=
  match session.client, t.clients.get? session.key with
  | none, none => (t, .finished none)
  | _, _ => goOn tr t session outcome

/-- `self._clients[key] = client; self._write_locks[key] = write_lock` for a new session. -/
def startSession (t : Tables) (key : Address) : Tables :=
  { clients := t.clients.set key t.nextClient
    writeLocks := t.writeLocks.set key t.nextClient
    nextClient := t.nextClient + 1
    sessions := t.sessions ++ [{ key := key, client := some t.nextClient, pc := .waiting }] }

def startProducer (t : Tables) (key : Address) : Tables :=
  { t with sessions := t.sessions ++ [{ key := key, client := none, pc := .waiting }] }

inductive Action
  /-- A control stream or a WebSocket connection starts. -/
  | start (key : Address)
  /-- A gRPC producer stream starts. -/
  | startProducer (key : Address)
  | message (i : Nat) (outcome : Outcome)
  /-- A suspended handler is resumed, or raises. -/
  | resume (i : Nat) (outcome : Outcome)
  | raised (i : Nat)
  /-- There are no more messages. -/
  | close (i : Nat)

/-- The session `i` goes on. -/
def Tables.setSession (i : Nat) (session : Session) (r : Tables × Pc) : Tables :=
  { r.1 with sessions := r.1.sessions.set i { session with pc := r.2 } }

def step (tr : Transport) (t : Tables) : Action → Option Tables
  | .start key => some (startSession t key)
  | .startProducer key => if tr = .grpc then some (startProducer t key) else none
  | .message i outcome => do
    let session ← t.sessions[i]?
    if session.pc = .waiting then some (.setSession i session (message tr t session outcome)) else none
  | .resume i outcome => do
    let session ← t.sessions[i]?
    match session.pc with
    | .handling => some (.setSession i session (goOn tr t session outcome))
    | .writing => some (.setSession i session (t, .waiting))
    | _ => none
  | .raised i => do
    let session ← t.sessions[i]?
    match session.pc with
    | .handling | .writing => some (.setSession i session (endSession t session (some .raised)))
    | _ => none
  | .close i => do
    let session ← t.sessions[i]?
    if session.pc = .waiting then some (.setSession i session (endSession t session none)) else none

/-- The tables with all interleavings of the handlers. -/
def machine (tr : Transport) : Machine Tables Action := { init := {}, step := step tr }

/-! ### Sessions with different keys -/

variable {tr : Transport} {t t' : Tables} {session : Session} {i : Nat} {key : Address} {ref : ClientRef} {a : Action}

/-- A session starts under a key that no running session has. -/
def Action.keyFree (t : Tables) : Action → Prop
  | .start key => ∀ session ∈ t.sessions, session.pc.live → session.client ≠ none → session.key ≠ key
  | _ => True

instance (t : Tables) : DecidablePred (Action.keyFree t)
  | .start _ => inferInstanceAs (Decidable (∀ session ∈ t.sessions, _ → _ → _))
  | .startProducer _ | .message _ _ | .resume _ _ | .raised _ | .close _ => inferInstanceAs (Decidable True)

/-- The running session `i` made the entries of number `ref` under `key`. -/
def Tables.Owns (t : Tables) (i : Nat) (key : Address) (ref : ClientRef) : Prop :=
  ∃ session, t.sessions[i]? = some session ∧ session.pc.live ∧ session.key = key ∧ session.client = some ref

/-- The session that made the entries of number `ref` under `key` runs in `t` and has ended in `t'`. -/
def Tables.Ends (t t' : Tables) (key : Address) (ref : ClientRef) : Prop :=
  ∃ (i : Nat) (session : Session) (err : Option PyError), t.sessions[i]? = some session ∧ session.pc.live ∧
    session.key = key ∧ session.client = some ref ∧ t'.sessions[i]? = some { session with pc := .finished err }

/-- The tables hold exactly the entries of the running sessions. -/
structure Tables.Separate (tr : Transport) (t : Tables) : Prop where
  clients : ∀ key ref, t.clients.get? key = some ref ↔ ∃ i, t.Owns i key ref
  writeLocks : ∀ key ref, t.writeLocks.get? key = some ref ↔ ∃ i, t.Owns i key ref
  client_lt : ∀ session ∈ t.sessions, ∀ ref, session.client = some ref → ref < t.nextClient
  distinct : ∀ {i j : Nat} {x y : Session} {ref : ClientRef}, t.sessions[i]? = some x → t.sessions[j]? = some y →
    x.client = some ref → y.client = some ref → i = j
  keyError : ∀ session ∈ t.sessions, session.pc ≠ .finished (some .keyError)
  producer : ∀ session ∈ t.sessions, session.client = none → tr = .grpc

/-- What a step of the running session `i` does to the tables: nothing, or it deletes its own entries and ends. -/
inductive Moved (t : Tables) (session : Session) : Tables × Pc → Prop
  | kept {pc : Pc} (hpc : pc ≠ .finished (some .keyError)) (hlive : session.client ≠ none → pc.live) :
      Moved t session (t, pc)
  | left {ref : ClientRef} {err : Option PyError} (hclient : session.client = some ref)
      (herr : err ≠ some .keyError) :
      Moved t session
        ({ t with clients := t.clients.erase session.key, writeLocks := t.writeLocks.erase session.key },
          .finished err)

/-- The entries of a running session are under its key. -/
theorem Tables.Separate.lookup (h : t.Separate tr) (hi : t.sessions[i]? = some session) (hlive : session.pc.live)
    (hclient : session.client = some ref) :
    t.clients.get? session.key = some ref ∧ t.writeLocks.get? session.key = some ref :=
  ⟨(h.clients _ _).2 ⟨i, session, hi, hlive, rfl, hclient⟩, (h.writeLocks _ _).2 ⟨i, session, hi, hlive, rfl, hclient⟩⟩

theorem moved_endSession (h : t.Separate tr) (hi : t.sessions[i]? = some session) (hlive : session.pc.live)
    {err : Option PyError} (herr : err ≠ some .keyError) : Moved t session (endSession t session err) := by
  unfold endSession cleanUp
  cases hclient : session.client with
  | none => exact .kept (by simpa using herr) fun hne => absurd hclient hne
  | some ref =>
    obtain ⟨hc, hl⟩ := h.lookup hi hlive hclient
    simp only [hc, hl]
    exact .left hclient herr

theorem moved_goOn (h : t.Separate tr) (hi : t.sessions[i]? = some session) (hlive : session.pc.live)
    (outcome : Outcome) : Moved t session (goOn tr t session outcome) := by
  cases outcome with
  | suspended => exact .kept (by simp) fun _ => trivial
  | accepted => exact .kept (by simp) fun _ => trivial
  | reply =>
    change Moved t session (reply tr t session)
    unfold reply
    split
    · exact .kept (by simp) fun _ => trivial
    · exact .kept (by simp) fun _ => trivial
    · rename_i hnone
      cases hclient : session.client with
      | none => cases h.producer session (List.mem_of_getElem? hi) hclient
      | some ref =>
        rw [(h.lookup hi hlive hclient).2] at hnone
        cases hnone

theorem moved_message (h : t.Separate tr) (hi : t.sessions[i]? = some session) (hlive : session.pc.live)
    (outcome : Outcome) : Moved t session (message tr t session outcome) := by
  unfold message
  split
  · rename_i hclient _
    exact .kept (by simp) fun hne => absurd hclient hne
  · exact moved_goOn h hi hlive outcome

/-- What a step that does not start a session does. -/
theorem step_moved (h : t.Separate tr) (hstep : step tr t a = some t')
    (ha : (∀ key, a ≠ .start key) ∧ ∀ key, a ≠ .startProducer key) :
    ∃ i session r, t.sessions[i]? = some session ∧ session.pc.live ∧ Moved t session r ∧
      t' = Tables.setSession i session r := by
  cases a with
  | start key => exact absurd rfl (ha.1 key)
  | startProducer key => exact absurd rfl (ha.2 key)
  | message i outcome =>
    obtain ⟨session, hi, hstep⟩ := Option.bind_eq_some_iff.1 hstep
    split at hstep
    · rename_i hpc
      have hlive : session.pc.live := by rw [hpc]; trivial
      exact ⟨i, session, _, hi, hlive, moved_message h hi hlive outcome, (Option.some.inj hstep).symm⟩
    · cases hstep
  | resume i outcome =>
    obtain ⟨session, hi, hstep⟩ := Option.bind_eq_some_iff.1 hstep
    split at hstep
    · rename_i hpc
      have hlive : session.pc.live := by rw [hpc]; trivial
      exact ⟨i, session, _, hi, hlive, moved_goOn h hi hlive outcome, (Option.some.inj hstep).symm⟩
    · rename_i hpc
      have hlive : session.pc.live := by rw [hpc]; trivial
      exact ⟨i, session, (t, .waiting), hi, hlive, .kept (by simp) fun _ => trivial, (Option.some.inj hstep).symm⟩
    · cases hstep
  | raised i =>
    obtain ⟨session, hi, hstep⟩ := Option.bind_eq_some_iff.1 hstep
    have hended : session.pc.live → some (Tables.setSession i session (endSession t session (some .raised))) = some t' →
        ∃ i session r, t.sessions[i]? = some session ∧ session.pc.live ∧ Moved t session r ∧
          t' = Tables.setSession i session r := fun hlive hstep =>
      ⟨i, session, _, hi, hlive, moved_endSession h hi hlive (by simp), (Option.some.inj hstep).symm⟩
    split at hstep
    · rename_i hpc
      exact hended (by rw [hpc]; trivial) hstep
    · rename_i hpc
      exact hended (by rw [hpc]; trivial) hstep
    · cases hstep
  | close i =>
    obtain ⟨session, hi, hstep⟩ := Option.bind_eq_some_iff.1 hstep
    split at hstep
    · rename_i hpc
      have hlive : session.pc.live := by rw [hpc]; trivial
      exact ⟨i, session, _, hi, hlive, moved_endSession h hi hlive (by simp), (Option.some.inj hstep).symm⟩
    · cases hstep

/-- Who owns what after a step of the session `i`. -/
private theorem owns_setSession {r : Tables × Pc} (hi : t.sessions[i]? = some session)
    (hr : r.1.sessions = t.sessions) {j : Nat} :
    (Tables.setSession i session r).Owns j key ref ↔
      if j = i then r.2.live ∧ session.key = key ∧ session.client = some ref else t.Owns j key ref := by
  have hlt : i < t.sessions.length := (List.getElem?_eq_some_iff.1 hi).1
  unfold Tables.Owns Tables.setSession
  simp only [hr, List.getElem?_set, hlt, ↓reduceIte]
  by_cases hj : j = i
  · subst hj
    simp
  · simp [hj, Ne.symm hj]

/-- The entries that a session leaves in a table. -/
private theorem get?_erase_iff (h : t.Separate tr) (hi : t.sessions[i]? = some session) (hlive : session.pc.live)
    {ref₀ : ClientRef} (hclient : session.client = some ref₀) {table : Dict Address ClientRef}
    (htable : ∀ key ref, table.get? key = some ref ↔ ∃ j, t.Owns j key ref) (key : Address) (ref : ClientRef) :
    (table.erase session.key).get? key = some ref ↔ ∃ j, j ≠ i ∧ t.Owns j key ref := by
  rw [Dict.get?_erase]
  by_cases hkey : key = session.key
  · rw [if_pos hkey]
    refine ⟨fun hnone => (nomatch hnone), ?_⟩
    rintro ⟨j, hj, hown⟩
    -- under the key of the session there is its own entry only
    have hsame := ((htable key ref).2 ⟨j, hown⟩).symm.trans
      ((htable key ref₀).2 ⟨i, session, hi, hlive, hkey.symm, hclient⟩)
    obtain ⟨other, hother, -, -, hother'⟩ := hown
    exact absurd (h.distinct hother hi (hother'.trans hsame) hclient) hj
  · rw [if_neg hkey, htable]
    refine ⟨?_, fun ⟨j, _, hown⟩ => ⟨j, hown⟩⟩
    rintro ⟨j, hown⟩
    refine ⟨j, ?_, hown⟩
    rintro rfl
    obtain ⟨other, hother, -, hkey', -⟩ := hown
    rw [hi] at hother
    cases hother
    exact hkey hkey'.symm

theorem Tables.Separate.moved {r : Tables × Pc} (h : t.Separate tr) (hi : t.sessions[i]? = some session)
    (hlive : session.pc.live) (hm : Moved t session r) : (Tables.setSession i session r).Separate tr := by
  have hsessions : r.1.sessions = t.sessions := by cases hm <;> rfl
  have hnext : r.1.nextClient = t.nextClient := by cases hm <;> rfl
  have hmem : ∀ {x : Session}, x ∈ (Tables.setSession i session r).sessions →
      x = { session with pc := r.2 } ∨ x ∈ t.sessions := by
    intro x hx
    rw [Tables.setSession, hsessions] at hx
    exact (List.mem_or_eq_of_mem_set hx).symm
  have hclient : ∀ {j : Nat} {x : Session}, (Tables.setSession i session r).sessions[j]? = some x →
      ∃ y, t.sessions[j]? = some y ∧ y.client = x.client := by
    intro j x hx
    have hlt : i < t.sessions.length := (List.getElem?_eq_some_iff.1 hi).1
    simp only [Tables.setSession, hsessions, List.getElem?_set, hlt, ↓reduceIte] at hx
    split at hx
    · rename_i hij
      obtain rfl := Option.some.inj hx
      exact ⟨session, hij ▸ hi, rfl⟩
    · exact ⟨x, hx, rfl⟩
  have hsession := List.mem_of_getElem? hi
  have howns : ∀ (table : Tables → Dict Address ClientRef), (table = Tables.clients ∨ table = Tables.writeLocks) →
      (∀ key ref, (table t).get? key = some ref ↔ ∃ j, t.Owns j key ref) → ∀ key ref,
      (table (Tables.setSession i session r)).get? key = some ref ↔
        ∃ j, (Tables.setSession i session r).Owns j key ref := by
    intro table htable hown key ref
    simp only [owns_setSession hi hsessions]
    cases hm with
    | @kept pc hpc hpc' =>
      have hsame : (table (Tables.setSession i session (t, pc))) = table t := by rcases htable with rfl | rfl <;> rfl
      rw [hsame, hown]
      refine exists_congr fun j => ?_
      split
      · rename_i hj
        subst hj
        constructor
        · rintro ⟨x, hx, -, hkey, hx'⟩
          rw [hi] at hx
          cases hx
          exact ⟨hpc' (by rw [hx']; simp), hkey, hx'⟩
        · rintro ⟨-, hkey, hx'⟩
          exact ⟨session, hi, hlive, hkey, hx'⟩
      · exact Iff.rfl
    | @left ref₀ err href₀ herr =>
      have herase : (table (Tables.setSession i session
          ({ t with clients := t.clients.erase session.key, writeLocks := t.writeLocks.erase session.key },
            .finished err))) = (table t).erase session.key := by
        rcases htable with rfl | rfl <;> rfl
      rw [herase, get?_erase_iff h hi hlive href₀ hown]
      refine exists_congr fun j => ?_
      by_cases hj : j = i
      · simp [hj, Pc.live]
      · simp [hj]
  refine ⟨howns _ (Or.inl rfl) h.clients, howns _ (Or.inr rfl) h.writeLocks, ?_, ?_, ?_, ?_⟩
  · intro x hx ref href
    rw [show (Tables.setSession i session r).nextClient = t.nextClient from hnext]
    rcases hmem hx with rfl | hx
    · exact h.client_lt session hsession ref href
    · exact h.client_lt x hx ref href
  · intro j k x y ref hx hy hxr hyr
    obtain ⟨x', hx', hxc⟩ := hclient hx
    obtain ⟨y', hy', hyc⟩ := hclient hy
    exact h.distinct hx' hy' (hxc.trans hxr) (hyc.trans hyr)
  · intro x hx
    rcases hmem hx with rfl | hx
    · cases hm with
      | kept hpc => exact hpc
      | left _ herr => simpa using herr
    · exact h.keyError x hx
  · intro x hx
    rcases hmem hx with rfl | hx
    · exact h.producer session hsession
    · exact h.producer x hx

/-- A session starts. -/
theorem separate_startSession (h : t.Separate tr) (hfree : (Action.start key).keyFree t) :
    (startSession t key).Separate tr := by
  have howns : ∀ (table : Dict Address ClientRef), (∀ key ref, table.get? key = some ref ↔ ∃ j, t.Owns j key ref) →
      ∀ k ref, (table.set key t.nextClient).get? k = some ref ↔ ∃ j, (startSession t key).Owns j k ref := by
    intro table htable k ref
    rw [Dict.get?_set]
    constructor
    · intro hget
      split at hget
      · rename_i hk
        exact ⟨t.sessions.length, _, List.getElem?_concat_length .., trivial, hk.symm, hget⟩
      · obtain ⟨j, session, hj, hsession⟩ := (htable k ref).1 hget
        have hlt := (List.getElem?_eq_some_iff.1 hj).1
        exact ⟨j, session, (List.getElem?_append_left hlt).trans hj, hsession⟩
    · rintro ⟨j, session, hj, hlive, hk, hclient⟩
      rcases Interleaved.getElem?_concat hj with hj | ⟨-, rfl⟩
      · have hne : k ≠ key := hk ▸ hfree session (List.mem_of_getElem? hj) hlive (by rw [hclient]; simp)
        rw [if_neg hne, htable]
        exact ⟨j, session, hj, hlive, hk, hclient⟩
      · rw [if_pos hk.symm]
        exact hclient
  refine ⟨howns _ h.clients, howns _ h.writeLocks, ?_, ?_, ?_, ?_⟩
  · intro session hsession ref href
    rcases List.mem_append.1 hsession with hsession | hsession
    · exact Nat.lt_succ_of_lt (h.client_lt session hsession ref href)
    · cases List.mem_singleton.1 hsession
      cases href
      exact Nat.lt_succ_self _
  · intro i j x y ref hx hy hxr hyr
    have hold : ∀ {z : Session} {k : Nat}, t.sessions[k]? = some z → z.client ≠ some t.nextClient := fun hz hzr =>
      lt_irrefl _ (h.client_lt _ (List.mem_of_getElem? hz) _ hzr)
    rcases Interleaved.getElem?_concat hx with hx | ⟨hi, rfl⟩ <;>
      rcases Interleaved.getElem?_concat hy with hy | ⟨hj, rfl⟩
    · exact h.distinct hx hy hxr hyr
    · cases hyr
      exact absurd hxr (hold hx)
    · cases hxr
      exact absurd hyr (hold hy)
    · rw [hi, hj]
  · intro session hsession
    rcases List.mem_append.1 hsession with hsession | hsession
    · exact h.keyError session hsession
    · cases List.mem_singleton.1 hsession
      simp
  · intro session hsession
    rcases List.mem_append.1 hsession with hsession | hsession
    · exact h.producer session hsession
    · cases List.mem_singleton.1 hsession
      simp

/-- A producer stream starts. -/
theorem separate_startProducer (h : t.Separate .grpc) (key : Address) :
    (startProducer t key).Separate .grpc := by
  have howns : ∀ j k ref, t.Owns j k ref ↔ (startProducer t key).Owns j k ref := by
    intro j k ref
    constructor
    · rintro ⟨session, hj, hsession⟩
      exact ⟨session, (List.getElem?_append_left (List.getElem?_eq_some_iff.1 hj).1).trans hj, hsession⟩
    · rintro ⟨session, hj, hlive, hk, hclient⟩
      rcases Interleaved.getElem?_concat hj with hj | ⟨-, rfl⟩
      · exact ⟨session, hj, hlive, hk, hclient⟩
      · cases hclient
  refine ⟨fun k ref => ?_, fun k ref => ?_, ?_, ?_, ?_, fun _ _ _ => rfl⟩
  · exact (h.clients k ref).trans (exists_congr fun j => howns j k ref)
  · exact (h.writeLocks k ref).trans (exists_congr fun j => howns j k ref)
  · intro session hsession ref href
    rcases List.mem_append.1 hsession with hsession | hsession
    · exact h.client_lt session hsession ref href
    · cases List.mem_singleton.1 hsession
      cases href
  · intro i j x y ref hx hy hxr hyr
    rcases Interleaved.getElem?_concat hx with hx | ⟨-, rfl⟩
    · rcases Interleaved.getElem?_concat hy with hy | ⟨-, rfl⟩
      · exact h.distinct hx hy hxr hyr
      · cases hyr
    · cases hxr
  · intro session hsession
    rcases List.mem_append.1 hsession with hsession | hsession
    · exact h.keyError session hsession
    · cases List.mem_singleton.1 hsession
      simp

theorem step_separate (h : t.Separate tr) (hfree : a.keyFree t) (hstep : step tr t a = some t') :
    t'.Separate tr := by
  have hmoved : (∀ key, a ≠ .start key) ∧ (∀ key, a ≠ .startProducer key) → t'.Separate tr := fun ha => by
    obtain ⟨i, session, r, hi, hlive, hm, rfl⟩ := step_moved h hstep ha
    exact h.moved hi hlive hm
  cases a with
  | start key =>
    cases hstep
    exact separate_startSession h hfree
  | startProducer key =>
    simp only [step] at hstep
    split at hstep
    · rename_i htr
      subst htr
      cases hstep
      exact separate_startProducer h key
    · cases hstep
  | message i outcome => exact hmoved (by simp)
  | resume i outcome => exact hmoved (by simp)
  | raised i => exact hmoved (by simp)
  | close i => exact hmoved (by simp)

theorem run_separate {as : List Action} (h : (machine tr).RunWhere (fun t a => a.keyFree t) as t) :
    t.Separate tr := by
  refine h.invariant (I := Tables.Separate tr) ⟨?_, ?_, ?_, ?_, ?_, ?_⟩ fun _ _ _ hI hfree hstep =>
    step_separate hI hfree hstep
  all_goals simp [machine, Tables.Owns]

/-- An entry that a step deletes or replaces was the entry of a session that ends in the step. -/
private theorem removed_own (h : t.Separate tr) (hfree : a.keyFree t) (hstep : step tr t a = some t')
    (table : Tables → Dict Address ClientRef) (htable : table = Tables.clients ∨ table = Tables.writeLocks)
    (hbefore : (table t).get? key = some ref) (hafter : (table t').get? key ≠ some ref) : t.Ends t' key ref := by
  have hown : ∃ i, t.Owns i key ref := by
    rcases htable with rfl | rfl
    · exact (h.clients key ref).1 hbefore
    · exact (h.writeLocks key ref).1 hbefore
  have hmoved : (∀ key, a ≠ .start key) ∧ (∀ key, a ≠ .startProducer key) → t.Ends t' key ref := fun ha => by
    obtain ⟨i, session, r, hi, hlive, hm, rfl⟩ := step_moved h hstep ha
    cases hm with
    | kept => exact absurd hbefore (by rcases htable with rfl | rfl <;> exact hafter)
    | @left ref₀ err hclient herr =>
      have hlt : i < t.sessions.length := (List.getElem?_eq_some_iff.1 hi).1
      obtain ⟨hc, hl⟩ := h.lookup hi hlive hclient
      -- only the key of the session is affected
      have hkey : key = session.key := by
        by_contra hne
        refine hafter ?_
        rcases htable with rfl | rfl <;> exact (Dict.get?_erase ..).trans ((if_neg hne).trans hbefore)
      have href : (table t).get? session.key = some ref₀ := by rcases htable with rfl | rfl <;> assumption
      rw [hkey, href] at hbefore
      refine ⟨i, session, err, hi, hlive, hkey.symm, hclient.trans hbefore, ?_⟩
      simp [Tables.setSession, hlt]
  cases a with
  | start k =>
    -- the key of the new session was not in use
    cases hstep
    obtain ⟨i, session, hi, hlive, hkey, hclient⟩ := hown
    have hne : key ≠ k := hkey ▸ hfree session (List.mem_of_getElem? hi) hlive (by rw [hclient]; simp)
    refine absurd hbefore (fun hbefore => hafter ?_)
    rcases htable with rfl | rfl <;> exact (Dict.get?_set_ne _ _ hne).trans hbefore
  | startProducer k =>
    simp only [step] at hstep
    split at hstep
    · cases hstep
      exact absurd hbefore (by rcases htable with rfl | rfl <;> exact hafter)
    · cases hstep
  | message i outcome => exact hmoved (by simp)
  | resume i outcome => exact hmoved (by simp)
  | raised i => exact hmoved (by simp)
  | close i => exact hmoved (by simp)

/-- If every session starts under a key that no running session has, then every running session has its entries in both
tables, no handler has failed with a `KeyError`, and what a step deletes from the tables are the entries of the session
that ends in it. -/
theorem sessions_undisturbed {as : List Action} (h : (machine tr).RunWhere (fun t a => a.keyFree t) as t) :
    (∀ session ∈ t.sessions, session.pc.live → ∀ ref, session.client = some ref →
      t.clients.get? session.key = some ref ∧ t.writeLocks.get? session.key = some ref) ∧
    (∀ session ∈ t.sessions, session.pc ≠ .finished (some .keyError)) ∧
    ∀ a t', a.keyFree t → (machine tr).step t a = some t' → ∀ key ref,
      (t.clients.get? key = some ref ∧ t'.clients.get? key ≠ some ref ∨
        t.writeLocks.get? key = some ref ∧ t'.writeLocks.get? key ≠ some ref) → t.Ends t' key ref := by
  have hsep := run_separate h
  refine ⟨fun session hsession hlive ref hclient => ?_, hsep.keyError, ?_⟩
  · obtain ⟨i, hi⟩ := List.getElem?_of_mem hsession
    exact hsep.lookup hi hlive hclient
  · rintro a t' hfree hstep key ref (⟨hbefore, hafter⟩ | ⟨hbefore, hafter⟩)
    · exact removed_own hsep hfree hstep Tables.clients (Or.inl rfl) hbefore hafter
    · exact removed_own hsep hfree hstep Tables.writeLocks (Or.inr rfl) hbefore hafter

/-- A client reconnects with its key after its first session has ended, while another client is connected. -/
theorem sessions_undisturbed_of_reconnect :
    ∃ as t, (machine .websocket).RunWhere (fun t a => a.keyFree t) as t ∧
      (∃ session ∈ t.sessions, session.pc.live ∧ session.key = "k" ∧ session.client = some 2) ∧
      t.clients.get? "k" = some 2 ∧ t.writeLocks.get? "k" = some 2 := by
  obtain ⟨t, hrun, session, hsession, hlive, hkey, hclient⟩ := Machine.exists_runWhere (M := machine .websocket)
    (G := fun t a => a.keyFree t) (g := fun t a => decide (a.keyFree t)) (fun _ _ h => of_decide_eq_true h)
    (fun t => ∃ session ∈ t.sessions, session.pc.live ∧ session.key = "k" ∧ session.client = some 2)
    [.start "k", .start "l", .message 0 .reply, .resume 0 .reply, .message 1 .suspended, .close 0, .start "k",
      .resume 1 .reply] (by decide)
  have hentry := (sessions_undisturbed hrun).1 session hsession hlive 2 hclient
  rw [hkey] at hentry
  exact ⟨_, t, hrun, ⟨session, hsession, hlive, hkey, hclient⟩, hentry⟩

/-- Two sessions with the same key.  When the first one ends it deletes the entries of the second, which is still
running and fails with a `KeyError` at its next reply. -/
theorem session_evicted :
    (∃ as t, (machine .websocket).Run as t ∧ ∃ session ∈ t.sessions, session.pc.live ∧ session.client = some 1 ∧
      t.clients.get? session.key = none ∧ t.writeLocks.get? session.key = none) ∧
    ∃ as t, (machine .websocket).Run as t ∧
      ∃ session ∈ t.sessions, session.client = some 1 ∧ session.pc = .finished (some .keyError) := by
  obtain ⟨t, hrun, hsession⟩ := Machine.exists_run (M := machine .websocket)
    (fun t => ∃ session ∈ t.sessions, session.pc.live ∧ session.client = some 1 ∧
      t.clients.get? session.key = none ∧ t.writeLocks.get? session.key = none)
    [.start "k", .start "k", .close 0] (by decide)
  obtain ⟨t', hrun', hsession'⟩ := Machine.exists_run (M := machine .websocket)
    (fun t => ∃ session ∈ t.sessions, session.client = some 1 ∧ session.pc = .finished (some .keyError))
    [.start "k", .start "k", .close 0, .message 1 .reply] (by decide)
  exact ⟨⟨_, t, hrun, hsession⟩, _, t', hrun', hsession'⟩

/-- The transport of the server. -/
def Transport.clientTransport : Transport → Gabriel.Transport
  | .grpc => .grpc
  | .websocket => .websocket

end ClientTables

/-! ### The server with one table for the two -/

namespace Interleaved

open ClientTables (Tables)

variable {tr : ClientTables.Transport} {cfg : Config} {s s' : Server} {sys sys' : Sys} {stream : Stream}

def StreamPc.session : StreamPc → ClientTables.Pc
  | .idle => .waiting
  | .dispatching _ _ _ => .handling
  | .replying => .writing
  | .finished err => .finished err

def Stream.session (stream : Stream) : ClientTables.Session :=
  { key := stream.address, client := stream.owner, pc := stream.pc.session }

/-- The tables of a server that has the sessions `sessions`: the table of client entries stands for both. -/
def tables (s : Server) (sessions : List ClientTables.Session) : Tables :=
  { clients := s.frontend.clients
    writeLocks := s.frontend.clients
    nextClient := s.frontend.nextClient
    sessions := sessions }

/-- The tables and sessions of the system. -/
def Sys.tables (sys : Sys) : Tables := Interleaved.tables sys.server (sys.streams.map Stream.session)

/-- A handler of a stream ends in the same way with two tables. -/
private theorem endSession_tables (sessions : List ClientTables.Session) (err : Option PyError) :
    ClientTables.endSession (tables s sessions) stream.session err =
      (tables (endStream s stream true err).1 sessions, (endStream s stream true err).2.session) := by
  unfold ClientTables.endSession ClientTables.cleanUp endStream
  cases howner : stream.owner with
  | none => simp [Stream.session, howner, StreamPc.session]
  | some ref =>
    simp only [Stream.session, howner, tables, Frontend.removeClient]
    cases hget : s.frontend.clients.get? stream.address with
    | none => simp [StreamPc.session]
    | some ref' => simp [StreamPc.session]

private theorem tables_congr {sessions : List ClientTables.Session}
    (hclients : s'.frontend.clients = s.frontend.clients) (hnext : s'.frontend.nextClient = s.frontend.nextClient) :
    tables s' sessions = tables s sessions := by
  unfold tables
  rw [hclients, hnext]

/-- What the handling of a message comes to in the machine of the tables. -/
def StreamPc.outcome : StreamPc → ClientTables.Outcome
  | .idle => .accepted
  | .dispatching _ _ _ => .suspended
  | _ => .reply

private theorem endStream_outcome (deletes : Bool) (err : Option PyError) :
    (endStream s stream deletes err).2.outcome = .reply := by
  unfold endStream
  split
  · split <;> rfl
  · rfl

private theorem reply_tables (hcfg : cfg.clientTransport = tr.clientTransport) {s₁ : Server} {f : Frontend}
    (hclients : f.clients = s.frontend.clients) (hnext : f.nextClient = s.frontend.nextClient)
    (sessions : List ClientTables.Session) (ref : ClientRef) (msg : ToClient) {r : Server × StreamPc}
    (hr : afterReply cfg s₁ stream (f.reply cfg ref stream.address msg) = r) :
    ClientTables.goOn tr (tables s sessions) stream.session r.2.outcome = (tables r.1 sessions, r.2.session) := by
  subst hr
  unfold Frontend.reply
  cases hget : s.frontend.clients.get? stream.address with
  | some ref' =>
    rw [hclients, hget]
    cases tr <;> simp only [hcfg, ClientTables.Transport.clientTransport, afterReply, StreamPc.outcome,
      StreamPc.session, ClientTables.goOn, ClientTables.reply, tables, Stream.session, hget] <;>
      simp [hclients, hnext]
  | none =>
    rw [hclients, hget]
    cases tr with
    | grpc =>
      simp [hcfg, ClientTables.Transport.clientTransport, afterReply, StreamPc.outcome, StreamPc.session,
        ClientTables.goOn, tables, hclients, hnext]
    | websocket =>
      simp only [hcfg, ClientTables.Transport.clientTransport, afterReply, failStream]
      have hend := @endSession_tables { s₁ with frontend := f } stream sessions (some .keyError)
      rw [tables_congr (s := s) hclients hnext] at hend
      simp only [ne_eq, reduceCtorEq, not_false_eq_true, decide_true, endStream_outcome]
      rw [← hend]
      simp [ClientTables.goOn, ClientTables.reply, tables, Stream.session, hget]

private theorem replyError_tables (hcfg : cfg.clientTransport = tr.clientTransport) {s₁ : Server} {f : Frontend}
    (hclients : f.clients = s.frontend.clients) (hnext : f.nextClient = s.frontend.nextClient)
    (sessions : List ClientTables.Session) (ref : ClientRef) (msg : FromClient) (code : StatusCode) (text : String)
    {r : Server × StreamPc} (hr : afterReply cfg s₁ stream (f.replyError cfg ref stream.address msg code text) = r) :
    ClientTables.goOn tr (tables s sessions) stream.session r.2.outcome = (tables r.1 sessions, r.2.session) :=
  reply_tables (f := f.emit _) hcfg hclients hnext sessions ref _ hr

private theorem consumerHelper_nextClient {ref : ClientRef} {a : Address} {msg : FromClient} :
    (s.consumerHelper cfg ref a msg).1.frontend.nextClient = s.frontend.nextClient := by
  unfold Server.consumerHelper
  rcases hr : s.frontend.consumerHelper cfg ref a msg with ⟨f, adm⟩
  have hf : f.nextClient = s.frontend.nextClient := by cases Frontend.consumerHelper_cases hr <;> simp
  cases adm with
  | registered => exact hf
  | refused => exact hf
  | forward =>
    simp only
    split <;> exact hf

private theorem consume_tables (hcfg : cfg.clientTransport = tr.clientTransport) (sessions : List ClientTables.Session)
    {ref : ClientRef} {msg : FromClient} {order : List Context} {b : Bool} {r : Server × StreamPc}
    (hr : consume cfg s stream ref msg order b = some r) :
    ClientTables.goOn tr (tables s sessions) stream.session r.2.outcome = (tables r.1 sessions, r.2.session) := by
  have hclients := @consumerHelper_clients cfg s ref stream.address msg
  have hnext := @consumerHelper_nextClient cfg s ref stream.address msg
  unfold consume at hr
  split at hr <;> rename_i heq <;> rw [heq] at hclients hnext
  · exact reply_tables hcfg hclients hnext sessions ref _ (Option.some.inj hr)
  · exact replyError_tables hcfg hclients hnext sessions ref msg _ _ (Option.some.inj hr)
  · split at hr
    · obtain rfl := Option.some.inj hr
      generalize hr' : startDispatch cfg _ stream ref msg _ order b = r
      unfold startDispatch at hr'
      split at hr'
      · subst hr'
        exact Prod.ext (tables_congr hclients hnext).symm rfl
      · split at hr'
        · subst hr'
          exact Prod.ext (tables_congr (by simpa using hclients) (by simpa using hnext)).symm rfl
        · exact replyError_tables hcfg hclients hnext sessions ref msg _ _ hr'
    · cases hr

/-- A handler that goes on in the system goes on in the machine of the tables. -/
private theorem setStream_tables {i : Nat} {r : Server × StreamPc} {t : Tables × ClientTables.Pc}
    (ht : t = (tables r.1 (sys.streams.map Stream.session), r.2.session)) :
    Tables.setSession i stream.session t = (sys.setStream i stream r).tables := by
  subst ht
  unfold Sys.tables Sys.setStream Tables.setSession tables
  simp only [List.map_set]
  rfl

private theorem getElem?_tables {i : Nat} (hi : sys.streams[i]? = some stream) :
    sys.tables.sessions[i]? = some stream.session := by
  simp only [Sys.tables, tables, List.getElem?_map, hi, Option.map_some]

private theorem streamMessage_tables (hcfg : cfg.clientTransport = tr.clientTransport) {i : Nat}
    (hi : sys.streams[i]? = some stream) {msg : FromClient} {order : List Context} {b : Bool} {r : Server × StreamPc}
    (hr : streamMessage cfg sys.server stream msg order b = some r) :
    ClientTables.step tr sys.tables (.message i r.2.outcome) = some (sys.setStream i stream r).tables := by
  unfold streamMessage at hr
  split at hr
  · rename_i hidle
    have hwaiting : stream.session.pc = .waiting := by rw [Stream.session, hidle]; rfl
    simp only [ClientTables.step, getElem?_tables hi, Option.bind_eq_bind, Option.bind_some, hwaiting, ↓reduceIte,
      Option.some.injEq]
    refine setStream_tables ?_
    unfold Stream.client at hr
    unfold ClientTables.message
    cases howner : stream.owner with
    | some ref =>
      have hclient : stream.session.client = some ref := howner
      simp only [howner] at hr
      rw [hclient]
      exact consume_tables hcfg _ hr
    | none =>
      have hclient : stream.session.client = none := howner
      rw [hclient]
      simp only [howner] at hr
      cases hentry : sys.server.frontend.clients.get? stream.address with
      | none =>
        have hentry' : sys.tables.clients.get? stream.session.key = none := hentry
        rw [hentry']
        rw [hentry] at hr
        cases hr
        rfl
      | some ref =>
        have hentry' : sys.tables.clients.get? stream.session.key = some ref := hentry
        rw [hentry']
        rw [hentry] at hr
        exact consume_tables hcfg _ hr
  · cases hr

/-- An exception at the suspension of a handler. -/
private theorem failStream_tables (hcfg : cfg.clientTransport = tr.clientTransport) {i : Nat}
    (hi : sys.streams[i]? = some stream) {r : Server × StreamPc} (hr : failStream cfg sys.server stream .raised = r)
    (hpc : stream.session.pc = .handling ∨ stream.session.pc = .writing) :
    ClientTables.step tr sys.tables (.raised i) = some (sys.setStream i stream r).tables := by
  have hdeletes : decide (cfg.clientTransport ≠ .zeromq) = true := by
    rw [hcfg]
    cases tr <;> rfl
  have hend := @endSession_tables sys.server stream (sys.streams.map Stream.session) (some .raised)
  subst hr
  rw [failStream, hdeletes]
  rcases hpc with hpc | hpc <;>
    simp only [ClientTables.step, getElem?_tables hi, Option.bind_eq_bind, Option.bind_some, hpc, Option.some.injEq] <;>
    exact setStream_tables hend

private theorem resumeStream_tables (hcfg : cfg.clientTransport = tr.clientTransport) {i : Nat}
    (hi : sys.streams[i]? = some stream) {raises b : Bool} {r : Server × StreamPc}
    (hr : resumeStream cfg sys.server stream raises b = some r) :
    ∃ a, ClientTables.step tr sys.tables a = some (sys.setStream i stream r).tables := by
  unfold resumeStream at hr
  split at hr
  · cases hr
  · cases hr
  · rename_i hpc
    have hhandling : stream.session.pc = .handling := by rw [Stream.session, hpc]; rfl
    split at hr
    · exact ⟨_, failStream_tables hcfg hi (Option.some.inj hr) (Or.inl hhandling)⟩
    · refine ⟨.resume i r.2.outcome, ?_⟩
      simp only [ClientTables.step, getElem?_tables hi, Option.bind_eq_bind, Option.bind_some, hhandling,
        Option.some.injEq]
      refine setStream_tables ?_
      rw [← Option.some.inj hr]
      unfold resumeDispatch
      split
      · rfl
      · exact Prod.ext (tables_congr (by simp) (by simp)).symm rfl
  · rename_i hpc
    have hwriting : stream.session.pc = .writing := by rw [Stream.session, hpc]; rfl
    split at hr
    · exact ⟨_, failStream_tables hcfg hi (Option.some.inj hr) (Or.inr hwriting)⟩
    · obtain rfl := Option.some.inj hr
      refine ⟨.resume i .reply, ?_⟩
      simp only [ClientTables.step, getElem?_tables hi, Option.bind_eq_bind, Option.bind_some, hwriting,
        Option.some.injEq]
      exact setStream_tables rfl

private theorem closeStream_tables {i : Nat} (hi : sys.streams[i]? = some stream) {r : Server × StreamPc}
    (hr : closeStream sys.server stream = some r) :
    ClientTables.step tr sys.tables (.close i) = some (sys.setStream i stream r).tables := by
  unfold closeStream at hr
  split at hr
  · rename_i hidle
    obtain rfl := Option.some.inj hr
    have hwaiting : stream.session.pc = .waiting := by rw [Stream.session, hidle]; rfl
    simp only [ClientTables.step, getElem?_tables hi, Option.bind_eq_bind, Option.bind_some, hwaiting, ↓reduceIte,
      Option.some.injEq]
    exact setStream_tables (endSession_tables _ none)
  · cases hr

/-- A step of the server is a step of the machine with two tables, or leaves the tables alone. -/
theorem step_tables (hcfg : cfg.clientTransport = tr.clientTransport) {act : Action}
    (hstep : step cfg sys act = some sys') :
    sys'.tables = sys.tables ∨ ∃ a, ClientTables.step tr sys.tables a = some sys'.tables := by
  cases act with
  | openClient a =>
    simp only [step] at hstep
    split at hstep
    · cases hstep
    · cases hstep
      refine Or.inr ⟨.start a, ?_⟩
      simp [ClientTables.step, ClientTables.startSession, Sys.tables, tables, Frontend.addClient, Stream.session,
        StreamPc.session]
  | openProducer a =>
    simp only [step] at hstep
    split at hstep
    · rename_i hgrpc
      cases hstep
      refine Or.inr ⟨.startProducer a, ?_⟩
      have htr : tr = .grpc := by
        cases tr with
        | grpc => rfl
        | websocket => rw [hcfg] at hgrpc; cases hgrpc
      simp [ClientTables.step, ClientTables.startProducer, htr, Sys.tables, tables, Stream.session, StreamPc.session]
    · cases hstep
  | message i msg order b =>
    obtain ⟨stream, hi, hstep⟩ := Option.bind_eq_some_iff.1 hstep
    obtain ⟨r, hr, hstep⟩ := Option.bind_eq_some_iff.1 hstep
    cases hstep
    exact Or.inr ⟨_, streamMessage_tables hcfg hi hr⟩
  | resumeStream i raises b =>
    obtain ⟨stream, hi, hstep⟩ := Option.bind_eq_some_iff.1 hstep
    obtain ⟨r, hr, hstep⟩ := Option.bind_eq_some_iff.1 hstep
    cases hstep
    exact Or.inr (resumeStream_tables hcfg hi hr)
  | closeStream i =>
    obtain ⟨stream, hi, hstep⟩ := Option.bind_eq_some_iff.1 hstep
    obtain ⟨r, hr, hstep⟩ := Option.bind_eq_some_iff.1 hstep
    cases hstep
    exact Or.inr ⟨_, closeStream_tables hi hr⟩
  | openSession => cases hstep; exact Or.inl rfl
  | engineMessage | resumeSession | closeSession =>
    cases step_cases hstep with
    | session _ _ hs => exact Or.inl (tables_congr hs.effects.clients hs.effects.nextClient)

/-- Every run of the server is a run of the machine with two tables. -/
theorem run_tables (hcfg : cfg.clientTransport = tr.clientTransport) {as : List Action}
    (h : (machine cfg).Run as sys) : ∃ bs, (ClientTables.machine tr).Run bs sys.tables :=
  h.refines Sys.tables rfl fun _ _ _ _ hstep =>
    (step_tables hcfg hstep).imp_right fun ⟨a, ha⟩ => ⟨a, trivial, ha⟩

end Interleaved

end Gabriel
