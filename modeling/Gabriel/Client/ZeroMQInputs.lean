import Gabriel.Client.ZeroMQHost
import Gabriel.Lib.Channel

/-!
# The inputs of the clients of the ZeroMQ server

The inputs of a client pass through the socket and through the queues of its entries.  For each client this is a channel
that keeps the order of the inputs, and that loses what is left in the queue of an entry when its consumer times out
(`run_channel`).  A consumer that ends by an exception leaves its entry in the table, and with it a queue that nobody
reads (`failed_consumer_not_replaced`).
-/

namespace Gabriel.ZeroMQServer

open ClientLog

variable {cfg : Config} {s s' : State} {act : Action} {a : Address}

/-! ### The inputs of a client -/

/-- The `FromClient` that a message is parsed to. -/
def Raw.message : Raw → Option FromClient
  | .input msg => some msg
  | _ => none

/-- The inputs from `a` among the messages `l`. -/
def messagesOf (l : List (Address × Raw)) (a : Address) : List FromClient :=
  l.filterMap fun m => if m.1 = a then m.2.message else none

@[simp] theorem messagesOf_append (l l' : List (Address × Raw)) (a : Address) :
    messagesOf (l ++ l') a = messagesOf l a ++ messagesOf l' a := List.filterMap_append

theorem messagesOf_cons (b : Address) (raw : Raw) (l : List (Address × Raw)) (a : Address) :
    messagesOf ((b, raw) :: l) a = (if b = a then raw.message.toList else []) ++ messagesOf l a := by
  unfold messagesOf
  rw [List.filterMap_cons]
  by_cases hb : b = a
  · cases raw <;> simp [hb, Raw.message]
  · simp [hb]

theorem messagesOf_map (raws : List Raw) (b a : Address) :
    messagesOf (raws.map fun raw => (b, raw)) a = if b = a then raws.filterMap Raw.message else [] := by
  unfold messagesOf
  rw [List.filterMap_map]
  by_cases hb : b = a
  · simp [hb]
  · simp [hb]

namespace State

/-- The inputs in the queue of the entry at `a`. -/
def queued (s : State) (a : Address) : List FromClient :=
  match s.sys.server.frontend.clients.get? a with
  | some ref => (s.inputs ref).filterMap Raw.message
  | none => []

/-- The inputs of the client at `a`, from the socket to the consumers of its entries. -/
def channel (s : State) (a : Address) : Channel FromClient where
  posted := messagesOf s.arrived a
  taken := messagesFrom s.sys.server.frontend.log a
  lost := messagesOf s.lost a
  waiting := s.queued a ++ messagesOf s.socket a

end State

/-! ### The way of an input -/

namespace State

theorem queued_of_entry {ref : ClientRef} (h : s.sys.server.frontend.clients.get? a = some ref) :
    s.queued a = (s.inputs ref).filterMap Raw.message := by
  rw [queued, h]

theorem queued_of_none (h : s.sys.server.frontend.clients.get? a = none) : s.queued a = [] := by
  rw [queued, h]

/-- The address keeps its entry, and the entry the inputs in its queue. -/
theorem queued_congr (hget : s'.sys.server.frontend.clients.get? a = s.sys.server.frontend.clients.get? a)
    (hinputs : ∀ ref, s.sys.server.frontend.clients.get? a = some ref →
      (s'.inputs ref).filterMap Raw.message = (s.inputs ref).filterMap Raw.message) :
    s'.queued a = s.queued a := by
  unfold queued
  rw [hget]
  split
  · rename_i ref href
    exact hinputs ref href
  · rfl

/-- A message is put into the queue of the entry at `b`. -/
theorem channel_put {b : Address} {ref : ClientRef} (hentry : s.sys.server.frontend.clients.get? b = some ref)
    (hother : ∀ a, s.sys.server.frontend.clients.get? a = some ref → a = b) (raw : Raw) (a : Address) :
    (s.put ref raw).channel a = { s.channel a with
      waiting := s.queued a ++ ((if b = a then raw.message.toList else []) ++ messagesOf s.socket a) } := by
  have hqueued : (s.put ref raw).queued a = s.queued a ++ if b = a then raw.message.toList else [] := by
    by_cases hb : b = a
    · subst hb
      rw [queued_of_entry (by rw [put_sys, hentry]), queued_of_entry hentry]
      cases raw <;> simp [put, Raw.message]
    · rw [if_neg hb, List.append_nil]
      refine queued_congr (by rw [put_sys]) fun r hr => ?_
      have hne : r ≠ ref := by
        rintro rfl
        exact hb (hother a hr).symm
      rw [put_inputs_of_ne hne]
  simp only [channel, hqueued, put_socket, put_arrived, put_lost, put_sys, List.append_assoc]

end State

/-! Each step leaves the channel of an address alone or is a step of it. -/

theorem channel_arrived (b : Address) (raw : Raw) (a : Address) :
    ({ s with
      socket := s.socket ++ [(b, raw)]
      arrived := s.arrived ++ [(b, raw)] } : State).channel a = { s.channel a with
        posted := (s.channel a).posted ++ (if b = a then raw.message.toList else [])
        waiting := (s.channel a).waiting ++ (if b = a then raw.message.toList else []) } := by
  have hnil : messagesOf [] a = [] := rfl
  simp only [State.channel, State.queued, messagesOf_append, messagesOf_cons, hnil, List.append_nil,
    List.append_assoc]

theorem channel_received {raw : Raw} {socket : List (Address × Raw)} {b : Address} {ref : ClientRef}
    (h : s.Sound cfg) (hsocket : s.socket = (b, raw) :: socket)
    (hentry : s.sys.server.frontend.clients.get? b = some ref) (a : Address) :
    ({ s with socket := socket }.put ref raw).channel a = s.channel a := by
  have hput := State.channel_put (s := { s with socket := socket }) hentry
    (fun c hc => h.served.address_eq h.owned hc hentry) raw a
  refine hput.trans ?_
  simp only [State.channel, State.queued, hsocket, messagesOf_cons]

theorem channel_accepted {raw : Raw} {socket : List (Address × Raw)} {b : Address} {sys : Interleaved.Sys}
    (hcfg : cfg.clientTransport = .zeromq) (h : s.Sound cfg) (hsocket : s.socket = (b, raw) :: socket)
    (hentry : s.sys.server.frontend.clients.get? b = none)
    (hopen : Interleaved.step cfg s.sys (.openClient b) = some sys) (a : Address) :
    ({ s with sys := sys, socket := socket }.put s.sys.server.frontend.nextClient raw).channel a = s.channel a := by
  obtain ⟨hnew, -⟩ := Interleaved.get?_openClient hopen
  have howned : sys.Owned cfg := Interleaved.owned_step hopen h.tracked h.owned
  have hserved : sys.Served := Interleaved.served_step hopen h.served
  have hput := State.channel_put (s := { s with sys := sys, socket := socket }) hnew
    (fun c hc => hserved.address_eq howned hc hnew) raw a
  have hqueued : ({ s with sys := sys, socket := socket } : State).queued a = s.queued a := by
    by_cases ha : a = b
    · -- the queue of the new entry is empty
      subst ha
      rw [State.queued_of_none hentry, State.queued_of_entry (s := { s with sys := sys, socket := socket }) hnew,
        h.fresh _ (Nat.le_refl _)]
      rfl
    · refine State.queued_congr ?_ fun _ _ => rfl
      exact Interleaved.get?_step_of_zeromq hcfg h.attached hopen (by simp [Ne.symm ha]) (by simp)
  refine hput.trans ?_
  rw [hqueued]
  simp only [State.channel, hsocket, messagesOf_cons, Interleaved.messagesFrom_step hopen (by simp)]

theorem channel_skipped {ref : ClientRef} {raw : Raw} {rest : List Raw} {heartbeats : List Address}
    (hinputs : s.inputs ref = raw :: rest) (hraw : ∀ msg, raw ≠ .input msg)
    (hs' : s' = { s with inputs := Function.update s.inputs ref rest, heartbeats := heartbeats }) (a : Address) :
    s'.channel a = s.channel a := by
  have hqueued : s'.queued a = s.queued a := by
    refine State.queued_congr (by rw [hs']) fun r _ => ?_
    rw [hs']
    by_cases hr : r = ref
    · subst hr
      have hnone : raw.message = none := by
        cases raw with
        | input msg => exact absurd rfl (hraw msg)
        | _ => rfl
      simp [hinputs, hnone]
    · simp [hr]
  simp only [State.channel, hqueued]
  rw [hs']

theorem channel_consumed {i : Nat} {order : List Context} {delivered : Bool} {stream : Interleaved.Stream}
    {ref : ClientRef} {msg : FromClient} {rest : List Raw} {sys : Interleaved.Sys}
    (hcfg : cfg.clientTransport = .zeromq) (h : s.Sound cfg) (hi : s.sys.streams[i]? = some stream)
    (howner : stream.owner = some ref) (hidle : stream.pc = .idle) (hinputs : s.inputs ref = .input msg :: rest)
    (hstep : Interleaved.step cfg s.sys (.message i msg order delivered) = some sys)
    (hs' : s' = { s with sys := sys, inputs := Function.update s.inputs ref rest }) (a : Address) :
    if stream.address = a then (s.channel a).Step (s'.channel a) else s'.channel a = s.channel a := by
  have hentry := h.entry hi (by rw [hidle]; trivial) howner
  have hget : ∀ b, s'.sys.server.frontend.clients.get? b = s.sys.server.frontend.clients.get? b := by
    intro b
    rw [hs']
    exact Interleaved.get?_step_of_zeromq hcfg h.attached hstep (by simp) (by simp)
  have htaken : messagesFrom s'.sys.server.frontend.log a =
      messagesFrom s.sys.server.frontend.log a ++ if stream.address = a then [msg] else [] := by
    rw [hs']
    exact Interleaved.messagesFrom_message hstep hi howner a
  have hrest : ∀ r, s'.inputs r = if r = ref then rest else s.inputs r := by
    intro r
    rw [hs']
    exact Function.update_apply ..
  obtain ⟨harrived, hlost, hsocket⟩ : s'.arrived = s.arrived ∧ s'.lost = s.lost ∧ s'.socket = s.socket := by
    rw [hs']
    exact ⟨rfl, rfl, rfl⟩
  split
  · rename_i ha
    subst ha
    rw [if_pos rfl] at htaken
    have hbefore : s.queued stream.address = msg :: rest.filterMap Raw.message := by
      rw [State.queued_of_entry hentry, hinputs]
      rfl
    have hafter : s'.queued stream.address = rest.filterMap Raw.message := by
      rw [State.queued_of_entry ((hget _).trans hentry), hrest, if_pos rfl]
    have htake := Channel.Step.take (s.channel stream.address) msg
      (rest.filterMap Raw.message ++ messagesOf s.socket stream.address) (by simp [State.channel, hbefore])
    simpa only [State.channel, hafter, htaken, harrived, hlost, hsocket] using htake
  · rename_i ha
    rw [if_neg ha, List.append_nil] at htaken
    have hqueued : s'.queued a = s.queued a := by
      refine State.queued_congr (hget a) fun r hr => ?_
      have hne : r ≠ ref := by
        rintro rfl
        exact ha (h.served.address_eq h.owned hentry hr)
      rw [hrest, if_neg hne]
    simp only [State.channel, hqueued, htaken, harrived, hlost, hsocket]

theorem channel_timedOut {i : Nat} {stream : Interleaved.Stream} {ref : ClientRef} {sys : Interleaved.Sys}
    (hcfg : cfg.clientTransport = .zeromq) (h : s.Sound cfg) (hi : s.sys.streams[i]? = some stream)
    (howner : stream.owner = some ref) (hstep : Interleaved.step cfg s.sys (.closeStream i) = some sys)
    (hs' : s' = { s with sys := sys, lost := s.lost ++ (s.inputs ref).map fun raw => (stream.address, raw) })
    (a : Address) :
    if stream.address = a then (s.channel a).Step (s'.channel a) else s'.channel a = s.channel a := by
  obtain ⟨hentry, hgone⟩ := Interleaved.get?_closeStream h.attached hstep hi howner
  have htaken : messagesFrom s'.sys.server.frontend.log a = messagesFrom s.sys.server.frontend.log a := by
    rw [hs']
    exact Interleaved.messagesFrom_step hstep (by simp) a
  have hlost : messagesOf s'.lost a = messagesOf s.lost a ++
      if stream.address = a then (s.inputs ref).filterMap Raw.message else [] := by
    rw [hs', messagesOf_append, messagesOf_map]
  obtain ⟨harrived, hsocket⟩ : s'.arrived = s.arrived ∧ s'.socket = s.socket := by
    rw [hs']
    exact ⟨rfl, rfl⟩
  split
  · rename_i ha
    subst ha
    have hempty : s'.queued stream.address = [] := State.queued_of_none (by rw [hs', hgone])
    have hlose := Channel.Step.lose (s.channel stream.address) (s.queued stream.address)
      (messagesOf s.socket stream.address) rfl
    rw [State.queued_of_entry hentry] at hlose
    rw [if_pos rfl] at hlost
    simpa only [State.channel, hempty, htaken, hlost, harrived, hsocket, List.nil_append] using hlose
  · rename_i ha
    have hqueued : s'.queued a = s.queued a := by
      rw [hs']
      refine State.queued_congr ?_ fun _ _ => rfl
      refine Interleaved.get?_step_of_zeromq hcfg h.attached hstep (by simp) fun j stream' hj hi' => ?_
      cases hj
      cases hi.symm.trans hi'
      exact ha
    rw [if_neg ha, List.append_nil] at hlost
    simp only [State.channel, hqueued, htaken, hlost, harrived, hsocket]

theorem channel_server {act : Interleaved.Action} {sys : Interleaved.Sys} (hcfg : cfg.clientTransport = .zeromq)
    (h : s.Sound cfg) (hact : internal act = true) (hstep : Interleaved.step cfg s.sys act = some sys) (a : Address) :
    ({ s with sys := sys } : State).channel a = s.channel a := by
  have hqueued : ({ s with sys := sys } : State).queued a = s.queued a := by
    refine State.queued_congr ?_ fun _ _ => rfl
    refine Interleaved.get?_step_of_zeromq hcfg h.attached hstep ?_ ?_
    · rintro rfl
      cases hact
    · rintro i stream rfl
      cases hact
  have htaken := Interleaved.messagesFrom_step hstep (by rintro i msg order b rfl; cases hact) a
  simp only [State.channel, hqueued, htaken]

/-- The inputs of a client go through a channel: those that came wait there until a consumer of the client, as long as
it runs, takes one up, or times out and loses those in its queue. -/
theorem channel_step (hcfg : cfg.clientTransport = .zeromq) (h : s.Sound cfg) (hstep : step cfg s act = some s')
    (a : Address) :
    Channel.Grows (s.channel a) (s'.channel a) ∨
    Channel.Step (s.channel a) (s'.channel a) ∧ ∃ (i : Nat) (stream : Interleaved.Stream),
      s.sys.streams[i]? = some stream ∧ stream.address = a ∧ stream.pc.running := by
  cases step_cases hstep with
  | arrived b raw => exact Or.inl ⟨_, channel_arrived b raw a⟩
  | received hsocket hentry => exact Or.inl (channel_received h hsocket hentry a ▸ .refl _)
  | accepted hsocket hentry hopen => exact Or.inl (channel_accepted hcfg h hsocket hentry hopen a ▸ .refl _)
  | skipped _ _ _ hinputs hraw => exact Or.inl (channel_skipped hinputs hraw rfl a ▸ .refl _)
  | consumed hi howner hidle hinputs hmsg =>
    have hchannel := channel_consumed hcfg h hi howner hidle hinputs hmsg rfl a
    split at hchannel
    · rename_i ha
      exact Or.inr ⟨hchannel, _, _, hi, ha, by rw [hidle]; trivial⟩
    · exact Or.inl (hchannel ▸ .refl _)
  | timedOut hi howner hclose =>
    have hchannel := channel_timedOut hcfg h hi howner hclose rfl a
    split at hchannel
    · rename_i ha
      exact Or.inr ⟨hchannel, _, _, hi, ha, Interleaved.running_of_closeStream hclose hi⟩
    · exact Or.inl (hchannel ▸ .refl _)
  | server hact hserver => exact Or.inl (channel_server hcfg h hact hserver a ▸ .refl _)

theorem run_channel (hcfg : cfg.clientTransport = .zeromq) {as : List Action} (h : (machine cfg).Run as s)
    (a : Address) : (s.channel a).Reachable := by
  refine h.invariant_of (I := fun s => (s.channel a).Reachable) (J := State.Sound cfg) (run_sound hcfg) .refl ?_
  intro s act s' hsound hreach _ hstep
  rcases channel_step hcfg hsound hstep a with hgrows | ⟨hstep', -⟩
  · exact hreach.grows hgrows
  · exact Relation.ReflTransGen.tail hreach hstep'

/-! ### Consumers and entries -/

/-- Every consumer was started with an entry. -/
theorem State.Sound.exists_owner (hcfg : cfg.clientTransport = .zeromq) (h : s.Sound cfg) {i : Nat}
    {stream : Interleaved.Stream} (hi : s.sys.streams[i]? = some stream) : ∃ ref, stream.owner = some ref := by
  cases ho : stream.owner with
  | none =>
    have hgrpc := h.owned.producer hi ho
    rw [hcfg] at hgrpc
    cases hgrpc
  | some ref => exact ⟨ref, rfl⟩

/-- A consumer that runs is the only one that was started with the entry at its address. -/
theorem State.Sound.eq_of_running (hcfg : cfg.clientTransport = .zeromq) (h : s.Sound cfg) {i j : Nat}
    {stream stream' : Interleaved.Stream} {ref : ClientRef} (hi : s.sys.streams[i]? = some stream)
    (hrun : stream.pc.running) (hentry : s.sys.server.frontend.clients.get? stream.address = some ref)
    (hj : s.sys.streams[j]? = some stream') (howner : stream'.owner = some ref) : i = j := by
  obtain ⟨ref', ho⟩ := h.exists_owner hcfg hi
  obtain rfl := Option.some.inj (hentry.symm.trans (h.entry hi hrun ho))
  exact h.owned.distinct hi hj ho howner

/-- The inputs of a client are taken up in the order in which they came, and none of them twice; an input that came is
taken up, waiting, or was in the queue of an entry whose consumer timed out.  At most one consumer of a client runs, and
while it does the client has an entry. -/
theorem inputs_taken_in_order (hcfg : cfg.clientTransport = .zeromq) {as : List Action} (h : (machine cfg).Run as s)
    (a : Address) :
    (messagesFrom s.sys.server.frontend.log a ++ (s.queued a ++ messagesOf s.socket a)).Sublist
      (messagesOf s.arrived a) ∧
    (messagesFrom s.sys.server.frontend.log a ++ messagesOf s.lost a ++ (s.queued a ++ messagesOf s.socket a)).Perm
      (messagesOf s.arrived a) ∧
    ∀ (i j : Nat) (stream stream' : Interleaved.Stream), s.sys.streams[i]? = some stream → stream.pc.running →
      stream.address = a → (s.sys.server.frontend.clients.get? a).isSome ∧
      (s.sys.streams[j]? = some stream' → stream'.pc.running → stream'.address = a → i = j) := by
  have hsound := run_sound hcfg h
  have hchannel := run_channel hcfg h a
  refine ⟨hchannel.sublist, hchannel.perm, fun i j stream stream' hi hrun ha => ?_⟩
  subst ha
  obtain ⟨ref, ho⟩ := hsound.exists_owner hcfg hi
  have hentry := hsound.entry hi hrun ho
  refine ⟨by rw [hentry]; rfl, fun hj hrun' ha => ?_⟩
  exact (hsound.eq_of_running hcfg hj hrun' (ha ▸ hentry) hi ho).symm

/-- A client registers and sends an input; a second input comes when the consumer times out, and a third one makes a
new entry for the client. -/
theorem inputs_taken_in_order_of_timeout :
    ∃ as s, (machine { clientTransport := .zeromq, numTokensPerProducer := 1, sizeForQueues := 1 }).Run as s ∧
      messagesFrom s.sys.server.frontend.log "z" =
        [.registration {}, .input { frameId := 1, producerId := "P" }] ∧
      messagesOf s.lost "z" = [.input { frameId := 2, producerId := "P" }] ∧
      s.queued "z" = [.input { frameId := 3, producerId := "P" }] ∧
      (messagesFrom s.sys.server.frontend.log "z" ++ (s.queued "z" ++ messagesOf s.socket "z")).Sublist
        (messagesOf s.arrived "z") := by
  obtain ⟨s, hrun, htaken, hlost, hqueued⟩ := Machine.exists_run
    (M := machine { clientTransport := .zeromq, numTokensPerProducer := 1, sizeForQueues := 1 })
    (fun s => messagesFrom s.sys.server.frontend.log "z" =
        [.registration {}, .input { frameId := 1, producerId := "P" }] ∧
      messagesOf s.lost "z" = [.input { frameId := 2, producerId := "P" }] ∧
      s.queued "z" = [.input { frameId := 3, producerId := "P" }])
    [.arrive "z" .hello, .arrive "z" (.input (.registration {})), .receive, .receive, .takeUp 0 [] true,
      .server (.resumeStream 0 false true), .arrive "z" (.input (.input { frameId := 1, producerId := "P" })),
      .arrive "z" .heartbeat, .receive, .receive, .takeUp 0 [] true, .server (.resumeStream 0 false true),
      .takeUp 0 [] true, .arrive "z" (.input (.input { frameId := 2, producerId := "P" })), .receive, .timeout 0,
      .arrive "z" (.input (.input { frameId := 3, producerId := "P" })), .receive] (by decide)
  exact ⟨_, s, hrun, htaken, hlost, hqueued, (inputs_taken_in_order rfl hrun "z").1⟩

/-! ### Entries without a consumer -/

/-- The table has the entry at `a`, but the consumer that was started with it has ended. -/
def State.Abandoned (s : State) (a : Address) (ref : ClientRef) : Prop :=
  s.sys.server.frontend.clients.get? a = some ref ∧
    ∃ (i : Nat) (stream : Interleaved.Stream), s.sys.streams[i]? = some stream ∧ stream.owner = some ref ∧
      ¬ stream.pc.running

/-- No other consumer takes the place of the one that has ended. -/
theorem State.Abandoned.address_ne (hcfg : cfg.clientTransport = .zeromq) (h : s.Sound cfg) {ref : ClientRef}
    (habandoned : s.Abandoned a ref) {j : Nat} {stream : Interleaved.Stream} (hj : s.sys.streams[j]? = some stream)
    (hrun : stream.pc.running) : stream.address ≠ a := by
  rintro rfl
  obtain ⟨hentry, i, stream', hi, howner, hend⟩ := habandoned
  obtain rfl := h.eq_of_running hcfg hj hrun hentry hi howner
  cases hi.symm.trans hj
  exact hend hrun

/-- The step of the server that a step makes neither makes nor deletes an entry at `a`. -/
theorem abandoned_sys (hcfg : cfg.clientTransport = .zeromq) (h : s.Sound cfg) {ref : ClientRef}
    (habandoned : s.Abandoned a ref) {act' : Interleaved.Action} {sys : Interleaved.Sys}
    (hstep : Interleaved.step cfg s.sys act' = some sys) :
    sys.server.frontend.clients.get? a = some ref ∧ ∃ (i : Nat) (stream : Interleaved.Stream),
      sys.streams[i]? = some stream ∧ stream.owner = some ref ∧ ¬ stream.pc.running := by
  obtain ⟨hentry, i, stream, hi, howner, hend⟩ := id habandoned
  refine ⟨Interleaved.entry_step hcfg h.attached hstep (fun j stream' hact hj => ?_) hentry, ?_⟩
  · subst hact
    exact habandoned.address_ne hcfg h hj (Interleaved.running_of_closeStream hstep hj)
  · obtain ⟨stream', hi', -, -, hsame⟩ := Interleaved.streams_step hstep hi
    rw [hsame hend] at hi'
    exact ⟨i, stream, hi', howner, hend⟩

theorem abandoned_step (hcfg : cfg.clientTransport = .zeromq) (h : s.Sound cfg) {ref : ClientRef}
    (habandoned : s.Abandoned a ref) (hstep : step cfg s act = some s') :
    s'.Abandoned a ref ∧ Channel.Grows (s.channel a) (s'.channel a) := by
  constructor
  · rcases sys_step hstep with hsame | ⟨act', hstep'⟩
    · unfold State.Abandoned
      rw [hsame]
      exact habandoned
    · exact abandoned_sys hcfg h habandoned hstep'
  · rcases channel_step hcfg h hstep a with hgrows | ⟨-, i, stream, hi, haddress, hrun⟩
    · exact hgrows
    · exact absurd haddress (habandoned.address_ne hcfg h hi hrun)

theorem abandoned_exec (hcfg : cfg.clientTransport = .zeromq) {bs : List Action} {ref : ClientRef} (h : s.Sound cfg)
    (habandoned : s.Abandoned a ref) (hexec : (machine cfg).exec s bs = some s') :
    s'.Abandoned a ref ∧ Channel.Grows (s.channel a) (s'.channel a) := by
  induction bs generalizing s with
  | nil =>
    obtain rfl := Option.some.inj hexec
    exact ⟨habandoned, .refl _⟩
  | cons act bs ih =>
    obtain ⟨t, ht, hexec⟩ := Option.bind_eq_some_iff.1 hexec
    obtain ⟨ht', hgrows⟩ := abandoned_step hcfg h habandoned ht
    obtain ⟨hs', hgrows'⟩ := ih (sound_step hcfg h ht) ht' hexec
    exact ⟨hs', hgrows.trans hgrows'⟩

/-- A consumer in which a write raises, to an engine or to the client, ends and leaves its entry behind: the entry is
never deleted, so that the client gets no other consumer, and no later input of the client is taken up. -/
theorem failed_consumer_not_replaced (hcfg : cfg.clientTransport = .zeromq) {as : List Action}
    (h : (machine cfg).Run as s) {i : Nat} {stream : Interleaved.Stream} {delivered : Bool}
    (hi : s.sys.streams[i]? = some stream)
    (hfail : step cfg s (.server (.resumeStream i true delivered)) = some s') {bs : List Action} {t : State}
    (hexec : (machine cfg).exec s' bs = some t) :
    t.sys.server.frontend.clients.get? stream.address = stream.owner ∧
    messagesFrom t.sys.server.frontend.log stream.address = messagesFrom s.sys.server.frontend.log stream.address ∧
    ∃ new, messagesOf t.arrived stream.address = messagesOf s.arrived stream.address ++ new ∧
      t.queued stream.address ++ messagesOf t.socket stream.address =
        s.queued stream.address ++ messagesOf s.socket stream.address ++ new := by
  have hsound := run_sound hcfg h
  obtain ⟨ref, howner⟩ := hsound.exists_owner hcfg hi
  have habandoned : s'.Abandoned stream.address ref := by
    cases step_cases hfail with
    | server _ hserver =>
      obtain ⟨hrun, rfl⟩ := Interleaved.resumeStream_raises hcfg hserver hi
      have hlt : i < s.sys.streams.length := (List.getElem?_eq_some_iff.1 hi).1
      refine ⟨hsound.entry hi hrun howner, i, { stream with pc := .finished (some .raised) }, ?_, howner, id⟩
      simp [Interleaved.Sys.setStream, hlt]
  have hsame : s'.channel stream.address = s.channel stream.address := by
    cases step_cases hfail with
    | server hact hserver => exact channel_server hcfg hsound hact hserver _
  obtain ⟨⟨hentry, -⟩, new, hgrows⟩ := abandoned_exec hcfg (sound_step hcfg hsound hfail) habandoned hexec
  rw [hsame] at hgrows
  refine ⟨hentry.trans howner.symm, ?_, new, ?_, ?_⟩
  · exact congrArg Channel.taken hgrows
  · exact congrArg Channel.posted hgrows
  · exact congrArg Channel.waiting hgrows

/-- An engine is lost while the consumer of a client writes an input to it; the client registers again in vain. -/
theorem failed_consumer_not_replaced_of_lost_engine :
    ∃ (as bs : List Action) (s s' t : State) (stream : Interleaved.Stream),
      (machine { clientTransport := .zeromq, numTokensPerProducer := 1, sizeForQueues := 1 }).Run as s ∧
      s.sys.streams[0]? = some stream ∧ stream.address = "z" ∧
      step { clientTransport := .zeromq, numTokensPerProducer := 1, sizeForQueues := 1 } s
        (.server (.resumeStream 0 true true)) = some s' ∧
      (machine { clientTransport := .zeromq, numTokensPerProducer := 1, sizeForQueues := 1 }).exec s' bs = some t ∧
      t.queued "z" = [.registration {}] ∧
      messagesFrom t.sys.server.frontend.log stream.address =
        messagesFrom s.sys.server.frontend.log stream.address := by
  obtain ⟨s, hrun, hstream, hexec⟩ := Machine.exists_run
    (M := machine { clientTransport := .zeromq, numTokensPerProducer := 1, sizeForQueues := 1 })
    (fun s => (s.sys.streams[0]?).map Interleaved.Stream.address = some "z" ∧
      ((step { clientTransport := .zeromq, numTokensPerProducer := 1, sizeForQueues := 1 } s
        (.server (.resumeStream 0 true true))).bind fun s' =>
          ((machine { clientTransport := .zeromq, numTokensPerProducer := 1, sizeForQueues := 1 }).exec s'
            [.arrive "z" (.input (.registration {})), .receive, .server (.closeSession 0)]).map fun t =>
              t.queued "z") = some [.registration {}])
    [.server .openSession, .server (.engineMessage 0 (.register "A" false)), .arrive "z" .hello,
      .arrive "z" (.input (.registration {})), .receive, .receive, .takeUp 0 [] true,
      .server (.resumeStream 0 false true),
      .arrive "z" (.input (.input { frameId := 1, producerId := "P", targetEngineIds := ["A"] })), .receive,
      .takeUp 0 [0] false] (by decide)
  obtain ⟨stream, hi, haddress⟩ := Option.map_eq_some_iff.1 hstream
  obtain ⟨s', hs', hexec⟩ := Option.bind_eq_some_iff.1 hexec
  obtain ⟨t, ht, hqueued⟩ := Option.map_eq_some_iff.1 hexec
  exact ⟨_, _, s, s', t, stream, hrun, hi, haddress, hs', ht, hqueued,
    (failed_consumer_not_replaced rfl hrun hi hs' ht).2.1⟩

end Gabriel.ZeroMQServer
