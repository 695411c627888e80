import Gabriel.Server.Flow
import Gabriel.Server.Ledger

/-!
# Flow control on the server

`_consumer_helper` tests the counter of a producer, awaits the dispatch of the input, and only then the consumer
deducts the token.  Between the two another consumer of the same client may pass the test.  WebSocket and ZeroMQ have
one consumer for each client entry; gRPC has one for each stream.  A second hazard is an address that is used again
while inputs of its previous client are under way: their tokens go to the new entry.
-/

namespace Gabriel.Interleaved

open Frontend Server DispatchLog

variable {cfg : Config} {sys sys' : Sys} {act : Action} {a : Address} {e : ClientRef} {p : String}

instance : DecidablePred StreamPc.running
  | .finished _ => inferInstanceAs (Decidable False)
  | .idle | .dispatching _ _ _ | .replying => inferInstanceAs (Decidable True)

/-- Nothing is left of the previous clients at the address `a`: their handlers have ended, and no input of them is
being dispatched, queued, or in flight with a pending token. -/
def Sys.Cleared (sys : Sys) (a : Address) : Prop :=
  (∀ stream ∈ sys.streams, stream.address = a → stream.owner.isSome = true → ¬ stream.pc.running) ∧
  (∀ stream ∈ sys.streams, ∀ x ∈ stream.pc.input, x.2.metadata.clientAddress ≠ a) ∧
  ∀ mp ∈ accepted sys.server.dispatcher.log, mp.metadata.clientAddress = a →
    sys.server.dispatcher.owed a mp.producerId = 0

instance : Decidable (sys.Cleared a) := inferInstanceAs (Decidable (_ ∧ _ ∧ _))

/-- A client connects at an address of which nothing is left; and over gRPC, a message is taken up only if the counter
of its producer exceeds the number of the client's inputs for it that are being dispatched, unless there is no token
left. -/
def Action.keepsCounters (cfg : Config) (sys : Sys) : Action → Prop
  | .openClient a => sys.Cleared a
  | .message i msg _ _ => cfg.clientTransport = .grpc → ∀ stream ∈ sys.streams[i]?, ∀ ref ∈ stream.client sys.server,
      sys.server.frontend.credit cfg ref msg.asInput.producerId < 1 ∨
        sys.dispatchingFor ref msg.asInput.producerId < sys.server.frontend.credit cfg ref msg.asInput.producerId
  | _ => True

instance (cfg : Config) (sys : Sys) : DecidablePred (Action.keepsCounters cfg sys)
  | .openClient _ => inferInstanceAs (Decidable (sys.Cleared _))
  | .message _ _ _ _ => by unfold Action.keepsCounters; infer_instance
  | .openProducer _ | .resumeStream _ _ _ | .closeStream _ | .openSession | .engineMessage _ _
  | .resumeSession _ _ _ | .closeSession _ => inferInstanceAs (Decidable True)

/-- The counters cover the inputs that have passed their test. -/
def Sys.Covered (cfg : Config) (sys : Sys) : Prop :=
  ∀ a e, sys.server.frontend.clients.get? a = some e → sys.Flow cfg a e ∧
    ∀ p, (sys.dispatchingFor e p : Int) ≤ sys.server.frontend.credit cfg e p

/-- Debts are of accepted inputs. -/
theorem Sys.Cleared.owed (h : sys.Cleared a) (hsolvent : ∀ a p, sys.server.dispatcher.Solvent a p) (p : String) :
    sys.server.dispatcher.owed a p = 0 := by
  rcases Nat.eq_zero_or_pos (sys.server.dispatcher.owed a p) with hzero | hpos
  · exact hzero
  · have haccepted : 0 < sys.server.dispatcher.acceptedFrom a p :=
      Nat.lt_of_lt_of_le hpos (Nat.le_trans (Nat.le_add_left _ _) (hsolvent a p))
    obtain ⟨ev, hev, hfrom⟩ := List.countP_pos_iff.1 haccepted
    obtain ⟨mp, rfl, ha, rfl⟩ := DispatchEvent.acceptsFrom_iff.1 hfrom
    exact h.2.2 mp (List.mem_filterMap.2 ⟨_, hev, rfl⟩) ha

/-- A new entry has all its tokens. -/
theorem credit_addClient (f : Frontend) : (f.addClient a).credit cfg f.nextClient p = cfg.numTokensPerProducer := by
  simp [credit, addClient]

/-- A client connects at an address of which nothing is left. -/
theorem Sys.Cleared.flow (h : sys.Cleared a) (htracked : sys.ClientsTracked)
    (hsolvent : ∀ a p, sys.server.dispatcher.Solvent a p) :
    Sys.Flow cfg { sys with
      server := { sys.server with frontend := sys.server.frontend.addClient a }
      streams := sys.streams ++ [{ address := a, owner := some sys.server.frontend.nextClient, pc := .idle }] } a
        sys.server.frontend.nextClient := by
  have hcredit : ∀ p, (sys.server.frontend.addClient a).credit cfg sys.server.frontend.nextClient p =
      cfg.numTokensPerProducer := fun p => credit_addClient _
  have hcount : ∀ P : ClientEvent → Bool, (∀ ev, P ev = true → ev.client = some sys.server.frontend.nextClient) →
      sys.server.frontend.log.countP P = 0 := by
    intro P hP
    rw [List.countP_eq_zero]
    intro ev hev hp
    exact Nat.lt_irrefl _ (htracked.frontend.known ev hev _ (hP ev hp))
  refine ⟨⟨Nat.lt_succ_self _, ?_, ?_, ?_⟩, ?_, ?_⟩
  · intro b ref hr
    simp only [addClient] at hr
    rw [Dict.get?_set] at hr
    split at hr
    · rename_i hb
      cases hr
      exact iff_of_true hb rfl
    · rename_i hb
      exact iff_of_false hb (Nat.ne_of_lt (htracked.frontend.table b ref hr))
  · intro p
    rw [hcredit, h.owed hsolvent p]
    simp
  · intro p
    rw [hcredit]
    have htaken : (sys.server.frontend.addClient a).tokensTaken sys.server.frontend.nextClient p = 0 :=
      hcount _ fun ev hev => by obtain ⟨mp, rfl, -⟩ := ClientEvent.takesToken_iff.1 hev; rfl
    have hreturned : (sys.server.frontend.addClient a).tokensReturned sys.server.frontend.nextClient p = 0 :=
      hcount _ fun ev hev => by obtain ⟨_, w, rfl, -⟩ := ClientEvent.returnsToken_iff.1 hev; rfl
    simp [htaken, hreturned]
  · intro stream ref hst hpc ho
    rcases List.mem_append.1 hst with hst | hst
    · refine iff_of_false (fun ha => h.1 stream hst ha (by simp [ho]) hpc) ?_
      exact Nat.ne_of_lt (htracked.owner stream hst ref ho)
    · obtain rfl := List.mem_singleton.1 hst
      cases ho
      exact iff_of_true rfl rfl
  · intro stream ref mp hst hi
    rcases List.mem_append.1 hst with hst | hst
    · exact iff_of_false (h.2.1 stream hst _ hi) (Nat.ne_of_lt (htracked.input stream hst ref mp hi))
    · obtain rfl := List.mem_singleton.1 hst
      cases hi

/-- No input of a new entry is being dispatched. -/
theorem Sys.ClientsTracked.dispatchingFor_openClient (h : sys.ClientsTracked) (s : Server) :
    Sys.dispatchingFor { sys with
      server := s
      streams := sys.streams ++ [{ address := a, owner := some sys.server.frontend.nextClient, pc := .idle }] }
        sys.server.frontend.nextClient p = 0 := by
  rw [Sys.dispatchingFor, List.countP_eq_zero]
  intro st hst hd
  rcases List.mem_append.1 hst with hst | hst
  · cases hpc : st.pc with
    | dispatching ref mp rest =>
      rw [hpc, StreamPc.dispatchesFor_dispatching] at hd
      have := h.input st hst ref mp (by rw [hpc]; rfl)
      exact Nat.lt_irrefl _ (hd.1 ▸ this)
    | _ => rw [hpc] at hd; cases hd
  · obtain rfl := List.mem_singleton.1 hst
    cases hd

/-- A consumer that is the only one of its client finds no other input of it being dispatched. -/
theorem dispatchingFor_eq_zero {i : Nat} {stream : Stream} (howned : sys.Owned cfg)
    (hgrpc : cfg.clientTransport ≠ .grpc) (hi : sys.streams[i]? = some stream) (hidle : stream.pc = .idle)
    (hclient : stream.client sys.server = some e) (p : String) : sys.dispatchingFor e p = 0 := by
  rw [Sys.dispatchingFor, List.countP_eq_zero]
  intro st hst hd
  obtain ⟨j, hj⟩ := List.getElem?_of_mem hst
  cases hpc : st.pc with
  | dispatching ref mp rest =>
    rw [hpc, StreamPc.dispatchesFor_dispatching] at hd
    obtain ⟨rfl, -⟩ := hd
    -- both streams were opened with the entry
    cases ho : st.owner with
    | none => exact hgrpc (howned.producer hj ho)
    | some ref' =>
      obtain rfl := howned.input hj (by rw [hpc]; rfl) ho
      cases ho' : stream.owner with
      | none => exact hgrpc (howned.producer hi ho')
      | some ref' =>
        rw [Stream.client, ho'] at hclient
        cases hclient
        obtain rfl := howned.distinct hi hj ho' ho
        rw [hi] at hj
        cases hj
        rw [hidle] at hpc
        cases hpc
  | _ => rw [hpc] at hd; cases hd

/-- An input that passes the test of its counter is covered by it. -/
theorem Action.keepsCounters.covers (h : act.keepsCounters cfg sys) (howned : sys.Owned cfg)
    (hsends : act.sendsInput sys a e p) (hcredit : 1 ≤ sys.server.frontend.credit cfg e p) :
    (sys.dispatchingFor e p : Int) < sys.server.frontend.credit cfg e p := by
  cases act with
  | message i msg order b =>
    obtain ⟨⟨stream, hi, hidle, -, hclient⟩, -, rfl⟩ := hsends
    by_cases hgrpc : cfg.clientTransport = .grpc
    · rcases h hgrpc stream hi e hclient with hnone | hlt
      · omega
      · exact hlt
    · rw [dispatchingFor_eq_zero howned hgrpc hi hidle hclient]
      omega
  | _ => exact hsends.elim

theorem covered_step (hstep : step cfg sys act = some sys') (htracked : sys.ClientsTracked) (howned : sys.Owned cfg)
    (hcounted : sys.Counted) (hsolvent : ∀ a p, sys.server.dispatcher.Solvent a p) (hact : act.keepsCounters cfg sys)
    (h : sys.Covered cfg) : sys'.Covered cfg := by
  intro a e he
  by_cases hopen : act = .openClient a
  · -- the new entry is untouched
    subst hopen
    simp only [step] at hstep
    split at hstep
    · cases hstep
    cases hstep
    simp only [addClient, Dict.get?_set_self, Option.some.injEq] at he
    subst he
    refine ⟨Sys.Cleared.flow hact htracked hsolvent, fun p => ?_⟩
    rw [htracked.dispatchingFor_openClient, credit_addClient]
    omega
  · obtain ⟨hflow, hcovered⟩ := h a e (clients_step hstep hopen he)
    obtain ⟨hflow', htransfers⟩ := flow_step hstep hcounted hflow hopen
    refine ⟨hflow', fun p => ?_⟩
    obtain ⟨k, t, r, hcredit, -, hle, hsends, hpos⟩ := htransfers p
    have hcov := hcovered p
    rcases Nat.eq_zero_or_pos t with rfl | ht
    · omega
    · have hlt := hact.covers howned (hsends (by omega)) (hpos ht)
      omega

/-- The counter of each producer of a connected client stays between zero and the number of tokens, and at most that
many of the client's inputs are accepted and not yet answered with a token, in every run in which clients connect at
addresses of which nothing is left and, over gRPC, no input passes the test of a counter that is spoken for. -/
theorem tokens_within_bounds {as : List Action}
    (h : (machine cfg).RunWhere (fun sys a => a.keepsCounters cfg sys) as sys)
    (he : sys.server.frontend.clients.get? a = some e) (p : String) :
    (∀ n ∈ (sys.server.frontend.clientObjs e).tokensForProducer p, 0 ≤ n ∧ n ≤ cfg.numTokensPerProducer) ∧
    sys.server.frontend.tokensTaken e p ≤ cfg.numTokensPerProducer + sys.server.frontend.tokensReturned e p := by
  have hinit : Sys.Covered cfg {} := fun _ _ he => (nomatch he)
  have hinv := h.invariant_of (I := Sys.Covered cfg)
    (J := fun sys => sys.ClientsTracked ∧ sys.Owned cfg ∧ sys.Counted ∧
      ∀ a p, sys.server.dispatcher.Solvent a p)
    (fun h => ⟨run_clientsTracked h.run, run_owned h.run, run_counted h.run, fun a p => (run_ledger h.run a p).1⟩)
    hinit
    (fun _ _ _ ⟨htracked, howned, hcounted, hsolvent⟩ h hact hstep =>
      covered_step hstep htracked howned hcounted hsolvent hact h)
  obtain ⟨hflow, hcovered⟩ := hinv a e he
  have hcov := hcovered p
  have hbound := hflow.balance.bound p
  have haccount := hflow.balance.account p
  refine ⟨fun n hn => ?_, by omega⟩
  have hcredit : sys.server.frontend.credit cfg e p = n := by
    rw [credit, Option.mem_def.1 hn, Option.getD_some]
  omega

/-- Two frames of a producer on one stream, the second of which waits in the queue. -/
theorem tokens_within_bounds_of_two_frames :
    ∃ as sys, (machine { numTokensPerProducer := 2, sizeForQueues := 1 }).RunWhere
        (fun sys a => a.keepsCounters { numTokensPerProducer := 2, sizeForQueues := 1 } sys) as sys ∧
      sys.server.frontend.clients.get? "client" = some 0 ∧
      (sys.server.frontend.clientObjs 0).tokensForProducer "P" = some 0 ∧
      (∀ n ∈ (sys.server.frontend.clientObjs 0).tokensForProducer "P", 0 ≤ n ∧ n ≤ 2) ∧
      sys.server.frontend.tokensTaken 0 "P" ≤ 2 + sys.server.frontend.tokensReturned 0 "P" := by
  obtain ⟨sys, hrun, h⟩ := Machine.exists_runWhere (M := machine { numTokensPerProducer := 2, sizeForQueues := 1 })
    (G := fun sys a => a.keepsCounters { numTokensPerProducer := 2, sizeForQueues := 1 } sys)
    (g := fun sys a => decide (a.keepsCounters { numTokensPerProducer := 2, sizeForQueues := 1 } sys))
    (fun _ _ h => of_decide_eq_true h)
    (fun sys => sys.server.frontend.clients.get? "client" = some 0 ∧
      (sys.server.frontend.clientObjs 0).tokensForProducer "P" = some 0)
    [.openSession, .engineMessage 0 (.register "A" false), .openClient "client",
      .message 0 (.registration {}) [] false, .resumeStream 0 false false, .openProducer "client",
      .message 1 (.input { frameId := 1, producerId := "P", targetEngineIds := ["A"] }) [0] true,
      .resumeStream 1 false true,
      .message 1 (.input { frameId := 2, producerId := "P", targetEngineIds := ["A"] }) [0] true] (by decide)
  exact ⟨_, sys, hrun, h.1, h.2, tokens_within_bounds hrun h.1 "P"⟩

/-- A gRPC client with one token sends two frames of a producer on two streams.  While the first is being written to
the engine, the second passes the test of the counter as well. -/
theorem tokens_below_zero :
    ∃ as sys, (machine { numTokensPerProducer := 1, sizeForQueues := 1 }).Run as sys ∧
      sys.server.frontend.clients.get? "client" = some 0 ∧
      (sys.server.frontend.clientObjs 0).tokensForProducer "P" = some (-1) ∧
      sys.server.frontend.tokensTaken 0 "P" = 2 ∧ sys.server.frontend.tokensReturned 0 "P" = 0 := by
  obtain ⟨sys, hrun, h⟩ := Machine.exists_run (M := machine { numTokensPerProducer := 1, sizeForQueues := 1 })
    (fun sys => sys.server.frontend.clients.get? "client" = some 0 ∧
      (sys.server.frontend.clientObjs 0).tokensForProducer "P" = some (-1) ∧
      sys.server.frontend.tokensTaken 0 "P" = 2 ∧ sys.server.frontend.tokensReturned 0 "P" = 0)
    [.openSession, .engineMessage 0 (.register "A" false), .openClient "client",
      .message 0 (.registration {}) [] false, .resumeStream 0 false false, .openProducer "client",
      .openProducer "client",
      .message 1 (.input { frameId := 1, producerId := "P", targetEngineIds := ["A"] }) [0] true,
      .message 2 (.input { frameId := 2, producerId := "P", targetEngineIds := ["A"] }) [0] true,
      .resumeStream 1 false true] (by decide)
  exact ⟨_, sys, hrun, h⟩

end Gabriel.Interleaved
