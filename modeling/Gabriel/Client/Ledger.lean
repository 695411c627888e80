import Gabriel.Client.TokenAgreement

/-!
# A client alone at its address

What a client that has an address to itself may rely on, whatever its transport is: `Sys.Backs` says how its tokens
are covered by the server, before and after the server has made its entry.  A step of the client must not create
tokens, a message that it reads may bring one, and an input that the server takes up uses one; then the client is never
refused (`Backs.unrefused`), and a token that comes back always finds room (`Backs.room`).
-/

namespace Gabriel

open Frontend ClientLog
open Composed (Reached sentTo_eq_nil)

namespace Interleaved

variable {cfg : Config} {sys sys' : Sys} {act : Action} {a : Address} {accepted : Bool} {n : Nat} {told told' : Prop}
  {client client' : String → Nat}

theorem run_reached {as : List Action} (h : (machine cfg).Run as sys) : Reached cfg sys :=
  ⟨run_clientsTracked h, run_counted h, fun a p => (run_ledger h a p).1, run_rooted h, run_welcomed h, run_traced h⟩

/-- How the server stands to the client at the address `a`.  The client has an entry if `accepted`, has got `n` of the
messages sent to it, knows of its registration if `told`, and has `client p` tokens for `p`, in its own hands or with
inputs that the server has not taken up. -/
structure Sys.Backs (cfg : Config) (sys : Sys) (a : Address) (accepted : Bool) (n : Nat) (told : Prop)
    (client : String → Nat) : Prop where
  received : n ≤ (sentTo sys.server.frontend.log a).length
  greeted : told → ∃ m ids, .registered m ids ∈ sentTo sys.server.frontend.log a
  unrefused : sys.Unrefused a
  balance : (accepted = false ∧ a ∉ sys.addresses ∧ ∀ p, client p ≤ cfg.numTokensPerProducer) ∨
    (accepted = true ∧ ∃ e, sys.Covers cfg a e n client)

theorem Sys.undelivered_succ {msg : ToClient} (h : (sentTo sys.server.frontend.log a)[n]? = some msg) (p : String) :
    sys.undelivered a n p = sys.undelivered a (n + 1) p + if msg.carriesToken p then 1 else 0 := by
  obtain ⟨hlt, hmsg⟩ := List.getElem?_eq_some_iff.1 h
  rw [Sys.undelivered, List.drop_eq_getElem_cons hlt, List.countP_cons, hmsg, Sys.undelivered]

namespace Sys.Backs

/-- A client comes to an address that nobody has used. -/
theorem start (hroot : sys.Rooted) (ha : a ∉ sys.addresses) (hclient : ∀ p, client p ≤ cfg.numTokensPerProducer) :
    sys.Backs cfg a false 0 False client := by
  refine ⟨Nat.zero_le _, False.elim, ?_, Or.inl ⟨rfl, ha, hclient⟩⟩
  intro ref w hev
  exact absurd (hroot.log _ hev) ha

theorem le (h : sys.Backs cfg a accepted n told client) (p : String) : client p ≤ cfg.numTokensPerProducer := by
  rcases h.balance with ⟨-, -, hle⟩ | ⟨-, e, hcovers⟩
  · exact hle p
  · have hle := hcovers.le p
    omega

theorem undelivered_le (h : sys.Backs cfg a accepted n told client) (hroot : sys.Rooted) (p : String) :
    client p + sys.undelivered a n p ≤ cfg.numTokensPerProducer := by
  rcases h.balance with ⟨-, ha, hle⟩ | ⟨-, e, hcovers⟩
  · have hzero : sys.undelivered a n p = 0 := by simp [Sys.undelivered, sentTo_eq_nil hroot ha]
    have hp := hle p
    omega
  · exact hcovers.le p

/-- There is room for the token of the next message. -/
theorem room (h : sys.Backs cfg a accepted n told client) (hroot : sys.Rooted) {msg : ToClient}
    (hmsg : (sentTo sys.server.frontend.log a)[n]? = some msg) (p : String) :
    client p + (if msg.carriesToken p then 1 else 0) ≤ cfg.numTokensPerProducer := by
  rcases h.balance with ⟨-, ha, -⟩ | ⟨-, e, hcovers⟩
  · rw [sentTo_eq_nil hroot ha] at hmsg
    cases hmsg
  · have hle := hcovers.le p
    have hsucc := undelivered_succ hmsg p
    omega

/-- The client does something that creates no tokens. -/
theorem client_step (h : sys.Backs cfg a accepted n told client) (htold : told' → told)
    (hle : ∀ p, client' p ≤ client p) : sys.Backs cfg a accepted n told' client' := by
  refine ⟨h.received, fun ht => h.greeted (htold ht), h.unrefused, ?_⟩
  rcases h.balance with ⟨hacc, ha, hN⟩ | ⟨hacc, e, hcovers⟩
  · exact Or.inl ⟨hacc, ha, fun p => Nat.le_trans (hle p) (hN p)⟩
  · refine Or.inr ⟨hacc, e, hcovers.flow, hcovers.entry, fun p => ?_⟩
    have hcredit := hcovers.credit p
    have hp := hle p
    omega

/-- The client gets the next message, with the token that it may bring. -/
theorem receive (h : sys.Backs cfg a accepted n told client) (hroot : sys.Rooted) {msg : ToClient}
    (hmsg : (sentTo sys.server.frontend.log a)[n]? = some msg)
    (htold : told' → told ∨ ∃ m ids, msg = .registered m ids)
    (hle : ∀ p, client' p ≤ client p + if msg.carriesToken p then 1 else 0) :
    sys.Backs cfg a accepted (n + 1) told' client' := by
  have hlt : n < (sentTo sys.server.frontend.log a).length := (List.getElem?_eq_some_iff.1 hmsg).1
  refine ⟨hlt, fun ht => ?_, h.unrefused, ?_⟩
  · rcases htold ht with ht | ⟨m, ids, rfl⟩
    · exact h.greeted ht
    · exact ⟨m, ids, List.mem_of_getElem? hmsg⟩
  · rcases h.balance with ⟨-, ha, -⟩ | ⟨hacc, e, hcovers⟩
    · rw [sentTo_eq_nil hroot ha] at hmsg
      cases hmsg
    · refine Or.inr ⟨hacc, e, hcovers.flow, hcovers.entry, fun p => ?_⟩
      have hcredit := hcovers.credit p
      have hsucc := undelivered_succ hmsg p
      have hp := hle p
      omega

/-- Handlers and messages stay. -/
private theorem monotone (h : sys.Backs cfg a accepted n told client) (hstep : step cfg sys act = some sys') :
    n ≤ (sentTo sys'.server.frontend.log a).length ∧
      (told → ∃ m ids, .registered m ids ∈ sentTo sys'.server.frontend.log a) := by
  obtain ⟨es, hes⟩ := (history_step hstep).log_grows
  rw [← hes, sentTo_append]
  constructor
  · rw [List.length_append]
    exact Nat.le_trans h.received (Nat.le_add_right _ _)
  · intro ht
    obtain ⟨m, ids, hmem⟩ := h.greeted ht
    exact ⟨m, ids, List.mem_append_left _ hmem⟩

/-- A step of the server for somebody else. -/
theorem elsewhere (h : sys.Backs cfg a accepted n told client) (hk : Reached cfg sys)
    (hstep : step cfg sys act = some sys') (hopens : a ∉ act.opens)
    (hmsg : ∀ {i msg order b stream}, act = .message i msg order b → sys.streams[i]? = some stream →
      stream.address ≠ a) : sys'.Backs cfg a accepted n told client := by
  obtain ⟨hreceived, hgreeted⟩ := h.monotone hstep
  refine ⟨hreceived, hgreeted, h.unrefused.step hstep fun hact hi ha => absurd ha (hmsg hact hi), ?_⟩
  rcases h.balance with ⟨hacc, ha, hN⟩ | ⟨hacc, e, hcovers⟩
  · refine Or.inl ⟨hacc, ?_, hN⟩
    rw [addresses_step hstep, List.mem_append]
    exact not_or.2 ⟨ha, hopens⟩
  · have hopen : act ≠ .openClient a := by
      rintro rfl
      exact hopens (List.mem_singleton.2 rfl)
    refine Or.inr ⟨hacc, e, hcovers.step hstep hk.counted hopen h.received (fun _ => 0) (fun p hsends => ?_)
      fun _ => Nat.le_refl _⟩
    cases act with
    | message i msg order b =>
      obtain ⟨⟨stream, hi, -, ha, -⟩, -⟩ := hsends
      exact absurd ha (hmsg rfl hi)
    | _ => exact hsends.elim

/-- The server makes the client's entry. -/
theorem accept (h : sys.Backs cfg a false n told client) (hk : Reached cfg sys)
    (hstep : step cfg sys (.openClient a) = some sys') : sys'.Backs cfg a true n told client := by
  obtain ⟨hreceived, hgreeted⟩ := h.monotone hstep
  have hunrefused : sys'.Unrefused a := h.unrefused.step hstep fun hact => by cases hact
  refine ⟨hreceived, hgreeted, hunrefused, Or.inr ⟨rfl, sys.server.frontend.nextClient, ?_⟩⟩
  rcases h.balance with ⟨-, ha, hN⟩ | ⟨hacc, -⟩
  · simp only [Interleaved.step] at hstep
    split at hstep
    · cases hstep
    cases hstep
    refine ⟨(hk.rooted.cleared hk.traced ha).flow hk.tracked hk.solvent,
      fun ref msg hev => absurd (hk.rooted.log _ hev) ha, fun p => ?_⟩
    have hzero : sys.undelivered a n p = 0 := by
      rw [Sys.undelivered, sentTo_eq_nil hk.rooted ha]
      simp
    have hzero' : Sys.undelivered { sys with
        server := { sys.server with frontend := sys.server.frontend.addClient a }
        streams := sys.streams ++ [{ address := a, owner := some sys.server.frontend.nextClient, pc := .idle }] } a n p =
          0 := hzero
    rw [hk.tracked.dispatchingFor_openClient, credit_addClient, hzero']
    have hp := hN p
    omega
  · cases hacc

/-- The server takes up a message of the client, which is a registration or an input that has its token with it. -/
theorem message (h : sys.Backs cfg a accepted n told client) (hk : Reached cfg sys) {i : Nat} {msg : FromClient}
    {order : List Context} {b : Bool} (haddress : sys.addresses[i]? = some a)
    (hstep : step cfg sys (.message i msg order b) = some sys') (htold : msg.isRegistration = false → told)
    (hused : ∀ p, client' p + (if msg.isRegistration = false ∧ msg.asInput.producerId = p then 1 else 0) ≤ client p) :
    sys'.Backs cfg a accepted n told client' := by
  obtain ⟨hreceived, hgreeted⟩ := h.monotone hstep
  rcases h.balance with ⟨-, ha, -⟩ | ⟨hacc, e, hcovers⟩
  · exact absurd (List.mem_of_getElem? haddress) ha
  refine ⟨hreceived, hgreeted, ?_, Or.inr ⟨hacc, e, ?_⟩⟩
  · refine h.unrefused.step hstep fun {_ _ _ _ st ref} hact hi ha hidle hclient hreg => ?_
    cases hact
    have hrun : st.pc.running := by rw [hidle]; trivial
    obtain rfl := (hcovers.flow.client (List.mem_of_getElem? hi) hrun hclient).1 ha
    constructor
    · have hcredit := hcovers.credit msg.asInput.producerId
      have hp := hused msg.asInput.producerId
      simp only [hreg, and_self, if_true] at hp
      omega
    · -- it was told that it is registered, by the entry that it has now
      obtain ⟨m, ids, hmem⟩ := h.greeted (htold hreg)
      obtain ⟨ref', hev⟩ := mem_sentTo.1 hmem
      obtain rfl := hcovers.entry ref' _ hev
      exact (hk.welcomed _ _ _ _ hev).2
  · refine hcovers.step hstep hk.counted (by simp) h.received _ (fun p hsends => ?_) hused
    obtain ⟨-, hreg, hp⟩ := hsends
    rw [if_pos ⟨hreg, hp⟩]

end Sys.Backs

end Interleaved

end Gabriel
