import Mathlib.Logic.Relation

/-!
# Attributing replies that carry no identification

A peer is sent requests over a stream and replies to them in order.  A reply does not say which request it is for:
the sender keeps the tag of the request it sent last in a slot, sends a new request only while the slot is empty, and
takes the slot's content as the tag of the next reply.  A handler takes the replies one at a time.  When it is done
with one it puts the next request into the slot or empties it; other senders use the slot only while it is empty.

In every reachable state at most one request is without a reply, and the tag that the handler took is the tag of the
request that the reply is for.
-/

/-- What the handler is doing: it has not started, it waits for a reply, it handles the `k`-th reply with the tag `m`,
or it has handled it and is about to fill the slot. -/
inductive Exchange.Phase (μ : Type)
  | closed
  | waiting
  | handling (k : Nat) (m : Option μ)
  | handled

/-- The requests sent to the peer, the replies read from it, the slot and the handler. -/
structure Exchange (α β μ : Type) where
  sent : List α
  replies : List β
  slot : Option μ
  phase : Exchange.Phase μ

namespace Exchange

variable {α β μ : Type} {tag : α → μ} {s s' : Exchange α β μ}

/-- A reply is being dealt with. -/
def Phase.busy : Phase μ → Prop
  | handling _ _ | handled => True
  | _ => False

/-- The steps of an exchange.  A request takes the slot even if it gets lost on its way (`delivered = []`). -/
inductive Step (tag : α → μ) (s : Exchange α β μ) : Exchange α β μ → Prop
  | start (hphase : s.phase = .closed) : Step tag s { s with slot := none, phase := .waiting }
  | send (x : α) (delivered : List α) (hd : delivered = [x] ∨ delivered = []) (hfree : s.slot = none)
      (hopen : s.phase ≠ .closed) :
      Step tag s { s with sent := s.sent ++ delivered, slot := some (tag x) }
  | read (y : β) (hphase : s.phase = .waiting) (hlt : s.replies.length < s.sent.length) :
      Step tag s { s with replies := s.replies ++ [y], phase := .handling s.replies.length s.slot }
  | skip (y : β) (hphase : s.phase = .waiting) (hlt : s.replies.length < s.sent.length) :
      Step tag s { s with replies := s.replies ++ [y] }
  | handle (hphase : s.phase.busy) : Step tag s { s with phase := .handled }
  | next (x : α) (delivered : List α) (hd : delivered = [x] ∨ delivered = []) (hphase : s.phase.busy) :
      Step tag s { s with sent := s.sent ++ delivered, slot := some (tag x), phase := .waiting }
  | clear (hphase : s.phase.busy) : Step tag s { s with slot := none, phase := .waiting }
  | abandon : Step tag s { s with phase := .waiting }

/-- What the phase of the handler tells. -/
def PhaseInvariant (tag : α → μ) (s : Exchange α β μ) : Phase μ → Prop
  | .closed => s.sent = [] ∧ s.replies = []
  | .waiting => True
  | .handling k m => s.replies.length = k + 1 ∧ s.sent.length = k + 1 ∧ s.slot = m ∧
      ∃ x, s.sent[k]? = some x ∧ m = some (tag x)
  | .handled => s.sent.length = s.replies.length ∧ s.slot ≠ none

/-- What holds in every reachable state. -/
structure Invariant (tag : α → μ) (s : Exchange α β μ) : Prop where
  replies_le : s.replies.length ≤ s.sent.length
  sent_le : s.sent.length ≤ s.replies.length + 1
  slot_eq : s.replies.length < s.sent.length → ∃ x, s.sent[s.replies.length]? = some x ∧ s.slot = some (tag x)
  phase : PhaseInvariant tag s s.phase

namespace Invariant

/-- An empty slot means that every request has its reply. -/
theorem answered_of_free (h : Invariant tag s) (hfree : s.slot = none) : s.sent.length = s.replies.length := by
  rcases Nat.lt_or_ge s.replies.length s.sent.length with hlt | hge
  · obtain ⟨x, -, hx⟩ := h.slot_eq hlt
    rw [hfree] at hx
    cases hx
  · exact Nat.le_antisymm hge h.replies_le

theorem answered_of_busy (h : Invariant tag s) (hbusy : s.phase.busy) :
    s.sent.length = s.replies.length ∧ s.slot ≠ none := by
  have hphase := h.phase
  cases hp : s.phase with
  | closed => rw [hp] at hbusy; exact hbusy.elim
  | waiting => rw [hp] at hbusy; exact hbusy.elim
  | handling k m =>
    rw [hp] at hphase
    obtain ⟨hr, hs, hm, x, -, hx⟩ := hphase
    exact ⟨by omega, by rw [hm, hx]; simp⟩
  | handled => rw [hp] at hphase; exact hphase

/-- A request is put into the slot while no other is without a reply. -/
private theorem put {x : α} {delivered : List α} {phase : Phase μ} (h : s.sent.length = s.replies.length)
    (hd : delivered = [x] ∨ delivered = [])
    (hphase : PhaseInvariant tag { s with sent := s.sent ++ delivered, slot := some (tag x) } phase) :
    Invariant tag { s with sent := s.sent ++ delivered, slot := some (tag x), phase := phase } := by
  rcases hd with rfl | rfl
  · refine ⟨by simp; omega, by simp; omega, fun _ => ⟨x, ?_, rfl⟩, ?_⟩
    · simp [← h]
    · cases phase <;> exact hphase
  · refine ⟨by simp; omega, by simp; omega, fun hlt => ?_, ?_⟩
    · simp [h] at hlt
    · cases phase <;> exact hphase

theorem step (h : Invariant tag s) (hstep : Step tag s s') : Invariant tag s' := by
  cases hstep with
  | start hphase =>
    have hp := h.phase
    rw [hphase] at hp
    exact ⟨by simp [hp.1, hp.2], by simp [hp.1], by simp [hp.1, hp.2], trivial⟩
  | send x delivered hd hfree hopen =>
    refine put (h.answered_of_free hfree) hd ?_
    have hp := h.phase
    cases hphase : s.phase with
    | closed => exact absurd hphase hopen
    | waiting => trivial
    | handling k m =>
      rw [hphase] at hp
      obtain ⟨-, -, hm, x, -, hx⟩ := hp
      rw [hfree, hx] at hm
      cases hm
    | handled =>
      rw [hphase] at hp
      exact absurd hfree hp.2
  | read y hphase hlt =>
    obtain ⟨x, hx, hslot⟩ := h.slot_eq hlt
    have := h.sent_le
    refine ⟨by simp; omega, by simp; omega, fun hlt' => ?_, ?_⟩
    · simp at hlt'; omega
    · exact ⟨by simp, by simp; omega, rfl, x, hx, hslot⟩
  | skip y hphase hlt =>
    have := h.sent_le
    refine ⟨by simp; omega, by simp; omega, fun hlt' => ?_, ?_⟩
    · simp at hlt'; omega
    · simp only [hphase]; trivial
  | handle hbusy => exact ⟨h.replies_le, h.sent_le, h.slot_eq, h.answered_of_busy hbusy⟩
  | next x delivered hd hbusy => exact put (h.answered_of_busy hbusy).1 hd trivial
  | clear hbusy =>
    have := (h.answered_of_busy hbusy).1
    exact ⟨h.replies_le, h.sent_le, fun hlt => by simp at hlt; omega, trivial⟩
  | abandon => exact ⟨h.replies_le, h.sent_le, h.slot_eq, trivial⟩

end Invariant

/-- What was sent and read stays. -/
theorem Step.grows (h : Step tag s s') : s.sent <+: s'.sent ∧ s.replies <+: s'.replies := by
  cases h <;> simp

theorem grows_of_steps (h : Relation.ReflTransGen (Step tag) s s') :
    s.sent <+: s'.sent ∧ s.replies <+: s'.replies := by
  induction h with
  | refl => exact ⟨List.prefix_rfl, List.prefix_rfl⟩
  | tail _ hstep ih => exact ⟨ih.1.trans hstep.grows.1, ih.2.trans hstep.grows.2⟩

/-- The states that can be reached from the one in which nothing was sent. -/
def Reachable (tag : α → μ) (s : Exchange α β μ) : Prop :=
  Relation.ReflTransGen (Step tag) { sent := [], replies := [], slot := none, phase := .closed } s

theorem Reachable.invariant (h : Reachable tag s) : Invariant tag s := by
  induction h with
  | refl => exact ⟨by simp, by simp, by simp, rfl, rfl⟩
  | tail _ hstep ih => exact ih.step hstep

end Exchange
