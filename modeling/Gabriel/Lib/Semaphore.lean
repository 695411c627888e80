import Mathlib.Data.List.Basic

/-!
# Semaphores with a queue of waiters

A counting semaphore for coroutines.  `acquire` takes a permit if there is one and nobody is waiting; otherwise its
caller waits in a queue.  `release` adds a permit, which is granted to the first waiter that has none yet; this waiter
stays in the queue until it is resumed.  A waiter may be cancelled, and then gives back what it was granted.

The permits that can still be used, `permits`, are those counted by `value` and those that are granted to a waiter.
-/

/-- A semaphore with the callers that wait for it, each with whether a permit is granted to it. -/
structure Semaphore (ι : Type) where
  value : Nat
  waiters : List (ι × Bool) := []
  deriving DecidableEq, Repr

namespace Semaphore

variable {ι : Type} {s s' : Semaphore ι} {i : ι}

/-- The first waiter without a permit gets one. -/
def grantFirst : List (ι × Bool) → Option (List (ι × Bool))
  | [] => none
  | (i, true) :: waiters => (grantFirst waiters).map ((i, true) :: ·)
  | (i, false) :: waiters => some ((i, true) :: waiters)

/-- Permits are granted as long as there are permits and waiters without one. -/
def grantAll : Nat → List (ι × Bool) → Semaphore ι
  | 0, waiters => ⟨0, waiters⟩
  | n + 1, waiters =>
    match grantFirst waiters with
    | none => ⟨n + 1, waiters⟩
    | some waiters => grantAll n waiters

def release (s : Semaphore ι) : Semaphore ι :=
  match grantFirst s.waiters with
  | none => ⟨s.value + 1, s.waiters⟩
  | some waiters => ⟨s.value, waiters⟩

/-- The caller `i` takes a permit, or joins the queue; the flag tells whether it has a permit. -/
def acquire (s : Semaphore ι) (i : ι) : Semaphore ι × Bool :=
  if 0 < s.value ∧ s.waiters = [] then (⟨s.value - 1, s.waiters⟩, true)
  else (⟨s.value, s.waiters ++ [(i, false)]⟩, false)

section Waiters

variable [DecidableEq ι]

/-- The waiter `i` goes on with the permit that was granted to it. -/
def resume (s : Semaphore ι) (i : ι) : Option (Semaphore ι) :=
  if (i, true) ∈ s.waiters then some (grantAll s.value (s.waiters.erase (i, true))) else none

/-- The waiter `i` is cancelled. -/
def cancel (s : Semaphore ι) (i : ι) : Option (Semaphore ι) :=
  if (i, true) ∈ s.waiters then some (grantAll (s.value + 1) (s.waiters.erase (i, true)))
  else if (i, false) ∈ s.waiters then some (grantAll s.value (s.waiters.erase (i, false)))
  else none

end Waiters

/-! ### Permits -/

/-- The number of waiters to which a permit is granted. -/
def granted (waiters : List (ι × Bool)) : Nat := waiters.countP (·.2)

/-- The permits that can still be used. -/
def permits (s : Semaphore ι) : Nat := s.value + granted s.waiters

theorem granted_grantFirst {waiters waiters' : List (ι × Bool)} (h : grantFirst waiters = some waiters') :
    granted waiters' = granted waiters + 1 := by
  induction waiters generalizing waiters' with
  | nil => cases h
  | cons w waiters ih =>
    obtain ⟨i, _ | _⟩ := w
    · cases h
      simp [granted]
    · obtain ⟨ws, hws, rfl⟩ := Option.map_eq_some_iff.1 h
      have := ih hws
      simp only [granted, List.countP_cons_of_pos] at this ⊢
      omega

theorem permits_grantAll (n : Nat) (waiters : List (ι × Bool)) :
    (grantAll n waiters).permits = n + granted waiters := by
  induction n generalizing waiters with
  | zero => rfl
  | succ n ih =>
    simp only [grantAll]
    split
    · rfl
    · rename_i h
      rw [ih, granted_grantFirst h]
      omega

theorem permits_release : s.release.permits = s.permits + 1 := by
  unfold release
  split
  · simp only [permits]
    omega
  · rename_i h
    simp only [permits, granted_grantFirst h]
    omega

/-- A permit is taken at once only if there is one. -/
theorem permits_acquire : (s.acquire i).1.permits + (if (s.acquire i).2 then 1 else 0) = s.permits := by
  unfold acquire
  split
  · rename_i h
    simp only [permits, ↓reduceIte]
    omega
  · simp [permits, granted]

theorem granted_erase [DecidableEq ι] {waiters : List (ι × Bool)} {w : ι × Bool} (h : w ∈ waiters) :
    granted (waiters.erase w) + (if w.2 then 1 else 0) = granted waiters := by
  have := (List.perm_cons_erase h).countP_eq (·.2)
  rw [List.countP_cons] at this
  exact this.symm

theorem permits_resume [DecidableEq ι] (h : s.resume i = some s') : s'.permits + 1 = s.permits := by
  obtain ⟨hmem, hs⟩ := Option.ite_none_right_eq_some.1 h
  cases hs
  rw [permits_grantAll, permits, ← granted_erase hmem]
  simp only [↓reduceIte]
  omega

theorem permits_cancel [DecidableEq ι] (h : s.cancel i = some s') : s'.permits = s.permits := by
  unfold cancel at h
  split at h
  · rename_i hmem
    cases h
    rw [permits_grantAll, permits, ← granted_erase hmem]
    simp only [↓reduceIte]
    omega
  · obtain ⟨hmem, hs⟩ := Option.ite_none_right_eq_some.1 h
    cases hs
    rw [permits_grantAll, permits, ← granted_erase hmem]
    simp

/-- Someone is waiting and no permit can be used: the next permit is granted to a waiter. -/
theorem exists_granted_release (hwaiters : s.waiters ≠ []) (hpermits : s.permits = 0) :
    ∃ i, (i, true) ∈ s.release.waiters := by
  obtain ⟨value, waiters⟩ := s
  cases waiters with
  | nil => exact absurd rfl hwaiters
  | cons w waiters =>
    obtain ⟨i, _ | _⟩ := w
    · exact ⟨i, by simp [release, grantFirst]⟩
    · simp [permits, granted] at hpermits

end Semaphore
