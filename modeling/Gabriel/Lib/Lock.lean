import Mathlib.Data.List.Basic

/-!
# Locks with a queue of waiters

A lock for coroutines.  `acquire` takes the lock if it is free and everyone who waits for it has been cancelled;
otherwise its caller joins a queue.  `release` frees the lock and wakes the first waiter, which stays in the queue and
takes the lock when it is resumed.  A waiter may be cancelled at any time, also after it was woken; when it is resumed
it leaves the queue, and wakes the next waiter if the lock is free.

Nothing but the order of these operations makes this a lock: a woken waiter does not check again whether the lock is
free.  `Orderly` is what they keep.
-/

/-- How far a waiter is: its future is pending, has a result, has a result while its task was cancelled, or was
cancelled. -/
inductive Lock.Status
  | waiting | woken | wokenCancelled | cancelled
  deriving DecidableEq, Repr

namespace Lock.Status

/-- The future has a result. -/
def roused : Status → Bool
  | .woken | .wokenCancelled => true
  | .waiting | .cancelled => false

/-- The waiter will take the lock. -/
def live : Status → Bool
  | .waiting | .woken => true
  | .wokenCancelled | .cancelled => false

/-- The task of the waiter is cancelled. -/
def cancel : Status → Status
  | .waiting => .cancelled
  | .woken => .wokenCancelled
  | .wokenCancelled => .wokenCancelled
  | .cancelled => .cancelled

@[simp] theorem roused_cancel (st : Status) : st.cancel.roused = st.roused := by cases st <;> rfl
@[simp] theorem live_cancel (st : Status) : st.cancel.live = false := by cases st <;> rfl
theorem cancel_ne_waiting (st : Status) : st.cancel ≠ .waiting := by cases st <;> decide

end Lock.Status

/-- A lock with the callers that wait for it. -/
structure Lock (ι : Type) where
  locked : Bool := false
  waiters : List (ι × Lock.Status) := []
  deriving DecidableEq, Repr

namespace Lock

variable {ι : Type} {s s' : Lock ι} {i : ι} {b : Bool}

/-- The first waiter is woken if its future is pending. -/
def wakeFirst : List (ι × Status) → List (ι × Status)
  | [] => []
  | (i, st) :: waiters => (i, if st = .waiting then .woken else st) :: waiters

/-- The caller `i` takes the lock, or joins the queue; the flag tells which. -/
def acquire (s : Lock ι) (i : ι) : Lock ι × Bool :=
  if s.locked = false ∧ ∀ w ∈ s.waiters, w.2 = .cancelled then ({ s with locked := true }, true)
  else ({ s with waiters := s.waiters ++ [(i, .waiting)] }, false)

/-- Only a lock that is held can be released. -/
def release (s : Lock ι) : Option (Lock ι) :=
  if s.locked then some { locked := false, waiters := wakeFirst s.waiters } else none

section Waiters

variable [DecidableEq ι]

/-- A cancelled waiter leaves the queue. -/
def leave (s : Lock ι) (w : ι × Status) : Lock ι :=
  if s.locked then { s with waiters := s.waiters.erase w }
  else { s with waiters := wakeFirst (s.waiters.erase w) }

/-- The waiter `i` goes on; the flag tells whether it has the lock. -/
def resume (s : Lock ι) (i : ι) : Option (Lock ι × Bool) :=
  if (i, .woken) ∈ s.waiters then some ({ locked := true, waiters := s.waiters.erase (i, .woken) }, true)
  else if (i, .wokenCancelled) ∈ s.waiters then some (s.leave (i, .wokenCancelled), false)
  else if (i, .cancelled) ∈ s.waiters then some (s.leave (i, .cancelled), false)
  else none

/-- The task of the waiter `i` is cancelled. -/
def cancel (s : Lock ι) (i : ι) : Lock ι :=
  { s with waiters := s.waiters.map fun w => if w.1 = i then (w.1, w.2.cancel) else w }

end Waiters

/-- Everyone in the queue. -/
def callers (s : Lock ι) : List ι := s.waiters.map (·.1)

/-- The callers that will take the lock, in the order in which they came. -/
def queue (s : Lock ι) : List ι := (s.waiters.filter (·.2.live)).map (·.1)

/-- At most the first waiter is woken, and only while the lock is free; and while it is free somebody will go on. -/
structure Orderly (s : Lock ι) : Prop where
  first : ∀ w ∈ s.waiters.tail, w.2.roused = false
  held : s.locked = true → ∀ w ∈ s.waiters, w.2.roused = false
  free : s.locked = false → ∀ w, s.waiters.head? = some w → w.2 ≠ .waiting

theorem orderly_init : Orderly ({} : Lock ι) := by
  refine ⟨?_, ?_, ?_⟩ <;> simp

/-! ### Waking the first waiter -/

theorem tail_wakeFirst (ws : List (ι × Status)) : (wakeFirst ws).tail = ws.tail := by
  cases ws <;> rfl

theorem length_wakeFirst (ws : List (ι × Status)) : (wakeFirst ws).length = ws.length := by
  cases ws <;> rfl

theorem head_wakeFirst {ws : List (ι × Status)} {w : ι × Status} (h : (wakeFirst ws).head? = some w) :
    w.2 ≠ .waiting := by
  cases ws with
  | nil => cases h
  | cons x ws =>
    obtain ⟨j, st⟩ := x
    cases h
    simp only
    split <;> simp_all

theorem callers_wakeFirst (b : Bool) (ws : List (ι × Status)) :
    callers { locked := b, waiters := wakeFirst ws } = callers { locked := b, waiters := ws } := by
  cases ws <;> rfl

theorem queue_wakeFirst (b : Bool) (ws : List (ι × Status)) :
    queue { locked := b, waiters := wakeFirst ws } = queue { locked := b, waiters := ws } := by
  cases ws with
  | nil => rfl
  | cons x ws =>
    obtain ⟨j, st⟩ := x
    cases st <;> rfl

/-- Waking the first waiter of a free lock, if nobody behind it is woken. -/
theorem orderly_wakeFirst {ws : List (ι × Status)} (h : ∀ w ∈ ws.tail, w.2.roused = false) :
    Orderly { locked := false, waiters := wakeFirst ws } := by
  refine ⟨?_, ?_, ?_⟩
  · rw [tail_wakeFirst]
    exact h
  · intro hlocked
    cases hlocked
  · intro _ w hw
    exact head_wakeFirst hw

/-! ### Taking the lock -/

theorem Orderly.acquire (h : s.Orderly) (i : ι) : (s.acquire i).1.Orderly := by
  unfold Lock.acquire
  split
  · rename_i hfree
    have hnone : ∀ w ∈ s.waiters, w.2.roused = false := by
      intro w hw
      rw [hfree.2 w hw]
      rfl
    exact ⟨h.first, fun _ => hnone, fun hlocked => by cases hlocked⟩
  · rename_i hbusy
    refine ⟨?_, ?_, ?_⟩
    · intro w hw
      rcases List.mem_append.1 (List.mem_of_mem_tail hw) with hold | hnew
      · cases hws : s.waiters with
        | nil => rw [hws] at hold; cases hold
        | cons x ws =>
          simp only [hws, List.cons_append, List.tail_cons] at hw
          rcases List.mem_append.1 hw with hw | hw
          · exact h.first w (by rw [hws]; exact hw)
          · rw [List.mem_singleton.1 hw]; rfl
      · rw [List.mem_singleton.1 hnew]; rfl
    · intro hlocked w hw
      rcases List.mem_append.1 hw with hold | hnew
      · exact h.held hlocked w hold
      · rw [List.mem_singleton.1 hnew]; rfl
    · intro hlocked w hw
      cases hws : s.waiters with
      | nil =>
        refine absurd ⟨hlocked, ?_⟩ hbusy
        simp [hws]
      | cons x ws =>
        simp only [hws, List.cons_append, List.head?_cons] at hw
        exact h.free hlocked w (by rw [hws]; exact hw)

/-- A caller that takes the lock at once has nobody before it. -/
theorem queue_acquire (s : Lock ι) (i : ι) :
    (if (s.acquire i).2 then [i] else []) ++ (s.acquire i).1.queue = s.queue ++ [i] := by
  unfold Lock.acquire
  split
  · rename_i hfree
    have hnone : s.waiters.filter (·.2.live) = [] := by
      rw [List.filter_eq_nil_iff]
      intro w hw
      rw [hfree.2 w hw]
      decide
    simp [queue, hnone]
  · simp [queue, Status.live]

theorem mem_callers_acquire {j : ι} (h : j ∈ (s.acquire i).1.callers) : j ∈ s.callers ∨ j = i := by
  unfold Lock.acquire at h
  split at h
  · exact Or.inl h
  · simpa [callers, or_comm] using h

/-- The lock is taken only if it is free. -/
theorem locked_acquire (s : Lock ι) (i : ι) :
    (s.acquire i).1.locked.toNat = s.locked.toNat + (s.acquire i).2.toNat := by
  unfold Lock.acquire
  split
  · rename_i hfree
    rw [hfree.1]
    rfl
  · rfl

theorem Orderly.release (h : s.Orderly) (hs : s.release = some s') : s'.Orderly := by
  obtain ⟨-, hs⟩ := Option.ite_none_right_eq_some.1 hs
  cases hs
  exact orderly_wakeFirst h.first

theorem queue_release (hs : s.release = some s') : s'.queue = s.queue := by
  obtain ⟨-, hs⟩ := Option.ite_none_right_eq_some.1 hs
  cases hs
  exact queue_wakeFirst _ _

theorem locked_release (hs : s.release = some s') : s.locked.toNat = s'.locked.toNat + 1 := by
  obtain ⟨hlocked, hs⟩ := Option.ite_none_right_eq_some.1 hs
  cases hs
  rw [hlocked]
  rfl

theorem length_release (hs : s.release = some s') : s'.waiters.length = s.waiters.length := by
  obtain ⟨-, hs⟩ := Option.ite_none_right_eq_some.1 hs
  cases hs
  exact length_wakeFirst _

theorem callers_release (hs : s.release = some s') : s'.callers = s.callers := by
  obtain ⟨-, hs⟩ := Option.ite_none_right_eq_some.1 hs
  cases hs
  exact callers_wakeFirst _ _

/-! ### Waiters -/

/-- A woken waiter is the first. -/
theorem Orderly.of_roused (h : s.Orderly) {w : ι × Status} (hw : w ∈ s.waiters) (hroused : w.2.roused = true) :
    s.locked = false ∧ s.waiters = w :: s.waiters.tail := by
  refine ⟨?_, ?_⟩
  · by_contra hlocked
    rw [h.held (by simpa using hlocked) w hw] at hroused
    cases hroused
  · cases hws : s.waiters with
    | nil => rw [hws] at hw; cases hw
    | cons x ws =>
      rw [hws] at hw
      rcases List.mem_cons.1 hw with rfl | hw
      · rfl
      · rw [h.first w (by rw [hws]; exact hw)] at hroused
        cases hroused

section Waiters

variable [DecidableEq ι]

theorem Orderly.leave (h : s.Orderly) (w : ι × Status) : (s.leave w).Orderly := by
  have hsub : (s.waiters.erase w).Sublist s.waiters := List.erase_sublist
  unfold Lock.leave
  split
  · rename_i hlocked
    refine ⟨fun x hx => h.first x (hsub.tail.mem hx), fun _ x hx => h.held hlocked x (hsub.mem hx), ?_⟩
    intro hfree
    rw [hlocked] at hfree
    cases hfree
  · rename_i hlocked
    simp only [Bool.not_eq_true] at hlocked
    rw [hlocked]
    exact orderly_wakeFirst fun x hx => h.first x (hsub.tail.mem hx)

private theorem filter_erase_of_not {α : Type} [BEq α] [LawfulBEq α] {p : α → Bool} {x : α} (hx : p x = false)
    (l : List α) : (l.erase x).filter p = l.filter p := by
  induction l with
  | nil => rfl
  | cons y l ih =>
    by_cases hy : y = x
    · subst hy
      simp [hx]
    · rw [List.erase_cons_tail (by simpa using hy)]
      simp [List.filter_cons, ih]

theorem queue_leave {w : ι × Status} (hw : w.2.live = false) : (s.leave w).queue = s.queue := by
  have herase : (s.waiters.erase w).filter (·.2.live) = s.waiters.filter (·.2.live) :=
    filter_erase_of_not (p := fun x => x.2.live) hw s.waiters
  unfold Lock.leave
  split
  · simp only [queue, herase]
  · rw [queue_wakeFirst]
    simp only [queue, herase]

theorem callers_leave (w : ι × Status) : (s.leave w).callers.Sublist s.callers := by
  have hsub : (s.waiters.erase w).Sublist s.waiters := List.erase_sublist
  unfold Lock.leave
  split
  · exact hsub.map _
  · rw [callers_wakeFirst]
    exact hsub.map _

theorem locked_leave (w : ι × Status) : (s.leave w).locked = s.locked := by
  unfold Lock.leave
  split <;> rfl

private theorem length_erase_lt {w : ι × Status} (hw : w ∈ s.waiters) :
    (s.waiters.erase w).length < s.waiters.length := by
  have hlen := List.length_erase_of_mem hw
  have hpos := List.length_pos_of_mem hw
  omega

theorem length_leave {w : ι × Status} (hw : w ∈ s.waiters) : (s.leave w).waiters.length < s.waiters.length := by
  unfold Lock.leave
  split
  · exact length_erase_lt hw
  · rw [length_wakeFirst]
    exact length_erase_lt hw

/-- What the resumption of a waiter does. -/
inductive Resumed (s : Lock ι) (i : ι) : Lock ι → Bool → Prop
  | entered (hw : (i, .woken) ∈ s.waiters) :
      Resumed s i { locked := true, waiters := s.waiters.erase (i, .woken) } true
  | left {w : ι × Status} (hw : w ∈ s.waiters) (hlive : w.2.live = false) : Resumed s i (s.leave w) false

theorem resumed_of_resume (h : s.resume i = some (s', b)) : Resumed s i s' b := by
  unfold Lock.resume at h
  split at h
  · rename_i hw
    cases h
    exact .entered hw
  split at h
  · rename_i hw
    cases h
    exact .left hw rfl
  split at h
  · rename_i hw
    cases h
    exact .left hw rfl
  · cases h

theorem Orderly.resume (h : s.Orderly) (hs : s.resume i = some (s', b)) : s'.Orderly := by
  cases resumed_of_resume hs with
  | entered hw =>
    obtain ⟨-, hws⟩ := h.of_roused hw rfl
    have herase : s.waiters.erase (i, .woken) = s.waiters.tail := by
      rw [hws]
      simp
    rw [herase]
    refine ⟨fun w hmem => h.first w (List.mem_of_mem_tail hmem), fun _ => h.first, ?_⟩
    intro hfree
    cases hfree
  | left => exact h.leave _

/-- The lock is handed over in the order of the queue. -/
theorem Orderly.queue_resume (h : s.Orderly) (hs : s.resume i = some (s', b)) :
    (if b then [i] else []) ++ s'.queue = s.queue := by
  cases resumed_of_resume hs with
  | entered hw =>
    obtain ⟨-, hws⟩ := h.of_roused hw rfl
    unfold queue
    rw [hws]
    simp [Status.live]
  | left _ hlive => exact queue_leave hlive

theorem Orderly.locked_resume (h : s.Orderly) (hs : s.resume i = some (s', b)) :
    s'.locked.toNat = s.locked.toNat + b.toNat := by
  cases resumed_of_resume hs with
  | entered hw =>
    rw [(h.of_roused hw rfl).1]
    rfl
  | left => rw [locked_leave]; rfl

theorem callers_resume (hs : s.resume i = some (s', b)) : s'.callers.Sublist s.callers := by
  cases resumed_of_resume hs with
  | entered => exact List.erase_sublist.map _
  | left => exact callers_leave _

theorem length_resume (hs : s.resume i = some (s', b)) : s'.waiters.length < s.waiters.length := by
  cases resumed_of_resume hs with
  | entered hw => exact length_erase_lt hw
  | left hw => exact length_leave hw

/-- No wake-up is lost: while the lock is free and somebody waits, the first waiter can be resumed. -/
theorem Orderly.exists_resume (h : s.Orderly) (hfree : s.locked = false) (hws : s.waiters ≠ []) :
    ∃ i s' b, i ∈ s.callers ∧ s.resume i = some (s', b) := by
  obtain ⟨⟨i, st⟩, ws, hcons⟩ := List.exists_cons_of_ne_nil hws
  have hmem : (i, st) ∈ s.waiters := by rw [hcons]; exact List.mem_cons_self
  have hst : st ≠ .waiting := h.free hfree (i, st) (by rw [hcons]; rfl)
  have hsome : (s.resume i).isSome := by
    unfold Lock.resume
    split
    · rfl
    split
    · rfl
    split
    · rfl
    · cases st with
      | waiting => exact absurd rfl hst
      | woken => contradiction
      | wokenCancelled => contradiction
      | cancelled => contradiction
  obtain ⟨⟨s', b⟩, hs⟩ := Option.isSome_iff_exists.1 hsome
  exact ⟨i, s', b, List.mem_map_of_mem hmem, hs⟩

theorem Orderly.cancel (h : s.Orderly) (i : ι) : (s.cancel i).Orderly := by
  have hroused : ∀ w : ι × Status, (if w.1 = i then (w.1, w.2.cancel) else w).2.roused = w.2.roused := by
    intro w
    split <;> simp
  refine ⟨?_, ?_, ?_⟩
  · intro w hw
    simp only [Lock.cancel, ← List.map_tail] at hw
    obtain ⟨x, hx, rfl⟩ := List.mem_map.1 hw
    rw [hroused]
    exact h.first x hx
  · intro hlocked w hw
    obtain ⟨x, hx, rfl⟩ := List.mem_map.1 hw
    rw [hroused]
    exact h.held hlocked x hx
  · intro hfree w hw
    simp only [Lock.cancel, List.head?_map] at hw
    obtain ⟨x, hx, rfl⟩ := Option.map_eq_some_iff.1 hw
    split
    · exact Status.cancel_ne_waiting _
    · exact h.free hfree x hx

theorem callers_cancel (s : Lock ι) (i : ι) : (s.cancel i).callers = s.callers := by
  unfold callers Lock.cancel
  rw [List.map_map]
  refine List.map_congr_left fun w _ => ?_
  simp only [Function.comp_apply]
  split <;> rfl

/-- Exactly the cancelled caller is out of the queue. -/
theorem queue_cancel (s : Lock ι) (i : ι) : (s.cancel i).queue = s.queue.filter (· ≠ i) := by
  unfold queue Lock.cancel
  simp only
  induction s.waiters with
  | nil => rfl
  | cons w ws ih =>
    by_cases hi : w.1 = i
    · simp only [List.map_cons, hi, if_true, List.filter_cons, Status.live_cancel, Bool.false_eq_true, if_false, ih]
      split
      · simp [hi]
      · rfl
    · simp only [List.map_cons, hi, if_false, List.filter_cons]
      split
      · simp only [List.map_cons, ih]
        simp [hi]
      · exact ih

end Waiters

end Lock
