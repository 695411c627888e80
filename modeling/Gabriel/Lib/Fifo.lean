import Mathlib.Data.List.Perm.Subperm
import Mathlib.Logic.Function.Basic
import Mathlib.Logic.Relation

/-!
# A server with one FIFO queue per key

One job is served at a time.  A job that comes while the server is idle is served at once, any other waits behind the
jobs of the same key.  When a job is finished the first waiting job of some key is served, if any job waits at all.
The state records the jobs that were accepted, that were served and that were finished, each in order.
-/

/-- The state of the server: `waiting` jobs of each key, the job being served, and the histories. -/
structure Fifo (κ α : Type) where
  waiting : κ → List α := fun _ => []
  serving : Option α := none
  accepted : List α := []
  served : List α := []
  finished : List α := []

namespace Fifo

variable {κ α : Type} [DecidableEq κ] {key : α → κ} {s s' : Fifo κ α}

/-- The steps of the server for jobs with the keys `key`. -/
inductive Step (key : α → κ) : Fifo κ α → Fifo κ α → Prop
  | start (s : Fifo κ α) (x : α) (hidle : s.serving = none) :
      Step key s { s with serving := some x, accepted := s.accepted ++ [x], served := s.served ++ [x] }
  | wait (s : Fifo κ α) (x : α) (hbusy : s.serving ≠ none) :
      Step key s { s with
        waiting := Function.update s.waiting (key x) (s.waiting (key x) ++ [x]), accepted := s.accepted ++ [x] }
  | finish (s : Fifo κ α) (x : α) (hx : s.serving = some x) (hempty : ∀ k, s.waiting k = []) :
      Step key s { s with serving := none, finished := s.finished ++ [x] }
  | next (s : Fifo κ α) (x : α) (k : κ) (y : α) (rest : List α) (hx : s.serving = some x)
      (hk : s.waiting k = y :: rest) :
      Step key s { s with
        waiting := Function.update s.waiting k rest, serving := some y, served := s.served ++ [y]
        finished := s.finished ++ [x] }

/-- The states the server can reach. -/
def Reachable (key : α → κ) (s : Fifo κ α) : Prop := Relation.ReflTransGen (Step key) {} s

/-- What holds in every reachable state. -/
structure Invariant (key : α → κ) (s : Fifo κ α) : Prop where
  waiting_key : ∀ k, ∀ x ∈ s.waiting k, key x = k
  idle_empty : s.serving = none → ∀ k, s.waiting k = []
  served_eq : s.served = s.finished ++ s.serving.toList
  accepted_eq : ∀ k, s.accepted.filter (key · = k) = s.served.filter (key · = k) ++ s.waiting k

theorem Invariant.step (h : Invariant key s) (hstep : Step key s s') : Invariant key s' := by
  cases hstep with
  | start x hidle =>
    refine ⟨h.waiting_key, by simp, by simp [h.served_eq, hidle], fun k => ?_⟩
    simp only [List.filter_append, h.accepted_eq k, h.idle_empty hidle k, List.append_nil]
  | wait x hbusy =>
    refine ⟨fun k y hy => ?_, fun hidle => absurd hidle hbusy, h.served_eq, fun k => ?_⟩
    · by_cases hk : k = key x
      · subst hk
        simp only [Function.update_self, List.mem_append, List.mem_singleton] at hy
        rcases hy with hy | rfl
        · exact h.waiting_key _ y hy
        · rfl
      · exact h.waiting_key k y (by simpa [hk] using hy)
    · by_cases hk : key x = k
      · subst hk; simp [h.accepted_eq]
      · simp [hk, Ne.symm hk, h.accepted_eq]
  | finish x hx hempty => exact ⟨h.waiting_key, fun _ => hempty, by simp [h.served_eq, hx], h.accepted_eq⟩
  | next x k y rest hx hk =>
    have hkey : key y = k := h.waiting_key k y (by rw [hk]; exact List.mem_cons_self ..)
    refine ⟨fun k' z hz => ?_, by simp, by simp [h.served_eq, hx], fun k' => ?_⟩
    · by_cases hk' : k' = k
      · subst hk'
        exact h.waiting_key _ z (by rw [hk]; exact List.mem_cons_of_mem _ (by simpa using hz))
      · exact h.waiting_key k' z (by simpa [hk'] using hz)
    · have hk' := h.accepted_eq k'
      by_cases he : k = k'
      · subst he; simp [hk', hk, hkey]
      · simp [hk', hkey, he, Ne.symm he]

theorem Reachable.invariant (h : Reachable key s) : Invariant key s := by
  induction h with
  | refl => exact ⟨by simp, by simp, rfl, by simp⟩
  | tail _ hstep ih => exact ih.step hstep

theorem Invariant.count_accepted [DecidableEq α] (h : Invariant key s) (x : α) :
    s.accepted.count x = s.served.count x + (s.waiting (key x)).count x := by
  have hcount := congrArg (List.count x) (h.accepted_eq (key x))
  rwa [List.count_append, List.count_filter (by simp), List.count_filter (by simp)] at hcount

/-- No job is served more often than it was accepted. -/
theorem Invariant.served_subperm (h : Invariant key s) : s.served.Subperm s.accepted := by
  classical
  exact List.subperm_iff_count.2 fun x => h.count_accepted x ▸ Nat.le_add_right _ _

/-- An idle server has finished all accepted jobs. -/
theorem Invariant.finished_perm (h : Invariant key s) (hidle : s.serving = none) : s.finished.Perm s.accepted := by
  classical
  refine List.perm_iff_count.2 fun x => ?_
  have hserved : s.served = s.finished := by rw [h.served_eq, hidle, Option.toList_none, List.append_nil]
  rw [h.count_accepted x, h.idle_empty hidle, List.count_nil, Nat.add_zero, hserved]

/-- A server that has finished as many jobs as it accepted is idle. -/
theorem Invariant.idle_of_length (h : Invariant key s) (hlen : s.finished.length = s.accepted.length) :
    s.serving = none := by
  have hle := h.served_subperm.length_le
  rw [h.served_eq, List.length_append] at hle
  rw [← Option.toList_eq_nil_iff, ← List.length_eq_zero_iff]
  omega

end Fifo
