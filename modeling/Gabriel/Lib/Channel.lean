import Mathlib.Data.List.Perm.Basic
import Mathlib.Logic.Relation

/-!
# A channel that keeps messages in order

Messages are posted at one end of the channel and taken at the other.  The messages that have waited longest may be
lost.  The state records the messages that were posted, taken and lost, each in order.
-/

structure Channel (α : Type) where
  posted : List α := []
  taken : List α := []
  lost : List α := []
  waiting : List α := []

namespace Channel

variable {α : Type} {s s' s'' : Channel α}

inductive Step : Channel α → Channel α → Prop
  | post (s : Channel α) (x : α) : Step s { s with posted := s.posted ++ [x], waiting := s.waiting ++ [x] }
  | take (s : Channel α) (x : α) (rest : List α) (hwaiting : s.waiting = x :: rest) :
      Step s { s with taken := s.taken ++ [x], waiting := rest }
  | lose (s : Channel α) (xs rest : List α) (hwaiting : s.waiting = xs ++ rest) :
      Step s { s with lost := s.lost ++ xs, waiting := rest }

/-- The states that the channel can reach. -/
def Reachable (s : Channel α) : Prop := Relation.ReflTransGen Step {} s

/-- What is taken and what waits is posted in this order. -/
theorem Reachable.sublist (h : Reachable s) : (s.taken ++ s.waiting).Sublist s.posted := by
  induction h with
  | refl => exact List.Sublist.refl _
  | tail _ hstep ih =>
    cases hstep with
    | post x =>
      rw [← List.append_assoc]
      exact ih.append (List.Sublist.refl _)
    | take x rest hwaiting =>
      rw [hwaiting] at ih
      simpa using ih
    | lose xs rest hwaiting =>
      rw [hwaiting] at ih
      exact ((List.sublist_append_right xs rest).append_left _).trans ih

/-- Every posted message is taken, lost or waiting, once. -/
theorem Reachable.perm (h : Reachable s) : (s.taken ++ s.lost ++ s.waiting).Perm s.posted := by
  induction h with
  | refl => exact List.Perm.refl _
  | tail _ hstep ih =>
    cases hstep with
    | post x =>
      rw [← List.append_assoc]
      exact ih.append_right _
    | take x rest hwaiting =>
      rw [hwaiting] at ih
      refine List.Perm.trans ?_ ih
      simp only [List.append_assoc, List.singleton_append]
      exact List.perm_middle.symm.append_left _
    | lose xs rest hwaiting =>
      rw [hwaiting] at ih
      simpa using ih

/-- Messages are posted, and nothing else happens. -/
def Grows (s s' : Channel α) : Prop :=
  ∃ new, s' = { s with posted := s.posted ++ new, waiting := s.waiting ++ new }

theorem Grows.refl (s : Channel α) : Grows s s := ⟨[], by simp⟩

theorem Grows.trans (h : Grows s s') (h' : Grows s' s'') : Grows s s'' := by
  obtain ⟨new, rfl⟩ := h
  obtain ⟨new', rfl⟩ := h'
  exact ⟨new ++ new', by simp⟩

theorem Reachable.grows (h : Reachable s) (hgrows : Grows s s') : Reachable s' := by
  obtain ⟨new, rfl⟩ := hgrows
  induction new generalizing s with
  | nil => simpa using h
  | cons x new ih =>
    have hpost := ih (Relation.ReflTransGen.tail h (.post s x))
    simpa using hpost

end Channel
