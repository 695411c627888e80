import Mathlib.Data.List.Chain
import Mathlib.Data.List.Rotate

/-!
# Round robin

A queue whose front was served last is rotated until an element that is ready is in front (`search`).  Between two
such rounds elements may be appended.  An element that was in the queue when `q` was served is ahead of `q` from then
on (`Ahead`), until it is served itself: so `q` is not served twice while it waits and is ready (`fair`).
-/

namespace RoundRobin

variable {α : Type} {ready : α → Bool} {l : List α} {p q : α}

/-- Rotate at most `n` times, up to the first element that is ready. -/
def search (ready : α → Bool) : Nat → List α → List α × Option α
  | 0, l => (l, none)
  | n + 1, l =>
    match l.rotate 1 with
    | [] => ([], none)
    | x :: l => if ready x then (x :: l, some x) else search ready n (x :: l)

/-- The outcomes of a round: `l.rotate 1` is the order in which the elements come to the front. -/
inductive Searched (ready : α → Bool) (l : List α) : List α × Option α → Prop
  | none (hno : ∀ x ∈ l, ready x = false) : Searched ready l (l, none)
  | found {x : α} {before after : List α} (hturns : l.rotate 1 = before ++ x :: after)
      (hbefore : ∀ y ∈ before, ready y = false) (hx : ready x = true) :
      Searched ready l (x :: after ++ before, some x)

/-- The elements `todo` are still to come to the front, the elements `done` were not ready. -/
private theorem search_turns {todo done : List α} (h : l.rotate 1 = todo ++ done) :
    (∃ before x after, todo = before ++ x :: after ∧ (∀ y ∈ before, ready y = false) ∧ ready x = true ∧
      search ready todo.length l = (x :: after ++ done ++ before, some x)) ∨
    (∀ y ∈ todo, ready y = false) ∧ search ready todo.length l = (l.rotate todo.length, none) := by
  induction todo generalizing l done with
  | nil => exact Or.inr ⟨by simp, by simp [search]⟩
  | cons x todo ih =>
    simp only [search, h, List.cons_append, List.length_cons]
    by_cases hx : ready x = true
    · exact Or.inl ⟨[], x, todo, rfl, by simp, hx, by simp [hx]⟩
    · have hnext : (x :: (todo ++ done)).rotate 1 = todo ++ (done ++ [x]) := by simp
      have hrot : l.rotate (todo.length + 1) = (x :: (todo ++ done)).rotate todo.length := by
        rw [Nat.add_comm, ← List.rotate_rotate, h, List.cons_append]
      simp only [hx, Bool.false_eq_true, ↓reduceIte]
      rcases ih hnext with ⟨before, y, after, rfl, hbefore, hy, he⟩ | ⟨hno, he⟩
      · refine Or.inl ⟨x :: before, y, after, rfl, ?_, hy, by rw [he]; simp⟩
        simpa [hx] using hbefore
      · exact Or.inr ⟨by simpa [hx] using hno, by rw [he, hrot]⟩

theorem search_cases (ready : α → Bool) (l : List α) : Searched ready l (search ready l.length l) := by
  have h := @search_turns α ready l _ _ (List.append_nil _).symm
  rw [List.length_rotate, List.rotate_length] at h
  rcases h with ⟨before, x, after, hturns, hbefore, hx, he⟩ | ⟨hno, he⟩
  · rw [he, List.append_nil]
    exact .found hturns hbefore hx
  · rw [he]
    exact .none fun x hx => hno x (by simpa using hx)

/-- `p` comes to the front before `q`. -/
def Ahead (p q : α) (l : List α) : Prop := [p, q].Sublist (l.rotate 1)

theorem Ahead.mem (h : Ahead p q l) : p ∈ l := by
  have hp := h.subset (List.mem_cons_self ..)
  simpa using hp

theorem Ahead.append (h : Ahead p q l) (added : List α) : Ahead p q (l ++ added) := by
  cases l with
  | nil => exact absurd h.mem (by simp)
  | cons x l =>
    have hl : ((x :: l).rotate 1).Sublist ((x :: l ++ added).rotate 1) := by simp
    exact List.Sublist.trans h hl

/-- Whatever was in the queue when `q` was served is ahead of `q` after it. -/
theorem ahead_of_found {l' : List α} (h : Searched ready l (l', some q)) (hp : p ∈ l) (hpq : p ≠ q) :
    Ahead p q l' := by
  cases h with
  | @found _ before after hturns =>
    have hmem : p ∈ before ++ q :: after := hturns ▸ List.mem_rotate.2 hp
    have hrest : p ∈ after ++ before := by
      simp only [List.mem_append, List.mem_cons, hpq, false_or] at hmem ⊢
      exact hmem.symm
    have hpair : ([p] ++ [q]).Sublist (after ++ before ++ [q]) :=
      (List.singleton_sublist.2 hrest).append (List.Sublist.refl [q])
    simpa [Ahead] using hpair

/-- If `p` is ready and ahead of `q`, then `p` is served, or an element other than `q` and `p` stays ahead. -/
theorem Ahead.searched {r : List α × Option α} (h : Ahead p q l) (hnodup : l.Nodup) (hp : ready p = true)
    (hr : Searched ready l r) : r.2 = some p ∨ Ahead p q r.1 ∧ r.2 ≠ some q := by
  cases hr with
  | none hno => exact absurd hp (by simp [hno p h.mem])
  | @found x before after hturns hbefore hx =>
    by_cases hxp : x = p
    · exact Or.inl (congrArg some hxp)
    have hnot : p ∉ before ++ [x] := by
      simp only [List.mem_append, List.mem_singleton, not_or]
      exact ⟨fun hmem => by simp [hbefore p hmem] at hp, fun he => hxp he.symm⟩
    -- the pair lies behind `x`
    have hafter : [p, q].Sublist after := by
      have hpair : [p, q].Sublist ((before ++ [x]) ++ after) := by
        simpa [Ahead, hturns] using h
      obtain ⟨l₁, l₂, he, h₁, h₂⟩ := List.sublist_append_iff.1 hpair
      cases l₁ with
      | nil => exact he ▸ h₂
      | cons y l₁ =>
        obtain rfl : p = y := (List.cons.inj he).1
        exact absurd (h₁.subset (List.mem_cons_self ..)) hnot
    refine Or.inr ⟨?_, fun he => ?_⟩
    · have hturns' : (x :: after ++ before).rotate 1 = after ++ (before ++ [x]) := by simp
      rw [Ahead, hturns']
      exact hafter.trans (List.sublist_append_left ..)
    · obtain rfl : x = q := Option.some.inj he
      have hnd : (before ++ x :: after).Nodup := hturns ▸ List.nodup_rotate.2 hnodup
      have hx' : x ∈ after := hafter.subset (by simp)
      exact (List.nodup_cons.1 hnd.of_append_right).1 hx'

section Rounds

variable {ρ : Type} {queue after : ρ → List α} {ready : ρ → α → Bool} {served : ρ → Option α}

private theorem served_of_ahead {rounds : List ρ} {r last : ρ} (h : Ahead p q (after r))
    (hround : ∀ r ∈ rounds ++ [last], Searched (ready r) (queue r) (after r, served r))
    (hnodup : ∀ r ∈ rounds ++ [last], (queue r).Nodup)
    (hchain : (r :: (rounds ++ [last])).IsChain fun r r' => ∃ added, queue r' = after r ++ added)
    (hlast : served last = some q) (hpq : p ≠ q) (hready : ∀ r ∈ rounds ++ [last], ready r p = true) :
    ∃ r ∈ rounds, served r = some p := by
  induction rounds generalizing r with
  | nil =>
    obtain ⟨added, he⟩ := hchain.rel
    have hahead : Ahead p q (queue last) := he ▸ h.append added
    rcases hahead.searched (hnodup last (by simp)) (hready last (by simp)) (hround last (by simp)) with hp | ⟨-, hq⟩
    · rw [hlast] at hp
      exact absurd (Option.some.inj hp).symm hpq
    · exact absurd hlast hq
  | cons r' rounds ih =>
    obtain ⟨⟨added, he⟩, htail⟩ := List.isChain_cons_cons.1 hchain
    have hahead : Ahead p q (queue r') := he ▸ h.append added
    rcases hahead.searched (hnodup r' (by simp)) (hready r' (by simp)) (hround r' (by simp)) with hp | ⟨hnext, -⟩
    · exact ⟨r', by simp, hp⟩
    · obtain ⟨r'', hr'', hp⟩ := ih hnext (fun r hr => hround r (List.mem_cons_of_mem _ hr))
        (fun r hr => hnodup r (List.mem_cons_of_mem _ hr)) htail fun r hr => hready r (List.mem_cons_of_mem _ hr)
      exact ⟨r'', List.mem_cons_of_mem _ hr'', hp⟩

/-- Between two rounds that serve `q`, an element that was in the queue at the first and is ready in every later one
is served. -/
theorem fair {first last : ρ} {between : List ρ}
    (hround : ∀ r ∈ first :: (between ++ [last]), Searched (ready r) (queue r) (after r, served r))
    (hnodup : ∀ r ∈ first :: (between ++ [last]), (queue r).Nodup)
    (hchain : (first :: (between ++ [last])).IsChain fun r r' => ∃ added, queue r' = after r ++ added)
    (hfirst : served first = some q) (hlast : served last = some q) (hpq : p ≠ q) (hp : p ∈ queue first)
    (hready : ∀ r ∈ between ++ [last], ready r p = true) : ∃ r ∈ between, served r = some p := by
  have hserved := hround first (List.mem_cons_self ..)
  rw [hfirst] at hserved
  exact served_of_ahead (ahead_of_found hserved hp hpq) (fun r hr => hround r (List.mem_cons_of_mem _ hr))
    (fun r hr => hnodup r (List.mem_cons_of_mem _ hr)) hchain hlast hpq hready

end Rounds

end RoundRobin
