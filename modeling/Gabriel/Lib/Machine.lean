import Mathlib.Init

/-!
# Machines and their runs

A machine has an initial state and a partial step function: `step s a = none` means that the action `a` is not
possible in the state `s`.  A run is a list of actions that can be taken one after the other from the initial
state.  Properties of every run are proved with `RunWhere.invariant`: what holds initially and is kept by every
step holds at the end of every run.  `RunWhere G` are the runs all of whose steps satisfy `G`, a condition on the
state before the step and on the action; `Run` is the case without a condition.

Closed runs are evaluated with `exec`.
-/

/-- A machine with states `σ` and actions `α`. -/
structure Machine (σ α : Type) where
  init : σ
  step : σ → α → Option σ

namespace Machine

variable {σ α : Type} {M : Machine σ α}

/-- The runs of `M` all of whose steps satisfy `G`. -/
inductive RunWhere (M : Machine σ α) (G : σ → α → Prop) : List α → σ → Prop
  | init : RunWhere M G [] M.init
  | step {as : List α} {s s' : σ} {a : α} (hrun : RunWhere M G as s) (hG : G s a)
      (hstep : M.step s a = some s') : RunWhere M G (as ++ [a]) s'

/-- All runs of `M`. -/
def Run (M : Machine σ α) : List α → σ → Prop := M.RunWhere fun _ _ => True

/-- The states that some run of `M` ends in. -/
def Reachable (M : Machine σ α) (s : σ) : Prop := ∃ as, M.Run as s

/-- What holds initially and is kept by every step holds at the end of every run. -/
theorem RunWhere.invariant {G : σ → α → Prop} {I : σ → Prop} (h0 : I M.init)
    (hs : ∀ s a s', I s → G s a → M.step s a = some s' → I s') {as : List α} {s : σ}
    (h : M.RunWhere G as s) : I s := by
  induction h with
  | init => exact h0
  | step _ hG hstep ih => exact hs _ _ _ ih hG hstep

/-- An invariant whose step proof may use a property `J` already known of every run. -/
theorem RunWhere.invariant_of {G : σ → α → Prop} {I J : σ → Prop}
    (hJ : ∀ {as s}, M.RunWhere G as s → J s) (h0 : I M.init)
    (hs : ∀ s a s', J s → I s → G s a → M.step s a = some s' → I s') {as : List α} {s : σ}
    (h : M.RunWhere G as s) : I s := by
  induction h with
  | init => exact h0
  | step hrun hG hstep ih => exact hs _ _ _ (hJ hrun) ih hG hstep

theorem RunWhere.mono {G H : σ → α → Prop} (hG : ∀ s a, G s a → H s a) {as : List α} {s : σ}
    (h : M.RunWhere G as s) : M.RunWhere H as s := by
  induction h with
  | init => exact .init
  | step _ hg hstep ih => exact .step ih (hG _ _ hg) hstep

theorem RunWhere.run {G : σ → α → Prop} {as : List α} {s : σ} (h : M.RunWhere G as s) : M.Run as s :=
  h.mono fun _ _ _ => trivial

/-- What is known of every run holds before each step. -/
theorem RunWhere.strengthen {G : σ → α → Prop} {J : σ → Prop} (hJ : ∀ {as s}, M.RunWhere G as s → J s) {as : List α}
    {s : σ} (h : M.RunWhere G as s) : M.RunWhere (fun s a => J s ∧ G s a) as s := by
  induction h with
  | init => exact .init
  | step hrun hG hstep ih => exact .step ih ⟨hJ hrun, hG⟩ hstep

/-- Each step of `M` is, under `f`, some step of `N` or no step: then `f` maps runs of `M` to runs of `N`. -/
theorem RunWhere.refines {τ β : Type} {N : Machine τ β} {G : σ → α → Prop} {H : τ → β → Prop} (f : σ → τ)
    (h0 : f M.init = N.init)
    (hs : ∀ s a s', G s a → M.step s a = some s' →
      f s' = f s ∨ ∃ b, H (f s) b ∧ N.step (f s) b = some (f s'))
    {as : List α} {s : σ} (h : M.RunWhere G as s) : ∃ bs, N.RunWhere H bs (f s) := by
  induction h with
  | init => exact ⟨[], h0 ▸ .init⟩
  | step hrun hG hstep ih =>
    rename_i s s' a
    obtain ⟨bs, hbs⟩ := ih
    rcases hs s a s' hG hstep with hsame | ⟨b, hb, hstep'⟩
    · exact ⟨bs, hsame ▸ hbs⟩
    · exact ⟨bs ++ [b], hbs.step hb hstep'⟩

/-- Refinement where the step of `N` is known: `g` gives it. -/
theorem RunWhere.simulate {τ β : Type} {N : Machine τ β} {G : σ → α → Prop} {H : τ → β → Prop} (f : σ → τ)
    (g : σ → α → Option β) (h0 : f M.init = N.init)
    (hs : ∀ s a s', G s a → M.step s a = some s' →
      match g s a with
      | none => f s' = f s
      | some b => H (f s) b ∧ N.step (f s) b = some (f s'))
    {as : List α} {s : σ} (h : M.RunWhere G as s) : ∃ bs, N.RunWhere H bs (f s) := by
  refine h.refines f h0 fun s a s' hG hstep => ?_
  have := hs s a s' hG hstep
  cases hb : g s a with
  | none =>
    rw [hb] at this
    exact Or.inl this
  | some b =>
    rw [hb] at this
    exact Or.inr ⟨b, this⟩

/-- The actions `g past a` for the actions `a` of a run, where `past` are the actions before `a`. -/
def translate {β : Type} (g : List α → α → Option β) (past : List α) : List α → List β
  | [] => []
  | a :: as => (g past a).toList ++ translate g (past ++ [a]) as

theorem translate_concat {β : Type} (g : List α → α → Option β) (past as : List α) (a : α) :
    translate g past (as ++ [a]) = translate g past as ++ (g (past ++ as) a).toList := by
  induction as generalizing past with
  | nil => simp [translate]
  | cons b as ih => simp [translate, ih]

/-- Each step of `M` is matched by the step `g` of `N` or by no step, so that the states stay related: then a run of
`M` is matched by the translated run of `N`. -/
theorem RunWhere.translate {τ β : Type} {N : Machine τ β} {G : σ → α → Prop} {H : τ → β → Prop}
    {R : List α → σ → τ → Prop} (g : List α → α → Option β) (h0 : R [] M.init N.init)
    (hs : ∀ as s a s' t, M.RunWhere G as s → R as s t → G s a → M.step s a = some s' →
      match g as a with
      | none => R (as ++ [a]) s' t
      | some b => H t b ∧ ∃ t', N.step t b = some t' ∧ R (as ++ [a]) s' t')
    {as : List α} {s : σ} (h : M.RunWhere G as s) : ∃ t, N.RunWhere H (translate g [] as) t ∧ R as s t := by
  induction h with
  | init => exact ⟨N.init, .init, h0⟩
  | @step as s s' a hrun hG hstep ih =>
    obtain ⟨t, ht, hR⟩ := ih
    have := hs as s a s' t hrun hR hG hstep
    rw [translate_concat, List.nil_append]
    cases hb : g as a with
    | none =>
      rw [hb] at this
      exact ⟨t, by simpa using ht, this⟩
    | some b =>
      rw [hb] at this
      obtain ⟨hG', t', ht', hR'⟩ := this
      exact ⟨t', ht.step hG' ht', hR'⟩

/-! ### Evaluating a run -/

/-- The state after the actions `as` from `s`, if all of them are possible. -/
def exec (M : Machine σ α) (s : σ) : List α → Option σ
  | [] => some s
  | a :: as => (M.step s a).bind fun s' => exec M s' as

/-- As long as `P` is not reached there is a step that satisfies `A`, keeps `I` and decreases `rank`: then `P` is
reached by such steps. -/
theorem exists_exec {I P : σ → Prop} {A : α → Prop} (rank : σ → Nat)
    (hs : ∀ s, I s → ∃ a s', A a ∧ M.step s a = some s' ∧ (P s' ∨ I s' ∧ rank s' < rank s)) {s : σ} (h : I s) :
    ∃ as s', (∀ a ∈ as, A a) ∧ M.exec s as = some s' ∧ P s' := by
  induction hn : rank s using Nat.strongRecOn generalizing s with
  | _ n ih =>
    obtain ⟨a, t, ha, ht, hP | ⟨hI, hlt⟩⟩ := hs s h
    · exact ⟨[a], t, by simpa using ha, by simp [exec, ht], hP⟩
    · obtain ⟨as, s', has, hexec, hP⟩ := ih _ (hn ▸ hlt) hI rfl
      refine ⟨a :: as, s', ?_, by simp [exec, ht, hexec], hP⟩
      simpa using ⟨ha, has⟩

/-- `P` is reached from `s` by steps that satisfy `A`. -/
def Leads (M : Machine σ α) (A : α → Prop) (P : σ → Prop) (s : σ) : Prop :=
  ∃ as s', (∀ a ∈ as, A a) ∧ M.exec s as = some s' ∧ P s'

theorem Leads.single {A : α → Prop} {P : σ → Prop} {s s' : σ} {a : α} (hstep : M.step s a = some s') (ha : A a)
    (hP : P s') : M.Leads A P s :=
  ⟨[a], s', by simpa using ha, by simp [exec, hstep], hP⟩

theorem Leads.cons {A : α → Prop} {P : σ → Prop} {s s' : σ} {a : α} (hstep : M.step s a = some s') (ha : A a)
    (h : M.Leads A P s') : M.Leads A P s := by
  obtain ⟨as, t, has, hexec, hP⟩ := h
  exact ⟨a :: as, t, by simpa using ⟨ha, has⟩, by simp [exec, hstep, hexec], hP⟩

/-- `t` is reached from `s` by some steps. -/
def Reaches (M : Machine σ α) (s t : σ) : Prop := ∃ as, M.exec s as = some t

theorem Reaches.refl (s : σ) : M.Reaches s s := ⟨[], rfl⟩

theorem Reaches.head {s s' t : σ} {a : α} (hstep : M.step s a = some s') (h : M.Reaches s' t) : M.Reaches s t := by
  obtain ⟨as, has⟩ := h
  exact ⟨a :: as, by simp [exec, hstep, has]⟩

theorem Reaches.trans {s t u : σ} (h : M.Reaches s t) (h' : M.Reaches t u) : M.Reaches s u := by
  obtain ⟨as, has⟩ := h
  induction as generalizing s with
  | nil =>
    obtain rfl := Option.some.inj has
    exact h'
  | cons a as ih =>
    obtain ⟨s', hs', hexec⟩ := Option.bind_eq_some_iff.1 has
    exact (ih hexec).head hs'

/-- What the steps `as` from `s` show, one after the other. -/
def trace {β : Type} (M : Machine σ α) (f : σ → α → Option β) (s : σ) : List α → List β
  | [] => []
  | a :: as => (f s a).toList ++ ((M.step s a).map fun s' => trace M f s' as).getD []

private theorem exec_concat {s s' t : σ} {a : α} {as : List α} (h : M.exec s as = some s')
    (hstep : M.step s' a = some t) : M.exec s (as ++ [a]) = some t := by
  induction as generalizing s with
  | nil =>
    obtain rfl := Option.some.inj h
    simp [exec, hstep]
  | cons b as ih =>
    obtain ⟨u, hu, hexec⟩ := Option.bind_eq_some_iff.1 h
    simpa [exec, hu] using ih hexec

/-- A run is evaluated to its last state. -/
theorem RunWhere.exec {G : σ → α → Prop} {as : List α} {s : σ} (h : M.RunWhere G as s) :
    M.exec M.init as = some s := by
  induction h with
  | init => rfl
  | step _ _ hstep ih => exact exec_concat ih hstep

theorem Run.append_exec {as bs : List α} {s t : σ} (h : M.Run as s) (hexec : M.exec s bs = some t) :
    M.Run (as ++ bs) t := by
  induction bs generalizing as s with
  | nil =>
    obtain rfl := Option.some.inj hexec
    simpa using h
  | cons b bs ih =>
    obtain ⟨s', hs', hrest⟩ := Option.bind_eq_some_iff.1 hexec
    have hnext := ih (h.step trivial hs') hrest
    simpa using hnext

/-- Each step of `M` is matched by some steps of `N`, so that the states stay related: then every run of `M` is matched
by a run of `N`. -/
theorem RunWhere.expand {τ β : Type} {N : Machine τ β} {G : σ → α → Prop} {R : σ → τ → Prop}
    (h0 : R M.init N.init)
    (hs : ∀ as s a s' t, M.RunWhere G as s → R s t → G s a → M.step s a = some s' → ∃ t', N.Reaches t t' ∧ R s' t')
    {as : List α} {s : σ} (h : M.RunWhere G as s) : ∃ bs t, N.Run bs t ∧ R s t := by
  induction h with
  | init => exact ⟨[], N.init, .init, h0⟩
  | step hrun hG hstep ih =>
    obtain ⟨bs, t, ht, hR⟩ := ih
    obtain ⟨t', ⟨cs, hcs⟩, hR'⟩ := hs _ _ _ _ t hrun hR hG hstep
    exact ⟨bs ++ cs, t', Run.append_exec ht hcs, hR'⟩

theorem trace_concat {β : Type} {f : σ → α → Option β} {s s' : σ} {as : List α} (h : M.exec s as = some s') (a : α) :
    M.trace f s (as ++ [a]) = M.trace f s as ++ (f s' a).toList := by
  induction as generalizing s with
  | nil =>
    obtain rfl := Option.some.inj h
    cases hstep : M.step s a <;> simp [trace, hstep]
  | cons b as ih =>
    obtain ⟨u, hu, hexec⟩ := Option.bind_eq_some_iff.1 h
    simp [trace, hu, ih hexec]

/-- As `exec`, but stopping at a step that does not satisfy `g`. -/
def execWhere (M : Machine σ α) (g : σ → α → Bool) (s : σ) : List α → Option σ
  | [] => some s
  | a :: as => if g s a then (M.step s a).bind fun s' => execWhere M g s' as else none

private theorem RunWhere.append_execWhere {G : σ → α → Prop} {g : σ → α → Bool}
    (hg : ∀ s a, g s a = true → G s a) {as bs : List α} {s s' : σ} (h : M.RunWhere G as s)
    (he : M.execWhere g s bs = some s') : M.RunWhere G (as ++ bs) s' := by
  induction bs generalizing as s with
  | nil =>
    simp only [execWhere, Option.some.injEq] at he
    subst he
    simpa using h
  | cons b bs ih =>
    simp only [execWhere] at he
    split at he
    · rename_i hgb
      obtain ⟨t, ht, he'⟩ := Option.bind_eq_some_iff.1 he
      have := ih (h.step (hg _ _ hgb) ht) he'
      simpa using this
    · cases he

/-- A run found by evaluation, together with a property of its last state. -/
theorem exists_runWhere {G : σ → α → Prop} {g : σ → α → Bool} (hg : ∀ s a, g s a = true → G s a)
    (P : σ → Prop) [DecidablePred P] (as : List α)
    (h : (M.execWhere g M.init as).map (fun s => decide (P s)) = some true) :
    ∃ s, M.RunWhere G as s ∧ P s := by
  obtain ⟨s, hs, hP⟩ := Option.map_eq_some_iff.1 h
  refine ⟨s, ?_, of_decide_eq_true hP⟩
  simpa using RunWhere.append_execWhere hg RunWhere.init hs

private theorem execWhere_true (s : σ) (as : List α) : M.execWhere (fun _ _ => true) s as = M.exec s as := by
  induction as generalizing s with
  | nil => rfl
  | cons a as ih =>
    simp only [execWhere, exec, ↓reduceIte]
    exact congrArg _ (funext ih)

theorem exists_run (P : σ → Prop) [DecidablePred P] (as : List α)
    (h : (M.exec M.init as).map (fun s => decide (P s)) = some true) : ∃ s, M.Run as s ∧ P s := by
  rw [← execWhere_true] at h
  exact exists_runWhere (fun _ _ _ => trivial) P as h

end Machine
