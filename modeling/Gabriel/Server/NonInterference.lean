import Gabriel.Server.Delivery
import Gabriel.Server.ServerSlice

/-!
# Producers with different engines do not interfere

If the inputs of a producer `P` only target engines of a set `S`, and those of the other producers only target engines
outside of it, then what the server does for `P` does not depend on the other producers and engines.  The run is
compared with the one in which their inputs and events are deleted (`purge`): a step of the run is the same step of the
purged run or none, and `Gabriel.Server.ServerSlice` relates the states.

A context stands for a registration, the `k`-th one for the context `k`.  So the events that are kept name their
contexts differently in the two runs.
-/

namespace Gabriel

/-! ### The engine ids of contexts -/

namespace Dispatcher

variable {cfg : Config} {d d' : Dispatcher} {c : Context} {mp : MetadataPayload}

/-- The same contexts belong to the same engine ids. -/
structure SameNames (d d' : Dispatcher) : Prop where
  nextContext : d'.nextContext = d.nextContext
  engineId : ∀ c, (d'.workers c).engineId = (d.workers c).engineId

namespace SameNames

theorem refl (d : Dispatcher) : SameNames d d := ⟨rfl, fun _ => rfl⟩

theorem trans {d₁ d₂ d₃ : Dispatcher} (h : SameNames d₁ d₂) (h' : SameNames d₂ d₃) : SameNames d₁ d₃ :=
  ⟨h'.nextContext.trans h.nextContext, fun c => (h'.engineId c).trans (h.engineId c)⟩

theorem emit (e : DispatchEvent) : SameNames d (d.emit e) := ⟨rfl, fun _ => rfl⟩

theorem modifyWorker {f : EngineWorker → EngineWorker} (hf : (f (d.workers c)).engineId = (d.workers c).engineId) :
    SameNames d (d.modifyWorker c f) := by
  refine ⟨rfl, fun c' => ?_⟩
  by_cases hc : c' = c
  · subst hc; simpa using hf
  · simp [hc]

theorem sendPayload (b : Bool) : SameNames d (d.sendPayload c mp b) := by
  have htake : SameNames d (d.modifyWorker c (·.takePayload mp)) := modifyWorker rfl
  cases b with
  | false => exact htake
  | true => exact htake.trans (emit _)

theorem sendNextInput (b : Bool) : SameNames d (d.sendNextInput c b).1 := by
  have hrotate : ∀ k, SameNames d (d.modifyWorker c (·.rotateProducers k)) := fun k => modifyWorker rfl
  generalize hr : d.sendNextInput c b = r
  cases sendNextInput_cases hr with
  | none k => exact (hrotate k).trans (modifyWorker rfl)
  | @dequeued k p mp rest hp hpend hq =>
    have hdeq : SameNames (d.modifyWorker c (·.rotateProducers k))
        ((d.modifyWorker c (·.rotateProducers k)).dequeue p mp rest) := ⟨rfl, fun _ => rfl⟩
    exact ((hrotate k).trans hdeq).trans (sendPayload b)
  | pickedUp => exact (hrotate _).trans (sendPayload b)

theorem dispatchAll {raising order : List Context} {b : Bool} {r : Option Bool}
    (hr : d.dispatchAll mp raising order b = (d', r)) : SameNames d d' := by
  have hadd : ∀ (d₁ : Dispatcher) c, SameNames d₁ (d₁.addProducer c mp.producerId) := fun d₁ c =>
    modifyWorker (by simp)
  have hloop := dispatchAll_ind (P := fun _ d₁ _ => SameNames d d₁) (fun d₁ c _ _ h _ => h.trans (hadd d₁ c))
    (fun d₁ c _ _ h _ => (h.trans (hadd d₁ c)).trans (sendPayload _)) (refl d) hr
  cases r with
  | none => exact (hloop.2 rfl).2.choose_spec
  | some b => exact hloop.1 b rfl

theorem concludeInput (b : Bool) : SameNames d (d.concludeInput cfg mp b).1 := by
  generalize hr : d.concludeInput cfg mp b = r
  cases concludeInput_cases hr with
  | dropped => exact refl d
  | enqueued => exact ⟨rfl, fun _ => rfl⟩
  | inFlight => exact ⟨rfl, fun _ => rfl⟩

theorem beginInput (p : String) (targets : List Context) : SameNames d (d.beginInput p targets) :=
  ⟨by simp, by simp⟩

theorem removeEngineWorker (v : Context) : SameNames d (d.removeEngineWorker v) := ⟨by simp, by simp⟩

theorem feedEngine (raises : Bool) : SameNames d (d.feedEngine c raises) := by
  have hsent : SameNames d (d.sendNextInput c !raises).1 := sendNextInput _
  unfold Dispatcher.feedEngine
  split
  · rename_i hr
    rw [hr] at hsent
    split
    · exact hsent.trans (removeEngineWorker c)
    · exact hsent
  · rename_i hr
    rwa [hr] at hsent

end SameNames

/-- The engine ids of the contexts are `ids`. -/
structure Named (ids : List String) (d : Dispatcher) : Prop where
  nextContext : d.nextContext = ids.length
  engineId : ∀ c id, ids[c]? = some id → (d.workers c).engineId = id

/-- The engine id that a step gives to a new context. -/
def Action.registers : Action → List String
  | .register engineId _ => [engineId]
  | _ => []

theorem Named.same {ids : List String} (h : Named ids d) (hsame : SameNames d d') : Named ids d' :=
  ⟨hsame.nextContext.trans h.nextContext, fun c id hid => (hsame.engineId c).trans (h.engineId c id hid)⟩

theorem step_named {ids : List String} {a : Action} (h : Named ids d) (hstep : step cfg d a = some d') :
    Named (ids ++ a.registers) d' := by
  cases step_cases hstep with
  | noTarget => simpa [Action.registers] using h.same (SameNames.beginInput _ [])
  | raised hperm hne he =>
    simpa [Action.registers] using h.same ((SameNames.beginInput _ _).trans (SameNames.dispatchAll he))
  | dispatched hperm hne he =>
    simpa [Action.registers] using h.same
      (((SameNames.beginInput _ _).trans (SameNames.dispatchAll he)).trans (SameNames.concludeInput _))
  | @registered engineId ar old hold =>
    have hsame : SameNames d.openContext (old.elim d.openContext d.openContext.removeEngineWorker) := by
      cases old with
      | none => exact .refl _
      | some v => exact .removeEngineWorker v
    refine ⟨?_, fun c id hid => ?_⟩
    · rw [insertWorker_nextContext, hsame.nextContext, openContext_nextContext, h.nextContext]
      simp [Action.registers]
    · by_cases hc : c = d.nextContext
      · subst hc
        rw [h.nextContext] at hid
        simpa [Action.registers, insertWorker] using hid
      · have hlt : c < ids.length := by
          have hlt := (List.getElem?_eq_some_iff.1 hid).1
          rw [List.length_append, Action.registers, List.length_singleton] at hlt
          rw [h.nextContext] at hc
          exact Nat.lt_of_le_of_ne (Nat.lt_succ_iff.1 hlt) hc
        rw [List.getElem?_append_left hlt] at hid
        have hid' := (hsame.engineId c).trans (h.engineId c id hid)
        simpa [insertWorker, hc] using hid'
  | ignored => simpa [Action.registers] using h
  | unregistered => simpa [Action.registers] using h.same (SameNames.emit _)
  | unanswered => simpa [Action.registers] using h.same (SameNames.emit _)
  | @answered c msg raises m d' ans hc hm hans =>
    have hsame : SameNames d d' := by
      cases hans with
      | noProducer => exact .emit _
      | token => exact ⟨rfl, fun _ => rfl⟩
      | copy => exact (SameNames.emit _).trans (.emit _)
      | next => exact .emit _
    simpa [Action.registers] using h.same (hsame.trans (.feedEngine raises))
  | removed => simpa [Action.registers] using h.same (.removeEngineWorker _)

/-- The frames written to engines of `S`, each with the id of its engine. -/
def framesFor (S : String → Bool) (d : Dispatcher) : List (String × ToEngine) :=
  d.log.filterMap fun
    | .wrote c msg _ => if S (d.workers c).engineId then some ((d.workers c).engineId, msg) else none
    | _ => none

end Dispatcher

/-! ### The purged run -/

namespace Atomic

variable {cfg : Config} {S : String → Bool} {P : String} {ids : List String} {c : Context}

/-- The engine ids that a step registers. -/
def Action.registers : Action → List String
  | .registerEngine engineId _ => [engineId]
  | _ => []

/-- The engine ids of the contexts after the steps `as`. -/
def registered (as : List Action) : List String := as.flatMap Action.registers

/-- The context `c` is one of an engine of `S`. -/
def keptContext (S : String → Bool) (ids : List String) (c : Context) : Bool := (ids[c]?).any S

/-- The number of the context `c` if only the engines of `S` register. -/
def rename (S : String → Bool) (ids : List String) (c : Context) : Context := (ids.take c).countP S

/-- The step that is left of a step if only `P` sends inputs and only the engines of `S` exist. -/
def Action.keep (S : String → Bool) (P : String) (ids : List String) : Action → Option Action
  | .connect address => some (.connect address)
  | .disconnect address => some (.disconnect address)
  | .fromClient address msg order raising =>
    if msg.isRegistration ∨ msg.asInput.producerId = P then
      some (.fromClient address msg (order.map (rename S ids)) (raising.map (rename S ids)))
    else none
  | .registerEngine engineId allResponsesRequired =>
    if S engineId then some (.registerEngine engineId allResponsesRequired) else none
  | .fromEngine c msg raises => if keptContext S ids c then some (.fromEngine (rename S ids c) msg raises) else none
  | .disconnectEngine c => if keptContext S ids c then some (.disconnectEngine (rename S ids c)) else none

/-- The run without the inputs of producers other than `P` and without the events of engines outside of `S`. -/
def purge (S : String → Bool) (P : String) (as : List Action) : List Action :=
  Machine.translate (fun past a => a.keep S P (registered past)) [] as

/-- The inputs of `P` only target engines in `S`, those of other producers only engines outside of `S`. -/
def Action.separated (S : String → Bool) (P : String) : Action → Prop
  | .fromClient _ msg _ _ => ∀ id ∈ msg.asInput.targetEngineIds, S id = true ↔ msg.asInput.producerId = P
  | _ => True

instance (S : String → Bool) (P : String) : DecidablePred (Action.separated S P)
  | .fromClient _ msg _ _ => inferInstanceAs (Decidable (∀ id ∈ msg.asInput.targetEngineIds, _))
  | .connect _ | .disconnect _ | .registerEngine _ _ | .fromEngine _ _ _ | .disconnectEngine _ =>
    inferInstanceAs (Decidable True)

theorem registered_concat (as : List Action) (a : Action) : registered (as ++ [a]) = registered as ++ a.registers := by
  simp [registered]

theorem keptContext_lt (h : keptContext S ids c) : c < ids.length := by
  by_contra hge
  rw [keptContext, List.getElem?_eq_none (Nat.le_of_not_lt hge)] at h
  cases h

theorem keptContext_append (id : String) (x : Context) :
    keptContext S (ids ++ [id]) x = (decide (x = ids.length) && S id || keptContext S ids x) := by
  unfold keptContext
  rcases Nat.lt_trichotomy x ids.length with hlt | heq | hgt
  · rw [List.getElem?_append_left hlt]
    simp [Nat.ne_of_lt hlt]
  · subst heq
    simp
  · have hne : x ≠ ids.length := Nat.ne_of_gt hgt
    rw [List.getElem?_eq_none (by simpa using Nat.succ_le_of_lt hgt),
      List.getElem?_eq_none hgt.le]
    simp [hne]

theorem rename_append (id : String) (h : c ≤ ids.length) : rename S (ids ++ [id]) c = rename S ids c := by
  rw [rename, List.take_append_of_le_length h, rename]

/-- The new number of a context that is kept is among those of the contexts that are kept. -/
theorem rename_lt (h : keptContext S ids c) : rename S ids c < (ids.filter S).length := by
  have hlt := keptContext_lt h
  have hS : S ids[c] := by simpa [keptContext, List.getElem?_eq_getElem hlt] using h
  have hsub : (ids.take (c + 1)).countP S ≤ ids.countP S := (List.take_sublist _ _).countP_le
  rw [List.take_succ_eq_append_getElem hlt, List.countP_append, List.countP_singleton, if_pos hS] at hsub
  rw [← List.countP_eq_length_filter]
  exact hsub

/-- A step of the server names contexts as its step of the dispatcher does. -/
theorem step_named {s s' : Server} {a : Action} (h : s.dispatcher.Named ids) (hstep : step cfg s a = some s') :
    s'.dispatcher.Named (ids ++ a.registers) := by
  have hd := step_dispatcher hstep
  cases ha : a.dispatcher cfg s with
  | none =>
    rw [ha] at hd
    have hnone : a.registers = [] := by cases a <;> first | rfl | cases ha
    rw [hnone, List.append_nil]
    exact hd ▸ h
  | some a' =>
    rw [ha] at hd
    have hsame : a'.registers = a.registers := by
      cases a with
      | connect address => cases ha
      | disconnect address => cases ha
      | registerEngine engineId ar => cases ha; rfl
      | fromEngine c msg raises => cases ha; rfl
      | disconnectEngine c => cases ha; rfl
      | fromClient address msg order raising =>
        simp only [Action.dispatcher] at ha
        split at ha
        · cases ha
        · split at ha
          · cases ha; rfl
          · cases ha
    rw [← hsame]
    exact Dispatcher.step_named h hd

/-- The relation between a run that has registered `ids` and its purged run. -/
structure Purged (S : String → Bool) (P : String) (ids : List String) (s t : Server) : Prop where
  slice : Server.Slice S P (keptContext S ids) (rename S ids) s t
  named : t.dispatcher.Named (ids.filter S)

variable {s s' t : Server}

/-- A step that registers no engine, and that the purged run does not take. -/
private theorem Purged.skip {a : Action} (h : Purged S P ids s t) (ha : a.registers = [])
    (hs : Server.Slice S P (keptContext S ids) (rename S ids) s' t) : Purged S P (ids ++ a.registers) s' t := by
  rw [ha, List.append_nil]
  exact ⟨hs, h.named⟩

/-- A step that registers no engine, and that the purged run takes as the step `b`. -/
private theorem Purged.take {a b : Action} {t' : Server} (h : Purged S P ids s t) (ha : a.registers = [])
    (hb : b.registers = []) (hstep : step cfg t b = some t')
    (hs : Server.Slice S P (keptContext S ids) (rename S ids) s' t') :
    ∃ t', step cfg t b = some t' ∧ Purged S P (ids ++ a.registers) s' t' := by
  have hnamed := step_named h.named hstep
  rw [hb, List.append_nil] at hnamed
  rw [ha, List.append_nil]
  exact ⟨t', hstep, hs, hnamed⟩

private theorem Purged.registerEngine (h : Purged S P ids s t) (hwf : s.dispatcher.WellFormed)
    (hlog : ∀ c msg mp, .wrote c msg mp ∈ s.dispatcher.log → c < s.dispatcher.nextContext)
    (hnamed : s.dispatcher.Named ids) {id : String} {ar : Bool}
    (hstep : step cfg s (.registerEngine id ar) = some s') :
    match (Action.registerEngine id ar).keep S P ids with
    | none => Purged S P (ids ++ [id]) s' t
    | some b => b.writesSucceed ∧ ∃ t', step cfg t b = some t' ∧ Purged S P (ids ++ [id]) s' t' := by
  have hstep' := Option.some.inj hstep
  have hK : keptContext S ids s.dispatcher.nextContext = false := by
    rw [hnamed.nextContext, keptContext, List.getElem?_eq_none le_rfl]
    rfl
  have hrename : ∀ {x}, keptContext S ids x → rename S (ids ++ [id]) x = rename S ids x := fun hx =>
    rename_append id (keptContext_lt hx).le
  cases hS : S id with
  | true =>
    simp only [Action.keep, hS, ↓reduceIte]
    have hopen : Server.Slice S P (keptContext S ids) (rename S ids)
        { s with dispatcher := s.dispatcher.openContext } { t with dispatcher := t.dispatcher.openContext } :=
      ⟨h.slice.dispatcher.openContext_own, h.slice.frontend⟩
    have hfresh : ∀ x, keptContext S ids x → rename S ids x ≠ t.dispatcher.nextContext := by
      intro x hx
      rw [h.named.nextContext]
      exact Nat.ne_of_lt (rename_lt hx)
    have hadd := hopen.addEngineWorker_own hwf.openContext hS hK
      hwf.nextContext_not_mem (fun msg mp hw => lt_irrefl _ (hlog _ msg mp hw)) hfresh ar
    rw [hstep'] at hadd
    refine ⟨trivial, _, rfl, ⟨hadd.dispatcher.congr (fun x => ?_) fun x hx => ?_, hadd.frontend⟩, ?_⟩
    · rw [keptContext_append, hnamed.nextContext, hS, Bool.and_true]
    · by_cases hx' : x = s.dispatcher.nextContext
      · rw [if_pos hx', hx', hnamed.nextContext, rename_append id le_rfl, h.named.nextContext, rename,
          List.take_length, List.countP_eq_length_filter]
      · rw [if_neg hx']
        exact hrename (by simpa [hx'] using hx)
    · have hnamed' := step_named (a := .registerEngine id ar) h.named (rfl : step cfg t _ = _)
      rw [List.filter_append, List.filter_singleton, hS]
      exact hnamed'
  | false =>
    simp only [Action.keep, hS, Bool.false_eq_true, ↓reduceIte]
    have hopen : Server.Slice S P (keptContext S ids) (rename S ids)
        { s with dispatcher := s.dispatcher.openContext } t :=
      ⟨h.slice.dispatcher.openContext_other, h.slice.frontend⟩
    have hadd := hopen.addEngineWorker_other hwf.openContext hS hK ar
    rw [hstep'] at hadd
    refine ⟨⟨hadd.dispatcher.congr (fun x => ?_) fun x hx => hrename hx, hadd.frontend⟩, ?_⟩
    · rw [keptContext_append, hS, Bool.and_false, Bool.false_or]
    · rw [List.filter_append, List.filter_singleton, hS, cond_false, List.append_nil]
      exact h.named

/-- A step of the run is the step that is kept of it, or no step of the purged run. -/
theorem step_purged {a : Action} (h : Purged S P ids s t) (hwf : s.dispatcher.WellFormed)
    (hlog : ∀ c msg mp, .wrote c msg mp ∈ s.dispatcher.log → c < s.dispatcher.nextContext)
    (hnamed : s.dispatcher.Named ids) (hw : a.writesSucceed) (hsep : a.separated S P)
    (hstep : step cfg s a = some s') :
    match a.keep S P ids with
    | none => Purged S P (ids ++ a.registers) s' t
    | some b => b.writesSucceed ∧ ∃ t', step cfg t b = some t' ∧ Purged S P (ids ++ a.registers) s' t' := by
  cases a with
  | connect address =>
    have hs := h.slice.frontend.addClient_own address
    exact ⟨trivial, h.take rfl rfl rfl (Option.some.inj hstep ▸ ⟨h.slice.dispatcher, hs⟩)⟩
  | disconnect address =>
    have hs := h.slice.frontend.removeClient_own address
    exact ⟨trivial, h.take rfl rfl rfl (Option.some.inj hstep ▸ ⟨h.slice.dispatcher, hs⟩)⟩
  | registerEngine id ar => exact h.registerEngine hwf hlog hnamed hstep
  | fromClient address msg order raising =>
    obtain rfl : raising = [] := hw
    simp only [step] at hstep
    cases hget : s.frontend.clients.get? address with
    | none =>
      rw [hget] at hstep
      cases hstep
    | some ref =>
      rw [hget] at hstep
      have hget' : t.frontend.clients.get? address = some ref := h.slice.frontend.clients ▸ hget
      by_cases hkeep : msg.isRegistration = true ∨ msg.asInput.producerId = P
      · simp only [Action.keep, hkeep, ↓reduceIte, List.map_nil]
        obtain ⟨t', ht', hs⟩ := h.slice.handleFromClient_own
          (hkeep.imp_right fun hp => ⟨hp, fun id hid => (hsep id hid).2 hp⟩) hstep
        exact ⟨rfl, h.take rfl rfl (by simpa only [step, hget'] using ht') hs⟩
      · simp only [Action.keep, hkeep, ↓reduceIte]
        obtain ⟨hreg, hp⟩ := not_or.1 hkeep
        refine h.skip rfl (h.slice.handleFromClient_other (by simpa using hreg) hp (fun id hid => ?_) hstep)
        exact Bool.eq_false_iff.2 fun hS => hp ((hsep id hid).1 hS)
  | fromEngine c msg raises =>
    obtain rfl : raises = false := hw
    simp only [step] at hstep
    split at hstep
    · cases hstep
      cases hc : keptContext S ids c with
      | true =>
        simp only [Action.keep, hc, ↓reduceIte]
        have hlt : rename S ids c < t.dispatcher.nextContext := h.named.nextContext ▸ rename_lt hc
        exact ⟨rfl, h.take rfl rfl (by simp only [step, hlt, ↓reduceIte]) (h.slice.handleFromEngine_own hc msg)⟩
      | false =>
        simp only [Action.keep, hc, Bool.false_eq_true, ↓reduceIte]
        exact h.skip rfl (h.slice.handleFromEngine_other hwf hc msg)
    · cases hstep
  | disconnectEngine c =>
    simp only [step] at hstep
    split at hstep
    · rename_i hmem
      cases hstep
      cases hc : keptContext S ids c with
      | true =>
        simp only [Action.keep, hc, ↓reduceIte]
        have hmem' := (h.slice.dispatcher.mem_engineWorkers hc).2 hmem
        exact ⟨trivial, h.take rfl rfl (by simp only [step, hmem', ↓reduceIte])
          (h.slice.removeEngineWorker_own hwf hc hmem)⟩
      | false =>
        simp only [Action.keep, hc, Bool.false_eq_true, ↓reduceIte]
        exact h.skip rfl (h.slice.removeEngineWorker_other hwf hc hmem)
    · cases hstep

private theorem run_named {G : Server → Action → Prop} {as : List Action} (h : (machine cfg).RunWhere G as s) :
    s.dispatcher.Named (registered as) := by
  induction h with
  | init => exact ⟨rfl, by simp [registered]⟩
  | step hrun hG hstep ih =>
    rw [registered_concat]
    exact step_named ih hstep

private theorem written_lt {G : Server → Action → Prop} (hG : ∀ s a, G s a → a.writesSucceed) {as : List Action}
    (h : (machine cfg).RunWhere G as s) {msg : ToEngine} {mp : MetadataPayload}
    (hw : .wrote c msg mp ∈ s.dispatcher.log) : c < s.dispatcher.nextContext := by
  obtain ⟨as', hrun⟩ := run_dispatcher (H := fun _ a => a.writesSucceed)
    (fun s a a' ha => writesSucceed_dispatcher (hG s a ha)) h
  have hmem := DispatchLog.mem_writtenTo.2 ⟨msg, hw⟩
  exact (Dispatcher.run_delivered hrun).written.context_lt c (List.ne_nil_of_mem hmem)

/-- In the order of the log, the frames for engines of `S` are the same on the two sides of a slice. -/
theorem Purged.framesFor (h : Purged S P ids s t) (hnamed : s.dispatcher.Named ids)
    (hlog : ∀ c msg mp, .wrote c msg mp ∈ s.dispatcher.log → c < s.dispatcher.nextContext) :
    t.dispatcher.framesFor S = s.dispatcher.framesFor S := by
  have hslice := h.slice.dispatcher
  let engine : Context × ToEngine × Metadata → Option (String × ToEngine) := fun x =>
    if S (t.dispatcher.workers x.1).engineId then some ((t.dispatcher.workers x.1).engineId, x.2.1) else none
  calc t.dispatcher.framesFor S
      = (t.dispatcher.framesOf (fun _ => true) id).filterMap engine := by
        rw [Dispatcher.framesFor, Dispatcher.framesOf, List.filterMap_filterMap]
        refine List.filterMap_congr fun e he => ?_
        cases e <;> rfl
    _ = (s.dispatcher.framesOf (keptContext S ids) (rename S ids)).filterMap engine := by rw [hslice.frames]
    _ = s.dispatcher.framesFor S := by
        rw [Dispatcher.framesFor, Dispatcher.framesOf, List.filterMap_filterMap]
        refine List.filterMap_congr fun e he => ?_
        cases e <;> try rfl
        rename_i c msg mp
        have hlt : c < ids.length := hnamed.nextContext ▸ hlog c msg mp he
        have hid := hnamed.engineId c ids[c] (List.getElem?_eq_getElem hlt)
        have hkept : keptContext S ids c = S (s.dispatcher.workers c).engineId := by
          rw [hid, keptContext, List.getElem?_eq_getElem hlt]
          rfl
        cases hc : keptContext S ids c with
        | false => simp [DispatchEvent.frameTo, hc, ← hkept]
        | true => simp [DispatchEvent.frameTo, hc, ← hkept, engine, hslice.workers c hc]

/-- If the inputs of `P` only target engines of `S` and the inputs of the other producers only engines outside of `S`,
then the frames written to the engines of `S`, the results sent for `P` and the tokens of `P` are those of the run
without the other producers and engines. -/
theorem producers_do_not_interfere {as : List Action}
    (h : (machine cfg).RunWhere (fun _ a => a.writesSucceed ∧ a.separated S P) as s) :
    ∃ t, (machine cfg).RunWhere (fun _ a => a.writesSucceed) (purge S P as) t ∧
      t.dispatcher.framesFor S = s.dispatcher.framesFor S ∧
      t.frontend.issuedFor P = s.frontend.issuedFor P ∧
      ∀ ref, (t.frontend.clientObjs ref).tokensForProducer P = (s.frontend.clientObjs ref).tokensForProducer P := by
  have hinit : Purged S P (registered []) {} {} := by
    refine ⟨⟨⟨?_, ?_, rfl, ?_, rfl, rfl, ?_, ?_, ?_, rfl⟩, ⟨rfl, rfl, fun _ => rfl, fun _ => rfl, rfl⟩⟩, rfl, ?_⟩
    all_goals simp [registered, keptContext, Dispatcher.producer]
    exact ⟨by simp, by simp, rfl, rfl, rfl⟩
  obtain ⟨t, hrun, hpurged⟩ := h.translate (N := machine cfg) (H := fun _ b => b.writesSucceed)
    (R := fun as s t => Purged S P (registered as) s t) (fun past a => a.keep S P (registered past)) hinit
    fun as s a s' t hrun hR hG hstep => by
      obtain ⟨as', hrun'⟩ := run_dispatcher (H := fun _ _ => True) (fun _ _ _ _ _ => trivial) hrun
      have hkeep := step_purged hR (Dispatcher.run_wellFormed hrun')
        (fun c msg mp => written_lt (fun _ _ hG => hG.1) hrun) (run_named hrun) hG.1 hG.2 hstep
      rw [registered_concat]
      cases hb : a.keep S P (registered as) with
      | none => rw [hb] at hkeep; exact hkeep
      | some b => rw [hb] at hkeep; exact hkeep
  exact ⟨t, hrun, hpurged.framesFor (run_named h) (fun c msg mp => written_lt (fun _ _ hG => hG.1) h),
    hpurged.slice.frontend.issued, hpurged.slice.frontend.tokens⟩

/-- One client sends frames of `P` to the engine `A` and frames of `Q` to the engine `B`, which registers first.  The
engine `A` gets a frame and answers it; without `Q` and `B` it is the first engine. -/
theorem producers_do_not_interfere_of_two_producers :
    ∃ as s t, (machine { numTokensPerProducer := 2, sizeForQueues := 2 }).RunWhere
        (fun _ a => a.writesSucceed ∧ a.separated (· == "A") "P") as s ∧
      (machine { numTokensPerProducer := 2, sizeForQueues := 2 }).RunWhere (fun _ a => a.writesSucceed)
        (purge (· == "A") "P" as) t ∧
      (purge (· == "A") "P" as).length < as.length ∧ (s.dispatcher.framesFor (· == "A")).length = 1 ∧
      (s.frontend.issuedFor "P").length = 1 ∧
      t.dispatcher.framesFor (· == "A") = s.dispatcher.framesFor (· == "A") ∧
      t.frontend.issuedFor "P" = s.frontend.issuedFor "P" ∧
      ∀ ref, (t.frontend.clientObjs ref).tokensForProducer "P" =
        (s.frontend.clientObjs ref).tokensForProducer "P" := by
  obtain ⟨s, hrun, hframes, hissued⟩ := Machine.exists_runWhere
    (M := machine { numTokensPerProducer := 2, sizeForQueues := 2 })
    (G := fun _ a => a.writesSucceed ∧ a.separated (· == "A") "P")
    (g := fun _ a => decide (a.writesSucceed ∧ a.separated (· == "A") "P")) (fun _ _ h => of_decide_eq_true h)
    (fun s => (s.dispatcher.framesFor (· == "A")).length = 1 ∧ (s.frontend.issuedFor "P").length = 1)
    [.registerEngine "B" false, .connect "client", .registerEngine "A" false,
      .fromClient "client" (.registration {}) [] [],
      .fromClient "client" (.input { frameId := 1, producerId := "Q", targetEngineIds := ["B"] }) [0] [],
      .fromClient "client" (.input { frameId := 1, producerId := "P", targetEngineIds := ["A"] }) [1] [],
      .fromEngine 1 (.result {}) false, .fromEngine 0 (.result {}) false] (by decide)
  obtain ⟨t, hrun', hsame⟩ := producers_do_not_interfere hrun
  exact ⟨_, s, t, hrun, hrun', by decide, hframes, hissued, hsame⟩

end Atomic

end Gabriel
