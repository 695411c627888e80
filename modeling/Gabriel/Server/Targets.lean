import Gabriel.Server.Contexts

/-!
# Engines and the inputs addressed to them

An engine gets inputs of the producers in its deque.  A producer stays in the deque when later inputs are addressed to
other engines, so an engine can be given inputs that are not addressed to it.  That does not happen as long as each
input is addressed to all engines that still have its producer in their deque, and the engines it adds are addressed
by the inputs of the producer that are still waiting.
-/

namespace Gabriel

/-- The engine ids that an input is addressed to. -/
abbrev MetadataPayload.targetEngineIds (mp : MetadataPayload) : List String := mp.metadata.targetEngineIds

namespace Dispatcher

variable {d d' : Dispatcher} {I I' : MetadataPayload → List Context → Prop} {live live' : Context → Prop}
  {c : Context} {p : String} {mp : MetadataPayload}

/-! ### The invariant

`I mp rest` are the inputs being dispatched with the targets still to come, and `live` the contexts whose sessions can
still feed their engine. -/

/-- The worker `c` has the producer `p` in its deque, or will have. -/
def Serves (d : Dispatcher) (I : MetadataPayload → List Context → Prop) (c : Context) (p : String) : Prop :=
  p ∈ (d.workers c).producers ∨ ∃ mp rest, I mp rest ∧ mp.producerId = p ∧ c ∈ rest

/-- The input is in the queue of `p` or may get there. -/
def Holds (d : Dispatcher) (I : MetadataPayload → List Context → Prop) (p : String) (mp : MetadataPayload) : Prop :=
  mp ∈ (d.producer p).inputQueue ∨ mp.producerId = p ∧ ∃ rest, I mp rest

/-- No engine has been given, or can be given, an input that is not addressed to it. -/
structure Addressed (d : Dispatcher) (I : MetadataPayload → List Context → Prop) (live : Context → Prop) : Prop where
  queue_named : ∀ {p mp}, mp ∈ (d.producer p).inputQueue → mp.producerId = p
  latest_named : ∀ {p mp}, (d.producer p).latestInputSentToEngine = some mp → mp.producerId = p
  targets : ∀ {mp rest c}, I mp rest → c ∈ rest → (d.workers c).engineId ∈ mp.targetEngineIds
  held : ∀ {c p mp}, live c → d.Serves I c p → d.Holds I p mp → (d.workers c).engineId ∈ mp.targetEngineIds
  /-- An in-flight frame that is not addressed to the engine is not newer than what the engine was sent. -/
  latest : ∀ {c p mp}, live c → d.Serves I c p → (d.producer p).latestInputSentToEngine = some mp →
    (d.workers c).engineId ∈ mp.targetEngineIds ∨
      ∀ m, (d.workers c).latestInputProcessed p = some m → mp.metadata.frameId ≤ m.frameId
  /-- The same for an engine that is about to be sent `mp₀`. -/
  ahead : ∀ {mp₀ rest c mp}, live c → I mp₀ rest → c ∈ rest →
    (d.producer mp₀.producerId).latestInputSentToEngine = some mp →
    (d.workers c).engineId ∈ mp.targetEngineIds ∨ mp.metadata.frameId ≤ mp₀.metadata.frameId
  processed : ∀ {c p}, (d.workers c).latestInputProcessed p ≠ none → p ∈ (d.workers c).producers
  written : ∀ {c msg mp}, .wrote c msg mp ∈ d.log → (d.workers c).engineId ∈ mp.targetEngineIds

theorem Serves.mono (hI : ∀ mp rest, I' mp rest → I mp rest) (h : d.Serves I' c p) : d.Serves I c p :=
  h.imp_right fun ⟨mp, rest, hi, h⟩ => ⟨mp, rest, hI mp rest hi, h⟩

theorem Holds.mono (hI : ∀ mp rest, I' mp rest → I mp rest) (h : d.Holds I' p mp) : d.Holds I p mp :=
  h.imp_right fun ⟨hp, rest, hi⟩ => ⟨hp, rest, hI mp rest hi⟩

namespace Addressed

/-- Fewer inputs are being dispatched, and fewer sessions are live. -/
theorem mono (h : d.Addressed I live) (hI : ∀ mp rest, I' mp rest → I mp rest) (hlive : ∀ c, live' c → live c) :
    d.Addressed I' live' where
  queue_named := h.queue_named
  latest_named := h.latest_named
  targets hi := h.targets (hI _ _ hi)
  held hl hs hh := h.held (hlive _ hl) (hs.mono hI) (hh.mono hI)
  latest hl hs := h.latest (hlive _ hl) (hs.mono hI)
  ahead hl hi := h.ahead (hlive _ hl) (hI _ _ hi)
  processed := h.processed
  written := h.written

/-- Operations on nothing that matters here. -/
theorem of_eq {l : List DispatchEvent} (h : d.Addressed I live) (hlog : d'.log = d.log ++ l)
    (hl : ∀ c msg mp, .wrote c msg mp ∉ l)
    (hid : ∀ c, (d'.workers c).engineId = (d.workers c).engineId)
    (hprod : ∀ c p, p ∈ (d'.workers c).producers ↔ p ∈ (d.workers c).producers)
    (hlast : ∀ c, (d'.workers c).latestInputProcessed = (d.workers c).latestInputProcessed)
    (hq : ∀ p, (d'.producer p).inputQueue = (d.producer p).inputQueue)
    (hlatest : ∀ p, (d'.producer p).latestInputSentToEngine = (d.producer p).latestInputSentToEngine) :
    d'.Addressed I live := by
  have hserves : ∀ {c p}, d'.Serves I c p → d.Serves I c p := fun hs => hs.imp_left (hprod _ _).1
  refine ⟨fun hm => h.queue_named (hq _ ▸ hm), fun hm => h.latest_named (hlatest _ ▸ hm), fun hi hc => ?_,
    fun hlv hs hh => ?_, fun hlv hs hm => ?_, fun hlv hi hc hm => ?_, fun hm => ?_, fun hw => ?_⟩
  · rw [hid]; exact h.targets hi hc
  · rw [hid]; exact h.held hlv (hserves hs) (hh.imp_left fun hm => hq _ ▸ hm)
  · rw [hid, hlast]; exact h.latest hlv (hserves hs) (hlatest _ ▸ hm)
  · rw [hid]; exact h.ahead hlv hi hc (hlatest _ ▸ hm)
  · rw [hprod]; exact h.processed (hlast _ ▸ hm)
  · rw [hid]
    rw [hlog, List.mem_append] at hw
    exact h.written (hw.resolve_right (hl _ _ _))

theorem sendPayload {b : Bool} (h : d.Addressed I live) (hp : mp.producerId ∈ (d.workers c).producers)
    (hid : (d.workers c).engineId ∈ mp.targetEngineIds)
    (hlatest : live c → ∀ mp', (d.producer mp.producerId).latestInputSentToEngine = some mp' →
      (d.workers c).engineId ∈ mp'.targetEngineIds ∨ mp'.metadata.frameId ≤ mp.metadata.frameId) :
    (d.sendPayload c mp b).Addressed I live := by
  have hsame : ∀ c', ((d.sendPayload c mp b).workers c').engineId = (d.workers c').engineId ∧
      ((d.sendPayload c mp b).workers c').producers = (d.workers c').producers := by
    intro c'
    by_cases hc : c' = c
    · subst hc; simp
    · simp [hc]
  have hserves : ∀ {c' p}, (d.sendPayload c mp b).Serves I c' p → d.Serves I c' p := fun hs =>
    hs.imp_left fun hm => (hsame _).2 ▸ hm
  refine ⟨fun hm => h.queue_named (by simpa using hm), fun hm => h.latest_named (by simpa using hm),
    fun hi hc => ?_, fun hlv hs hh => ?_, fun {c' p' mp'} hlv hs hm => ?_, fun hlv hi hc hm => ?_,
    fun {c' p'} hm => ?_, fun hw => ?_⟩
  · rw [(hsame _).1]; exact h.targets hi hc
  · rw [(hsame _).1]; exact h.held hlv (hserves hs) (by simpa [Holds] using hh)
  · rw [(hsame _).1]
    simp only [sendPayload_producer] at hm
    by_cases hc : c' = c ∧ p' = mp.producerId
    · obtain ⟨rfl, rfl⟩ := hc
      refine (hlatest hlv _ hm).imp_right fun hle m hm => ?_
      simp at hm
      exact hm ▸ hle
    · have hlast : ((d.sendPayload c mp b).workers c').latestInputProcessed p' =
          (d.workers c').latestInputProcessed p' := by
        by_cases hc' : c' = c
        · subst hc'
          have hp' : p' ≠ mp.producerId := fun he => hc ⟨rfl, he⟩
          simp [hp']
        · simp [hc']
      rw [hlast]
      exact h.latest hlv (hserves hs) hm
  · rw [(hsame _).1]; exact h.ahead hlv hi hc (by simpa using hm)
  · rw [(hsame _).2]
    by_cases hc : c' = c
    · subst hc
      by_cases hp' : p' = mp.producerId
      · exact hp' ▸ hp
      · exact h.processed (by simpa [hp'] using hm)
    · exact h.processed (by simpa [hc] using hm)
  · rw [(hsame _).1]
    rw [sendPayload_log, List.mem_append] at hw
    rcases hw with hw | hw
    · exact h.written hw
    · cases b <;> simp at hw
      obtain ⟨rfl, -, rfl⟩ := hw
      exact hid

theorem dequeue {rest : List MetadataPayload} (h : d.Addressed I live)
    (hq : (d.producer p).inputQueue = mp :: rest) : (d.dequeue p mp rest).Addressed I live := by
  have hmem : mp ∈ (d.producer p).inputQueue := by rw [hq]; exact List.mem_cons_self ..
  have hqueue : ∀ {q mp'}, mp' ∈ ((d.dequeue p mp rest).producer q).inputQueue → mp' ∈ (d.producer q).inputQueue := by
    intro q mp' hm
    rw [dequeue_inputQueue] at hm
    split at hm
    · subst_vars; rw [hq]; exact List.mem_cons_of_mem _ hm
    · exact hm
  refine ⟨fun hm => h.queue_named (hqueue hm), fun hm => ?_, h.targets,
    fun hlv hs hh => h.held hlv hs (hh.imp_left hqueue), fun hlv hs hm => ?_, fun hlv hi hc hm => ?_, h.processed,
    fun hw => h.written (by simpa using hw)⟩
  · rw [dequeue_latestInputSentToEngine] at hm
    split at hm
    · subst_vars; cases hm; exact h.queue_named hmem
    · exact h.latest_named hm
  · rw [dequeue_latestInputSentToEngine] at hm
    split at hm
    · subst_vars; cases hm; exact Or.inl (h.held hlv hs (Or.inl hmem))
    · exact h.latest hlv hs hm
  · rw [dequeue_latestInputSentToEngine] at hm
    split at hm
    · rename_i hp
      cases hm
      exact Or.inl (h.held hlv (Or.inr ⟨_, _, hi, hp, hc⟩) (Or.inl hmem))
    · exact h.ahead hlv hi hc hm

theorem rotate (h : d.Addressed I live) (k : Nat) : (d.modifyWorker c (·.rotateProducers k)).Addressed I live :=
  h.of_eq (l := []) (by simp) (by simp) (fun c' => by by_cases hc : c' = c <;> simp [hc])
    (fun c' p => by by_cases hc : c' = c <;> simp [hc]) (fun c' => by by_cases hc : c' = c <;> simp [hc])
    (by simp) (by simp)

/-- `send_next_input` of a live session. -/
theorem nextSent {b : Bool} {r : Dispatcher × Bool} (h : d.Addressed I live) (hlive : live c)
    (hr : NextSent d c b r) : r.1.Addressed I live := by
  cases hr with
  | none k =>
    exact (h.rotate (c := c) k).of_eq (l := []) (by simp) (by simp) (fun c' => by by_cases hc : c' = c <;> simp [hc])
      (fun c' p => by by_cases hc : c' = c <;> simp [hc]) (fun c' => by by_cases hc : c' = c <;> simp [hc])
      (by simp) (by simp)
  | @dequeued k p mp rest hp hpend hq =>
    have hname : mp.producerId = p := h.queue_named (by simp [hq])
    have hid := h.held hlive (Or.inl hp) (Or.inl (by rw [hq]; exact List.mem_cons_self ..))
    refine ((h.rotate (c := c) k).dequeue hq).sendPayload (by simpa [hname] using hp) (by simpa using hid)
      fun _ mp' hm => Or.inl ?_
    simp [hname] at hm
    simpa [← hm] using hid
  | @pickedUp k p mp m hp _ hlatest hprev hlt =>
    have hname := h.latest_named hlatest
    have hid := (h.latest hlive (Or.inl hp) hlatest).resolve_right fun hle => Int.not_lt.2 (hle m hprev) hlt
    refine (h.rotate (c := c) k).sendPayload (by simpa [hname] using hp) (by simpa using hid)
      fun _ mp' hm => Or.inl ?_
    simp [hname, hlatest] at hm
    simpa [← hm] using hid

/-! ### The dispatch loop -/

theorem beginInput (h : d.Addressed I live) (p : String) (ts : List Context) :
    (d.beginInput p ts).Addressed I live :=
  h.of_eq (l := []) (by simp) (by simp) (by simp) (by simp) (by simp) (by simp) (by simp)

/-- The inputs being dispatched, and `mp` with the targets `rest`. -/
def withInput (I : MetadataPayload → List Context → Prop) (mp : MetadataPayload) (rest : List Context) :
    MetadataPayload → List Context → Prop :=
  fun mp' rest' => I mp' rest' ∨ mp' = mp ∧ rest' = rest

theorem addProducers {cs : List Context} (h : d.Addressed I live) (hcs : ∀ c ∈ cs, d.Serves I c p) :
    (d.addProducers cs p).Addressed I live := by
  have hserves : ∀ {c q}, (d.addProducers cs p).Serves I c q → d.Serves I c q := by
    rintro c q (hm | hi)
    · rw [mem_addProducers_producers] at hm
      rcases hm with hm | ⟨hc, rfl⟩
      · exact Or.inl hm
      · exact hcs c hc
    · exact Or.inr hi
  refine ⟨fun hm => h.queue_named (by simpa using hm), fun hm => h.latest_named (by simpa using hm),
    fun hi hc => ?_, fun hlv hs hh => ?_, fun hlv hs hm => ?_, fun hlv hi hc hm => ?_, fun hm => ?_, fun hw => ?_⟩
  · simpa using h.targets hi hc
  · simpa using h.held hlv (hserves hs) (by simpa [Holds] using hh)
  · simpa using h.latest hlv (hserves hs) (by simpa using hm)
  · simpa using h.ahead hlv hi hc (by simpa using hm)
  · simpa using Or.inl (h.processed (by simpa using hm))
  · simpa using h.written (by simpa using hw)

/-- The dispatch loop of `mp` goes on to the targets `rest`. -/
theorem goOn {order rest : List Context} (h : d.Addressed I live) (hi : I mp order) (hrest : ∀ c ∈ rest, c ∈ order) :
    d.Addressed (withInput I mp rest) live := by
  have hserves : ∀ {c p}, d.Serves (withInput I mp rest) c p → d.Serves I c p := by
    rintro c p (hm | ⟨mp', rest', hi' | ⟨rfl, rfl⟩, hp, hc⟩)
    · exact Or.inl hm
    · exact Or.inr ⟨mp', rest', hi', hp, hc⟩
    · exact Or.inr ⟨mp', order, hi, hp, hrest c hc⟩
  have hholds : ∀ {p mp'}, d.Holds (withInput I mp rest) p mp' → d.Holds I p mp' := by
    rintro p mp' (hm | ⟨hp, rest', hi' | ⟨rfl, rfl⟩⟩)
    · exact Or.inl hm
    · exact Or.inr ⟨hp, rest', hi'⟩
    · exact Or.inr ⟨hp, order, hi⟩
  refine ⟨h.queue_named, h.latest_named, ?_, fun hlv hs hh => h.held hlv (hserves hs) (hholds hh),
    fun hlv hs => h.latest hlv (hserves hs), ?_, h.processed, h.written⟩
  · rintro mp' rest' c (hi' | ⟨rfl, rfl⟩) hc
    · exact h.targets hi' hc
    · exact h.targets hi (hrest c hc)
  · rintro mp' rest' c mp'' hlv (hi' | ⟨rfl, rfl⟩) hc
    · exact h.ahead hlv hi' hc
    · exact h.ahead hlv hi (hrest c hc)

theorem dispatched {b : Bool} {order : List Context} {r : Dispatcher × Option (List Context)}
    (h : d.Addressed I live) (hi : I mp order) (hr : Dispatched d mp b order r) :
    r.1.Addressed (withInput I mp (r.2.getD [])) live := by
  have hserve : ∀ c ∈ order, d.Serves I c mp.producerId := fun c hc => Or.inr ⟨mp, order, hi, rfl, hc⟩
  cases hr with
  | busy => exact (h.addProducers hserve).goOn hi (by simp)
  | @wrote c busy rest _ _ =>
    have hc : c ∈ busy ++ c :: rest := by simp
    have hadd : (d.addProducers (busy ++ [c]) mp.producerId).Addressed I live :=
      h.addProducers fun c' hc' => hserve c' (by
        simp only [List.mem_append, List.mem_cons, List.not_mem_nil, or_false] at hc' ⊢
        exact hc'.imp_right Or.inl)
    refine (hadd.sendPayload (by simp) (by simpa using h.targets hi hc) fun hlv mp' hm => ?_).goOn hi
      fun c' hc' => by simp [show c' ∈ rest from hc']
    simpa using h.ahead hlv hi hc (by simpa using hm)

theorem enqueue {rest : List Context} (h : d.Addressed I live) (hi : I mp rest) :
    ((d.enqueue mp).emit (.accepted mp)).Addressed I live := by
  have hqueue : ∀ {q mp'}, mp' ∈ (((d.enqueue mp).emit (.accepted mp)).producer q).inputQueue →
      mp' ∈ (d.producer q).inputQueue ∨ mp' = mp ∧ mp.producerId = q := by
    intro q mp' hm
    rw [emit_producer, enqueue_inputQueue] at hm
    split at hm
    · subst_vars; simpa using hm
    · exact Or.inl hm
  refine ⟨fun hm => ?_, fun hm => h.latest_named (by simpa using hm), h.targets, fun hlv hs hh => ?_,
    fun hlv hs hm => h.latest hlv hs (by simpa using hm), fun hlv hi' hc hm => h.ahead hlv hi' hc (by simpa using hm),
    h.processed, fun hw => h.written (by simpa using hw)⟩
  · rcases hqueue hm with hm | ⟨rfl, hq⟩
    · exact h.queue_named hm
    · exact hq
  · rcases hh with hm | hm
    · rcases hqueue hm with hm | ⟨rfl, hq⟩
      · exact h.held hlv hs (Or.inl hm)
      · exact h.held hlv hs (Or.inr ⟨hq, rest, hi⟩)
    · exact h.held hlv hs (Or.inr hm)

theorem setInFlight {rest : List Context} (h : d.Addressed I live) (hi : I mp rest) :
    ((d.setInFlight mp).emit (.accepted mp)).Addressed I live := by
  have hlatest : ∀ {q mp'}, (((d.setInFlight mp).emit (.accepted mp)).producer q).latestInputSentToEngine = some mp' →
      (d.producer q).latestInputSentToEngine = some mp' ∨ mp' = mp ∧ mp.producerId = q := by
    intro q mp' hm
    rw [emit_producer, setInFlight_latestInputSentToEngine] at hm
    split at hm
    · subst_vars; cases hm; exact Or.inr ⟨rfl, rfl⟩
    · exact Or.inl hm
  refine ⟨fun hm => h.queue_named (by simpa using hm), fun hm => ?_, h.targets,
    fun hlv hs hh => h.held hlv hs (by simpa [Holds] using hh), fun hlv hs hm => ?_, fun hlv hi' hc hm => ?_,
    h.processed, fun hw => h.written (by simpa using hw)⟩
  · rcases hlatest hm with hm | ⟨rfl, hq⟩
    · exact h.latest_named hm
    · exact hq
  · rcases hlatest hm with hm | ⟨rfl, hq⟩
    · exact h.latest hlv hs hm
    · exact Or.inl (h.held hlv hs (Or.inr ⟨hq, rest, hi⟩))
  · rcases hlatest hm with hm | ⟨rfl, hq⟩
    · exact h.ahead hlv hi' hc hm
    · exact Or.inl (h.held hlv (Or.inr ⟨_, _, hi', rfl, hc⟩) (Or.inr ⟨hq, rest, hi⟩))

/-- A new input is taken up.  It is addressed to the engines that serve its producer, and the engines it is given to
are addressed by the inputs of the producer that wait, and by the in-flight one unless that is older. -/
theorem takeUp {order : List Context} (h : d.Addressed I live)
    (horder : ∀ c ∈ order, (d.workers c).engineId ∈ mp.targetEngineIds)
    (hserving : ∀ c, live c → d.Serves I c mp.producerId → (d.workers c).engineId ∈ mp.targetEngineIds)
    (hheld : ∀ c ∈ order, ∀ mp', d.Holds I mp.producerId mp' → (d.workers c).engineId ∈ mp'.targetEngineIds)
    (hlatest : ∀ c ∈ order, ∀ mp', (d.producer mp.producerId).latestInputSentToEngine = some mp' →
      (d.workers c).engineId ∈ mp'.targetEngineIds ∨ mp'.metadata.frameId ≤ mp.metadata.frameId) :
    d.Addressed (withInput I mp order) live := by
  have hserves : ∀ {c p}, d.Serves (withInput I mp order) c p →
      d.Serves I c p ∨ mp.producerId = p ∧ c ∈ order := by
    rintro c p (hm | ⟨mp', rest', hi' | ⟨rfl, rfl⟩, hp, hc⟩)
    · exact Or.inl (Or.inl hm)
    · exact Or.inl (Or.inr ⟨mp', rest', hi', hp, hc⟩)
    · exact Or.inr ⟨hp, hc⟩
  have hholds : ∀ {p mp'}, d.Holds (withInput I mp order) p mp' → d.Holds I p mp' ∨ mp' = mp ∧ mp.producerId = p := by
    rintro p mp' (hm | ⟨hp, rest', hi' | ⟨rfl, rfl⟩⟩)
    · exact Or.inl (Or.inl hm)
    · exact Or.inl (Or.inr ⟨hp, rest', hi'⟩)
    · exact Or.inr ⟨rfl, hp⟩
  refine ⟨h.queue_named, h.latest_named, ?_, fun {c p mp'} hlv hs hh => ?_, fun {c p mp'} hlv hs hm => ?_, ?_,
    h.processed, h.written⟩
  · rintro mp' rest' c (hi' | ⟨rfl, rfl⟩) hc
    · exact h.targets hi' hc
    · exact horder c hc
  · rcases hholds hh with hh | ⟨rfl, rfl⟩ <;> rcases hserves hs with hs | ⟨hp, hc⟩
    · exact h.held hlv hs hh
    · exact hheld c hc mp' (hp ▸ hh)
    · exact hserving c hlv hs
    · exact horder c hc
  · rcases hserves hs with hs | ⟨rfl, hc⟩
    · exact h.latest hlv hs hm
    · refine (hlatest c hc mp' hm).elim Or.inl fun _ => ?_
      -- an engine that was sent an input of the producer before serves it already
      by_cases hlast : (d.workers c).latestInputProcessed mp.producerId = none
      · exact Or.inr fun m hm => by rw [hlast] at hm; cases hm
      · exact h.latest hlv (Or.inl (h.processed hlast)) hm
  · rintro mp' rest' c mp'' hlv (hi' | ⟨rfl, rfl⟩) hc hm
    · exact h.ahead hlv hi' hc hm
    · exact hlatest c hc mp'' hm

/-- A worker that was not used before is inserted. -/
theorem insertWorker {id : String} {ar : Bool} (h : d.Addressed I live) (hI : ∀ mp rest, I mp rest → c ∉ rest)
    (hw : ∀ msg mp, .wrote c msg mp ∉ d.log) (hlive : ∀ c', live' c' → live c' ∨ c' = c) :
    (d.insertWorker c id ar).Addressed I live' := by
  have hserves : ∀ {c' p}, (d.insertWorker c id ar).Serves I c' p → c' ≠ c ∧ d.Serves I c' p := by
    rintro c' p (hm | ⟨mp, rest, hi, hp, hc⟩)
    · have hne : c' ≠ c := by rintro rfl; simp at hm
      exact ⟨hne, Or.inl (by simpa [hne] using hm)⟩
    · exact ⟨fun he => hI mp rest hi (he ▸ hc), Or.inr ⟨mp, rest, hi, hp, hc⟩⟩
  refine ⟨h.queue_named, h.latest_named, fun {mp rest c'} hi hc => ?_, fun {c' p mp} hlv hs hh => ?_,
    fun {c' p mp} hlv hs hm => ?_, fun {mp₀ rest c' mp} hlv hi hc hm => ?_, fun {c' p} hm => ?_,
    fun {c' msg mp} hm => ?_⟩
  · have hne : c' ≠ c := fun he => hI mp rest hi (he ▸ hc)
    simpa [hne] using h.targets hi hc
  · obtain ⟨hne, hs⟩ := hserves hs
    simpa [hne] using h.held ((hlive c' hlv).resolve_right hne) hs hh
  · obtain ⟨hne, hs⟩ := hserves hs
    simpa [hne] using h.latest ((hlive c' hlv).resolve_right hne) hs hm
  · have hne : c' ≠ c := fun he => hI mp₀ rest hi (he ▸ hc)
    simpa [hne] using h.ahead ((hlive c' hlv).resolve_right hne) hi hc hm
  · have hne : c' ≠ c := by rintro rfl; simp at hm
    simpa [hne] using h.processed (by simpa [hne] using hm)
  · have hne : c' ≠ c := by rintro rfl; exact hw msg mp hm
    simpa [hne] using h.written hm

end Addressed

end Dispatcher

namespace Interleaved

open Dispatcher DispatchLog

variable {cfg : Config} {s s' : Server} {sys sys' : Sys} {act : Action} {c : Context} {pc pc' : SessionPc}

/-! ### The system -/

/-- The session can still feed its engine. -/
def SessionPc.live : SessionPc → Bool
  | .connected | .takeover _ _ _ _ | .finished _ => false
  | _ => true

theorem SessionPc.live_iff : pc.live = true ↔ ¬ pc.registering ∧ ∀ err, pc ≠ .finished err := by
  cases pc <;> simp [SessionPc.live, SessionPc.registering]

def Sys.Live (sys : Sys) (c : Context) : Prop := (sys.sessions c).any SessionPc.live = true

instance : DecidablePred sys.Live := fun _ => inferInstanceAs (Decidable (_ = _))

/-- The input that is being dispatched and the targets still to come. -/
def StreamPc.dispatch : StreamPc → Option (MetadataPayload × List Context)
  | .dispatching _ mp rest => some (mp, rest)
  | _ => none

theorem StreamPc.dispatch_of_settled {pc : StreamPc} (h : pc.settled) : pc.dispatch = none := by
  cases pc with
  | dispatching => exact h.elim
  | _ => rfl

/-- The inputs that are being dispatched, with the targets still to come. -/
def Sys.dispatches (sys : Sys) : List (MetadataPayload × List Context) :=
  sys.streams.filterMap fun stream => stream.pc.dispatch

/-- The engine has the producer in its deque, or a dispatch loop will put it there. -/
def Sys.Serves (sys : Sys) (c : Context) (p : String) : Prop :=
  p ∈ (sys.server.dispatcher.workers c).producers ∨ ∃ x ∈ sys.dispatches, x.1.producerId = p ∧ c ∈ x.2

instance (c : Context) (p : String) : Decidable (sys.Serves c p) := inferInstanceAs (Decidable (_ ∨ _))

/-- The inputs of the producer that are queued or being dispatched. -/
def Sys.waiting (sys : Sys) (p : String) : List MetadataPayload :=
  (sys.server.dispatcher.producer p).inputQueue ++ (sys.dispatches.map Prod.fst).filter (·.producerId = p)

/-- An input that reaches connected engines is addressed to every engine that serves its producer; and every engine
that it reaches is addressed by the waiting inputs of the producer, and by the in-flight one or that one is not
newer. -/
def Action.keepsTargets (sys : Sys) : Action → Prop
  | .message _ msg _ _ =>
    let d := sys.server.dispatcher
    let input := msg.asInput
    d.targetEngines input.targetEngineIds ≠ [] →
      (∀ c < d.nextContext, sys.Live c → sys.Serves c input.producerId →
        (d.workers c).engineId ∈ input.targetEngineIds) ∧
      ∀ c ∈ d.targetEngines input.targetEngineIds,
        (∀ mp ∈ sys.waiting input.producerId, (d.workers c).engineId ∈ mp.targetEngineIds) ∧
        ∀ mp ∈ (d.producer input.producerId).latestInputSentToEngine,
          (d.workers c).engineId ∈ mp.targetEngineIds ∨ mp.metadata.frameId ≤ input.frameId
  | _ => True

instance (sys : Sys) : DecidablePred (Action.keepsTargets sys)
  | .message _ _ _ _ => by unfold Action.keepsTargets; infer_instance
  | .openClient _ | .openProducer _ | .resumeStream _ _ _ | .closeStream _ | .openSession | .engineMessage _ _
  | .resumeSession _ _ _ | .closeSession _ => inferInstanceAs (Decidable True)

/-- The inputs being dispatched, as a relation. -/
abbrev Sys.Dispatching (sys : Sys) (mp : MetadataPayload) (rest : List Context) : Prop := (mp, rest) ∈ sys.dispatches

def Sys.Addressed (sys : Sys) : Prop := sys.server.dispatcher.Addressed sys.Dispatching sys.Live

theorem Sys.serves_iff {p : String} : sys.server.dispatcher.Serves sys.Dispatching c p ↔ sys.Serves c p := by
  constructor
  · rintro (h | ⟨mp, rest, hi, hp, hc⟩)
    · exact Or.inl h
    · exact Or.inr ⟨(mp, rest), hi, hp, hc⟩
  · rintro (h | ⟨⟨mp, rest⟩, hi, hp, hc⟩)
    · exact Or.inl h
    · exact Or.inr ⟨mp, rest, hi, hp, hc⟩

theorem Sys.mem_waiting {p : String} {mp : MetadataPayload} (h : sys.server.dispatcher.Holds sys.Dispatching p mp) :
    mp ∈ sys.waiting p := by
  rcases h with h | ⟨hp, rest, hi⟩
  · exact List.mem_append_left _ h
  · refine List.mem_append_right _ (List.mem_filter.2 ⟨List.mem_map.2 ⟨_, hi, rfl⟩, by simpa using hp⟩)

theorem Sys.dispatches_setStream {i : Nat} {stream : Stream} {r : Server × StreamPc}
    {x : MetadataPayload × List Context}
    (h : x ∈ (sys.setStream i stream r).dispatches) : x ∈ sys.dispatches ∨ r.2.dispatch = some x := by
  obtain ⟨st, hst, hx⟩ := List.mem_filterMap.1 h
  rcases List.mem_or_eq_of_mem_set hst with hst | rfl
  · exact Or.inl (List.mem_filterMap.2 ⟨st, hst, hx⟩)
  · exact Or.inr hx

section Streams

variable {stream : Stream} {i : Nat} {ref : ClientRef}

/-- A stream goes on. -/
private theorem Sys.Addressed.setStream {s : Server} {pc : StreamPc} {I : MetadataPayload → List Context → Prop}
    (h : s.dispatcher.Addressed I sys.Live) (hI : ∀ mp rest, sys.Dispatching mp rest → I mp rest)
    (hpc : ∀ x, pc.dispatch = some x → I x.1 x.2) : (sys.setStream i stream (s, pc)).Addressed :=
  Dispatcher.Addressed.mono h
    (fun mp rest hi => (Sys.dispatches_setStream hi).elim (hI mp rest) fun hx => hpc _ hx) (fun _ => id)

private theorem Sys.Addressed.settled {s : Server} {pc : StreamPc} {I : MetadataPayload → List Context → Prop}
    (h : s.dispatcher.Addressed I sys.Live) (hI : ∀ mp rest, sys.Dispatching mp rest → I mp rest)
    (hpc : pc.settled) : (sys.setStream i stream (s, pc)).Addressed :=
  .setStream h hI fun x hx => by rw [StreamPc.dispatch_of_settled hpc] at hx; cases hx

/-- An input that keeps the targets of its producer is taken up. -/
private theorem Sys.Addressed.takeUp {a : Address} {msg : FromClient} {order order' : List Context} {b : Bool}
    (h : sys.Addressed) (hused : sys.ContextsUsed)
    (hact : Action.keepsTargets sys (.message i msg order' b))
    (hperm : order.Perm (sys.server.dispatcher.targetEngines msg.asInput.targetEngineIds))
    (hne : sys.server.dispatcher.targetEngines msg.asInput.targetEngineIds ≠ []) (ts : List Context)
    (info : AnyProto) : (sys.server.dispatcher.beginInput msg.asInput.producerId ts).Addressed
      (Addressed.withInput sys.Dispatching (sys.server.dispatcher.metadataPayload msg.asInput a info) order)
      sys.Live := by
  obtain ⟨hserving, hnew⟩ := hact hne
  refine (Dispatcher.Addressed.takeUp h (fun c hc => ?_) (fun c hlv hs => ?_) (fun c hc mp' hh => ?_)
    (fun c hc mp' hm => ?_)).beginInput _ ts
  · exact (mem_targetEngines.1 (hperm.mem_iff.1 hc)).2
  · have hlt : c < sys.server.dispatcher.nextContext := by
      refine Nat.lt_of_not_le fun hle => ?_
      rw [Sys.Live, hused.fresh c hle] at hlv
      cases hlv
    exact hserving c hlt hlv (Sys.serves_iff.1 hs)
  · exact (hnew c (hperm.mem_iff.1 hc)).1 mp' (Sys.mem_waiting hh)
  · exact (hnew c (hperm.mem_iff.1 hc)).2 mp' hm

theorem MessageStep.addressed {a : Address} {msg : FromClient} {pc : StreamPc} {order : List Context} {b : Bool}
    (hm : MessageStep cfg sys.server a ref msg s pc) (hused : sys.ContextsUsed)
    (hact : Action.keepsTargets sys (.message i msg order b)) (h : sys.Addressed) :
    (sys.setStream i stream (s, pc)).Addressed := by
  -- up to the dispatch loop
  have htaken : ∀ {info order}, order.Perm (sys.server.dispatcher.targetEngines msg.asInput.targetEngineIds) →
      sys.server.dispatcher.targetEngines msg.asInput.targetEngineIds ≠ [] → ∀ {b r},
      (sys.server.dispatcher.beginInput msg.asInput.producerId
        (sys.server.dispatcher.targetEngines msg.asInput.targetEngineIds)).dispatchLoop
          (sys.server.dispatcher.metadataPayload msg.asInput a info) b order = r →
      r.1.Addressed (Addressed.withInput (Addressed.withInput sys.Dispatching
        (sys.server.dispatcher.metadataPayload msg.asInput a info) order)
        (sys.server.dispatcher.metadataPayload msg.asInput a info) (r.2.getD [])) sys.Live := by
    intro info order hperm hne b r hr
    exact (h.takeUp hused hact hperm hne _ info).dispatched (Or.inr ⟨rfl, rfl⟩) (dispatchLoop_cases hr)
  cases hm with
  | registered _ _ hpc => exact .settled h (fun _ _ => id) hpc
  | unregistered _ _ _ hpc => exact .settled h (fun _ _ => id) hpc
  | noTokens _ _ _ hpc => exact .settled h (fun _ _ => id) hpc
  | noEngine _ _ hpc =>
    exact .settled (Dispatcher.Addressed.beginInput h msg.asInput.producerId []) (fun _ _ => id) hpc
  | suspended _ _ _ hperm hr hne =>
    refine .setStream (htaken hperm hne hr) (fun _ _ hi => Or.inl (Or.inl hi)) ?_
    rintro _ ⟨⟩
    exact Or.inr ⟨rfl, rfl⟩
  | enqueued _ _ _ hperm hr hne =>
    exact .settled ((htaken hperm hne hr).enqueue (Or.inr ⟨rfl, rfl⟩)) (fun _ _ hi => Or.inl (Or.inl hi)) trivial
  | dropped _ _ hperm hr _ hpc hne =>
    exact .settled (htaken hperm hne hr) (fun _ _ hi => Or.inl (Or.inl hi)) hpc

theorem ResumeStep.addressed {pc : StreamPc} (hr : ResumeStep cfg sys.server stream s pc) (hmem : stream ∈ sys.streams)
    (h : sys.Addressed) : (sys.setStream i stream (s, pc)).Addressed := by
  have hi : ∀ {ref mp rest}, stream.pc = .dispatching ref mp rest → sys.Dispatching mp rest := fun hpc =>
    List.mem_filterMap.2 ⟨stream, hmem, by rw [hpc]; rfl⟩
  cases hr with
  | settled _ hpc => exact .settled h (fun _ _ => id) hpc
  | suspended hpc hloop =>
    refine .setStream (Dispatcher.Addressed.dispatched h (hi hpc) (dispatchLoop_cases hloop)) (fun _ _ => Or.inl) ?_
    rintro _ ⟨⟩
    exact Or.inr ⟨rfl, rfl⟩
  | concluded hpc hloop =>
    have hd := Dispatcher.Addressed.dispatched h (hi hpc) (dispatchLoop_cases hloop)
    exact .settled (hd.setInFlight (Or.inr ⟨rfl, rfl⟩)) (fun _ _ => Or.inl) trivial

end Streams

/-! ### Sessions -/

theorem Removals.addressed {I : MetadataPayload → List Context → Prop} {live : Context → Prop} (h : Removals s s')
    (ha : s.dispatcher.Addressed I live) : s'.dispatcher.Addressed I live := by
  refine h.dispatcher (P := fun d => d.Addressed I live) (fun h hd => ?_)
    (fun _ hd => hd.of_eq (l := []) (by simp) (by simp) (by simp) (by simp) (by simp) (by simp) (by simp)) ha
  cases h with
  | silent => exact hd
  | released => exact hd.of_eq (release_log ..) (by simp) (by simp) (by simp) (by simp) (by simp) (by simp)

theorem Answered.addressed {d d' : Dispatcher} {I : MetadataPayload → List Context → Prop} {live : Context → Prop}
    {k : Nat} {m : Option Metadata} {result : Result} {ans : Answer} (h : Answered d c k result m (d', ans))
    (ha : d.Addressed I live) : d'.Addressed I live := by
  cases h with
  | noMetadata => exact ha
  | noProducer => exact ha
  | token => exact ha.of_eq (release_log ..) (by simp) (by simp) (by simp) (by simp) (by simp) (by simp)
  | copy => exact ha.of_eq (emit_log ..) (by simp) (by simp) (by simp) (by simp) (by simp) (by simp)
  | next => exact ha

theorem SessionStep.addressed (hs : SessionStep act c pc sys.server s pc') (hc : sys.sessions c = some pc)
    (hlive : ∀ err, pc ≠ .finished err) (hused : sys.ContextsUsed) (h : sys.Addressed) :
    (sys.setSession c (s, pc')).Addressed := by
  -- the other sessions are as they were
  have hmono : ∀ {s : Server} {pc' : SessionPc}, (pc'.live = true → pc.live = true) →
      ∀ c', (sys.setSession c (s, pc')).Live c' → sys.Live c' := by
    intro s pc' hpc c' hl
    by_cases he : c' = c
    · subst he
      simp only [Sys.Live, Sys.setSession, Function.update_self, Option.any_some] at hl
      simpa [Sys.Live, hc] using hpc hl
    · simpa [Sys.Live, Sys.setSession, he] using hl
  have hactive : pc.live = true → sys.Live c := fun hl => by simpa [Sys.Live, hc] using hl
  have hkeep : ∀ {s : Server} {pc' : SessionPc}, s.dispatcher.Addressed sys.Dispatching sys.Live →
      (pc'.live = true → pc.live = true) → (sys.setSession c (s, pc')).Addressed := fun h hpc =>
    Dispatcher.Addressed.mono h (fun _ _ => id) (hmono hpc)
  cases hs with
  | read _ _ hpc =>
    subst hpc
    refine hkeep ?_ (fun _ => rfl)
    exact Dispatcher.Addressed.of_eq h (emit_log ..) (by simp) (by simp) (by simp) (by simp) (by simp) (by simp)
  | unread _ _ hpc =>
    subst hpc
    refine hkeep ?_ (fun _ => rfl)
    exact Dispatcher.Addressed.of_eq h (emit_log ..) (by simp) (by simp) (by simp) (by simp) (by simp) (by simp)
  | forwarded hpc ha =>
    subst hpc
    exact hkeep (Answered.addressed ha h) (fun _ => rfl)
  | stopped hpc ha =>
    subst hpc
    exact hkeep (Answered.addressed ha h) (fun _ => rfl)
  | unsent hpc ha hnext =>
    subst hpc
    exact hkeep ((Answered.addressed ha h).nextSent (hactive rfl) hnext) (fun _ => rfl)
  | fed hpc hnext =>
    subst hpc
    exact hkeep (Dispatcher.Addressed.nextSent h (hactive rfl) hnext) (fun _ => rfl)
  | inserted id ar hpc hr =>
    -- the worker is new: nothing was written to its context, and no dispatch loop comes to it
    have hunused : ¬ sys.Registered c := by
      rintro ⟨pc₁, hc₁, hpc₁⟩
      rw [hc] at hc₁
      cases hc₁
      exact hpc₁ hpc
    refine (hr.addressed h).insertWorker (fun mp rest hi hmem => ?_) (fun msg mp hw => ?_) (fun c' hl => ?_)
    · obtain ⟨stream, hst, hx⟩ := List.mem_filterMap.1 hi
      refine hunused (hused.targets stream hst c ?_)
      cases hpc' : stream.pc <;> rw [hpc'] at hx <;> cases hx
      exact hmem
    · exact hunused (hused.uses c (Uses.removals hr (Or.inr ⟨_, hw, rfl⟩)))
    · by_cases he : c' = c
      · exact Or.inr he
      · exact Or.inl (by simpa [Sys.Live, Sys.setSession, he] using hl)
  | takeover hpc hr => exact hkeep (hr.addressed h) (fun hl => by cases hl)
  | managed hr _ hreg =>
    refine hkeep (hr.addressed h) fun hl => SessionPc.live_iff.2 ⟨fun hpc => ?_, hlive⟩
    obtain ⟨err, rfl⟩ := hreg hpc
    cases hl

theorem addressed_step (hstep : step cfg sys act = some sys') (hused : sys.ContextsUsed)
    (hact : act.keepsTargets sys) (h : sys.Addressed) : sys'.Addressed := by
  cases step_cases hstep with
  | openClient =>
    exact Dispatcher.Addressed.mono h
      (fun _ _ hi => by simpa [Sys.Dispatching, Sys.dispatches, StreamPc.dispatch] using hi) (fun _ => id)
  | openProducer =>
    exact Dispatcher.Addressed.mono h
      (fun _ _ hi => by simpa [Sys.Dispatching, Sys.dispatches, StreamPc.dispatch] using hi) (fun _ => id)
  | unknownClient =>
    exact Sys.Addressed.settled h (fun _ _ => id) trivial
  | message _ _ _ hm => exact hm.addressed hused hact h
  | resumed hi hr => exact hr.addressed (List.mem_of_getElem? hi) h
  | closed hi _ hr => exact hr.addressed (List.mem_of_getElem? hi) h
  | openSession =>
    refine Dispatcher.Addressed.mono (Dispatcher.Addressed.of_eq (l := []) h (by simp) (by simp) (by simp) (by simp)
      (by simp) (by simp) (by simp)) (fun _ _ => id) (fun c hl => ?_)
    by_cases he : c = sys.server.dispatcher.nextContext
    · simp [Sys.Live, he, SessionPc.live] at hl
    · simpa [Sys.Live, he] using hl
  | session hc hlive hs => exact hs.addressed hc hlive hused h

/-- Engines only see frames addressed to them, in every run in which each input keeps the targets of its producer. -/
theorem written_to_addressed {as : List Action} (h : (machine cfg).RunWhere (fun sys a => a.keepsTargets sys) as sys) :
    ∀ c, ∀ mp ∈ writtenTo sys.server.dispatcher.log c,
      (sys.server.dispatcher.workers c).engineId ∈ mp.metadata.targetEngineIds := by
  have hinit : Sys.Addressed {} :=
    { queue_named := fun hm => (nomatch hm)
      latest_named := fun hm => (nomatch hm)
      targets := fun hi => (nomatch hi)
      held := fun hl => (nomatch hl)
      latest := fun hl => (nomatch hl)
      ahead := fun hl => (nomatch hl)
      processed := fun hm => (hm rfl).elim
      written := fun hw => (nomatch hw) }
  have hinv := h.invariant_of (I := Sys.Addressed) (J := Sys.ContextsUsed) (fun h => run_contextsUsed h.run) hinit
    (fun _ _ _ hused h hact hstep => addressed_step hstep hused hact h)
  intro c mp hmem
  obtain ⟨msg, hw⟩ := mem_writtenTo.1 hmem
  exact hinv.written hw

/-- The second frame of the producer adds the engine `B` to its targets. -/
theorem written_to_addressed_of_added_engine :
    ∃ as sys, (machine { numTokensPerProducer := 3, sizeForQueues := 2 }).RunWhere
        (fun sys a => a.keepsTargets sys) as sys ∧
      (writtenTo sys.server.dispatcher.log 0).length = 2 ∧ (writtenTo sys.server.dispatcher.log 1).length = 1 ∧
      ∀ c, ∀ mp ∈ writtenTo sys.server.dispatcher.log c,
        (sys.server.dispatcher.workers c).engineId ∈ mp.metadata.targetEngineIds := by
  obtain ⟨sys, hrun, h⟩ := Machine.exists_runWhere (M := machine { numTokensPerProducer := 3, sizeForQueues := 2 })
    (G := fun sys a => a.keepsTargets sys) (g := fun sys a => decide (a.keepsTargets sys))
    (fun _ _ h => of_decide_eq_true h)
    (fun sys => (writtenTo sys.server.dispatcher.log 0).length = 2 ∧
      (writtenTo sys.server.dispatcher.log 1).length = 1)
    [.openSession, .engineMessage 0 (.register "A" false), .openSession, .engineMessage 1 (.register "B" false),
      .openClient "client", .message 0 (.registration {}) [] false, .resumeStream 0 false false,
      .message 0 (.input { frameId := 1, producerId := "P", targetEngineIds := ["A"] }) [0] true,
      .resumeStream 0 false true,
      .message 0 (.input { frameId := 2, producerId := "P", targetEngineIds := ["A", "B"] }) [0, 1] true,
      .resumeStream 0 false true, .engineMessage 0 (.result {}), .resumeSession 0 false true] (by decide)
  exact ⟨_, sys, hrun, h.1, h.2, written_to_addressed hrun⟩

/-- The producer `P` sends a frame to the engine `A` and the next one to the engine `B` only.  `A` keeps `P` in its
deque, and when it has answered it is sent the frame for `B`. -/
theorem written_to_other_engine :
    ∃ as sys, (machine { numTokensPerProducer := 2, sizeForQueues := 2 }).Run as sys ∧
      (sys.server.dispatcher.workers 0).engineId = "A" ∧
      ∃ mp ∈ writtenTo sys.server.dispatcher.log 0, mp.metadata.targetEngineIds = ["B"] := by
  obtain ⟨sys, hrun, h⟩ := Machine.exists_run (M := machine { numTokensPerProducer := 2, sizeForQueues := 2 })
    (fun sys => (sys.server.dispatcher.workers 0).engineId = "A" ∧
      ∃ mp ∈ writtenTo sys.server.dispatcher.log 0, mp.metadata.targetEngineIds = ["B"])
    [.openSession, .engineMessage 0 (.register "A" false), .openSession, .engineMessage 1 (.register "B" false),
      .openClient "client", .message 0 (.registration {}) [] false, .resumeStream 0 false false,
      .message 0 (.input { frameId := 1, producerId := "P", targetEngineIds := ["A"] }) [0] true,
      .resumeStream 0 false true,
      .message 0 (.input { frameId := 2, producerId := "P", targetEngineIds := ["B"] }) [1] true,
      .resumeStream 0 false true, .engineMessage 0 (.result {}), .resumeSession 0 false true] (by decide)
  exact ⟨_, sys, hrun, h⟩

end Interleaved

end Gabriel
