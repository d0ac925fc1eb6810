import Sparkplug.Schedule

/-!
How long new values wait.

While a publishable is not publishing its timer runs in every round of the main loop that finds
an active client. So a new value is asked for before the delays add up to what the timer had left,
unless a payload is built or a report handled first.
-/

namespace Sparkplug

open Machine

/-- Something becomes of the values: they are to be published, are put into a payload, or are
reported. -/
def PublishableCall.serves : PublishableCall → Bool
  | .publishing | .published | .addToPayload .. => true
  | _ => false

namespace Publishable

/-- There is a new value, and nothing is on its way. -/
def HasNews (p : Publishable) : Prop := p.state ≠ .publishing ∧ p.metrics.any Metric.isDirty = true

/-- There is a new value, and the time until it can be published is no longer than `left`. -/
structure Pending (left : ℤ) (p : Publishable) : Prop where
  news : p.metrics.any Metric.isDirty = true
  timer : p.state = .idle ∧ p.nextPublish ≤ left ∨ p.state = .canPublish ∧ 0 < left

variable {p : Publishable} {left : ℤ}

lemma Pending.mono (h : Pending left p) {left' : ℤ} (hle : left ≤ left') : Pending left' p :=
  ⟨h.news, h.timer.imp (And.imp_right (le_trans · hle)) (And.imp_right (lt_of_lt_of_le · hle))⟩

lemma HasNews.pending (h : HasNews p) (hleft : 0 < p.nextPublish) : Pending p.nextPublish p := by
  refine ⟨h.2, ?_⟩
  cases hs : p.state with
  | idle => exact .inl ⟨rfl, le_rfl⟩
  | canPublish => exact .inr ⟨rfl, hleft⟩
  | publishing => exact absurd hs h.1

lemma any_isDirty_modify {f : Metric → Metric} (hf : ∀ m, m.isDirty = true → (f m).isDirty = true)
    {ms : List Metric} (h : ms.any Metric.isDirty = true) (k : ℕ) :
    (ms.modify k f).any Metric.isDirty = true := by
  induction ms generalizing k with
  | nil => cases h
  | cons m ms ih =>
    rw [List.any_cons, Bool.or_eq_true] at h
    cases k with
    | zero =>
      rw [List.modify_zero_cons, List.any_cons, Bool.or_eq_true]
      exact h.imp_left (hf m)
    | succ k =>
      rw [List.modify_succ_cons, List.any_cons, Bool.or_eq_true]
      exact h.imp_right (ih · k)

/-- Setting values leaves new values new. -/
lemma Pending.step (h : Pending left p) {a : PublishableCall} (hs : a.serves = false)
    (ht : a.time = none) : Pending left (p.step a) := by
  cases a with
  | setValue k value now =>
    refine ⟨any_isDirty_modify (fun m hm => ?_) h.news k, h.timer⟩
    unfold Metric.setValue
    split
    · rfl
    · exact hm
  | setProperty k path value =>
    refine ⟨any_isDirty_modify (fun m hm => ?_) h.news k, h.timer⟩
    unfold Metric.setProperty
    split <;> exact hm
  | update => cases ht
  | publishing | published | addToPayload => cases hs

/-- When the timer has run there is less time left, or the value can be published. -/
lemma Pending.update (h : Pending left p) (elapsed : ℤ) :
    (p.update elapsed).2.canPublish = true ∨ Pending (left - elapsed) (p.update elapsed).2 := by
  rcases h.timer with ⟨hidle, hleft⟩ | ⟨hcan, -⟩
  · rcases Timed.update_cases p elapsed with ⟨hs, -⟩ | ⟨-, -, heq⟩ | ⟨-, -, heq⟩
    · exact absurd hidle hs
    · rw [heq]
      exact .inl (by simpa [canPublish] using h.news)
    · rw [heq]
      exact .inr ⟨h.news, .inl ⟨hidle, Int.sub_le_sub_right hleft elapsed⟩⟩
  · have heq : p.update elapsed = (p.publishPeriod, p) := by simp [Publishable.update, hcan]
    rw [heq]
    exact .inl (by simpa [canPublish, hcan] using h.news)

end Publishable

/-- Something has become of the values since the history was `old`, or they are waiting for
`left` at most. -/
def Waits (old : List PublishableCall) (left : ℤ) (t : Traced Publishable.step) : Prop :=
  ∃ l, t.hist = old ++ l ∧ ((∀ a ∈ l, a.serves = false) → t.cur.Pending left)

section Waits

variable {old : List PublishableCall} {left left' : ℤ} {t : Traced Publishable.step}

lemma Waits.mono (h : Waits old left t) (hle : left ≤ left') : Waits old left' t :=
  h.imp fun _ hl => ⟨hl.1, fun hs => (hl.2 hs).mono hle⟩

/-- A call that serves the values ends the waiting. -/
lemma serve_waits (h : ∃ l, t.hist = old ++ l) {a : PublishableCall} (ha : a.serves = true) :
    Waits old left (t.act a) := by
  obtain ⟨l, hl⟩ := h
  refine ⟨l ++ [a], by simp [hl], fun hs => ?_⟩
  rw [hs a (by simp)] at ha
  cases ha

/-- A call that does not, keeps it waiting if the publishable is pending afterwards. -/
lemma Waits.act (h : Waits old left t) {a : PublishableCall}
    (ha : a.serves = false → t.cur.Pending left → (t.cur.step a).Pending left') :
    Waits old left' (t.act a) := by
  cases hserves : a.serves with
  | true => exact serve_waits (h.imp fun _ => And.left) hserves
  | false =>
    obtain ⟨l, hl, hpending⟩ := h
    refine ⟨l ++ [a], by simp [hl], fun hs => ha hserves (hpending fun b hb => hs b ?_)⟩
    exact List.mem_append_left _ hb

end Waits

namespace Node

variable {n : Node} {p : PubId} {old : List PublishableCall} {left elapsed : ℤ}

/-- Whatever happens, but for the time. -/
lemma waits_lasts (p : PubId) (old : List PublishableCall) (left : ℤ) :
    Lasts (InTimes fun _ => False) fun q t => q = p → Waits old left t where
  publishing _ := by simp [InTimes, PublishableCall.time]
  addToPayload _ _ _ := by simp [InTimes, PublishableCall.time]
  act q t a ha h hq := by
    refine (h hq).act fun hs hp => hp.step hs ?_
    cases htime : a.time with
    | none => rfl
    | some e => exact (ha e (by simp [htime])).elim

/-- What can be published is. -/
lemma publish_serves (h : ∃ l, (n.pub p).hist = old ++ l)
    (hcan : (n.pub p).cur.canPublish = true) (b : Bool) :
    Waits old left ((n.publish p b).pub p) := by
  have hserved : Waits old left ((n.callPub p .publishing).pub p) := by
    rw [callPub_pub, if_pos rfl]
    exact serve_waits h rfl
  rcases publish_cases n p b with ⟨-, -, hnot⟩ | ⟨e, -⟩ | ⟨i, -, e⟩
  · rw [hcan] at hnot
    cases hnot
  · rw [e]
    exact hserved
  · rw [e, requested]
    refine callClient_allPubs (waits_lasts p old left) (fun q hq => ?_) i _ p rfl
    rw [prepared_pub, hq]
    exact hserved

/-- The turn of the publishable. -/
lemma takeTurn_waits (h : Waits old left (n.pub p)) (elapsed : ℤ) :
    Waits old (left - elapsed) ((n.takeTurn p elapsed).2.pub p) := by
  obtain ⟨l, hl, hpending⟩ := h
  have hupdate : (n.callPub p (.update elapsed)).pub p = (n.pub p).act (.update elapsed) := by
    rw [callPub_pub, if_pos rfl]
  have hhist : ((n.callPub p (.update elapsed)).pub p).hist = old ++ (l ++ [.update elapsed]) := by
    rw [hupdate, Traced.act_hist, hl, List.append_assoc]
  have hcur : ((n.callPub p (.update elapsed)).pub p).cur =
      ((n.pub p).cur.update elapsed).2 := by
    rw [hupdate]
    rfl
  simp only [takeTurn]
  split
  · next hcan => exact publish_serves ⟨_, hhist⟩ hcan false
  · next hcan =>
    refine ⟨_, hhist, fun hs => ?_⟩
    have hp := hpending fun a ha => hs a (List.mem_append_left _ ha)
    rw [hcur] at hcan ⊢
    exact (hp.update elapsed).resolve_left hcan

/-- After the turns the publishable has that much less time left. -/
lemma takeTurns_waits {ps : List PubId} (hp : p ∈ ps) (he : 0 ≤ elapsed)
    (h : Waits old left (n.pub p)) (next : ℤ) :
    Waits old (left - elapsed) ((takeTurns elapsed next n ps).2.pub p) := by
  have hless : left - elapsed ≤ left := by omega
  have hturn : ∀ (m : Node) q left', Waits old left' (m.pub p) →
      Waits old left' ((m.takeTurn q elapsed).2.pub p) := by
    intro m q left' hm
    by_cases hq : p = q
    · subst hq
      exact (takeTurn_waits hm elapsed).mono (by omega)
    · rwa [takeTurn_pub_of_ne elapsed hq]
  have hturns : ∀ (ps : List PubId) (m : Node) next, Waits old (left - elapsed) (m.pub p) →
      Waits old (left - elapsed) ((takeTurns elapsed next m ps).2.pub p) := by
    intro ps
    induction ps with
    | nil => exact fun m _ hm => hm
    | cons q ps ih => exact fun m _ hm => ih _ _ (hturn m q _ hm)
  induction ps generalizing n next with
  | nil => cases hp
  | cons q ps ih =>
    rcases List.mem_cons.mp hp with rfl | hp
    · exact hturns ps _ _ (takeTurn_waits h elapsed)
    · exact ih hp (hturn n q _ h) _

/-! ### The rounds -/

lemma owns_step (h : n.owns p = true) (a : NodeCall) : (n.step a).owns p = true := by
  have hunmoved : Unmoved fun m => m.owns p = true := ⟨fun _ _ _ _ _ _ _ _ _ hm => hm⟩
  refine hunmoved.step (fun _ _ hm => hm) (fun m d hm => ?_) (fun _ hm => hm) (fun _ _ hm => hm) h a
  cases p with
  | node => rfl
  | device e => simpa [owns] using .inr (by simpa [owns] using hm)

/-- The round finds an active client that is connected. -/
def FindsClient (x : ℤ × Node) (r : Round) : Prop :=
  r.connected = true ∧ x.2.sync.activeClient.isSome = true ∧ x.2.sync.faulted = false

/-- What the publishables are told has passed in the rounds. -/
def told : ℤ × Node → List Round → ℤ
  | _, [] => 0
  | x, r :: rs => x.1 + told (mainRound x r) rs

/-- Between rounds, the publishable waits. -/
structure WaitsIn (old : List PublishableCall) (left : ℤ) (p : PubId) (x : ℤ × Node) : Prop where
  rested : Rested x
  owned : x.2.owns p = true
  waits : Waits old left (x.2.pub p)

lemma mainRound_waits {x : ℤ × Node} (h : WaitsIn old left p x) {r : Round}
    (hr : FindsClient x r) : WaitsIn old (left - x.1) p (mainRound x r) := by
  obtain ⟨hrested, howned, hwaits⟩ := h
  obtain ⟨hconnected, hactive, hfaulted⟩ := hr
  obtain ⟨hexecute, -⟩ := execute_of_active hrested.enabled hactive hfaulted x.1
  have hexecuting : x.2.sync.Executing x.2.devices :=
    ⟨(sync_enabled x.2).trans hrested.enabled, Option.isSome_iff_ne_none.mp hactive, hfaulted,
      sync_devices x.2⟩
  have hmem : p ∈ x.2.sync.publishables := by
    rw [publishables, hexecuting.devices]
    cases p with
    | node => exact List.mem_cons_self
    | device d => simpa [owns] using howned
  have hsync : Waits old left (x.2.sync.pub p) :=
    sync_allPubs (waits_lasts p old left) (fun q hq => hq ▸ hwaits) p rfl
  have hturns : Waits old (left - x.1) ((x.2.execute x.1 r.connected).2.pub p) := by
    rw [hconnected, hexecute]
    exact takeTurns_waits hmem hrested.delay hsync _
  have howns : (x.2.execute x.1 r.connected).2.owns p = true := by
    have hdevices := (takeTurns_executing x.1 x.2.sync.publishables 0xFFFF hexecuting).devices
    rw [hconnected, hexecute]
    cases p with
    | node => rfl
    | device d => rwa [owns, hdevices]
  refine ⟨mainRound_rested hrested r, run_invariant (P := fun n : Node => n.owns p = true)
    (fun _ a hn => owns_step hn a) howns r.asleep, ?_⟩
  refine run_allPubs (waits_lasts p old (left - x.1)) (fun q hq => hq ▸ hturns) ?_ p rfl
  intro a ha e he
  rw [r.timeless a ha] at he
  cases he

lemma rounds_waits {x : ℤ × Node} (h : WaitsIn old left p x) {rs : List Round}
    (hrs : Each mainRound FindsClient x rs) :
    WaitsIn old (left - told x rs) p (run mainRound x rs) := by
  induction rs generalizing x left with
  | nil => simpa [told] using h
  | cons r rs ih =>
    have hround := ih (mainRound_waits h hrs.1) hrs.2
    rwa [Int.sub_sub] at hround

/-- Every round but the first is told of some time. -/
lemma length_le_told {x : ℤ × Node} (h : Rested x) (rs : List Round) :
    (rs.length : ℤ) ≤ told x rs + 1 := by
  have hlate : ∀ (rs : List Round) (y : ℤ × Node), Rested y → 1 ≤ y.1 →
      (rs.length : ℤ) ≤ told y rs := by
    intro rs
    induction rs with
    | nil => simp [told]
    | cons r rs ih =>
      intro y hy hone
      have hnext := ih (mainRound y r) (mainRound_rested hy r) (execute_rested hy r.connected).2.1
      simp only [List.length_cons, told]
      omega
  cases rs with
  | nil => simp [told]
  | cons r rs =>
    have hnext := hlate rs (mainRound x r) (mainRound_rested h r)
      (execute_rested h r.connected).2.1
    have hdelay := h.delay
    simp only [List.length_cons, told]
    omega

/-- A state of the main loop, between two rounds. -/
def InLoop (x : ℤ × Node) : Prop :=
  ∃ (s : NodeSetup) (before : List NodeCall) (rs : List Round), SetUp s before ∧
    x = run mainRound (0, run step (create s) before) rs

lemma InLoop.rested {x : ℤ × Node} (h : InLoop x) : Rested x := by
  obtain ⟨s, before, rs, hs, rfl⟩ := h
  exact run_invariant (P := Rested) (fun _ r hx => mainRound_rested hx r) hs.rested rs

/-- **New values wait no longer than the timer runs**: in rounds of the main loop that find an
active client, a publishable that has news is published, put into a payload or reported before
the time it is told has passed adds up to what its timer had left, so in at most one round more
than that. -/
theorem news_punctual {x : ℤ × Node} (hx : InLoop x) (p : PubId) (howned : x.2.owns p = true)
    (hnews : (x.2.pub p).cur.HasNews) (rs : List Round) (hclient : Each mainRound FindsClient x rs)
    (hlong : (x.2.pub p).cur.nextPublish ≤ told x rs ∨ (x.2.pub p).cur.nextPublish < rs.length) :
    ∃ l, ((run mainRound x rs).2.pub p).hist = (x.2.pub p).hist ++ l ∧
      ∃ a ∈ l, a.serves = true := by
  have hleft : 0 < (x.2.pub p).cur.nextPublish := (hx.rested.ticking p).1
  have hstart : Waits (x.2.pub p).hist (x.2.pub p).cur.nextPublish (x.2.pub p) :=
    ⟨[], by simp, fun _ => hnews.pending hleft⟩
  obtain ⟨hrested, -, l, hl, hpending⟩ := rounds_waits ⟨hx.rested, howned, hstart⟩ hclient
  refine ⟨l, hl, ?_⟩
  by_contra hnone
  have htimer := (hpending fun a ha => ?_).timer
  · have htold := length_le_told hx.rested rs
    have hticking := (hrested.ticking p).1
    omega
  · by_contra hserves
    exact hnone ⟨a, ha, by simpa using hserves⟩

theorem newData_served :
    ∃ l, ((run mainRound (0, run step (create .oneMetric) newData) [stillRound, stillRound]).2.pub
        (.device 0)).hist = ((run step (create .oneMetric) newData).pub (.device 0)).hist ++ l ∧
      ∃ a ∈ l, a.serves = true := by
  let x : ℤ × Node := (0, run step (create .oneMetric) newData)
  have hsetUp : SetUp .oneMetric newData :=
    ⟨by decide, fun _ => (by decide : (1 : ℤ) ≤ 30), by simp [newData, NodeCall.time], by decide⟩
  have hsync : x.2.sync = x.2.executeClients := sync_of_handled (by decide)
  have hround : mainRound x stillRound =
      takeTurns 0 0xFFFF x.2.executeClients x.2.executeClients.publishables := by
    have hexecute := (execute_of_active (n := x.2) (by decide) (by rw [hsync]; decide)
      (by rw [hsync]; decide) 0).1
    rw [hsync] at hexecute
    exact hexecute
  have hsync' : (mainRound x stillRound).2.sync = (mainRound x stillRound).2.executeClients :=
    sync_of_handled (by rw [hround]; decide)
  refine news_punctual (x := x) ⟨_, _, [], hsetUp, rfl⟩ (.device 0) (by decide)
    ⟨by decide, by decide⟩ [stillRound, stillRound]
    ⟨⟨rfl, by rw [hsync]; decide, by rw [hsync]; decide⟩, ⟨rfl, ?_, ?_⟩, trivial⟩ (.inl ?_)
  · rw [hsync', hround]
    decide
  · rw [hsync', hround]
    decide
  · rw [told, told, told, hround]
    decide

end Node

end Sparkplug
