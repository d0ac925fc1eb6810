import Sparkplug.PropertyTrees
import Sparkplug.Updates

/-!
Updates of properties and what becomes of them.

A property goes into a payload only with its metric, but a publish clears the properties of
all metrics. Whether a property has been delivered is said with the payloads that are on
their way, oldest first: each is what `addToPayload` made of the metrics as they were.
-/

namespace Sparkplug

open Machine

/-! ### Payloads on their way -/

/-- What a payload was made from. -/
structure Encoding where
  isBirth : Bool
  now : ℕ
  metrics : List Metric

namespace Encoding

/-- The payload. -/
def payload (e : Encoding) : List PayloadMetric :=
  (Publishable.addMetrics e.isBirth e.now e.metrics []).2

/-- Its entry for the metric at a position, if there is one. -/
def entries (e : Encoding) (k : ℕ) : List PayloadMetric :=
  (e.metrics[k]?).elim [] fun m => (m.addToPayload [] e.isBirth e.now).2

/-- The metric at a position is in the payload. -/
def Includes (e : Encoding) (k : ℕ) : Prop :=
  ∃ m, e.metrics[k]? = some m ∧ (m.dirty = true ∨ e.isBirth = true)

/-- The payload is made up of the entries for the metrics, in order. -/
theorem payload_eq (e : Encoding) :
    e.payload = e.metrics.flatMap fun m => (m.addToPayload [] e.isBirth e.now).2 := by
  rw [payload, addMetrics_snd, List.nil_append]
  induction e.metrics with
  | nil => rfl
  | cons m ms ih =>
    rw [List.flatMap_cons, ← ih, List.filter_cons]
    by_cases h : (m.dirty || e.isBirth) = true
    · simp [Metric.addToPayload, h]
    · simp [Metric.addToPayload, h]

end Encoding

/-- A publishable and its payloads on their way. -/
structure Sending where
  pub : Publishable
  sent : List Encoding := []

/-- A value is set. -/
def PublishableCall.isUpdate : PublishableCall → Bool
  | .setValue .. | .setProperty .. => true
  | _ => false

namespace Publishable

/-- The leaf at a path of the metric at a position. -/
def leafAt (p : Publishable) (k : ℕ) (path : List ℕ) : Option LeafValue :=
  (p.metrics[k]?).elim none (·.leafAt path)

variable {p q : Publishable} {k : ℕ} {path : List ℕ} {l : LeafValue}

lemma leafAt_eq_some : p.leafAt k path = some l ↔
    ∃ m, p.metrics[k]? = some m ∧ m.leafAt path = some l := by
  rw [leafAt]
  cases p.metrics[k]? <;> simp

lemma dirtyAt_eq_true : p.dirtyAt k path = true ↔
    ∃ m, p.metrics[k]? = some m ∧ m.dirtyAt path = true := by
  rw [dirtyAt]
  cases p.metrics[k]? <;> simp

lemma leafAt_map {f : Metric → Metric} (hq : q.metrics = p.metrics.map f)
    (hf : ∀ m, (f m).leafAt path = m.leafAt path) : q.leafAt k path = p.leafAt k path := by
  simp only [leafAt, hq, List.getElem?_map]
  cases p.metrics[k]? with
  | none => rfl
  | some m => exact hf m

lemma published_leafAt (p : Publishable) (k : ℕ) (path : List ℕ) :
    p.published.leafAt k path = p.leafAt k path :=
  leafAt_map rfl fun m => m.published_leafAt path

/-- A publish makes nothing dirty. -/
lemma dirtyAt_of_published (hl : p.leafAt k path = some l)
    (h : p.published.dirtyAt k path = true) : p.dirtyAt k path = true := by
  obtain ⟨m, hm, hl⟩ := leafAt_eq_some.mp hl
  obtain ⟨n, hn, hd⟩ := dirtyAt_eq_true.mp h
  rw [published, List.getElem?_map, hm] at hn
  obtain rfl := Option.some.inj hn
  refine dirtyAt_eq_true.mpr ⟨m, hm, ?_⟩
  rcases path with _ | ⟨j, _ | ⟨i, ks⟩⟩
  · cases hl
  · rw [m.published_direct] at hd
    cases hd
  · rwa [m.published_dirtyAt] at hd

/-- Nothing but a publish clears the flag of a leaf. -/
lemma dirtyAt_step {a : PublishableCall} (ha : a ≠ .published) (hl : p.leafAt k path = some l)
    (h : p.dirtyAt k path = true) : (p.step a).dirtyAt k path = true := by
  obtain ⟨j, js, rfl⟩ : ∃ j js, path = j :: js := by
    obtain ⟨m, -, hl⟩ := leafAt_eq_some.mp hl
    cases path with
    | nil => cases hl
    | cons j js => exact ⟨j, js, rfl⟩
  cases a with
  | setValue i value now =>
    refine dirtyAt_modify rfl (fun m hm => ?_) h
    rwa [Metric.dirtyAt_of_properties (m.setValue_properties value now)]
  | setProperty i place value => exact dirtyAt_modify rfl (fun _ => Metric.dirtyAt_setProperty) h
  | update elapsed => simpa [dirtyAt, step] using h
  | publishing => exact h
  | published => exact absurd rfl ha
  | addToPayload b now =>
    refine dirtyAt_map (addToPayload_metrics p [] b now) (fun m hm => ?_) h
    rwa [Metric.dirtyAt_of_properties (m.addToPayload_properties [] b now)]

end Publishable

namespace Sending

/-- An encoded payload is on its way until the oldest one is delivered. -/
def step (s : Sending) (a : PublishableCall) : Sending where
  pub := s.pub.step a
  sent :=
    match a with
    | .addToPayload isBirth now => s.sent ++ [⟨isBirth, now, s.pub.metrics⟩]
    | .published => s.sent.tail
    | _ => s.sent

@[simp] lemma step_pub (s : Sending) (a : PublishableCall) : (s.step a).pub = s.pub.step a := rfl

/-- The payload delivered next carries the leaf, in its entry for the metric. -/
def Delivers (s : Sending) (k : ℕ) (l : LeafValue) : Prop :=
  ∃ e ∈ s.sent.head?, ∃ x ∈ e.entries k, x.Carries l

/-- The flag of a property is cleared only by a delivery of its value. -/
def ClearsDelivered (s : Sending) (a : PublishableCall) : Prop :=
  ∀ k path l, s.pub.leafAt k path = some l → s.pub.dirtyAt k path = true →
    (s.step a).pub.dirtyAt k path = false → a = .published ∧ s.Delivers k l

/-- A delivery finds no property to be dirty whose metric was not in the payload, other than
within sets. -/
def Covers (s : Sending) : PublishableCall → Prop
  | .published => ∀ k j l, s.pub.leafAt k [j] = some l → s.pub.dirtyAt k [j] = true →
      ∃ e ∈ s.sent.head?, e.Includes k
  | _ => True

/-- No value is set while a payload is on its way. -/
def Quiet (s : Sending) (a : PublishableCall) : Prop := a.isUpdate = true → s.sent = []

/-- Every dirty leaf was so, with its value, when each of the payloads was encoded. -/
def Recorded (s : Sending) : Prop :=
  ∀ e ∈ s.sent, ∀ k path l, s.pub.leafAt k path = some l → s.pub.dirtyAt k path = true →
    ∃ m, e.metrics[k]? = some m ∧ m.leafAt path = some l ∧ m.dirtyAt path = true

variable {s : Sending} {a : PublishableCall}

open Publishable

lemma Recorded.of_same (h : s.Recorded) {t : Sending} (hsent : t.sent ⊆ s.sent)
    (hleaf : ∀ k path, t.pub.leafAt k path = s.pub.leafAt k path)
    (hdirty : ∀ k path l, s.pub.leafAt k path = some l → t.pub.dirtyAt k path = true →
      s.pub.dirtyAt k path = true) : t.Recorded := by
  intro e he k path l hl hd
  rw [hleaf] at hl
  exact h e (hsent he) k path l hl (hdirty k path l hl hd)

lemma addToPayload_leafAt (p : Publishable) (b : Bool) (now k : ℕ) (path : List ℕ) :
    (p.step (.addToPayload b now)).leafAt k path = p.leafAt k path := by
  refine leafAt_map (addToPayload_metrics p [] b now) fun m => ?_
  exact Metric.leafAt_of_properties (m.addToPayload_properties [] b now) path

lemma addToPayload_dirtyAt {p : Publishable} {b : Bool} {now k : ℕ} {path : List ℕ}
    {l : LeafValue} (hl : p.leafAt k path = some l)
    (h : (p.step (.addToPayload b now)).dirtyAt k path = true) : p.dirtyAt k path = true := by
  obtain ⟨m, hm, hl⟩ := leafAt_eq_some.mp hl
  obtain ⟨n, hn, hd⟩ := dirtyAt_eq_true.mp h
  rw [Publishable.step, addToPayload_metrics, List.getElem?_map, hm] at hn
  obtain rfl := Option.some.inj hn
  refine dirtyAt_eq_true.mpr ⟨m, hm, ?_⟩
  cases path with
  | nil => cases hl
  | cons j js => rwa [Metric.dirtyAt_of_properties (m.addToPayload_properties [] b now)] at hd

lemma step_recorded (h : s.Recorded) (ha : s.Quiet a) : (s.step a).Recorded := by
  cases a with
  | setValue | setProperty =>
    intro e he
    have hnil : s.sent = [] := ha rfl
    simp [step, hnil] at he
  | update elapsed =>
    refine h.of_same (fun _ he => he) (fun k path => ?_) fun k path l _ hd => ?_
    · simp [step, Publishable.step, leafAt]
    · simpa [step, Publishable.step, dirtyAt] using hd
  | publishing => exact h
  | published =>
    refine h.of_same (fun _ he => List.mem_of_mem_tail he)
      (fun k path => published_leafAt s.pub k path) fun k path l hl hd => ?_
    exact dirtyAt_of_published hl hd
  | addToPayload b now =>
    intro e he k path l hl hd
    rw [step, addToPayload_leafAt] at hl
    have hbefore : s.pub.dirtyAt k path = true := addToPayload_dirtyAt hl hd
    rcases List.mem_append.mp he with he | he
    · exact h e he k path l hl hbefore
    · obtain rfl := List.mem_singleton.mp he
      obtain ⟨m, hm, hl⟩ := leafAt_eq_some.mp hl
      obtain ⟨n, hn, hd⟩ := dirtyAt_eq_true.mp hbefore
      obtain rfl := Option.some.inj (hm.symm.trans hn)
      exact ⟨m, hm, hl, hd⟩

lemma includes_of_entries {e : Encoding} {k : ℕ} {x : PayloadMetric} {l : LeafValue}
    (hx : x ∈ e.entries k) (hl : x.Carries l) : e.Includes k := by
  rw [Encoding.entries] at hx
  cases hm : e.metrics[k]? with
  | none => rw [hm] at hx; cases hx
  | some m =>
    rw [hm] at hx
    exact ⟨m, hm, (Metric.addToPayload_carries.mp ⟨x, hx, hl⟩).1⟩

lemma clearsDelivered_iff (h : s.Recorded) (a : PublishableCall) :
    s.ClearsDelivered a ↔ s.Covers a := by
  by_cases ha : a = .published
  · subst ha
    refine ⟨fun hc k j l hl hd => ?_, fun hc k path l hl hd hafter => ⟨rfl, ?_⟩⟩
    · obtain ⟨-, e, he, x, hx, hcarries⟩ := hc k [j] l hl hd (published_property_flag _ k j)
      exact ⟨e, he, includes_of_entries hx hcarries⟩
    · rcases path with _ | ⟨j, _ | ⟨i, ks⟩⟩
      · obtain ⟨m, -, hl⟩ := leafAt_eq_some.mp hl
        cases hl
      · -- what the payload has of the metric is what is dirty now
        obtain ⟨e, he, m, hm, hinc⟩ := hc k j l hl hd
        obtain ⟨n, hn, hleaf, hdirty⟩ := h e (List.mem_of_mem_head? he) k [j] l hl hd
        obtain rfl := Option.some.inj (hm.symm.trans hn)
        have hentries : e.entries k = (m.addToPayload [] e.isBirth e.now).2 := by
          rw [Encoding.entries, hm]
          rfl
        refine ⟨e, he, ?_⟩
        rw [hentries]
        exact Metric.addToPayload_carries.mpr ⟨hinc, [j], hleaf, .inr hdirty⟩
      · rw [step_pub, step_nested .published hd] at hafter
        cases hafter
  · refine iff_of_true (fun k path l hl hd hafter => ?_) ?_
    · rw [step_pub, dirtyAt_step ha hl hd] at hafter
      cases hafter
    · cases a <;> trivial

/-- **Updates of properties are kept** until they are delivered exactly in those runs in
which every delivery finds only properties of metrics in its payload to be dirty. -/
theorem clearsDelivered_iff_covers (p : Publishable) {calls : List PublishableCall}
    (h : Each step Quiet ⟨p, []⟩ calls) :
    Each step ClearsDelivered ⟨p, []⟩ calls ↔ Each step Covers ⟨p, []⟩ calls := by
  have h0 : Recorded ⟨p, []⟩ := by
    intro e he
    cases he
  exact each_iff_each_of (fun _ _ => step_recorded) (fun s a hs _ => clearsDelivered_iff hs a) h0 h

/-- Two metrics, the second with a property. -/
def twoMetrics : Publishable where
  metrics := [{ name := ['a'], dataType := 3, data := [0] },
    { name := ['b'], dataType := 3, data := [0], properties := [.leaf ['p'] 3 false [0]] }]

/-- The property is set and a birth is delivered. -/
def setThenBirth : List PublishableCall :=
  [.setProperty 1 [0] [1], .publishing, .addToPayload true 6, .published]

theorem setThenBirth_delivers : Each step ClearsDelivered ⟨twoMetrics, []⟩ setThenBirth := by
  have hquiet : Each step Quiet ⟨twoMetrics, []⟩ setThenBirth :=
    ⟨fun _ => rfl, fun h => absurd h (by decide), fun h => absurd h (by decide),
      fun h => absurd h (by decide), trivial⟩
  refine (clearsDelivered_iff_covers twoMetrics hquiet).mpr
    ⟨trivial, trivial, trivial, fun k j l hl _ => ?_, trivial⟩
  refine ⟨_, rfl, ?_⟩
  obtain ⟨m, hm, -⟩ := leafAt_eq_some.mp hl
  rcases k with _ | _ | k
  · exact ⟨_, rfl, .inr rfl⟩
  · exact ⟨_, rfl, .inr rfl⟩
  · cases hm

/-- The property of the second metric is set, and the value of the first one, which alone is
in the payload. -/
def setThenOther : List PublishableCall :=
  [.setProperty 1 [0] [1], .setValue 0 [1] 5, .update 30, .publishing, .addToPayload false 6,
    .published]

/-- The property is not dirty any more, and has been sent to nobody. -/
theorem setThenOther_drops : Each step Quiet ⟨twoMetrics, []⟩ setThenOther ∧
    ¬Each step ClearsDelivered ⟨twoMetrics, []⟩ setThenOther := by
  refine ⟨⟨fun _ => rfl, fun _ => rfl, fun h => absurd h (by decide),
    fun h => absurd h (by decide), fun h => absurd h (by decide), fun h => absurd h (by decide),
    trivial⟩, fun h => ?_⟩
  obtain ⟨-, e, he, x, hx, -⟩ := h.2.2.2.2.2.1 1 [0] ⟨[['p']], 3, [1]⟩ rfl rfl rfl
  obtain rfl := Option.some.inj he
  cases hx

end Sending

end Sparkplug
