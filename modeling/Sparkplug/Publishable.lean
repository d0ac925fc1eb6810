import Sparkplug.Metrics
import Sparkplug.Machine

/-!
Publishables, that is nodes and devices: a list of metrics, a timer that says when the
next message is due, and a state that says whether one is on its way.
-/

namespace Sparkplug

inductive PublishableState
  | idle | canPublish | publishing
  deriving DecidableEq

structure Publishable where
  name : Str := []
  publishPeriod : ℤ := 30
  nextPublish : ℤ := 30
  state : PublishableState := .idle
  metrics : List Metric := []

/-- Everything that is ever done to a publishable. -/
inductive PublishableCall
  | setValue (i : ℕ) (value : Bytes) (now : ℕ)
  | setProperty (i : ℕ) (path : List ℕ) (value : Bytes)
  | update (elapsed : ℤ)
  | publishing
  | published
  | addToPayload (isBirth : Bool) (now : ℕ)

namespace Publishable

/-- The timer runs in the idle state only. -/
def update (p : Publishable) (elapsed : ℤ) : ℤ × Publishable :=
  if p.state = .publishing ∨ p.state = .canPublish then (p.publishPeriod, p)
  else if p.nextPublish - elapsed ≤ 0 then
    (p.publishPeriod, { p with state := .canPublish, nextPublish := p.publishPeriod })
  else (p.nextPublish - elapsed, { p with nextPublish := p.nextPublish - elapsed })

def published (p : Publishable) : Publishable :=
  { p with state := .idle, metrics := p.metrics.map Metric.published }

def publishing (p : Publishable) : Publishable := { p with state := .publishing }

/-- The loop over the metrics in `addToPayload`. -/
def addMetrics (isBirth : Bool) (now : ℕ) : List Metric → List PayloadMetric →
    List Metric × List PayloadMetric
  | [], payload => ([], payload)
  | m :: ms, payload =>
    let (m, payload) := m.addToPayload payload isBirth now
    let (ms, payload) := addMetrics isBirth now ms payload
    (m :: ms, payload)

def addToPayload (p : Publishable) (payload : List PayloadMetric) (isBirth : Bool) (now : ℕ) :
    Publishable × List PayloadMetric :=
  let (ms, payload) := addMetrics isBirth now p.metrics payload
  ({ p with nextPublish := p.publishPeriod, metrics := ms }, payload)

def canPublish (p : Publishable) : Bool :=
  p.state = .canPublish && p.metrics.any Metric.isDirty

def setValue (p : Publishable) (i : ℕ) (value : Bytes) (now : ℕ) : Publishable :=
  { p with metrics := p.metrics.modify i (Metric.setValue · value now) }

def setProperty (p : Publishable) (i : ℕ) (path : List ℕ) (value : Bytes) : Publishable :=
  { p with metrics := p.metrics.modify i (Metric.setProperty · path value) }

def step (p : Publishable) : PublishableCall → Publishable
  | .setValue i value now => p.setValue i value now
  | .setProperty i path value => p.setProperty i path value
  | .update elapsed => (p.update elapsed).2
  | .publishing => p.publishing
  | .published => p.published
  | .addToPayload isBirth now => (p.addToPayload [] isBirth now).1

/-! ### The state -/

@[simp] lemma published_state (p : Publishable) : p.published.state = .idle := rfl
@[simp] lemma publishing_state (p : Publishable) : p.publishing.state = .publishing := rfl

/-- While a publishable is publishing its timer is held. -/
lemma update_publishing {p : Publishable} (h : p.state = .publishing) (elapsed : ℤ) :
    p.update elapsed = (p.publishPeriod, p) := by
  simp [update, h]

lemma canPublish_publishing {p : Publishable} (h : p.state = .publishing) :
    p.canPublish = false := by
  simp [canPublish, h]

/-! ### The metrics -/

@[simp] lemma update_metrics (p : Publishable) (elapsed : ℤ) :
    (p.update elapsed).2.metrics = p.metrics := by
  unfold update; repeat' split
  all_goals rfl

lemma update_ne_publishing {p : Publishable} (h : p.state ≠ .publishing) (elapsed : ℤ) :
    (p.update elapsed).2.state ≠ .publishing := by
  unfold update; repeat' split
  all_goals first | exact h | simp

lemma addMetrics_fst (isBirth : Bool) (now : ℕ) (ms : List Metric)
    (payload : List PayloadMetric) :
    (addMetrics isBirth now ms payload).1 =
      ms.map fun m => (m.addToPayload [] isBirth now).1 := by
  induction ms generalizing payload with
  | nil => rfl
  | cons m ms ih =>
    have hm : (m.addToPayload payload isBirth now).1 = (m.addToPayload [] isBirth now).1 := by
      unfold Metric.addToPayload; split <;> rfl
    simp [addMetrics, ih, hm]

lemma addToPayload_metrics (p : Publishable) (payload : List PayloadMetric) (b : Bool)
    (now : ℕ) : (p.addToPayload payload b now).1.metrics =
      p.metrics.map fun m => (m.addToPayload [] b now).1 :=
  addMetrics_fst b now p.metrics payload

end Publishable

end Sparkplug
