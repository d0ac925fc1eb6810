import Sparkplug.NodeSteps

/-!
Updates of metrics and what becomes of them.

A metric that is dirty goes into the next data payload. So an update is lost when a metric
is not dirty and its value is not the one last sent, and it is kept when whatever was dirty
before a publish is dirty after it has failed.
-/

namespace Sparkplug

open Machine

/-! ### Behind a publish in flight -/

/-- A value other than the one last sent is still to be sent. -/
def Metric.Pending (m : Metric) : Prop := ∀ v, m.carried = some v → v ≠ m.data → m.dirty = true

instance (m : Metric) : Decidable m.Pending :=
  match h : m.carried with
  | none => isTrue fun v hv => by rw [h] at hv; cases hv
  | some v => decidable_of_iff (v ≠ m.data → m.dirty = true) <| by
      simp only [Metric.Pending, h, Option.some.injEq, forall_eq']

/-- The value is the one last sent. -/
def Metric.Sent (m : Metric) : Prop := ∀ v, m.carried = some v → v = m.data

namespace Publishable

/-- No update of a metric is lost. -/
def NoneLost (p : Publishable) : Prop := ∀ m ∈ p.metrics, m.Pending

instance (p : Publishable) : Decidable p.NoneLost :=
  inferInstanceAs (Decidable (∀ m ∈ p.metrics, m.Pending))

/-- If it is the end of a request, every metric has the value last sent. -/
def EndsSent (p : Publishable) : PublishableCall → Prop
  | .published => ∀ m ∈ p.metrics, m.Sent
  | _ => True

lemma modify_forall {α : Type*} {P : α → Prop} {l : List α} (h : ∀ a ∈ l, P a) (k : ℕ)
    {f : α → α} (hf : ∀ a, P a → P (f a)) : ∀ a ∈ l.modify k f, P a := by
  induction l generalizing k with
  | nil => simp
  | cons a l ih =>
    rw [List.forall_mem_cons] at h
    cases k with
    | zero =>
      rw [List.modify_zero_cons, List.forall_mem_cons]
      exact ⟨hf a h.1, h.2⟩
    | succ k =>
      rw [List.modify_succ_cons, List.forall_mem_cons]
      exact ⟨h.1, ih h.2 k⟩

lemma setValue_pending {m : Metric} (h : m.Pending) (v : Bytes) (now : ℕ) :
    (m.setValue v now).Pending := by
  unfold Metric.setValue
  split
  · exact fun _ _ _ => rfl
  · exact h

lemma setProperty_pending {m : Metric} (h : m.Pending) (path : List ℕ) (v : Bytes) :
    (m.setProperty path v).Pending := by
  cases path <;> exact h

lemma addToPayload_pending {m : Metric} (h : m.Pending) (b : Bool) (now : ℕ) :
    (m.addToPayload [] b now).1.Pending := by
  unfold Metric.addToPayload
  split
  · intro v hv hne
    exact absurd (Option.some.inj hv).symm hne
  · exact h

lemma published_pending_iff (m : Metric) : m.published.Pending ↔ m.Sent := by
  simp only [Metric.Pending, Metric.Sent, Metric.published_dirty, Metric.published_data,
    Metric.published_carried, Bool.false_eq_true, imp_false, not_not]

lemma noneLost_step_iff {p : Publishable} (h : p.NoneLost) (a : PublishableCall) :
    (p.step a).NoneLost ↔ p.EndsSent a := by
  cases a with
  | setValue k value now =>
    exact iff_of_true (modify_forall h k fun m hm => setValue_pending hm value now) trivial
  | setProperty k path value =>
    exact iff_of_true (modify_forall h k fun m hm => setProperty_pending hm path value) trivial
  | update elapsed => exact iff_of_true (by simpa [NoneLost, step] using h) trivial
  | publishing => exact iff_of_true h trivial
  | published => simp [NoneLost, step, published, EndsSent, published_pending_iff]
  | addToPayload b now =>
    refine iff_of_true (fun m hm => ?_) trivial
    rw [step, addToPayload_metrics, List.mem_map] at hm
    obtain ⟨m, hmem, rfl⟩ := hm
    exact addToPayload_pending (h m hmem) b now

end Publishable

namespace Node

variable (s : NodeSetup) (calls : List NodeCall)

/-- Everything done to a publishable in a run of a new node. -/
def pubRun (p : PubId) : Traced Publishable.step := (run step (create s) calls).pub p

/-- A new metric has been in no payload. -/
lemma create_carried (p : PubId) : ∀ m ∈ ((create s).pub p).init.metrics, m.carried = none := by
  intro m hm
  cases p with
  | node =>
    rcases List.mem_append.mp hm with hm | hm
    · obtain ⟨m, -, rfl⟩ := List.mem_map.mp hm
      rfl
    · split at hm
      · rw [List.mem_singleton.mp hm]; rfl
      · cases hm
  | device d =>
    obtain ⟨m, -, rfl⟩ := List.mem_map.mp hm
    rfl

lemma create_noneLost (p : PubId) : ((create s).pub p).init.NoneLost := by
  intro m hm v hv
  rw [create_carried s p m hm] at hv
  cases hv

/-- **No update is lost behind a publish in flight** exactly in those runs in which, at the
end of every request of the publishable, all its metrics have the values last sent. -/
theorem noneLost_iff_endsSent (p : PubId) :
    Along Publishable.step Publishable.NoneLost (pubRun s calls p).init (pubRun s calls p).hist ↔
      Each Publishable.step Publishable.EndsSent (pubRun s calls p).init (pubRun s calls p).hist := by
  have h0 : (pubRun s calls p).init.NoneLost := by
    rw [pubRun, pub_init]
    exact create_noneLost s p
  exact along_iff_each (fun _ a h => Publishable.noneLost_step_iff h a) h0

/-- The metric is set after the birth has been encoded and before it is delivered. -/
def setInFlight : List NodeCall :=
  [.addClient, .enable, .executeClient 0, .library 0 .onConnect, .processEvent,
    .library 0 .onCommandSubscription, .processEvent, .setValue .node 0 [1],
    .library 0 (.onDelivery 1), .processEvent]

/-- The new value was never sent, and the metric is not dirty. -/
theorem setInFlight_lost :
    ¬Along Publishable.step Publishable.NoneLost (pubRun .oneMetric setInFlight .node).init
      (pubRun .oneMetric setInFlight .node).hist := by
  intro h
  have hlast := h.last
  rw [Traced.replay] at hlast
  exact absurd hlast (by decide)

end Node

/-! ### After a failed publish -/

namespace Publishable

/-- The flag of a metric, for the empty path, or of a property of it. -/
def dirtyAt (p : Publishable) (k : ℕ) (path : List ℕ) : Bool :=
  (p.metrics[k]?).elim false (·.dirtyAt path)

/-- Whatever was dirty in `p` is dirty in `q`, and `q` is not publishing. -/
def NothingForgotten (p q : Publishable) : Prop :=
  (∀ k path, p.dirtyAt k path = true → q.dirtyAt k path = true) ∧ q.state ≠ .publishing

/-- No metric and no direct property of a metric is dirty. -/
def Unflagged (p : Publishable) : Prop :=
  ∀ m ∈ p.metrics, m.dirty = false ∧ ∀ q ∈ m.properties, q.isDirty = false

instance (p : Publishable) : Decidable p.Unflagged :=
  inferInstanceAs (Decidable (∀ m ∈ p.metrics, m.dirty = false ∧
    ∀ q ∈ m.properties, q.isDirty = false))

lemma dirtyAt_map {p q : Publishable} {f : Metric → Metric} {k : ℕ} {path : List ℕ}
    (hq : q.metrics = p.metrics.map f)
    (hf : ∀ m, m.dirtyAt path = true → (f m).dirtyAt path = true)
    (h : p.dirtyAt k path = true) : q.dirtyAt k path = true := by
  simp only [dirtyAt, hq, List.getElem?_map] at h ⊢
  cases hm : p.metrics[k]? with
  | none => rw [hm] at h; cases h
  | some m =>
    rw [hm] at h
    exact hf m h

lemma dirtyAt_modify {p q : Publishable} {f : Metric → Metric} {j k : ℕ} {path : List ℕ}
    (hq : q.metrics = p.metrics.modify j f)
    (hf : ∀ m, m.dirtyAt path = true → (f m).dirtyAt path = true)
    (h : p.dirtyAt k path = true) : q.dirtyAt k path = true := by
  simp only [dirtyAt, hq, List.getElem?_modify] at h ⊢
  cases hm : p.metrics[k]? with
  | none => rw [hm] at h; cases h
  | some m =>
    rw [hm] at h
    by_cases hjk : j = k
    · simpa [hjk] using hf m h
    · simpa [hjk] using h

/-- The flags of nested properties are never cleared. -/
lemma step_nested {p : Publishable} (a : PublishableCall) {k i j : ℕ} {ks : List ℕ}
    (h : p.dirtyAt k (i :: j :: ks) = true) : (p.step a).dirtyAt k (i :: j :: ks) = true := by
  cases a with
  | setValue l value now =>
    refine dirtyAt_modify rfl (fun m hm => ?_) h
    rwa [Metric.dirtyAt_of_properties (m.setValue_properties value now)]
  | setProperty l path value => exact dirtyAt_modify rfl (fun _ => Metric.dirtyAt_setProperty) h
  | update elapsed => simpa [dirtyAt, step] using h
  | publishing => exact h
  | published =>
    refine dirtyAt_map rfl (fun m hm => ?_) h
    rwa [m.published_dirtyAt]
  | addToPayload b now =>
    refine dirtyAt_map (addToPayload_metrics p [] b now) (fun m hm => ?_) h
    rwa [Metric.dirtyAt_of_properties (m.addToPayload_properties [] b now)]

lemma published_metric_flag (p : Publishable) (k : ℕ) : p.published.dirtyAt k [] = false := by
  simp only [dirtyAt, published, List.getElem?_map]
  cases p.metrics[k]? <;> rfl

lemma published_property_flag (p : Publishable) (k j : ℕ) :
    p.published.dirtyAt k [j] = false := by
  simp only [dirtyAt, published, List.getElem?_map]
  cases p.metrics[k]? with
  | none => rfl
  | some m =>
    simp only [Option.map_some, Option.elim_some, Metric.dirtyAt, Metric.published,
      List.getElem?_map]
    cases m.properties[j]? with
    | none => rfl
    | some q => cases q <;> rfl

/-- After a publish that began in `p` has failed, nothing has been forgotten exactly if there
was nothing that `published` clears. -/
lemma nothingForgotten_published_iff {p : Publishable} (as : List PublishableCall) :
    NothingForgotten p (run step p as).published ↔ p.Unflagged := by
  refine ⟨?_, ?_⟩
  · rintro ⟨h, -⟩ m hm
    obtain ⟨k, hk⟩ := List.mem_iff_getElem?.mp hm
    refine ⟨?_, ?_⟩
    · by_contra hd
      have hflag : p.dirtyAt k [] = true := by
        simpa [dirtyAt, hk, Metric.dirtyAt] using hd
      exact absurd ((published_metric_flag _ k).symm.trans (h k [] hflag)) (by simp)
    · intro q hq
      obtain ⟨j, hj⟩ := List.mem_iff_getElem?.mp hq
      by_contra hd
      have hflag : p.dirtyAt k [j] = true := by
        simpa [dirtyAt, hk, Metric.dirtyAt, hj, Property.dirtyAt] using hd
      exact absurd ((published_property_flag _ k j).symm.trans (h k [j] hflag)) (by simp)
  · intro h
    refine ⟨fun k path hd => ?_, by simp⟩
    cases hk : p.metrics[k]? with
    | none => simp [dirtyAt, hk] at hd
    | some m =>
      obtain ⟨hm, hprops⟩ := h m (List.mem_of_getElem? hk)
      rcases path with _ | ⟨i, _ | ⟨j, ks⟩⟩
      · simp [dirtyAt, hk, Metric.dirtyAt, hm] at hd
      · cases hi : m.properties[i]? with
        | none => simp [dirtyAt, hk, Metric.dirtyAt, hi] at hd
        | some q =>
          simp [dirtyAt, hk, Metric.dirtyAt, hi, Property.dirtyAt,
            hprops q (List.mem_of_getElem? hi)] at hd
      · have hrun : (run step p as).dirtyAt k (i :: j :: ks) = true :=
          run_invariant (P := fun q : Publishable => q.dirtyAt k (i :: j :: ks) = true)
            (fun _ a h => step_nested a h) hd as
        exact step_nested .published hrun

end Publishable

namespace Node

variable (s : NodeSetup) (before during : List NodeCall)

/-- **A failed publish forgets what was dirty.** Whenever a publishable's request is
processed as undelivered, everything that was dirty at an earlier time still is exactly if
no metric and no direct property of a metric was. -/
theorem undelivered_iff_unflagged {i : ClientId} {p : PubId}
    {rest : List (ClientId × ClientEvent)}
    (hq : (run step (create s) (before ++ during)).eventQueue = (i, .undelivered p) :: rest)
    (hf : (run step (create s) (before ++ during)).faulted = false) :
    Publishable.NothingForgotten ((run step (create s) before).pub p).cur
        ((run step (create s) (before ++ during ++ [.processEvent])).pub p).cur ↔
      ((run step (create s) before).pub p).cur.Unflagged := by
  obtain ⟨as, has⟩ := pub_extends (run step (create s) before) during p
  have hlast : ((run step (create s) (before ++ during ++ [.processEvent])).pub p).cur =
      (run Publishable.step ((run step (create s) before).pub p).cur as).published := by
    rw [run_snoc, step, hf, if_neg (by simp), handle, processEvent, hq]
    simp only [handleEvent, callPub_pub, if_true, Traced.act_cur, Publishable.step]
    rw [run_append, has]
  rw [hlast]
  exact Publishable.nothingForgotten_published_iff as

/-- The node of `setInFlight`, after the birth has been delivered. -/
def bornOnce : List NodeCall :=
  [.addClient, .enable, .executeClient 0, .library 0 .onConnect, .processEvent,
    .library 0 .onCommandSubscription, .processEvent, .library 0 (.onDelivery 1), .processEvent]

/-- A publish that fails six times: the first attempt and five retries. -/
def failsSixTimes : List NodeCall := List.replicate 6 (.library 0 (.onDeliveryFailure 1))

/-- A rebirth of a node with nothing dirty fails, and nothing is forgotten. -/
theorem failedRebirth_nothingForgotten :
    Publishable.NothingForgotten ((run step (create .oneMetric) bornOnce).pub .node).cur
      ((run step (create .oneMetric) (bornOnce ++
        (.requestPublish .node true :: failsSixTimes) ++ [.processEvent])).pub .node).cur := by
  have hq : (run step (create .oneMetric)
      (bornOnce ++ .requestPublish .node true :: failsSixTimes)).eventQueue =
      (0, .undelivered .node) :: [] := by decide
  exact (undelivered_iff_unflagged .oneMetric _ _ hq (by decide)).mpr (by decide)

/-- The metric is set and becomes due. -/
def setAndDue : List NodeCall := bornOnce ++ [.setValue .node 0 [1], .update .node 30]

/-- The data publish of a dirty metric fails, and the metric is not dirty any more. -/
theorem failedData_forgotten :
    ¬Publishable.NothingForgotten ((run step (create .oneMetric) setAndDue).pub .node).cur
      ((run step (create .oneMetric) (setAndDue ++
        (.requestPublish .node false :: failsSixTimes) ++ [.processEvent])).pub .node).cur := by
  rintro ⟨h, -⟩
  exact absurd (h 0 [] (by decide)) (by decide)

end Node

end Sparkplug
