import Sparkplug.DataPayloads
import Sparkplug.Payload
import Sparkplug.Publishing
import Sparkplug.Sequence

/-!
No empty data messages.

A data request is made when a metric is dirty, but its payload is built later, and a report
that is processed in between clears the flags. So there are no empty data messages as long
as no report of a publishable is processed while a data request of it waits for its
payload, and a failed one is tried again only with something to send.
-/

namespace Sparkplug

open Machine Client

namespace Publishable

/-- A metric has a value to be sent. -/
def hasDirty (p : Publishable) : Bool := p.metrics.any Metric.isDirty

/-- The call builds a data payload without a metric. -/
def buildsEmpty (p : Publishable) : PublishableCall → Bool
  | .addToPayload false now => (p.addToPayload [] false now).2.isEmpty
  | _ => false

lemma buildsEmpty_addToPayload (p : Publishable) (now : ℕ) :
    p.buildsEmpty (.addToPayload false now) = !p.hasDirty := by
  have hsnd : (p.addToPayload [] false now).2 =
      (p.metrics.filter fun m => m.dirty || false).map (·.entry false now) :=
    addMetrics_snd false now p.metrics []
  simp only [buildsEmpty, hsnd, hasDirty, List.isEmpty_map]
  rw [Bool.eq_iff_iff]
  simp [List.isEmpty_iff, List.filter_eq_nil_iff, Metric.isDirty]

lemma addToPayload_hasDirty (p : Publishable) (b : Bool) (now : ℕ) :
    (p.step (.addToPayload b now)).hasDirty = p.hasDirty := by
  have hm : ∀ m : Metric, (m.addToPayload [] b now).1.isDirty = m.isDirty := by
    intro m
    unfold Metric.addToPayload
    split <;> rfl
  simp only [hasDirty, step, addToPayload_metrics, List.any_map, Function.comp_def, hm]

lemma any_modify {l : List Metric} {f : Metric → Metric}
    (hf : ∀ m, m.isDirty = true → (f m).isDirty = true) (k : ℕ)
    (h : l.any Metric.isDirty = true) : (l.modify k f).any Metric.isDirty = true := by
  obtain ⟨m, hm, hd⟩ := List.any_eq_true.mp h
  obtain ⟨j, hj, rfl⟩ := List.getElem_of_mem hm
  have hj' : j < (l.modify k f).length := by simpa using hj
  refine List.any_eq_true.mpr ⟨(l.modify k f)[j], List.getElem_mem hj', ?_⟩
  rw [List.getElem_modify]
  split
  · exact hf _ hd
  · exact hd

/-- From outside no flag is cleared. -/
lemma outside_hasDirty {p : Publishable} (h : p.hasDirty = true) {a : PublishableCall}
    (ha : a.isOutside = true) : (p.step a).hasDirty = true := by
  cases a with
  | setValue k v now =>
    refine any_modify (fun m hm => ?_) k h
    unfold Metric.setValue
    split
    · rfl
    · exact hm
  | setProperty k path v =>
    refine any_modify (fun m hm => ?_) k h
    unfold Metric.setProperty
    split <;> exact hm
  | update elapsed => simpa [hasDirty, step] using h
  | publishing | published | addToPayload => cases ha

end Publishable

namespace Node

open Publishable

/-- Every data payload built so far has a metric. -/
def NoEmptyData (n : Node) : Prop :=
  ∀ p, Each Publishable.step (fun q a => q.buildsEmpty a = false) (n.pub p).init (n.pub p).hist

/-- A data request of `p` waits for its payload. -/
def Waiting (n : Node) (p : PubId) : Prop :=
  ∃ i, ∃ r ∈ (n.client i).cur.publishQueue, r.IsDataOf p ∧ r.accepted = false

/-- The client an action lets go on by itself. -/
def drives : NodeCall → Option (ClientId × ClientCall)
  | .executeClient i => some (i, .execute)
  | .library i l => some (i, .library l)
  | _ => none

/-- No report of a publishable is processed while a data request of it waits, and an
accepted data request is tried again only when its publishable has a dirty metric. -/
structure KeepsData (n : Node) (a : NodeCall) : Prop where
  report : ∀ p ∈ processedReport n a, ¬Waiting n p
  again : ∀ i c, drives a = some (i, c) → (n.client i).cur.triesAgain c = true →
    ∀ r ∈ (n.client i).cur.publishQueue.head?, r.isBirth = false →
      (n.pub r.publisher).cur.hasDirty = true

/-- Waiting data requests have something to send. -/
structure Loaded (n : Node) : Prop where
  front : ∀ i, FrontOnly (n.client i).cur
  dirty : ∀ p, Waiting n p → (n.pub p).cur.hasDirty = true
  sent : NoEmptyData n

/-! ### Calls to publishables -/

lemma noEmptyData_callPub {n : Node} (h : NoEmptyData n) {p : PubId} {a : PublishableCall}
    (ha : (n.pub p).cur.buildsEmpty a = false) : NoEmptyData (n.callPub p a) := by
  intro q
  rw [callPub_pub]
  split
  · next hq =>
    rw [Traced.act_hist, Traced.act_init, each_append, (n.pub p).replay]
    exact ⟨h p, ha, trivial⟩
  · exact h q

lemma callPub_loaded {n : Node} (h : Loaded n) {p : PubId} {a : PublishableCall}
    (ha : (n.pub p).cur.buildsEmpty a = false)
    (hd : Waiting n p → ((n.pub p).cur.step a).hasDirty = true) : Loaded (n.callPub p a) where
  front := h.front
  dirty q hq := by
    rw [callPub_pub]
    split
    · next hqp => exact hd (hqp ▸ hq)
    · exact h.dirty q hq
  sent := noEmptyData_callPub h.sent ha

lemma outside_loaded {n : Node} (h : Loaded n) (p : PubId) {a : PublishableCall}
    (ha : a.isOutside = true) : Loaded (n.callPub p a) := by
  refine callPub_loaded h ?_ fun hw => outside_hasDirty (h.dirty p hw) ha
  cases a <;> first | rfl | cases ha

lemma publishing_loaded {n : Node} (h : Loaded n) (p : PubId) : Loaded (n.callPub p .publishing) :=
  callPub_loaded h rfl (h.dirty p)

/-! ### Calls to clients -/

lemma mem_payloadCalls {time : ℕ} {p : PubId} {l : List Effect} {a : PublishableCall}
    (h : a ∈ payloadCalls time p l) :
    ∃ b, a = .addToPayload b time ∧ (b = false → p ∈ dataBuilt l) := by
  obtain ⟨e, he, hea⟩ := List.mem_filterMap.mp h
  cases e with
  | addToPayload q b =>
    simp only [Option.ite_none_right_eq_some, Option.some.injEq] at hea
    obtain ⟨rfl, rfl⟩ := hea
    refine ⟨b, rfl, ?_⟩
    rintro rfl
    exact List.mem_filterMap.mpr ⟨_, he, rfl⟩
  | _ => cases hea

/-- Payloads for a publishable with a dirty metric, or for births. -/
lemma payloads_sent (as : List PublishableCall) (t : Traced Publishable.step)
    (h : Each Publishable.step (fun q a => q.buildsEmpty a = false) t.init t.hist)
    (hall : ∀ a ∈ as, ∃ b time, a = .addToPayload b time ∧ (b = false → t.cur.hasDirty = true)) :
    Each Publishable.step (fun q a => q.buildsEmpty a = false) (as.foldl Traced.act t).init
        (as.foldl Traced.act t).hist ∧
      (as.foldl Traced.act t).cur.hasDirty = t.cur.hasDirty := by
  induction as generalizing t with
  | nil => exact ⟨h, rfl⟩
  | cons a as ih =>
    obtain ⟨b, time, rfl, hb⟩ := hall a (by simp)
    have hdirty : (t.act (.addToPayload b time)).cur.hasDirty = t.cur.hasDirty :=
      addToPayload_hasDirty _ b time
    have hact : Each Publishable.step (fun q a => q.buildsEmpty a = false)
        (t.act (.addToPayload b time)).init (t.act (.addToPayload b time)).hist := by
      rw [Traced.act_hist, Traced.act_init, each_append, t.replay]
      refine ⟨h, ?_, trivial⟩
      cases b with
      | true => rfl
      | false => rw [buildsEmpty_addToPayload, hb rfl]; rfl
    obtain ⟨h1, h2⟩ := ih (t.act (.addToPayload b time)) hact fun a ha => by
      obtain ⟨b', time', e, hb'⟩ := hall a (by simp [ha])
      exact ⟨b', time', e, fun h => hdirty.trans (hb' h)⟩
    exact ⟨h1, h2.trans hdirty⟩

/-- A client call whose new request, and whose request tried again, has something to send. -/
lemma callClient_loaded {n : Node} (h : Loaded n) (i : ClientId) {a : ClientCall}
    (ha : ∀ r ∈ a.passed, r.accepted = false ∧
      (r.isBirth = false → (n.pub r.publisher).cur.hasDirty = true))
    (hagain : (n.client i).cur.triesAgain a = true →
      ∀ r ∈ (n.client i).cur.publishQueue.head?, r.isBirth = false →
        (n.pub r.publisher).cur.hasDirty = true) : Loaded (n.callClient i a) := by
  have htaken : ∀ p, (∃ r ∈ ((n.client i).cur.taken a).publishQueue, r.IsDataOf p ∧
      r.accepted = false) → (n.pub p).cur.hasDirty = true := by
    rintro p ⟨r, hr, hdata, hacc⟩
    have hqueued : r ∈ (n.client i).cur.publishQueue → (n.pub p).cur.hasDirty = true :=
      fun hr => h.dirty p ⟨i, r, hr, hdata, hacc⟩
    cases a with
    | request q =>
      rcases List.mem_append.mp hr with hr | hr
      · exact hqueued hr
      · obtain rfl := List.mem_singleton.mp hr
        exact hdata.1 ▸ (ha r rfl).2 hdata.2
    | _ => exact hqueued hr
  have hbuilt : ∀ p ∈ dataBuilt (n.clientEffects i a), (n.pub p).cur.hasDirty = true := by
    intro p hp
    rcases step_builds (h.front i) (fun r hr => (ha r hr).1) hp with hw | ⟨ht, r, hr, hdata⟩
    · exact htaken p hw
    · exact hdata.1 ▸ hagain ht r hr hdata.2
  have hpub : ∀ p, _ := fun p => payloads_sent (payloadCalls n.time p (n.clientEffects i a))
    (n.pub p) (h.sent p) fun c hc => by
      obtain ⟨b, e, hb⟩ := mem_payloadCalls hc
      exact ⟨b, _, e, fun h => hbuilt p (hb h)⟩
  refine ⟨fun j => ?_, fun p hw => ?_, fun p => ?_⟩
  · rw [callClient_client]
    split
    · exact step_frontOnly (h.front i) fun r hr => (ha r hr).1
    · exact h.front j
  · rw [callClient_pub, (hpub p).2]
    obtain ⟨j, r, hr, hdata, hacc⟩ := hw
    rw [callClient_client] at hr
    split at hr
    · obtain ⟨q, hq, hkey, hqacc⟩ := (step_steps (n.client i).cur a).thins.2 r hr
      refine htaken p ⟨q, hq, IsDataOf.of_key hkey hdata, ?_⟩
      cases hqa : q.accepted with
      | false => rfl
      | true => exact absurd (hacc.symm.trans (hqacc hqa)) (by simp)
    · exact h.dirty p ⟨j, r, hr, hdata, hacc⟩
  · rw [callClient_pub]
    exact (hpub p).1

lemma callClient_loaded_of_ne {n : Node} (h : Loaded n) (i : ClientId) {a : ClientCall}
    (ha : a.passed = none) (hagain : (n.client i).cur.triesAgain a = false) :
    Loaded (n.callClient i a) :=
  callClient_loaded h i (by simp [ha]) (by simp [hagain])

lemma publish_loaded {n : Node} (h : Loaded n) (p : PubId) (b : Bool) : Loaded (n.publish p b) := by
  by_cases hdue : b = true ∨ (n.pub p).cur.canPublish = true
  · rcases publish_cases n p b with ⟨e, -⟩ | ⟨e, -⟩ | ⟨i, -, e⟩
    · rwa [e]
    · rw [e]
      have hp := publishing_loaded h p
      exact ⟨hp.front, hp.dirty, hp.sent⟩
    · rw [e, requested]
      have hp := publishing_loaded h p
      have hprep : Loaded (n.prepared p b) := by
        refine ⟨?_, fun q hq => ?_, fun q => ?_⟩
        · simpa using hp.front
        · rw [prepared_pub]
          exact hp.dirty q (by simpa [Waiting] using hq)
        · rw [prepared_pub]
          exact hp.sent q
      refine callClient_loaded hprep i (fun r hr => ?_) (by simp [triesAgain])
      obtain rfl : n.requestFor p b = r := Option.some.inj hr
      refine ⟨rfl, fun hb => ?_⟩
      have hc : (n.pub p).cur.canPublish = true := hdue.resolve_left (by
        rw [show b = false from hb]
        simp)
      simp only [canPublish, Bool.and_eq_true] at hc
      simpa [requestFor, Publishable.step, hasDirty, Publishable.publishing] using hc.2
  · rw [publish_of_not_due hdue]
    exact h

/-! ### Whole runs -/

lemma loaded_ownKept : OwnKept Loaded where
  configure _ i _ h := callClient_loaded_of_ne h i rfl rfl
  pub _ p _ ha h := outside_loaded h p ha
  free _ _ _ _ _ h := ⟨h.front, h.dirty, h.sent⟩
  publish _ p b h := publish_loaded h p b
  deactivate _ i h := callClient_loaded_of_ne h i rfl rfl
  disconnect _ i h := callClient_loaded_of_ne h i rfl rfl
  pop _ _ _ _ _ _ h := ⟨h.front, h.dirty, h.sent⟩
  activate _ i h := callClient_loaded_of_ne h i rfl rfl
  hostStates _ _ h := ⟨h.front, h.dirty, h.sent⟩
  activeClient _ _ h := ⟨h.front, h.dirty, h.sent⟩
  fault _ h := ⟨h.front, h.dirty, h.sent⟩

lemma step_loaded {n : Node} (h : Loaded n) (a : NodeCall) (hc : KeepsData n a) :
    Loaded (n.step a) := by
  refine step_own loaded_ownKept h a ?_ ?_ ?_
  · rintro i rfl
    exact callClient_loaded h i (by simp [ClientCall.passed]) (hc.again i _ rfl)
  · rintro i l rfl
    exact callClient_loaded h i (by simp [ClientCall.passed]) (hc.again i _ rfl)
  · intro i e rest p ha hq hp
    have hnot : ¬Waiting n p := hc.report p (by simp [ha, processedReport, hq, hp])
    have hpop : Loaded { n with eventQueue := rest } := ⟨h.front, h.dirty, h.sent⟩
    exact callPub_loaded hpop rfl fun hw => absurd hw hnot

lemma create_loaded (s : NodeSetup) : Loaded (create s) where
  front i r hr := by cases hr
  dirty p hw := by
    obtain ⟨i, r, hr, -⟩ := hw
    cases hr
  sent p := by cases p <;> trivial

/-- **No data message is empty** in a run whose reports leave the waiting data alone. -/
theorem noEmptyData_of_keepsData (s : NodeSetup) (calls : List NodeCall)
    (h : Each step KeepsData (create s) calls) : Along step NoEmptyData (create s) calls := by
  have halong : Along step Loaded (create s) calls :=
    along_of_each (fun _ a hn hc => step_loaded hn a hc) (create_loaded s) h
  exact halong.mono fun _ hn => hn.sent

/-- No report is processed and nothing is tried again. -/
def disturbsNothing (n : Node) (a : NodeCall) : Bool :=
  (processedReport n a).isNone && (drives a).all fun d => !(n.client d.1).cur.triesAgain d.2

lemma keepsData_of_disturbsNothing {n : Node} {a : NodeCall} (h : n.disturbsNothing a = true) :
    KeepsData n a := by
  simp only [disturbsNothing, Bool.and_eq_true, Option.isNone_iff_eq_none] at h
  refine ⟨by simp [h.1], fun i c hd ht => ?_⟩
  have := h.2
  simp [hd, ht] at this

/-- A birth is delivered and reported, then data is sent. -/
def dataAfterBirth : List NodeCall :=
  [.addClient, .enable, .executeClient 0, .library 0 .onConnect, .processEvent,
    .library 0 .onCommandSubscription, .processEvent, .library 0 (.onDelivery 1), .processEvent,
    .setValue .node 0 [1], .poll .node 30, .library 0 (.onDelivery 1)]

theorem dataAfterBirth_notEmpty : Along step NoEmptyData (create .oneMetric) dataAfterBirth := by
  have hbefore : Each step (fun n a => n.disturbsNothing a = true) (create .oneMetric)
      (dataAfterBirth.take 8) := by decide
  have hafter : Each step (fun n a => n.disturbsNothing a = true)
      (run step (create .oneMetric) (dataAfterBirth.take 9)) (dataAfterBirth.drop 9) := by decide
  refine noEmptyData_of_keepsData .oneMetric dataAfterBirth ?_
  rw [← List.take_append_drop 8 dataAfterBirth, each_append]
  refine ⟨hbefore.mono fun _ _ => keepsData_of_disturbsNothing, ⟨fun p _ => ?_, ?_⟩,
    hafter.mono fun _ _ => keepsData_of_disturbsNothing⟩
  · -- no request is left in a queue
    rintro ⟨i, r, hr, -⟩
    cases i with
    | zero =>
      have hnil : ((run step (create .oneMetric) (dataAfterBirth.take 8)).client
          0).cur.publishQueue = [] := by decide
      exact List.eq_nil_iff_forall_not_mem.mp hnil r hr
    | succ i => exact absurd hr List.not_mem_nil
  · rintro i c ⟨⟩

/-- A data request of the node is made while two births of it are outstanding, and the
report of the second one is processed before its payload is built. -/
def reportedWhileWaiting : List NodeCall :=
  [.addClient, .addDevice 0, .enable, .executeClient 0, .library 0 .onConnect, .processEvent,
    .library 0 .onCommandSubscription, .processEvent, .requestPublish .node true,
    .requestPublish (.device 0) true, .library 0 (.onDelivery 1), .processEvent,
    .setValue .node 0 [1], .poll .node 30, .library 0 (.onDelivery 1), .library 0 (.onDelivery 1),
    .processEvent, .processEvent, .library 0 (.onDelivery 1)]

/-- An NDATA without a metric is built, and the library gets every payload. -/
theorem reportedWhileWaiting_empty :
    ¬NoEmptyData (run step (create .oneMetric) reportedWhileWaiting) ∧
      ∀ a ∈ Sequence.attempts
        ((run step (create .oneMetric) reportedWhileWaiting).client 0).cur.log,
        a.outcome ≠ .unencoded :=
  ⟨fun h => absurd (h .node) (by decide), by decide⟩

end Node

end Sparkplug
