import Sparkplug.NodeSteps

/-!
What the publishing state means.

A publishable enters the state when a request is made for it and leaves it at the first
report, whichever request the report is about. So the state says that a request is
outstanding as long as no report is processed while another request is.
-/

namespace Sparkplug.Node

open Machine Client

/-! ### Outstanding requests -/

/-- The number of requests for `p` passed to a client. -/
def passedFor (t : Traced Client.step) (p : PubId) : ℕ :=
  (t.hist.filterMap ClientCall.passed).countP fun r => r.publisher = p

/-- The number of requests for `p` the client has reported. -/
def reportedFor (t : Traced Client.step) (p : PubId) : ℕ :=
  (Ledger.reports t.cur.log).countP fun r => r.1.publisher = p

/-- A request for `p` was passed to a client and has not been reported. -/
def Outstanding (n : Node) (p : PubId) : Prop :=
  ∃ i, reportedFor (n.client i) p < passedFor (n.client i) p

/-- A request for `p` is in a client's queue. -/
def Queued (n : Node) (p : PubId) : Prop :=
  ∃ i, ∃ r ∈ (n.client i).cur.publishQueue, r.publisher = p

/-- The books of every client are balanced. -/
def AllBalanced (n : Node) : Prop :=
  ∀ i, Ledger.Balanced ((n.client i).hist.filterMap ClientCall.passed) (n.client i).cur

lemma allBalanced_stable : Stable AllBalanced where
  client n i a hn j := by
    rw [callClient_client]
    split
    · have hlist : ((n.client i).act a).hist.filterMap ClientCall.passed =
          (n.client i).hist.filterMap ClientCall.passed ++ a.passed.toList := by
        rw [Traced.act_hist, List.filterMap_append]
        cases h : a.passed <;> simp [h]
      rw [hlist]
      exact ((hn i).taken a).conserves (Ledger.step_conserves _ a)
    · exact hn j
  pub n p a hn := hn
  free hn hc _ i := hc ▸ hn i

lemma create_allBalanced (s : NodeSetup) : AllBalanced (create s) := fun _ => ⟨rfl, rfl⟩

/-- By the books, the outstanding requests are those in the queues. -/
lemma outstanding_iff_queued {n : Node} (h : AllBalanced n) (p : PubId) :
    Outstanding n p ↔ Queued n p := by
  refine exists_congr fun i => ?_
  have hcount : passedFor (n.client i) p = reportedFor (n.client i) p +
      (n.client i).cur.publishQueue.countP fun r => r.publisher = p := by
    have hkeys := congrArg (List.countP fun k : Ledger.Key => k.2.1 = p) (h i).resolved
    rw [List.countP_append, Ledger.reported, Ledger.keys, Ledger.keys, List.countP_map,
      List.countP_map, List.countP_map] at hkeys
    exact hkeys
  rw [hcount, Nat.lt_add_right_iff_pos, List.countP_pos_iff]
  simp

/-! ### The invariant -/

/-- A report about `p` waits to be processed. -/
def ReportWaits (n : Node) (p : PubId) : Prop :=
  ∃ e ∈ n.eventQueue, reportOf e.2 = some p

/-- A publishable with a request in a queue is publishing, and one that is publishing has a
request in a queue or a report to come. -/
structure Matches (n : Node) : Prop where
  publishing : ∀ p, Queued n p → (n.pub p).cur.state = .publishing
  accounted : ∀ p, (n.pub p).cur.state = .publishing →
    n.faulted = true ∨ Queued n p ∨ ReportWaits n p

lemma payload_state (t : Traced Publishable.step) (time : ℕ) (p : PubId) (l : List Effect) :
    ((payloadCalls time p l).foldl Traced.act t).cur.state = t.cur.state := by
  rw [foldl_act_cur]
  have hall : ∀ a ∈ payloadCalls time p l, ∃ b, a = .addToPayload b time := by
    intro a ha
    obtain ⟨e, -, he⟩ := List.mem_filterMap.mp ha
    cases e <;> simp at he
    exact ⟨_, he.2.symm⟩
  generalize payloadCalls time p l = as at hall
  generalize t.cur = q
  induction as generalizing q with
  | nil => rfl
  | cons a as ih =>
    obtain ⟨b, rfl⟩ := hall a (by simp)
    rw [run_cons, ih (fun a ha => hall a (by simp [ha]))]
    rfl

lemma callClient_state (n : Node) (i : ClientId) (a : ClientCall) (p : PubId) :
    ((n.callClient i a).pub p).cur.state = (n.pub p).cur.state := by
  rw [callClient_pub, payload_state]

lemma mem_keys_publisher {q : List PublishRequest} {p : PubId} :
    (∃ r ∈ q, r.publisher = p) ↔ ∃ k ∈ Ledger.keys q, k.2.1 = p := by
  simp [Ledger.keys, PublishRequest.key]

lemma reportOf_event (r : Report) : reportOf r.event = some r.1.publisher := by
  unfold Report.event
  split <;> rfl

/-- What was queued at a client is queued there or is about to be reported, and what is
queued was. -/
lemma callClient_queue (n : Node) (i : ClientId) (a : ClientCall) (p : PubId) :
    ((∃ r ∈ ((n.client i).cur.taken a).publishQueue, r.publisher = p) →
      (∃ r ∈ ((n.client i).cur.step a).publishQueue, r.publisher = p) ∨
        ReportWaits (n.callClient i a) p) ∧
    ((∃ r ∈ ((n.client i).cur.step a).publishQueue, r.publisher = p) →
      ∃ r ∈ ((n.client i).cur.taken a).publishQueue, r.publisher = p) := by
  obtain ⟨l, hl, hkeys, hann⟩ := Ledger.step_conserves (n.client i).cur a
  have heff : n.clientEffects i a = l := Ledger.effects_eq (by rw [hl, taken_log])
  simp only [mem_keys_publisher, hkeys]
  refine ⟨?_, ?_⟩
  · rintro ⟨k, hk, hp⟩
    rcases List.mem_append.mp hk with hk | hk
    · obtain ⟨r, hr, rfl⟩ := List.mem_map.mp hk
      have hmem : r.event ∈ l.filterMap Effect.raised := by
        have : r.event ∈ Ledger.announced l := by
          rw [hann]
          exact List.mem_map_of_mem hr
        exact List.mem_of_mem_filter this
      refine .inr ⟨(i, r.event), ?_, by rw [reportOf_event]; exact congrArg some hp⟩
      rw [callClient_eventQueue, heff]
      exact List.mem_append_right _ (List.mem_map_of_mem hmem)
    · exact .inl ⟨k, hk, hp⟩
  · rintro ⟨k, hk, hp⟩
    exact ⟨k, List.mem_append_right _ hk, hp⟩

lemma ReportWaits.callClient {n : Node} {p : PubId} (h : ReportWaits n p) (i : ClientId)
    (a : ClientCall) : ReportWaits (n.callClient i a) p := by
  obtain ⟨e, he, hp⟩ := h
  exact ⟨e, by rw [callClient_eventQueue]; exact List.mem_append_left _ he, hp⟩

/-- A client call that is no request moves requests from the queue to the reports. -/
lemma callClient_queued {n : Node} {i : ClientId} {a : ClientCall} (ha : ∀ r, a ≠ .request r)
    (p : PubId) : (Queued n p → Queued (n.callClient i a) p ∨ ReportWaits (n.callClient i a) p) ∧
      (Queued (n.callClient i a) p → Queued n p) := by
  have htaken : ((n.client i).cur.taken a).publishQueue = (n.client i).cur.publishQueue := by
    cases a <;> first | rfl | exact absurd rfl (ha _)
  obtain ⟨hto, hfrom⟩ := callClient_queue n i a p
  rw [htaken] at hto hfrom
  refine ⟨?_, ?_⟩
  · rintro ⟨j, hj⟩
    by_cases hij : j = i
    · subst hij
      exact (hto hj).imp (fun h => ⟨j, by simpa using h⟩) id
    · exact .inl ⟨j, by simpa [hij] using hj⟩
  · rintro ⟨j, hj⟩
    by_cases hij : j = i
    · subst hij
      exact ⟨j, hfrom (by simpa using hj)⟩
    · exact ⟨j, by simpa [hij] using hj⟩

lemma callClient_matches {n : Node} (h : Matches n) (i : ClientId) {a : ClientCall}
    (ha : ∀ r, a ≠ .request r) : Matches (n.callClient i a) where
  publishing p hq := by
    rw [callClient_state]
    exact h.publishing p ((callClient_queued ha p).2 hq)
  accounted p hs := by
    rw [callClient_state] at hs
    rw [callClient_faulted]
    rcases h.accounted p hs with hf | hq | hw
    · exact .inl hf
    · exact .inr ((callClient_queued ha p).1 hq)
    · exact .inr (.inr (hw.callClient i a))

/-- A request adds its publishable to what is queued. -/
lemma requested_queued (n : Node) (p : PubId) (b : Bool) (i : ClientId) (q : PubId) :
    (q = p ∨ Queued n q →
      Queued (n.requested p b i) q ∨ ReportWaits (n.requested p b i) q) ∧
    (Queued (n.requested p b i) q → q = p ∨ Queued n q) := by
  have hother : ∀ j, j ≠ i → (n.requested p b i).client j = n.client j := by
    intro j hj
    simp [requested, hj]
  have hself : (n.requested p b i).client i = (n.client i).act (.request (n.requestFor p b)) := by
    simp [requested]
  have hqueue := callClient_queue (n.prepared p b) i (.request (n.requestFor p b)) q
  simp only [prepared_client, taken, enqueue, List.mem_append, List.mem_singleton] at hqueue
  refine ⟨?_, ?_⟩
  · have hto : (∃ r, (r ∈ (n.client i).cur.publishQueue ∨ r = n.requestFor p b) ∧
        r.publisher = q) → Queued (n.requested p b i) q ∨ ReportWaits (n.requested p b i) q := by
      intro hr
      refine (hqueue.1 hr).imp (fun h => ⟨i, ?_⟩) id
      rw [hself]
      exact h
    rintro (rfl | ⟨j, r, hr, hq⟩)
    · exact hto ⟨n.requestFor q b, .inr rfl, rfl⟩
    · by_cases hj : j = i
      · subst hj
        exact hto ⟨r, .inl hr, hq⟩
      · exact .inl ⟨j, r, by rwa [hother j hj], hq⟩
  · rintro ⟨j, r, hr, hq⟩
    by_cases hj : j = i
    · subst hj
      rw [hself] at hr
      obtain ⟨r', hr' | rfl, hq'⟩ := hqueue.2 ⟨r, hr, hq⟩
      · exact .inr ⟨j, r', hr', hq'⟩
      · exact .inl hq'.symm
    · rw [hother j hj] at hr
      exact .inr ⟨j, r, hr, hq⟩

lemma ReportWaits.requested {n : Node} {q : PubId} (h : ReportWaits n q) (p : PubId) (b : Bool)
    (i : ClientId) : ReportWaits (n.requested p b i) q := by
  obtain ⟨e, he, hp⟩ := h
  refine ⟨e, ?_, hp⟩
  rw [Node.requested, callClient_eventQueue, prepared_eventQueue]
  exact List.mem_append_left _ he

lemma requested_matches {n : Node} (h : Matches n) (p : PubId) (b : Bool) (i : ClientId) :
    Matches (n.requested p b i) := by
  have hstate : ∀ q, ((n.requested p b i).pub q).cur.state =
      if q = p then .publishing else (n.pub q).cur.state := by
    intro q
    rw [requested, callClient_state, prepared_pub, callPub_pub]
    split <;> rfl
  refine ⟨?_, ?_⟩
  · intro q hq
    rw [hstate]
    split
    · rfl
    · next hqp => exact h.publishing q (((requested_queued n p b i q).2 hq).resolve_left hqp)
  · intro q hs
    rw [hstate] at hs
    have hto := (requested_queued n p b i q).1
    split at hs
    · next hqp => exact .inr (hto (.inl hqp))
    · rcases h.accounted q hs with hf | hq | hw
      · exact .inl (by simpa [requested] using hf)
      · exact .inr (hto (.inr hq))
      · exact .inr (.inr (hw.requested p b i))

lemma publish_matches {n : Node} (h : Matches n) (p : PubId) (b : Bool) :
    Matches (n.publish p b) := by
  rcases publish_cases n p b with ⟨e, -⟩ | ⟨e, -⟩ | ⟨i, -, e⟩
  · rwa [e]
  · rw [e]
    refine ⟨fun q hq => ?_, fun _ _ => .inl rfl⟩
    by_cases hqp : q = p
    · simp [hqp, Publishable.step]
    · simpa [hqp] using h.publishing q hq
  · rw [e]
    exact requested_matches h p b i

lemma callPub_matches {n : Node} (h : Matches n) (p : PubId) {a : PublishableCall}
    (ha : a ≠ .publishing) (hb : a ≠ .published) : Matches (n.callPub p a) := by
  have hstep : ((n.pub p).cur.step a).state = .publishing ↔ (n.pub p).cur.state = .publishing := by
    cases a with
    | publishing => exact absurd rfl ha
    | published => exact absurd rfl hb
    | update elapsed =>
      refine ⟨?_, ?_⟩
      · intro hs
        by_contra hne
        exact Publishable.update_ne_publishing hne elapsed hs
      · intro hs
        rw [Publishable.step, Publishable.update_publishing hs]
        exact hs
    | _ => rfl
  have hstate : ∀ q, ((n.callPub p a).pub q).cur.state = .publishing ↔
      (n.pub q).cur.state = .publishing := by
    intro q
    rw [callPub_pub]
    split
    · next hq => rw [hq]; exact hstep
    · rfl
  exact ⟨fun q hq => (hstate q).mpr (h.publishing q hq),
    fun q hs => h.accounted q ((hstate q).mp hs)⟩

lemma matches_eventKept : EventKept Matches where
  publish _ p b h := publish_matches h p b
  client _ i _ _ hr h := callClient_matches h i hr
  pub _ p _ ha hb h := callPub_matches h p ha hb
  free _ _ _ _ _ h := ⟨h.publishing, h.accounted⟩
  pop n i e rest hq he h := by
    refine ⟨h.publishing, fun p hs => ?_⟩
    rcases h.accounted p hs with hf | hqd | ⟨e', he', hp⟩
    · exact .inl hf
    · exact .inr (.inl hqd)
    · rw [hq] at he'
      rcases List.mem_cons.mp he' with rfl | he'
      · cases e <;> simp_all [reportOf, ClientEvent.isReport]
      · exact .inr (.inr ⟨e', he', hp⟩)
  activate _ i h := callClient_matches h i (by simp)
  hostStates _ _ h := ⟨h.publishing, h.accounted⟩
  activeClient _ _ h := ⟨h.publishing, h.accounted⟩
  fault _ h := ⟨h.publishing, fun _ _ => .inl rfl⟩

/-! ### Whole runs -/

/-- The publishable whose report an action processes. -/
def processedReport (n : Node) : NodeCall → Option PubId
  | .processEvent => n.eventQueue.head?.bind fun e => reportOf e.2
  | _ => none

/-- A report is processed only when no other request of its publishable is outstanding. -/
def AcksLast (n : Node) (a : NodeCall) : Prop := ∀ p ∈ processedReport n a, ¬Outstanding n p

/-- With no events left, publishing means outstanding, and then the timer is held and no
data publish is made. -/
def PublishingIsOutstanding (n : Node) : Prop :=
  n.faulted = false → n.eventQueue = [] → ∀ p,
    ((n.pub p).cur.state = .publishing ↔ Outstanding n p) ∧
    (Outstanding n p → (n.pub p).cur.canPublish = false ∧
      ∀ elapsed, (n.pub p).cur.update elapsed = ((n.pub p).cur.publishPeriod, (n.pub p).cur))

lemma step_matches {n : Node} (hb : AllBalanced n) (h : Matches n) (a : NodeCall)
    (hc : AcksLast n a) : Matches (n.step a) := by
  refine step_kept matches_eventKept h a fun i e rest p ha hq hp => ?_
  have hnot : ¬Queued n p := by
    rw [← outstanding_iff_queued hb]
    exact hc p (by simp [ha, processedReport, hq, hp])
  refine ⟨?_, ?_⟩
  · intro q hqd
    by_cases hqp : q = p
    · exact absurd (hqp ▸ hqd) hnot
    · simpa [hqp] using h.publishing q hqd
  · intro q hs
    by_cases hqp : q = p
    · simp [hqp, Publishable.step] at hs
    · rcases h.accounted q (by simpa [hqp] using hs) with hf | hqd | ⟨e', he', hp'⟩
      · exact .inl hf
      · exact .inr (.inl hqd)
      · rw [hq] at he'
        rcases List.mem_cons.mp he' with rfl | he'
        · exact absurd (Option.some.inj (hp'.symm.trans hp)) hqp
        · exact .inr (.inr ⟨e', he', hp'⟩)

lemma create_matches (s : NodeSetup) : Matches (create s) := by
  refine ⟨fun p hq => ?_, fun p hs => ?_⟩
  · obtain ⟨i, r, hr, -⟩ := hq
    cases hr
  · cases p <;> cases hs

lemma Matches.publishingIsOutstanding {n : Node} (h : Matches n) (hb : AllBalanced n) :
    PublishingIsOutstanding n := by
  intro hf hq p
  rw [outstanding_iff_queued hb]
  refine ⟨⟨fun hs => ?_, h.publishing p⟩, fun ho => ?_⟩
  · rcases h.accounted p hs with hf' | hqd | ⟨e, he, -⟩
    · exact absurd (hf.symm.trans hf') (by simp)
    · exact hqd
    · rw [hq] at he
      cases he
  · have hs := h.publishing p ho
    exact ⟨Publishable.canPublish_publishing hs, fun _ => Publishable.update_publishing hs _⟩

/-- **Publishing means outstanding** in every run in which a report is processed only when
no other request of its publishable is outstanding. -/
theorem publishing_iff_outstanding (s : NodeSetup) (calls : List NodeCall)
    (h : Each step AcksLast (create s) calls) :
    Along step PublishingIsOutstanding (create s) calls := by
  have halong : Along step (fun n => AllBalanced n ∧ Matches n) (create s) calls := by
    refine along_of_each (fun n a hn hc => ⟨?_, step_matches hn.1 hn.2 a hc⟩)
      ⟨create_allBalanced s, create_matches s⟩ h
    exact allBalanced_stable.reached hn.1 [a]
  exact halong.mono fun n hn => hn.2.publishingIsOutstanding hn.1

/-- A birth and its delivery. -/
def birthDelivered : List NodeCall :=
  [.addClient, .enable, .executeClient 0, .library 0 .onConnect, .processEvent,
    .library 0 .onCommandSubscription, .processEvent, .library 0 (.onDelivery 1), .processEvent]

theorem birthDelivered_publishing :
    Along step PublishingIsOutstanding (create (.plain .pahoAsync)) birthDelivered := by
  have hbefore : Each step (fun n a => processedReport n a = none) (create (.plain .pahoAsync))
      (birthDelivered.take 8) := by decide
  have hnone : ¬Outstanding (run step (create (.plain .pahoAsync)) (birthDelivered.take 8))
      .node := by
    rintro ⟨i, hi⟩
    cases i with
    | zero => exact absurd hi (by decide)
    | succ i => exact absurd hi (Nat.lt_irrefl 0)
  have hreport : processedReport (run step (create (.plain .pahoAsync)) (birthDelivered.take 8))
      .processEvent = some .node := by decide
  refine publishing_iff_outstanding (.plain .pahoAsync) birthDelivered ?_
  rw [← List.take_append_drop 8 birthDelivered, each_append]
  refine ⟨hbefore.mono fun n a h p hp => ?_, fun p hp => ?_, trivial⟩
  · rw [h] at hp
    cases hp
  · rw [hreport] at hp
    rwa [← Option.some.inj hp]

/-- The first birth is delivered while a second one is queued. -/
def rebornInFlight : List NodeCall :=
  [.addClient, .enable, .executeClient 0, .library 0 .onConnect, .processEvent,
    .library 0 .onCommandSubscription, .processEvent, .requestPublish .node true,
    .library 0 (.onDelivery 1), .processEvent]

/-- The node is idle although its second birth is outstanding. -/
theorem rebornInFlight_idle :
    ¬Along step PublishingIsOutstanding (create (.plain .pahoAsync)) rebornInFlight := by
  intro h
  have hout : Outstanding (run step (create (.plain .pahoAsync)) rebornInFlight) .node :=
    ⟨0, by decide⟩
  exact absurd ((h.last (by decide) (by decide) .node).1.mpr hout) (by decide)

end Sparkplug.Node
