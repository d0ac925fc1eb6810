import Sparkplug.ClientService
import Sparkplug.Publishing
import Sparkplug.Execute

/-!
What waits is settled.

An asynchronous client publishes one request at a time and waits for its library to call back. If
the library does what it is asked (it is connected, it encodes, it takes each message) and calls
back for every message, with a success or a failure, no request waits forever: there is a bound
for the number of callbacks, and after that the node knows what has become of every request.

On duty in a run of the node, a client of any class is the service: its calls mean to the service
what they do to the client, and it reports what the service reports.
-/

namespace Sparkplug

open Machine

namespace Client

/-! ### One callback -/

section Served

variable {c d : Client}

/-- From `c` to `d` the client is still served, is of its class, and has no more attempts left
than `k`. -/
structure Attended (k : ℕ) (c d : Client) : Prop where
  served : Served d
  kind : d.kind = c.kind
  left : attemptsLeft d.publishQueue ≤ k

/-- The library calls back for the front message, with a success or a failure. -/
def answered (c : Client) (success : Bool) : Client :=
  match c.publishQueue with
  | [] => c
  | r :: _ => c.callback (if success then .onDelivery r.token else .onDeliveryFailure r.token)

lemma answersLeft_service (c : Client) :
    Service.answersLeft publishRetries c.service.waiting = attemptsLeft c.publishQueue := by
  rw [service]
  induction c.publishQueue with
  | nil => rfl
  | cons r q ih => rw [List.map_cons, Service.answersLeft, ih, attemptsLeft]

/-- **A callback for the front message** uses up one of the attempts at least. -/
lemma answered_attended (h : Served c) (hk : c.kind ≠ .pahoSync) (success : Bool) :
    Attended (attemptsLeft c.publishQueue - 1) c (c.answered success) := by
  unfold answered
  cases hq : c.publishQueue with
  | nil => exact ⟨h, rfl, by simp [hq, attemptsLeft]⟩
  | cons r rest =>
    simp only
    generalize hl : (if success then LibraryCall.onDelivery r.token
      else .onDeliveryFailure r.token) = l
    have hfront : c.isFront r.token = true := by simp [isFront, hq]
    have hmeans : c.means (.library l) = [.answer success] := by
      subst hl
      cases hkind : c.kind <;> cases success <;>
        first | exact absurd hkind hk | simp [means, registers, hkind, hfront]
    have hundisturbed : Undisturbed c (.library l) := by
      subst hl
      cases success <;> trivial
    obtain ⟨hduty, hsame, hservice⟩ := callback_becomes (h.onDuty hk) hundisturbed
    refine ⟨⟨hduty.primary, hduty.state, hduty.library.toObliging⟩, hsame, ?_⟩
    rw [← hq, ← answersLeft_service, ← answersLeft_service, hservice, hmeans]
    exact Service.answer_less publishRetries c.service success

/-- From `c` to `d` no event has been raised but reports. -/
def OnlyReports (c d : Client) : Prop := ∃ l, d.log = c.log ++ l ∧ ∀ e, .onEvent e ∉ l

lemma OnlyReports.trans {b : Client} (h : OnlyReports b c) (k : OnlyReports c d) :
    OnlyReports b d := by
  obtain ⟨l, hl, hev⟩ := h
  obtain ⟨m, hm, kev⟩ := k
  refine ⟨l ++ m, by rw [hm, hl, List.append_assoc], fun e he => ?_⟩
  exact (List.mem_append.mp he).elim (hev e) (kev e)

lemma onlyReports_of_log (h : d.log = c.log) : OnlyReports c d := ⟨[], by simp [h], by simp⟩

lemma publishFromQueue_onlyReports (c : Client) : OnlyReports c c.publishFromQueue :=
  (publishFromQueue_publishes (A := {}) c).quiet.2

lemma onDelivery_onlyReports (c : Client) (token : ℤ) : OnlyReports c (c.onDelivery token) := by
  have hback : OnlyReports c (c.calledBack token) := onlyReports_of_log rfl
  unfold onDelivery
  cases hq : c.publishQueue with
  | nil => exact hback.trans ⟨[.emptyFront], rfl, by simp⟩
  | cons r rest =>
    have haccess : OnlyReports c ((c.calledBack token).emit (.access r.id)) :=
      hback.trans ⟨[.access r.id], rfl, by simp⟩
    simp only
    split
    · have hdelivered : ∀ d : Client,
          OnlyReports d ({ d with publishQueue := d.publishQueue.tail }.delivered r) :=
        fun _ => ⟨[.delivered r], rfl, by simp⟩
      exact haccess.trans ((hdelivered _).trans (publishFromQueue_onlyReports _))
    · exact haccess

lemma answered_onlyReports (c : Client) (success : Bool) : OnlyReports c (c.answered success) := by
  unfold answered
  split
  · exact onlyReports_of_log rfl
  next r rest hq =>
  cases success with
  | true =>
    rw [if_pos rfl, callback]
    split
    · exact onDelivery_onlyReports c r.token
    · exact onlyReports_of_log rfl
  | false =>
    rw [if_neg (by simp), callback]
    split
    · exact (onDeliveryFailure_publishes_all (c.calledBack r.token) r.token).quiet.2
    · exact onlyReports_of_log rfl

/-- What waits has been reported or waits still. -/
lemma answered_conserves (c : Client) (success : Bool) :
    Ledger.Conserves c (c.answered success) := by
  unfold answered
  split
  · exact .refl c
  · exact Ledger.step_conserves c (.library _)

end Served

end Client

namespace Node

/-! ### The node -/

/-- The library of client `i` calls back for the front message. -/
def answeredBy (i : ClientId) (n : Node) (success : Bool) : Node :=
  match (n.client i).cur.publishQueue with
  | [] => n
  | r :: _ =>
    n.step (.library i (if success then .onDelivery r.token else .onDeliveryFailure r.token))

/-- A node of which `i` is an asynchronous client that is served. -/
structure Serves (n : Node) (i : ClientId) : Prop where
  faulted : n.faulted = false
  client : i ∈ n.clients
  kind : (n.client i).cur.kind ≠ .pahoSync
  served : (n.client i).cur.Served

/-- There is nothing to handle but reports. -/
def AwaitsReports (n : Node) : Prop := ∀ x ∈ n.eventQueue, x.2.isReport = true

instance (n : Node) : Decidable (AwaitsReports n) :=
  inferInstanceAs (Decidable (∀ x ∈ n.eventQueue, x.2.isReport = true))

/-- A request of `p` waits in the queue of the client, or its report waits to be handled. -/
def Accounted (n : Node) (i : ClientId) (p : PubId) : Prop :=
  (∃ r ∈ (n.client i).cur.publishQueue, r.publisher = p) ∨
    ∃ x ∈ n.eventQueue, reportOf x.2 = some p

section Answers

variable {n : Node} {i : ClientId}

/-- A callback is one for the client, and what it raises goes to the event queue. -/
lemma answeredBy_eq (h : n.Serves i) (success : Bool) : ∃ l,
    ((answeredBy i n success).client i).cur = (n.client i).cur.answered success ∧
    (answeredBy i n success).faulted = false ∧ (answeredBy i n success).clients = n.clients ∧
    ((n.client i).cur.answered success).log = (n.client i).cur.log ++ l ∧
    (answeredBy i n success).eventQueue =
      n.eventQueue ++ (l.filterMap Effect.raised).map fun e => (i, e) := by
  unfold answeredBy Client.answered
  cases hq : (n.client i).cur.publishQueue with
  | nil => exact ⟨[], rfl, h.faulted, rfl, by simp, by simp⟩
  | cons r rest =>
    simp only
    generalize hl : (if success then LibraryCall.onDelivery r.token
      else .onDeliveryFailure r.token) = l
    have hstep : n.step (.library i l) = n.callClient i (.library l) := by
      rw [step, if_neg (by simp [h.faulted]), handle, if_pos h.client]
    obtain ⟨k, hk, -⟩ := Ledger.step_conserves (n.client i).cur (.library l)
    have heff : n.clientEffects i (.library l) = k := Ledger.effects_eq hk
    refine ⟨k, ?_, ?_, ?_, hk, ?_⟩
    · rw [hstep, callClient_client, if_pos rfl]
      rfl
    · rw [hstep, callClient_faulted, h.faulted]
    · rw [hstep, callClient_eq]
      rfl
    · rw [hstep, callClient_eventQueue, heff]

lemma answeredBy_serves (h : n.Serves i) (success : Bool) : (answeredBy i n success).Serves i := by
  obtain ⟨-, hclient, hfaulted, hclients, -⟩ := answeredBy_eq h success
  have hattended := Client.answered_attended h.served h.kind success
  refine ⟨hfaulted, hclients ▸ h.client, ?_, ?_⟩
  · rw [hclient, hattended.kind]
    exact h.kind
  · rw [hclient]
    exact hattended.served

/-- A callback raises nothing but reports. -/
lemma answeredBy_awaitsReports (h : n.Serves i) (success : Bool) (hr : n.AwaitsReports) :
    (answeredBy i n success).AwaitsReports := by
  obtain ⟨l, -, -, -, hlog, hqueue⟩ := answeredBy_eq h success
  obtain ⟨l', hlog', hreports⟩ := (n.client i).cur.answered_onlyReports success
  obtain rfl : l = l' := List.append_cancel_left (hlog.symm.trans hlog')
  intro x hx
  rw [hqueue] at hx
  rcases List.mem_append.mp hx with hx | hx
  · exact hr x hx
  · obtain ⟨e, he, rfl⟩ := List.mem_map.mp hx
    obtain ⟨f, hf, hraised⟩ := List.mem_filterMap.mp he
    refine isReport_of_raised hraised ?_
    rintro e rfl
    exact hreports e hf

lemma answeredBy_accounted (h : n.Serves i) (success : Bool) {p : PubId} (hp : n.Accounted i p) :
    (answeredBy i n success).Accounted i p := by
  obtain ⟨l, hclient, -, -, hlog, hqueue⟩ := answeredBy_eq h success
  obtain ⟨l', hlog', hkeys, hann⟩ := (n.client i).cur.answered_conserves success
  obtain rfl : l = l' := List.append_cancel_left (hlog.symm.trans hlog')
  rw [Accounted, hclient, hqueue]
  rcases hp with ⟨r, hr, rfl⟩ | ⟨x, hx, hrep⟩
  · have hkey : r.key ∈ Ledger.keys (n.client i).cur.publishQueue := List.mem_map_of_mem hr
    rw [hkeys] at hkey
    rcases List.mem_append.mp hkey with hkey | hkey
    · -- the report is among the events raised
      obtain ⟨x, hx, hxr⟩ := List.mem_map.mp hkey
      have hmem : x.event ∈ Ledger.announced l := hann ▸ List.mem_map_of_mem hx
      have hraised := (List.mem_filter.mp hmem).1
      have hpub : x.1.publisher = r.publisher := congrArg (fun k : Ledger.Key => k.2.1) hxr
      refine .inr ⟨(i, x.event), ?_, ?_⟩
      · exact List.mem_append_right _ (List.mem_map_of_mem hraised)
      · rw [reportOf_event, hpub]
    · obtain ⟨q, hq, hqr⟩ := List.mem_map.mp hkey
      exact .inl ⟨q, hq, congrArg (fun k : Ledger.Key => k.2.1) hqr⟩
  · exact .inr ⟨x, List.mem_append_left _ hx, hrep⟩

end Answers

/-! ### Handling reports -/

/-- Reports are handled one after the other, and leave their publishables idle. -/
lemma processEvents_reports (q : List (ClientId × ClientEvent)) : ∀ n : Node, n.faulted = false →
    n.eventQueue = q → (∀ x ∈ q, x.2.isReport = true) →
    n.processEvents.faulted = false ∧ n.processEvents.eventQueue = [] ∧
      n.processEvents.client = n.client ∧ n.processEvents.activeClient = n.activeClient ∧
      ∀ p, (n.pub p).cur.state = .idle ∨ (∃ x ∈ q, reportOf x.2 = some p) →
        (n.processEvents.pub p).cur.state = .idle := by
  induction q with
  | nil =>
    intro n hf hq _
    have hend : n.processEvents = n := by
      rw [processEvents, dif_pos (.inr hq)]
    rw [hend]
    exact ⟨hf, hq, rfl, rfl, fun p hp => hp.resolve_right (by simp)⟩
  | cons x q ih =>
    intro n hf hq hrep
    rw [List.forall_mem_cons] at hrep
    obtain ⟨p, hp⟩ : ∃ p, reportOf x.2 = some p := by
      obtain ⟨i, e⟩ := x
      cases e <;> first | exact ⟨_, rfl⟩ | cases hrep.1
    have hround : n.processEvent = { n with eventQueue := q }.callPub p .published := by
      obtain ⟨i, e⟩ := x
      rw [processEvent, hq]
      cases e <;> cases hp <;> rfl
    have hloop : n.processEvents = n.processEvent.processEvents := by
      rw [processEvents, dif_neg (by simp [hf, hq])]
    obtain ⟨hfaulted, hqueue, hclient, hactive, hidle⟩ :=
      ih n.processEvent (by rw [hround]; exact hf) (by rw [hround]; rfl) hrep.2
    rw [hloop]
    refine ⟨hfaulted, hqueue, ?_, ?_, fun p' hp' => hidle p' ?_⟩
    · rw [hclient, hround]
      rfl
    · rw [hactive, hround]
      rfl
    · rw [hround, callPub_pub]
      split
      · exact .inl rfl
      · next hne =>
        rcases hp' with hp' | ⟨y, hy, hyp⟩
        · exact .inl hp'
        · rcases List.mem_cons.mp hy with rfl | hy
          · exact absurd (Option.some.inj (hyp.symm.trans hp)) hne
          · exact .inr ⟨y, hy, hyp⟩

/-- Nothing waits at the client, and of every request that did wait there is a report. -/
structure Drained (n m : Node) (i : ClientId) : Prop where
  empty : (m.client i).cur.publishQueue = []
  reported : ∀ r ∈ (n.client i).cur.publishQueue,
    ∃ x ∈ m.eventQueue, reportOf x.2 = some r.publisher

/-- Nothing waits: not at the client, not at the node, and no publishable for a request that did
wait. -/
structure Cleared (n m : Node) (i : ClientId) : Prop where
  faulted : m.faulted = false
  handled : m.eventQueue = []
  empty : (m.client i).cur.publishQueue = []
  idle : ∀ r ∈ (n.client i).cur.publishQueue, (m.pub r.publisher).cur.state = .idle

lemma Drained.cleared {n m : Node} {i : ClientId} (h : Drained n m i) (hf : m.faulted = false)
    (hr : m.AwaitsReports) : Cleared n m.processEvents i := by
  obtain ⟨hfaulted, hhandled, hclient, -, hidle⟩ := processEvents_reports _ m hf rfl hr
  exact ⟨hfaulted, hhandled, by rw [hclient, h.empty], fun r hq => hidle _ (.inr (h.reported r hq))⟩

/-- A client becomes active, and the births of the node and a device are on their way. -/
def birthsWaiting : List NodeCall :=
  [.addClient, .addDevice 0, .enable, .executeClient 0, .library 0 .onConnect, .processEvent,
    .library 0 .onCommandSubscription, .processEvent]

lemma birthsWaiting_serves : (run step (create .oneMetric) birthsWaiting).Serves 0 where
  faulted := by decide
  client := by decide
  kind := by decide
  served := ⟨by decide, by decide, ⟨fun _ => rfl, fun _ => Nat.one_pos, fun _ => rfl⟩⟩

/-- The calls to client `i` on the way from `n` to `m`. -/
def callsTo (n m : Node) (i : ClientId) : List ClientCall :=
  (m.client i).hist.drop (n.client i).hist.length

lemma clientExtends_stable (x : ClientId → Traced Client.step) :
    Stable fun n => ∀ i, (n.client i).init = (x i).init ∧ (x i).hist <+: (n.client i).hist where
  client n i a hn j := by
    rw [callClient_client]
    split
    · next h =>
      subst h
      exact ⟨(hn j).1, (hn j).2.trans (List.prefix_append _ _)⟩
    · exact hn j
  pub n p a hn := hn
  free hn hc _ i := hc ▸ hn i

/-- What happens to a client in a run of the node is a run of the client. -/
lemma client_callsTo (n : Node) (calls : List NodeCall) (i : ClientId) :
    ((run step n calls).client i).cur =
      run Client.step (n.client i).cur (n.callsTo (run step n calls) i) := by
  obtain ⟨hinit, hprefix⟩ :=
    (clientExtends_stable n.client).reached (fun _ => ⟨rfl, List.prefix_refl _⟩) calls i
  have hhist := List.prefix_iff_eq_append.mp hprefix
  rw [← ((run step n calls).client i).replay, hinit, ← hhist, run_append, (n.client i).replay]
  rfl

/-- The calls to a client on duty do not end its session. -/
def StaysOnDuty (n : Node) (calls : List NodeCall) (i : ClientId) : Prop :=
  Each Client.step Client.Undisturbed (n.client i).cur (n.callsTo (run step n calls) i)

/-- What the calls to client `i` in a run mean to the service. -/
def serviceCalls (n : Node) (calls : List NodeCall) (i : ClientId) :
    List (Service.Call Ledger.Key) :=
  outputs Client.step Client.means (n.client i).cur (n.callsTo (run step n calls) i)

lemma run_client_service {n : Node} {calls : List NodeCall} {i : ClientId}
    (h : (n.client i).cur.OnDuty) (hc : StaysOnDuty n calls i) :
    ((run step n calls).client i).cur.OnDuty ∧ ((run step n calls).client i).cur.service =
      run (Service.step publishRetries) (n.client i).cur.service (n.serviceCalls calls i) := by
  rw [client_callsTo]
  exact Client.run_service h hc

/-- **The three classes are one service.** Whatever happens in a node, as long as the session of a
client goes on with a library that does what it is asked, the queue of the client and its reports
are those of a service that takes the requests and gets the answers of the library: the first
request is answered, and one that fails is tried again up to the limit. -/
theorem client_refines_service (n : Node) (calls : List NodeCall) (i : ClientId)
    (h : (n.client i).cur.OnDuty) (hc : StaysOnDuty n calls i) :
    ((run step n calls).client i).cur.service =
      run (Service.step publishRetries) (n.client i).cur.service (n.serviceCalls calls i) :=
  (run_client_service h hc).2

/-- The birth of the node fails and another one is requested, before the first one is delivered. -/
def failedThenDelivered : List NodeCall :=
  [.library 0 (.onDeliveryFailure 1), .requestPublish .node true, .library 0 (.onDelivery 1),
    .processEvent]

lemma birthsWaiting_onDuty :
    ((run step (create .oneMetric) birthsWaiting).client 0).cur.OnDuty where
  primary := by decide
  state := by decide
  library := Client.reliable_default _

lemma failedThenDelivered_staysOnDuty :
    StaysOnDuty (run step (create .oneMetric) birthsWaiting) failedThenDelivered 0 :=
  ⟨trivial, trivial, trivial, trivial⟩

theorem failedThenDelivered_refines :
    ((run step (run step (create .oneMetric) birthsWaiting) failedThenDelivered).client
        0).cur.service =
      run (Service.step publishRetries)
        ((run step (create .oneMetric) birthsWaiting).client 0).cur.service
        ((run step (create .oneMetric) birthsWaiting).serviceCalls failedThenDelivered 0) :=
  client_refines_service (run step (create .oneMetric) birthsWaiting) failedThenDelivered 0
    birthsWaiting_onDuty failedThenDelivered_staysOnDuty

/-- The library has answered for all requests in the queue at `n`: as often as they have attempts
left, or with as many successes as there are requests. -/
def Answered (n : Node) (calls : List NodeCall) (i : ClientId) : Prop :=
  Service.answersLeft publishRetries (n.client i).cur.service.waiting ≤
      (n.serviceCalls calls i).countP Service.Call.isAnswer ∨
    (n.client i).cur.publishQueue.length ≤ (n.serviceCalls calls i).countP Service.Call.isSuccess

/-- **The queue is answered for in order and in time**: the requests in the queue have been
reported, in their order and before any that came later, once the library has answered often
enough, whatever else has happened. -/
theorem queue_reported (n : Node) (calls : List NodeCall) (i : ClientId)
    (h : (n.client i).cur.OnDuty) (hc : StaysOnDuty n calls i) (ha : Answered n calls i) :
    Ledger.reported (n.client i).cur.log ++ Ledger.keys (n.client i).cur.publishQueue <+:
      Ledger.reported ((run step n calls).client i).cur.log := by
  have htold : ∀ c : Client, c.service.told.map Prod.fst = Ledger.reported c.log := by
    intro c
    simp [Client.service, Ledger.reported]
  have hkeys : (n.client i).cur.service.waiting.map Prod.fst =
      Ledger.keys (n.client i).cur.publishQueue := by
    simp [Client.service, Ledger.keys]
  have henough : Service.answersLeft publishRetries (n.client i).cur.service.waiting ≤
        (n.serviceCalls calls i).countP Service.Call.isAnswer ∨
      (n.client i).cur.service.waiting.length ≤
        (n.serviceCalls calls i).countP Service.Call.isSuccess := by
    rw [Client.service, List.length_map]
    exact ha
  have hall : (n.client i).cur.service.waiting = (n.client i).cur.service.waiting ++ [] :=
    (List.append_nil _).symm
  have hanswered := Service.told_of_answers hall henough
  rwa [← (run_client_service h hc).2, htold, htold, hkeys] at hanswered

/-- The births of the node and a device wait at a client that synchronizes. -/
def syncBirths : List NodeCall :=
  [.addClient, .addDevice 0, .enable, .executeClient 0, .processEvent, .processEvent]

/-- Both are delivered, and another one comes in between. -/
def bothDelivered : List NodeCall :=
  [.executeClient 0, .requestPublish .node true, .executeClient 0, .processEvent]

lemma syncBirths_onDuty :
    ((run step (create (.plain .pahoSync)) syncBirths).client 0).cur.OnDuty where
  primary := by decide
  state := by decide
  library := Client.reliable_default _

lemma bothDelivered_staysOnDuty :
    StaysOnDuty (run step (create (.plain .pahoSync)) syncBirths) bothDelivered 0 :=
  ⟨trivial, trivial, trivial, trivial⟩

theorem bothDelivered_reported :
    Ledger.reported ((run step (create (.plain .pahoSync)) syncBirths).client 0).cur.log ++
        Ledger.keys
          ((run step (create (.plain .pahoSync)) syncBirths).client 0).cur.publishQueue <+:
      Ledger.reported ((run step (run step (create (.plain .pahoSync)) syncBirths)
        bothDelivered).client 0).cur.log :=
  queue_reported (run step (create (.plain .pahoSync)) syncBirths) bothDelivered 0
    syncBirths_onDuty bothDelivered_staysOnDuty (.inr (by decide))

end Node

end Sparkplug
