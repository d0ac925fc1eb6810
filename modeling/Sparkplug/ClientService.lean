import Sparkplug.Service
import Sparkplug.Recursion
import Sparkplug.Primary

/-!
A client as a service.

The queues of the three classes are served in different ways: `PahoSyncClient` waits for the front
message in every `sync`, and the others are called back. With a library that does what it is asked
all three are the same service: a request waits its turn, is tried as often as the retries allow,
and is told of.
-/

namespace Sparkplug

open Machine

namespace Client

/-! ### What the calls mean to the service -/

/-- The requests in the queue, and the reports. -/
def service (c : Client) : Service.State Ledger.Key where
  waiting := c.publishQueue.map fun r => (r.key, r.retryCount)
  told := (Ledger.reports c.log).map fun p => (p.1.key, p.2)

/-- The token is that of the front request. -/
def isFront (c : Client) (token : ℤ) : Bool := c.publishQueue.head?.map (·.token) = some token

/-- A call brings a request, or the answer to the front request: the synchronous class takes it
from its library when it is executed. -/
def means (c : Client) : ClientCall → List (Service.Call Ledger.Key)
  | .request r => [.take r.key r.retryCount]
  | .execute => if c.kind = .pahoSync then [.answer true] else []
  | .library (.onDelivery token) =>
    if registers c.kind (.onDelivery token) && c.isFront token then [.answer true] else []
  | .library (.onDeliveryFailure token) =>
    if registers c.kind (.onDeliveryFailure token) && c.isFront token then [.answer false] else []
  | _ => []

/-- The library does what it is asked. -/
structure Obliging (kind : ClientKind) (l : Answers) : Prop where
  connected : ∀ k, l.connected.get k = true
  encoded : ∀ k, 0 < l.encoded.get k
  send : ∀ k, (l.send.get k).refused kind = false

/-- A primary client that is not disconnected, with such a library. -/
structure Served (c : Client) : Prop where
  primary : c.isPrimary = true
  state : c.state ≠ .disconnected
  library : Obliging c.kind c.lib

/-- The library does what it is asked, and no connection ends while a client synchronizes. -/
structure Reliable (kind : ClientKind) (l : Answers) : Prop extends Obliging kind l where
  completion : kind = .pahoSync → ∀ k, l.completion.get k = mqttSuccess
  pending : kind = .pahoSync → ∀ k,
    (l.pending.get k).1 = none → (l.pending.get k).2 ≠ mqttDisconnected
  received : kind = .pahoSync → ∀ k, (l.received.get k).2 ≠ mqttDisconnected

lemma reliable_default (kind : ClientKind) : Reliable kind {} where
  connected _ := rfl
  encoded _ := Nat.one_pos
  send _ := by cases kind <;> rfl
  completion _ _ := rfl
  pending _ _ h := absurd (show some ([] : List ℤ) = none from h) (by simp)
  received _ _ := (by decide : (0 : ℤ) ≠ mqttDisconnected)

/-- A primary client that is not disconnected, with such a library. -/
structure OnDuty (c : Client) : Prop where
  primary : c.isPrimary = true
  state : c.state ≠ .disconnected
  library : Reliable c.kind c.lib

/-- The session of the client goes on, and its library stays reliable. -/
def Undisturbed (c : Client) : ClientCall → Prop
  | .deactivate | .disconnect => False
  | .library .onDisconnect | .library .onConnectFailure => c.kind = .pahoSync
  | .library (.answers l) => Reliable c.kind l
  | _ => True

/-! ### What leaves the service -/

/-- From `c` to `d` the client is on duty, and the service is `s`. -/
structure Becomes (s : Service.State Ledger.Key) (c d : Client) : Prop where
  onDuty : OnDuty d
  kind : d.kind = c.kind
  service : d.service = s

section OnDuty

variable {kind : ClientKind} {l : Answers} {b c d : Client} {r : PublishRequest}
  {rest : List PublishRequest} {s : Service.State Ledger.Key → Service.State Ledger.Key}

lemma Reliable.sent (h : Reliable kind l) : Reliable kind l.sent :=
  ⟨⟨h.connected, fun k => h.encoded (k + 1), fun k => h.send (k + 1)⟩, h.completion, h.pending,
    h.received⟩

/-- The library of an asynchronous class is asked for nothing else. -/
lemma Served.onDuty (h : Served c) (hk : c.kind ≠ .pahoSync) : OnDuty c :=
  ⟨h.primary, h.state, h.library, fun hs => absurd hs hk, fun hs => absurd hs hk,
    fun hs => absurd hs hk⟩

lemma OnDuty.of_same (h : OnDuty c) (hp : d.isPrimary = c.isPrimary) (hs : d.state = c.state)
    (hk : d.kind = c.kind) (hl : d.lib = c.lib) : OnDuty d :=
  ⟨hp ▸ h.primary, hs ▸ h.state, by rw [hk, hl]; exact h.library⟩

lemma OnDuty.asked (h : OnDuty c) (q : Question) : OnDuty (c.asked q) := by
  obtain ⟨hprimary, hstate, ⟨⟨hconnected, hencoded, hsend⟩, hcompletion, hpending, hreceived⟩⟩ := h
  refine ⟨by simpa using hprimary, by simpa using hstate, ?_⟩
  cases q with
  | connected =>
    exact ⟨⟨fun k => hconnected (k + 1), hencoded, hsend⟩, hcompletion, hpending, hreceived⟩
  | code => exact ⟨⟨hconnected, hencoded, hsend⟩, hcompletion, hpending, hreceived⟩
  | send => exact ⟨⟨hconnected, hencoded, fun k => hsend (k + 1)⟩, hcompletion, hpending, hreceived⟩
  | encoded =>
    exact ⟨⟨hconnected, fun k => hencoded (k + 1), hsend⟩, hcompletion, hpending, hreceived⟩
  | completion =>
    exact ⟨⟨hconnected, hencoded, hsend⟩, fun hk k => hcompletion hk (k + 1), hpending, hreceived⟩
  | pending =>
    exact ⟨⟨hconnected, hencoded, hsend⟩, hcompletion, fun hk k => hpending hk (k + 1), hreceived⟩
  | received =>
    exact ⟨⟨hconnected, hencoded, hsend⟩, hcompletion, hpending, fun hk k => hreceived hk (k + 1)⟩

lemma OnDuty.isConnected (h : OnDuty c) : c.isConnected = true := h.library.connected 0

/-- What neither changes the queue nor reports. -/
lemma service_of_log {l : List Effect} (hq : d.publishQueue = c.publishQueue)
    (hl : d.log = c.log ++ l) (hr : Ledger.reports l = []) : d.service = c.service := by
  rw [service, service, hq, hl, Ledger.reports_append, hr, List.append_nil]

lemma service_of_same (hq : d.publishQueue = c.publishQueue) (hl : d.log = c.log) :
    d.service = c.service :=
  service_of_log (l := []) hq (by rw [hl, List.append_nil]) rfl

lemma waiting_modifyHead {f : PublishRequest → PublishRequest} (hk : ∀ r, (f r).key = r.key)
    (hr : ∀ r, (f r).retryCount = r.retryCount) (q : List PublishRequest) :
    (q.modifyHead f).map (fun r => (r.key, r.retryCount)) =
      q.map fun r => (r.key, r.retryCount) := by
  cases q <;> simp [hk, hr]

lemma acceptedFront_becomes (h : OnDuty c) (r : PublishRequest) :
    Becomes c.service c (c.returned r (c.acceptedFront r)) := by
  have haccepted : Becomes c.service c (c.acceptedFront r) := by
    refine ⟨⟨h.primary, by simp [acceptedFront, tried], h.library.sent⟩, rfl, ?_⟩
    have hwaiting : (c.acceptedFront r).service.waiting = c.service.waiting :=
      waiting_modifyHead (f := fun q => { q with token := c.sendAnswer.token, accepted := true })
        (fun _ => rfl) (fun _ => rfl) c.publishQueue
    have htold : (c.acceptedFront r).service.told = c.service.told := by
      simp [service, acceptedFront, tried, attemptLog, Ledger.reports, Effect.report]
    exact Service.State.ext hwaiting htold
  unfold returned
  split
  · exact haccepted
  · exact haccepted
  · have hservice :
        ((c.acceptedFront r).emit (.access r.id)).service = (c.acceptedFront r).service :=
      service_of_log (l := [.access r.id]) rfl rfl rfl
    exact ⟨haccepted.onDuty.of_same rfl rfl rfl rfl, rfl, hservice.trans haccepted.service⟩

/-- The front request leaves with a report. -/
lemma service_told (hd : d.publishQueue = rest) {e : Effect}
    {b : Bool} {l : List Effect} (he : e.report = some (r, b)) (hl : d.log = c.log ++ l ++ [e])
    (hr : Ledger.reports l = []) :
    d.service = ⟨rest.map fun r => (r.key, r.retryCount), c.service.told ++ [(r.key, b)]⟩ := by
  rw [service, hd, hl, Ledger.reports_append, Ledger.reports_append, hr]
  simp [service, Ledger.reports, he]

/-- **A round of publishing** leaves the service, and a failure is an answer to it. -/
lemma service_rounds : Rounds (fun c d => OnDuty c → Becomes c.service c d)
    (fun c d => OnDuty c → Becomes c.service c d)
    (fun c d => OnDuty c → Becomes (c.service.answer publishRetries false) c d) where
  away c hc h := by simp [h.isConnected] at hc
  idle c _ _ := by
    refine ⟨fun h => ⟨h.asked .connected, rfl, service_of_same rfl rfl⟩, fun hs h => ?_⟩
    rw [setState_eq (by simp)]
    exact ⟨⟨h.primary, by simp, (h.asked .connected).library⟩, rfl, service_of_same rfl rfl⟩
  publish c r rest d _ _ _ hprocess h := by
    obtain ⟨hduty, hkind, hservice⟩ := hprocess (h.asked .connected)
    exact ⟨hduty, hkind, hservice.trans (service_of_same rfl rfl)⟩
  skipped c r rest _ hs h := absurd hs h.state
  unencoded c r rest _ _ he h := absurd he (h.library.encoded 0).ne'
  accepted c r _ _ _ _ _ h := acceptedFront_becomes h r
  refused c r rest _ _ _ ha _ h := by
    have := h.library.send 0
    rw [sendAnswer, Stream'.head, this] at ha
    cases ha
  failed c r rest d _ _ _ ha _ _ h := by
    have := h.library.send 0
    rw [sendAnswer, Stream'.head, this] at ha
    cases ha
  giveUp c r rest d hq hr hpublish h := by
    obtain ⟨hduty, hkind, hservice⟩ := hpublish (h.of_same rfl rfl rfl rfl)
    have htold : (c.exhaustedFront r).service =
        ⟨rest.map fun r => (r.key, r.retryCount), c.service.told ++ [(r.key, false)]⟩ :=
      service_told (e := .undelivered r) (l := [.access r.id]) (exhaustedFront_queue hq) rfl rfl rfl
    refine ⟨hduty, hkind, ?_⟩
    calc d.service = (c.exhaustedFront r).service := hservice
      _ = ⟨rest.map fun r => (r.key, r.retryCount), c.service.told ++ [(r.key, false)]⟩ := htold
      _ = c.service.answer publishRetries false := by simp [Service.State.answer, service, hq, hr]
  lost c r rest d _ _ hc _ h := by simp [h.isConnected] at hc
  retry c r rest d hq hr _ hprocess h := by
    obtain ⟨hduty, hkind, hservice⟩ := hprocess ((h.asked .connected).of_same rfl rfl rfl rfl)
    refine ⟨hduty, hkind, hservice.trans ?_⟩
    have hlog : Ledger.reports (c.retriedFront r).log = Ledger.reports c.log := by
      simp [retriedFront, modifyFront, emit, Ledger.reports, Effect.report]
    rw [service, retriedFront_queue hq, hlog]
    simp [Service.State.answer, service, hq, hr, PublishRequest.key]

/-! ### The calls -/

lemma Becomes.refl (h : OnDuty c) : Becomes c.service c c := ⟨h, rfl, rfl⟩

/-- After something that leaves the service. -/
lemma Becomes.after (h : Becomes b.service b c) (k : OnDuty c → Becomes (s c.service) c d) :
    Becomes (s b.service) b d := by
  obtain ⟨hduty, hkind, hservice⟩ := k h.onDuty
  exact ⟨hduty, hkind.trans h.kind, by rw [hservice, h.service]⟩

/-- An operation that keeps what matters. -/
lemma Becomes.of_same (hduty : OnDuty d) (hk : d.kind = c.kind)
    (hq : d.publishQueue = c.publishQueue) {l : List Effect} (hl : d.log = c.log ++ l)
    (hr : Ledger.reports l = []) : Becomes c.service c d :=
  ⟨hduty, hk, service_of_log hq hl hr⟩

lemma asked_becomes (h : OnDuty c) (q : Question) : Becomes c.service c (c.asked q) :=
  ⟨h.asked q, by simp, service_of_same (by simp) (by simp)⟩

lemma deliverFront_becomes (h : OnDuty c) (hq : c.publishQueue = r :: rest) :
    Becomes (c.service.answer publishRetries true) c (c.deliverFront r) := by
  have hnext : OnDuty ({ c with publishQueue := c.publishQueue.tail }.delivered r) :=
    h.of_same rfl rfl rfl rfl
  obtain ⟨hduty, hkind, hservice⟩ := service_rounds.publishFromQueue _ hnext
  have htold : ({ c with publishQueue := c.publishQueue.tail }.delivered r).service =
      ⟨rest.map fun r => (r.key, r.retryCount), c.service.told ++ [(r.key, true)]⟩ :=
    service_told (e := .delivered r) (l := []) (by simp [delivered, hq]) rfl
      (by simp [delivered, emit]) rfl
  refine ⟨hduty, hkind, ?_⟩
  calc (c.deliverFront r).service
      = ⟨rest.map fun r => (r.key, r.retryCount), c.service.told ++ [(r.key, true)]⟩ :=
        hservice.trans htold
    _ = c.service.answer publishRetries true := by simp [Service.State.answer, service, hq]

lemma request_becomes (h : OnDuty c) (r : PublishRequest) :
    Becomes (Service.step publishRetries c.service (.take r.key r.retryCount)) c (c.request r) := by
  have hqueued : OnDuty (c.enqueue r) := h.of_same rfl rfl rfl rfl
  have hservice : (c.enqueue r).service =
      Service.step publishRetries c.service (.take r.key r.retryCount) := by
    simp [service, enqueue, Service.step]
  have hlater : Becomes (c.enqueue r).service (c.enqueue r) (c.request r) := by
    simp only [request]
    repeat' split
    · exact (asked_becomes hqueued .connected).after (s := id) fun h =>
        service_rounds.publishFromQueue _ h
    · exact asked_becomes hqueued .connected
    · exact .refl hqueued
  exact ⟨hlater.onDuty, hlater.kind, hlater.service.trans hservice⟩

/-! ### Synchronizing -/

lemma syncPending_becomes (h : OnDuty c) (hk : c.kind = .pahoSync) :
    c.syncPending.2 = true ∧ Becomes c.service c c.syncPending.1 := by
  have hasked := asked_becomes h .pending
  unfold syncPending
  split
  · exact ⟨rfl, hasked.after (s := id) fun h => service_rounds.publishFromQueue _ h⟩
  · exact ⟨rfl, hasked⟩
  · next result heq =>
    have hresult : result ≠ mqttDisconnected := by
      have hnone := h.library.pending hk 0
      rw [show c.lib.pending.get 0 = (none, result) from heq] at hnone
      exact hnone rfl
    rw [if_neg hresult]
    exact ⟨rfl, hasked⟩

/-- The front message has been waited for: it is an answer, if there was one. -/
lemma syncQueue_becomes (h : OnDuty c) (hk : c.kind = .pahoSync) :
    c.syncQueue.2 = true ∧ Becomes (c.service.answer publishRetries true) c c.syncQueue.1 := by
  cases hq : c.publishQueue with
  | nil =>
    have hsame : c.service.answer publishRetries true = c.service := by
      simp [Service.State.answer, service, hq]
    have hnone : c.syncQueue = (c, true) := by
      unfold syncQueue
      rw [hq]
    rw [hnone, hsame]
    exact ⟨rfl, .refl h⟩
  | cons r rest =>
    have hcompletion : c.waitForCompletion = mqttSuccess := h.library.completion hk 0
    have hwaited : Becomes c.service c
        (((c.emit (.access r.id)).asked .completion).calledBack r.token) :=
      .of_same ((h.of_same rfl rfl rfl rfl : OnDuty (c.emit (.access r.id))).asked .completion
        |>.of_same rfl rfl rfl rfl) rfl rfl (l := [.access r.id]) rfl rfl
    have hdelivered : Becomes (c.service.answer publishRetries true) c _ :=
      hwaited.after (s := (·.answer publishRetries true))
        fun hduty => deliverFront_becomes hduty (show _ = r :: rest from hq)
    obtain ⟨hgoes, hpending⟩ := syncPending_becomes hdelivered.onDuty (hdelivered.kind.trans hk)
    have hsync : c.syncQueue = ((((c.emit (.access r.id)).asked .completion).calledBack
        r.token).deliverFront r).syncPending := by
      unfold syncQueue
      rw [hq]
      exact if_pos hcompletion
    rw [hsync]
    exact ⟨hgoes, hpending.onDuty, hpending.kind.trans hdelivered.kind,
      hpending.service.trans hdelivered.service⟩

/-- The messages received are passed on. -/
lemma messages_becomes (h : OnDuty c) (ms : List (Str × Str)) :
    Becomes c.service c (ms.foldl (fun c m => c.messageReceived m.1 m.2) c) := by
  induction ms generalizing c with
  | nil => exact .refl h
  | cons m ms ih =>
    have hone : Becomes c.service c (c.messageReceived m.1 m.2) :=
      .of_same (h.of_same rfl rfl rfl rfl) rfl rfl (l := [.onEvent (.message m.1 m.2)]) rfl rfl
    exact hone.after (s := id) ih

lemma syncReceive_becomes (h : OnDuty c) (hk : c.kind = .pahoSync) :
    Becomes c.service c c.syncReceive := by
  have hresult : c.receive.2 ≠ mqttDisconnected := h.library.received hk 0
  unfold syncReceive
  simp only [if_neg hresult]
  exact (asked_becomes h .received).after (s := id) fun h => messages_becomes h _

lemma execute_becomes (h : OnDuty c) :
    Becomes (run (Service.step publishRetries) c.service (c.means .execute)) c c.execute := by
  unfold execute
  rw [if_neg h.state]
  by_cases hk : c.kind = .pahoSync
  · obtain ⟨hgoes, hqueue⟩ := syncQueue_becomes h hk
    have hsync : c.sync = c.syncQueue.1.syncReceive := by
      unfold sync
      split <;> simp_all
    have hreceive := syncReceive_becomes hqueue.onDuty (hqueue.kind.trans hk)
    rw [hsync, means, if_pos hk]
    exact ⟨hreceive.onDuty, hreceive.kind.trans hqueue.kind, hreceive.service.trans hqueue.service⟩
  · rw [sync_of_ne hk, means, if_neg hk]
    exact .refl h

/-! ### Callbacks -/

lemma calledBack_becomes (h : OnDuty c) (token : ℤ) : Becomes c.service c (c.calledBack token) :=
  .of_same (h.of_same rfl rfl rfl rfl) rfl rfl (l := []) (by simp [calledBack]) rfl

lemma onDelivery_becomes (h : OnDuty c) (token : ℤ) :
    Becomes (run (Service.step publishRetries) c.service
      (if c.isFront token then [.answer true] else [])) c (c.onDelivery token) := by
  have hback := calledBack_becomes h token
  unfold onDelivery isFront
  cases hq : c.publishQueue with
  | nil =>
    have hempty : Becomes (c.calledBack token).service (c.calledBack token)
        ((c.calledBack token).emit .emptyFront) :=
      .of_same (hback.onDuty.of_same rfl rfl rfl rfl) rfl rfl (l := [.emptyFront]) rfl
        rfl
    exact hback.after (s := id) fun _ => hempty
  | cons r rest =>
    have haccess : Becomes c.service c ((c.calledBack token).emit (.access r.id)) :=
      hback.after (s := id) fun h =>
        .of_same (h.of_same rfl rfl rfl rfl) rfl rfl (l := [.access r.id]) rfl rfl
    simp only [List.head?_cons, Option.map_some, Option.some.injEq, decide_eq_true_eq]
    split
    · exact haccess.after (s := (·.answer publishRetries true))
        fun hduty => deliverFront_becomes hduty (show _ = r :: rest from hq)
    · exact haccess

lemma onDeliveryFailure_becomes (h : OnDuty c) (token : ℤ) :
    Becomes (run (Service.step publishRetries) c.service
      (if c.isFront token then [.answer false] else [])) c
      ((c.calledBack token).onDeliveryFailure token) := by
  have hback := calledBack_becomes h token
  unfold isFront
  cases hq : c.publishQueue with
  | nil =>
    rw [onDeliveryFailure_of_nil (c := c.calledBack token) hq]
    exact hback
  | cons r rest =>
    simp only [List.head?_cons, Option.map_some, Option.some.injEq, decide_eq_true_eq]
    by_cases htoken : r.token = token
    · subst htoken
      rw [if_pos rfl]
      exact hback.after (s := (·.answer publishRetries false))
        (service_rounds.onDeliveryFailure (show _ = r :: rest from hq))
    · rw [if_neg htoken, onDeliveryFailure_of_ne (c := c.calledBack token) hq htoken]
      exact hback.after (s := id) fun h =>
        .of_same (h.of_same rfl rfl rfl rfl) rfl rfl (l := [.access r.id]) rfl rfl

lemma activated_becomes (h : OnDuty c) : Becomes c.service c c.activated := by
  unfold activated
  split
  · exact .of_same (h.of_same rfl rfl rfl rfl) rfl rfl (l := [.onEvent .active]) rfl rfl
  · exact .refl h

lemma connected_becomes (h : OnDuty c) : Becomes c.service c c.connected := by
  have hsession : Becomes c.service c (({ c with
      up := true, commands := none, inflight := [] }.setState .connected).emit
        (.onEvent .connected)) := by
    rw [setState_eq (by simp)]
    exact .of_same ⟨h.primary, by simp [emit], h.library⟩ rfl rfl (l := [.onEvent .connected])
      rfl rfl
  simp only [connected]
  split
  · exact hsession.after (s := id) fun h => asked_becomes h .code
  · exact hsession

lemma configureClient_becomes (h : OnDuty c) : Becomes c.service c c.configureClient.2 := by
  have hasked := asked_becomes h .code
  have htwice := hasked.after (s := id) fun h => asked_becomes h .code
  simp only [configureClient]
  split
  · split <;> exact hasked
  · repeat' split
    · exact hasked
    · exact htwice
    · exact htwice
  · exact .of_same (h.of_same rfl rfl rfl rfl) rfl rfl (l := []) (by simp [incrementBdSeq]) rfl

lemma configure_becomes (h : OnDuty c) (topics : ClientTopicOptions) :
    Becomes c.service c (c.configure topics).2 := by
  have htopics : OnDuty { c with topics := topics } := h.of_same rfl rfl rfl rfl
  have hclient : Becomes c.service c { c with topics := topics }.configureClient.2 := by
    obtain ⟨hduty, hkind, hservice⟩ := configureClient_becomes htopics
    exact ⟨hduty, hkind, hservice⟩
  simp only [configure]
  split
  · exact hclient
  · exact ⟨hclient.onDuty.of_same rfl rfl rfl rfl, hclient.kind, hclient.service⟩

/-- The callbacks of the library. -/
lemma callback_becomes (h : OnDuty c) {l : LibraryCall} (hc : Undisturbed c (.library l)) :
    Becomes (run (Service.step publishRetries) c.service (c.means (.library l))) c
      (c.callback l) := by
  unfold callback
  cases hreg : registers c.kind l with
  | false =>
    have hnone : c.means (.library l) = [] := by cases l <;> simp [means, hreg]
    rw [hnone, if_neg (by simp)]
    exact .refl h
  | true =>
    rw [if_pos rfl]
    cases l with
    | answers l => exact ⟨⟨h.primary, h.state, hc⟩, rfl, service_of_same rfl rfl⟩
    | onDelivery token =>
      simp only [means, hreg, Bool.true_and]
      exact onDelivery_becomes h token
    | onDeliveryFailure token =>
      simp only [means, hreg, Bool.true_and]
      exact onDeliveryFailure_becomes h token
    | onMessage topic payload =>
      exact .of_same (h.of_same rfl rfl rfl rfl) rfl rfl
        (l := [.onEvent (.message topic payload)]) rfl rfl
    | onDisconnect | onConnectFailure =>
      rw [show c.kind = .pahoSync from hc] at hreg
      cases hreg
    | onConnect => exact connected_becomes h
    | onCommandSubscription => exact activated_becomes h
    | link | onCommandSubscribeFailure =>
      exact ⟨h.of_same rfl rfl rfl rfl, rfl, service_of_same rfl rfl⟩
    | onSubscribeResult token reasonCodes =>
      have hrefused : OnDuty { c with commands := some false } := h.of_same rfl rfl rfl rfl
      simp only [handle, onSubscribeResult]
      repeat' split
      · obtain ⟨hduty, hkind, hservice⟩ := activated_becomes hrefused
        exact ⟨hduty, hkind, hservice⟩
      · exact activated_becomes h
      · exact .refl h

/-- **A call is to the service what it means.** -/
lemma step_becomes (h : OnDuty c) {a : ClientCall} (hc : Undisturbed c a) :
    Becomes (run (Service.step publishRetries) c.service (c.means a)) c (c.step a) := by
  cases a with
  | configure topics => exact configure_becomes h topics
  | activate =>
    rw [step, activate_of_isPrimary h.primary]
    exact .refl h
  | deactivate | disconnect => exact hc.elim
  | request r => exact request_becomes h r
  | execute => exact execute_becomes h
  | library l => exact callback_becomes h hc

/-- **A client is a service**: in every run of calls during which its session goes on, the requests
that wait and what was told of them are those of the service, which takes the requests and gets
the answers that the calls mean. -/
lemma run_service (h : OnDuty c) {calls : List ClientCall} (hc : Each step Undisturbed c calls) :
    OnDuty (run step c calls) ∧ (run step c calls).service =
      run (Service.step publishRetries) c.service (outputs step means c calls) :=
  run_refines service
    (fun _ _ h hc => ⟨(step_becomes h hc).onDuty, (step_becomes h hc).service⟩) h hc

end OnDuty

end Client

end Sparkplug
