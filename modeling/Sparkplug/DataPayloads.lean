import Sparkplug.HostState
import Sparkplug.Births

/-!
Data payloads of a client.

The payload of a data request is built when the request gets to the front of the queue, and
built again when the library reports that it failed. A request that the library has never
accepted is still waiting for a payload; one that it has accepted is built again only in
the operations named here.
-/

namespace Sparkplug

open Ledger

/-- The publishable a data payload is built for. -/
def Effect.dataPayload : Effect → Option PubId
  | .addToPayload p false => some p
  | _ => none

/-- The publishables data payloads are built for, in order. -/
def dataBuilt (l : List Effect) : List PubId := l.filterMap Effect.dataPayload

@[simp] lemma dataBuilt_append (k l : List Effect) :
    dataBuilt (k ++ l) = dataBuilt k ++ dataBuilt l := List.filterMap_append ..

/-- The request is for data of `p`. -/
def PublishRequest.IsDataOf (r : PublishRequest) (p : PubId) : Prop :=
  r.publisher = p ∧ r.isBirth = false

instance (r : PublishRequest) (p : PubId) : Decidable (r.IsDataOf p) :=
  inferInstanceAs (Decidable (_ ∧ _))

namespace Client

/-! ### What the small steps build -/

/-- From `c` to `d` data payloads were built for requests of `c` only; the requests of `d`
are requests of `c`, and accepted if they were. -/
def Thins (c d : Client) : Prop :=
  (∃ l, d.log = c.log ++ l ∧ ∀ p ∈ dataBuilt l, ∃ r ∈ c.publishQueue, r.IsDataOf p) ∧
  ∀ r ∈ d.publishQueue, ∃ q ∈ c.publishQueue, q.key = r.key ∧
    (q.accepted = true → r.accepted = true)

lemma Thins.refl (c : Client) : Thins c c :=
  ⟨⟨[], by simp, by simp [dataBuilt]⟩, fun r hr => ⟨r, hr, rfl, id⟩⟩

lemma IsDataOf.of_key {q r : PublishRequest} (h : q.key = r.key) {p : PubId} (hr : r.IsDataOf p) :
    q.IsDataOf p := by
  simp only [PublishRequest.key, Prod.mk.injEq] at h
  exact ⟨h.2.1.trans hr.1, h.2.2.trans hr.2⟩

lemma Thins.trans {b c d : Client} (h : Thins b c) (k : Thins c d) : Thins b d := by
  obtain ⟨⟨l, hl, hb⟩, hq⟩ := h
  obtain ⟨⟨m, hm, kb⟩, kq⟩ := k
  refine ⟨⟨l ++ m, by rw [hm, hl, List.append_assoc], fun p hp => ?_⟩, fun r hr => ?_⟩
  · rw [dataBuilt_append, List.mem_append] at hp
    rcases hp with hp | hp
    · exact hb p hp
    · obtain ⟨r, hr, hrp⟩ := kb p hp
      obtain ⟨q, hqm, hkey, -⟩ := hq r hr
      exact ⟨q, hqm, IsDataOf.of_key hkey hrp⟩
  · obtain ⟨q, hqm, hkey, hacc⟩ := kq r hr
    obtain ⟨q', hq', hkey', hacc'⟩ := hq q hqm
    exact ⟨q', hq', hkey'.trans hkey, fun h => hacc (hacc' h)⟩

/-- A step that builds no payload and adds nothing to the queue. -/
lemma Thins.of_quiet {c d : Client} (l : List Effect) (hl : d.log = c.log ++ l)
    (hb : dataBuilt l = []) (hq : ∀ r ∈ d.publishQueue, r ∈ c.publishQueue) : Thins c d :=
  ⟨⟨l, hl, by simp [hb]⟩, fun r hr => ⟨r, hq r hr, rfl, id⟩⟩

lemma mem_modifyHead {q : List PublishRequest} {f : PublishRequest → PublishRequest}
    (hf : ∀ r, (f r).key = r.key ∧ (r.accepted = true → (f r).accepted = true))
    {r : PublishRequest} (hr : r ∈ q.modifyHead f) :
    ∃ r' ∈ q, r'.key = r.key ∧ (r'.accepted = true → r.accepted = true) := by
  cases q with
  | nil => simp at hr
  | cons r0 q =>
    rcases List.mem_cons.mp hr with rfl | hr
    · exact ⟨r0, by simp, (hf r0).1.symm, (hf r0).2⟩
    · exact ⟨r, by simp [hr], rfl, id⟩

lemma publishStep_thins {A : Scope} {c d : Client} (h : PublishStep A c d) : Thins c d := by
  cases h with
  | asked q => exact .of_quiet [] (by simp) rfl (by simp)
  | access k => exact .of_quiet [.access k] rfl rfl fun _ => id
  | skipped r => exact .of_quiet [.skipped r] rfl rfl fun _ => id
  | idle => exact .of_quiet [] (by simp) rfl (by simp)
  | @tried r rest o f lib hq _ _ hf =>
    refine ⟨⟨attemptLog c r o, rfl, fun p hp => ⟨r, by simp [hq], ?_⟩⟩, fun q hr => ?_⟩
    · cases hb : r.isBirth with
      | true => simp [dataBuilt, attemptLog, Effect.dataPayload, hb] at hp
      | false =>
        simp [dataBuilt, attemptLog, Effect.dataPayload, hb] at hp
        exact ⟨hp, hb⟩
    · refine mem_modifyHead (fun q => ?_) hr
      cases hf <;> exact ⟨rfl, by simp⟩
  | giveUp => exact .of_quiet [.undelivered _] rfl rfl fun _ => List.mem_of_mem_tail
  | retry =>
    exact ⟨⟨[], by simp [modifyFront], by simp [dataBuilt]⟩,
      fun r hr => mem_modifyHead (f := fun q => { q with retryCount := q.retryCount + 1 })
        (fun _ => ⟨rfl, id⟩) hr⟩

lemma clientStep_thins {A : Scope} {c d : Client} (h : ClientStep A c d) : Thins c d := by
  cases h with
  | publish h => exact publishStep_thins h
  | deliver => exact .of_quiet [.delivered _] rfl rfl fun _ => List.mem_of_mem_tail
  | @event e => exact .of_quiet [.onEvent e] rfl rfl fun _ => id
  | emptyFront => exact .of_quiet [.emptyFront] rfl rfl fun _ => id
  | commandsResult b => exact .of_quiet [.subscribed b] rfl rfl fun _ => id
  | setState s => exact .of_quiet [] (by simp) rfl (by simp)
  | resign => exact .of_quiet [] (by simp [setPrimary]) rfl fun _ => id
  | surroundings l up commands inflight => exact .of_quiet [] (by simp) rfl fun _ => id
  | settings topics configured bdSeq token => exact .of_quiet [] (by simp) rfl fun _ => id

lemma Steps.thins {c d : Client} (h : Steps {} c d) : Thins c d :=
  h.rel Thins.refl Thins.trans clientStep_thins

/-- Only the front request has ever been accepted. -/
def FrontOnly (c : Client) : Prop := ∀ r ∈ c.publishQueue.tail, r.accepted = false

lemma clientStep_frontOnly {A : Scope} {c d : Client} (h : ClientStep A c d) (hc : FrontOnly c) :
    FrontOnly d := by
  have htail : FrontOnly { c with publishQueue := c.publishQueue.tail } :=
    fun r hr => hc r (List.mem_of_mem_tail hr)
  have hmodify : ∀ f, (c.publishQueue.modifyHead f).tail = c.publishQueue.tail := by
    intro f
    cases c.publishQueue <;> rfl
  cases h with
  | publish h =>
    cases h with
    | asked q => simpa [FrontOnly] using hc
    | idle => simpa [FrontOnly] using hc
    | tried => exact fun r hr => hc r (hmodify _ ▸ hr)
    | giveUp => exact htail
    | retry => exact fun r hr => hc r (hmodify _ ▸ hr)
    | _ => exact hc
  | deliver => exact htail
  | setState s => simpa [FrontOnly] using hc
  | _ => exact hc

lemma step_frontOnly {c : Client} (h : FrontOnly c) {a : ClientCall}
    (ha : ∀ r ∈ a.passed, r.accepted = false) : FrontOnly (c.step a) := by
  refine (step_steps c a).invariant clientStep_frontOnly ?_
  cases a with
  | request r =>
    intro q hq
    simp only [taken, enqueue] at hq
    cases hc : c.publishQueue with
    | nil => simp [hc] at hq
    | cons r0 rest =>
      rw [hc] at hq
      rcases List.mem_append.mp hq with hq | hq
      · exact h q (by simp [hc, hq])
      · rw [List.mem_singleton.mp hq]
        exact ha r rfl
  | _ => exact h

/-! ### What builds nothing -/

/-- From `c` to `d` no payload was built for data. -/
def Silent (c d : Client) : Prop := ∃ l, d.log = c.log ++ l ∧ dataBuilt l = []

lemma Silent.refl (c : Client) : Silent c c := ⟨[], by simp, rfl⟩

lemma Silent.trans {b c d : Client} (h : Silent b c) (k : Silent c d) : Silent b d := by
  obtain ⟨l, hl, h⟩ := h
  obtain ⟨m, hm, k⟩ := k
  exact ⟨l ++ m, by rw [hm, hl, List.append_assoc], by rw [dataBuilt_append, h, k]; rfl⟩

lemma Silent.of_log {c d : Client} (h : d.log = c.log) : Silent c d := ⟨[], by simp [h], rfl⟩

lemma emit_silent (c : Client) {e : Effect} (he : e.dataPayload = none) : Silent c (c.emit e) :=
  ⟨[e], rfl, by simp [dataBuilt, he]⟩

lemma resolveFront_silent (c : Client) {e : Effect} (he : e.dataPayload = none) :
    Silent c (c.resolveFront e) := ⟨[e], rfl, by simp [dataBuilt, he]⟩

lemma configure_silent (c : Client) (topics : ClientTopicOptions) :
    Silent c (c.configure topics).2 := .of_log (configure_log c topics)

lemma disconnect_silent (c : Client) : Silent c c.disconnect := .of_log (disconnect_log c)

lemma activated_silent (c : Client) : Silent c c.activated := by
  unfold activated
  split
  · exact emit_silent c rfl
  · exact .refl c

lemma activate_silent (c : Client) : Silent c c.activate.2 := by
  cases hp : c.isPrimary with
  | true =>
    rw [activate_of_isPrimary hp]
    exact .refl c
  | false =>
    obtain ⟨b, l, hl, hcases⟩ := activate_log hp
    refine ⟨_, hl, ?_⟩
    rcases hcases with rfl | rfl <;> rfl

lemma onDisconnect_silent (c : Client) : Silent c c.onDisconnect := by
  refine ⟨_, onDisconnect_log c, ?_⟩
  simp [dataBuilt, List.filterMap_map, Effect.dataPayload, Function.comp_def]

lemma connected_silent (c : Client) : Silent c c.connected := ⟨_, connected_log c, rfl⟩

lemma connect_silent (c : Client) : Silent c c.connect.2 := by
  have h : Silent c ((c.setState .connecting).asked .code) := .of_log (by simp)
  refine connect_of (.refl c) (fun _ => ?_) fun d hd => hd.trans (.of_log (by simp))
  simp only [clientConnect]
  cases c.kind <;> simp only <;> repeat' split
  · exact .refl c
  · exact h.trans (onDisconnect_silent _)
  · exact h.trans (connected_silent _)
  · exact .refl c
  · exact h
  · exact h
  · exact .of_log (by simp)
  · exact .of_log (by simp)

lemma syncReceive_silent (c : Client) : Silent c c.syncReceive := by
  have hmsgs : ∀ (ms : List (Str × Str)) (d : Client),
      Silent d (ms.foldl (fun d m => d.messageReceived m.1 m.2) d) := by
    intro ms
    induction ms with
    | nil => exact Silent.refl
    | cons m ms ih => exact fun d => (emit_silent d rfl).trans (ih _)
  have h : Silent c _ := (Silent.of_log (by simp)).trans (hmsgs c.receive.1 (c.asked .received))
  simp only [syncReceive]
  split
  · exact h.trans (onDisconnect_silent _)
  · exact h

/-! ### When an accepted request is built again -/

/-- A client that would publish its front request. -/
def ready (c : Client) : Bool := c.isConnected && c.isPrimary && c.state ≠ .disconnected

/-- A `PahoSyncClient` whose front request is neither delivered nor lost with the connection,
and whose library has forgotten it. -/
def resends (c : Client) : Bool :=
  c.kind = .pahoSync && c.waitForCompletion ≠ mqttSuccess &&
    c.waitForCompletion ≠ mqttDisconnected && c.getPendingDeliveryTokens.1 = some [] && c.ready

/-- The operation publishes the front request once more although the library has accepted
it. -/
def triesAgain (c : Client) : ClientCall → Bool
  | .execute => (if c.state = .disconnected then c.connect.2 else c).resends
  | .library (.onDeliveryFailure token) =>
    registers c.kind (.onDeliveryFailure token) && c.isConnected && c.state ≠ .disconnected &&
      c.publishQueue.head?.any fun r => r.token = token && r.retryCount < publishRetries
  | _ => false

/-- If data payloads were built from `c` to `d`, it was for requests behind the front. -/
def SparesFront (c d : Client) : Prop :=
  ∃ l, d.log = c.log ++ l ∧ ∀ p ∈ dataBuilt l, ∃ r ∈ c.publishQueue.tail, r.IsDataOf p

lemma Silent.sparesFront {c d : Client} (h : Silent c d) : SparesFront c d := by
  obtain ⟨l, hl, hb⟩ := h
  exact ⟨l, hl, by simp [hb]⟩

/-- The front leaves the queue before anything is built. -/
lemma sparesFront_of_removed {c b d : Client} (h : Silent c b)
    (hq : ∀ r ∈ b.publishQueue, r ∈ c.publishQueue.tail) (k : Steps {} b d) :
    SparesFront c d := by
  obtain ⟨l, hl, h⟩ := h
  obtain ⟨⟨m, hm, k⟩, -⟩ := k.thins
  refine ⟨l ++ m, by rw [hm, hl, List.append_assoc], fun p hp => ?_⟩
  rw [dataBuilt_append, h, List.nil_append] at hp
  obtain ⟨r, hr, hrp⟩ := k p hp
  exact ⟨r, hq r hr, hrp⟩

/-- A client that is not ready publishes nothing. -/
lemma publishFromQueue_silent {c : Client} (h : c.ready = false) : Silent c c.publishFromQueue := by
  unfold publishFromQueue publishFromQueueWith
  split
  · next hc =>
    split
    · next hp hq =>
      have hs : c.state = .disconnected := by simpa [ready, hc, hp] using h
      rw [processRequestWith, if_pos (by simpa using hs)]
      exact .trans (.of_log (by simp)) (emit_silent _ rfl)
    · split <;> exact .of_log (by simp)
  · exact .of_log (by simp)

lemma syncPending_silent {c : Client}
    (h : c.getPendingDeliveryTokens.1 = some [] → c.ready = false) : Silent c c.syncPending.1 := by
  have hask : Silent c (c.asked .pending) := .of_log (by simp)
  unfold syncPending
  split
  · next hp => exact hask.trans (publishFromQueue_silent (c := c.asked .pending) (h (by rw [hp])))
  · exact hask
  · split
    · exact hask.trans (onDisconnect_silent _)
    · exact hask

lemma sync_sparesFront {c : Client} (h : c.resends = false) : SparesFront c c.sync := by
  unfold sync
  cases hk : c.kind with
  | pahoSync =>
    simp only
    unfold syncQueue
    rcases hq : c.publishQueue with _ | ⟨r, rest⟩
    · exact (syncReceive_silent c).sparesFront
    have hwait : Silent c ((c.emit (.access r.id)).asked .completion) :=
      (emit_silent c (e := .access r.id) rfl).trans (.of_log (by simp))
    simp only
    split
    · -- the front is delivered, and only then is anything published
      have hback : Silent c (((c.emit (.access r.id)).asked .completion).calledBack r.token) :=
        hwait.trans (.of_log rfl)
      have hfront := hback.trans (resolveFront_silent _ (e := .delivered r) rfl)
      refine sparesFront_of_removed hfront (by simp [resolveFront, calledBack, hq]) ?_
      refine ((publishFromQueue_steps _).trans (syncPending_steps _)).trans ?_
      split
      · exact syncReceive_steps _
      · exact .refl
    · next hdone =>
      split
      · exact (hwait.trans (onDisconnect_silent _)).sparesFront
      · next hlost =>
        have hpending : Silent ((c.emit (.access r.id)).asked .completion)
            ((c.emit (.access r.id)).asked .completion).syncPending.1 := by
          refine syncPending_silent fun hp => ?_
          have hready : c.ready = false := by
            simpa [resends, hk, hdone, hlost, show c.getPendingDeliveryTokens.1 = some [] from hp]
              using h
          exact hready
        refine Silent.sparesFront ((hwait.trans hpending).trans ?_)
        split
        · exact syncReceive_silent _
        · exact .refl _
  | pahoAsync | cppMqtt => exact (Silent.refl c).sparesFront

lemma SparesFront.after_silent {c c' d : Client} (h : SparesFront c' d) (k : Silent c c')
    (hq : ∀ r ∈ c'.publishQueue.tail, r ∈ c.publishQueue.tail) : SparesFront c d := by
  obtain ⟨l, hl, h⟩ := h
  obtain ⟨m, hm, k⟩ := k
  refine ⟨m ++ l, by rw [hl, hm, List.append_assoc], fun p hp => ?_⟩
  rw [dataBuilt_append, k, List.nil_append] at hp
  obtain ⟨r, hr, hrp⟩ := h p hp
  exact ⟨r, hq r hr, hrp⟩

lemma execute_sparesFront {c : Client} (h : c.triesAgain .execute = false) :
    SparesFront c c.execute := by
  unfold execute
  split
  · next hs =>
    have hsync : SparesFront c.connect.2 c.connect.2.sync :=
      sync_sparesFront (by simpa [triesAgain, hs] using h)
    refine hsync.after_silent (connect_silent c) fun r hr => ?_
    rcases connect_cases c with ⟨-, hq⟩ | ⟨-, hq⟩
    · rwa [hq] at hr
    · simp [hq] at hr
  · next hs => exact sync_sparesFront (by simpa [triesAgain, hs] using h)

lemma onDelivery_sparesFront (c : Client) (token : ℤ) : SparesFront c (c.onDelivery token) := by
  have hback : Silent c (c.calledBack token) := .of_log rfl
  unfold onDelivery
  rcases hq : c.publishQueue with _ | ⟨r, rest⟩
  · exact (hback.trans (emit_silent _ rfl)).sparesFront
  simp only
  split
  · have haccess := hback.trans (emit_silent _ (e := .access r.id) rfl)
    have hfront := haccess.trans (resolveFront_silent _ (e := .delivered r) rfl)
    exact sparesFront_of_removed hfront (by simp [resolveFront, calledBack, hq])
      (publishFromQueue_steps _)
  · exact (hback.trans (emit_silent _ rfl)).sparesFront

lemma onDeliveryFailure_sparesFront {c : Client} {token : ℤ}
    (hl : registers c.kind (.onDeliveryFailure token) = true)
    (h : c.triesAgain (.library (.onDeliveryFailure token)) = false) :
    SparesFront c ((c.calledBack token).onDeliveryFailure token) := by
  have hback : Silent c (c.calledBack token) := .of_log rfl
  rw [onDeliveryFailure_eq]
  unfold onDeliveryFailureWith
  have hq' : (c.calledBack token).publishQueue = c.publishQueue := rfl
  rw [hq']
  rcases hq : c.publishQueue with _ | ⟨r, rest⟩
  · exact hback.sparesFront
  have haccess : Silent c ((c.calledBack token).emit (.access r.id)) :=
    hback.trans (emit_silent _ rfl)
  have hgive : ∀ d : Client, Silent c d → d.publishQueue = c.publishQueue →
      SparesFront c (d.giveUpWith onDeliveryFailure r) := by
    intro d hd hdq
    have hfront := hd.trans (resolveFront_silent d (e := .undelivered r) rfl)
    exact sparesFront_of_removed hfront (by simp [resolveFront, hdq]) (publishFromQueue_steps _)
  simp only
  split
  · next ht =>
    split
    · exact hgive _ haccess rfl
    · next hr =>
      have hask := haccess.trans (d := ((c.calledBack token).emit (.access r.id)).asked .connected)
        (.of_log (by simp))
      split
      · next hc =>
        -- the client is disconnected, and the request is left as it is
        have hs : c.state = .disconnected := by
          have hconn : c.isConnected = true := hc
          simpa [triesAgain, hl, hconn, hq, ht, Nat.lt_of_not_le hr] using h
        have hstate : ((((c.calledBack token).emit (.access r.id)).asked .connected).modifyFront
            fun q => { q with retryCount := q.retryCount + 1 }).state = .disconnected := hs
        rw [retryWith, processRequestWith, if_pos hstate]
        exact (hask.trans (.trans (.of_log rfl) (emit_silent _ rfl))).sparesFront
      · exact hgive _ hask (by simp [calledBack])
  · exact haccess.sparesFront

/-- An operation that does not try again spares the front of a queue. -/
lemma step_sparesFront {c : Client} {a : ClientCall} (ha : ∀ r, a ≠ .request r)
    (h : c.triesAgain a = false) : SparesFront c (c.step a) := by
  cases a with
  | configure topics => exact (configure_silent c topics).sparesFront
  | activate => exact (activate_silent c).sparesFront
  | deactivate => exact (Silent.of_log (deactivate_log c)).sparesFront
  | request r => exact absurd rfl (ha r)
  | disconnect => exact (disconnect_silent c).sparesFront
  | execute => exact execute_sparesFront h
  | library l =>
    simp only [step, callback]
    split
    · next hl =>
      cases l with
      | answers l => exact (Silent.of_log rfl).sparesFront
      | link up => exact (Silent.of_log rfl).sparesFront
      | onDelivery token => exact onDelivery_sparesFront c token
      | onDeliveryFailure token => exact onDeliveryFailure_sparesFront hl h
      | onMessage topic payload => exact (emit_silent c rfl).sparesFront
      | onDisconnect => exact (onDisconnect_silent c).sparesFront
      | onConnect => exact (connected_silent c).sparesFront
      | onConnectFailure => exact (Silent.of_log (setState_log c _)).sparesFront
      | onCommandSubscription => exact (activated_silent c).sparesFront
      | onCommandSubscribeFailure => exact (Silent.of_log rfl).sparesFront
      | onSubscribeResult token reasonCodes =>
        refine Silent.sparesFront ?_
        simp only [handle, onSubscribeResult]
        repeat' split
        · exact .trans (.of_log rfl) (activated_silent { c with commands := some false })
        · exact activated_silent c
        · exact .refl c
    · exact (Silent.refl c).sparesFront

/-- A request that is queued behind others is not looked at. -/
lemma request_silent {c : Client} (hq : c.publishQueue ≠ []) (r : PublishRequest) :
    c.request r = c.enqueue r := by
  have hlen : (c.enqueue r).publishQueue.length ≠ 1 := by
    simpa [enqueue] using hq
  simp only [request, if_neg hlen]

/-- **What an operation builds.** It builds data payloads for requests that were waiting for
their first, or it tries the front request again. -/
theorem step_builds {c : Client} (hf : FrontOnly c) {a : ClientCall}
    (ha : ∀ r ∈ a.passed, r.accepted = false) {p : PubId}
    (hp : p ∈ dataBuilt (effects c (c.step a))) :
    (∃ r ∈ (c.taken a).publishQueue, r.IsDataOf p ∧ r.accepted = false) ∨
      (c.triesAgain a = true ∧ ∃ r ∈ c.publishQueue.head?, r.IsDataOf p) := by
  obtain ⟨⟨l, hl, hbuilt⟩, -⟩ := (step_steps c a).thins
  have hmem : ∃ r ∈ (c.taken a).publishQueue, r.IsDataOf p := by
    rw [effects_eq (l := l) (by rw [hl, taken_log])] at hp
    exact hbuilt p hp
  by_cases hreq : ∃ r, a = .request r
  · obtain ⟨r, rfl⟩ := hreq
    by_cases hq : c.publishQueue = []
    · obtain ⟨q, hmem, hdata⟩ := hmem
      obtain rfl : q = r := by simpa [taken, enqueue, hq] using hmem
      exact .inl ⟨q, by simp [taken, enqueue], hdata, ha q rfl⟩
    · have hnone : effects c (c.step (.request r)) = [] :=
        effects_eq (by rw [step, request_silent hq]; simp [enqueue])
      simp [hnone, dataBuilt] at hp
  have hne : ∀ r, a ≠ .request r := fun r e => hreq ⟨r, e⟩
  have htaken : (c.taken a).publishQueue = c.publishQueue := by
    cases a <;> first | rfl | exact absurd rfl (hne _)
  rw [htaken] at hmem ⊢
  have htail : (∃ r ∈ c.publishQueue.tail, r.IsDataOf p) →
      ∃ r ∈ c.publishQueue, r.IsDataOf p ∧ r.accepted = false := by
    rintro ⟨r, hr, hdata⟩
    exact ⟨r, List.mem_of_mem_tail hr, hdata, hf r hr⟩
  cases hagain : c.triesAgain a with
  | true =>
    obtain ⟨r, hr, hdata⟩ := hmem
    cases hq : c.publishQueue with
    | nil => simp [hq] at hr
    | cons r0 rest =>
      rw [hq] at hr htail
      rcases List.mem_cons.mp hr with rfl | hr
      · exact .inr ⟨rfl, r, rfl, hdata⟩
      · exact .inl (htail ⟨r, hr, hdata⟩)
  | false =>
    obtain ⟨m, hm, h⟩ := step_sparesFront hne hagain
    rw [effects_eq hm] at hp
    exact .inl (htail (h p hp))

end Client

end Sparkplug
