import Sparkplug.ClientOps

/-!
What a client can do, in small steps.

Every operation of a client is a sequence of the steps listed here, each of which changes
one or two fields. A property that the small steps keep is kept by every operation, so
the operations are taken apart once, in this file.
-/

namespace Sparkplug.Client

open Relation

/-! ### The fields after a primitive operation -/

lemma setState_eq {s : ClientState} (hs : s ≠ .disconnected) (c : Client) :
    c.setState s = { c with state := s } := by
  unfold setState; split
  · next h => rw [← h]
  · cases s <;> first | rfl | exact absurd rfl hs

@[simp] lemma setState_log (c : Client) (s : ClientState) : (c.setState s).log = c.log := by
  unfold setState; split
  · rfl
  · cases s <;> rfl

@[simp] lemma asked_log (c : Client) (q : Question) : (c.asked q).log = c.log := by
  cases q <;> rfl

/-- The sequence number of the next payload for `r`. -/
def nextSeq (c : Client) (r : PublishRequest) : ℕ := if r.isNodeBirth then 0 else c.payloadSequence

lemma buildPayload_eq (c : Client) (r : PublishRequest) : c.buildPayload r = (c.nextSeq r,
    { c with
      state := .publishingPayload
      payloadSequence := (c.nextSeq r + 1) % 256
      log := c.log ++ [.access r.id, .addToPayload r.publisher r.isBirth] }) := by
  unfold buildPayload nextSeq
  rw [setState_eq (by simp)]
  split <;> simp [initializePayload, resetSequence, emit]

/-- What a client logs for one payload. -/
def attemptLog (c : Client) (r : PublishRequest) (o : Outcome) : List Effect :=
  [.access r.id, .addToPayload r.publisher r.isBirth,
    .attempt ⟨r, c.nextSeq r, if r.isNodeBirth then some c.bdSeq else none, o⟩]

/-- What an outcome does to the front request. Only `CppMqttClient` stores the token of a
refused message. -/
inductive FrontUpdate : Outcome → (PublishRequest → PublishRequest) → Prop
  | unencoded : FrontUpdate .unencoded id
  | refused : FrontUpdate .refused id
  | refusedToken {token : ℤ} (h : token < 0) :
    FrontUpdate .refused fun q => { q with token := token }
  | accepted (token : ℤ) :
    FrontUpdate (.accepted token) fun q => { q with token := token, accepted := true }

/-- A payload has been built for `r`, with outcome `o`. -/
def tried (c : Client) (r : PublishRequest) (o : Outcome) (f : PublishRequest → PublishRequest)
    (lib : Answers) : Client :=
  { c with
    state := .publishingPayload
    payloadSequence := (c.nextSeq r + 1) % 256
    publishQueue := c.publishQueue.modifyHead f
    inflight := o.token.toList ++ c.inflight
    lib := lib
    log := c.log ++ attemptLog c r o }

section Tried

variable (c : Client) (r : PublishRequest)

lemma tried_unencoded : ((c.buildPayload r).2.asked .encoded).attempted r (c.buildPayload r).1
    .unencoded = c.tried r .unencoded id ((c.buildPayload r).2.asked .encoded).lib := by
  simp [buildPayload_eq, attempted, emit, asked, tried, attemptLog, Outcome.token]

lemma tried_refused : (((c.buildPayload r).2.asked .encoded).asked .send).attempted r
    (c.buildPayload r).1 .refused =
      c.tried r .refused id (((c.buildPayload r).2.asked .encoded).asked .send).lib := by
  simp [buildPayload_eq, attempted, emit, asked, tried, attemptLog, Outcome.token]

lemma tried_refusedToken (token : ℤ) :
    ((((c.buildPayload r).2.asked .encoded).asked .send).modifyFront
      fun q => { q with token := token }).attempted r (c.buildPayload r).1 .refused =
      c.tried r .refused (fun q => { q with token := token })
        (((c.buildPayload r).2.asked .encoded).asked .send).lib := by
  simp [buildPayload_eq, attempted, emit, asked, modifyFront, tried, attemptLog, Outcome.token]

lemma tried_accepted (token : ℤ) :
    (((c.buildPayload r).2.asked .encoded).asked .send).acceptedAttempt r (c.buildPayload r).1
      token = c.tried r (.accepted token) (fun q => { q with token := token, accepted := true })
        (((c.buildPayload r).2.asked .encoded).asked .send).lib := by
  simp [buildPayload_eq, acceptedAttempt, attempted, emit, asked, tried, attemptLog,
    Outcome.token]

end Tried

/-! ### The small steps -/

/-- The front request leaves the queue with a report. -/
def resolveFront (c : Client) (e : Effect) : Client :=
  { c with publishQueue := c.publishQueue.tail }.emit e

/-- What may happen among the small steps: deliveries, answers to subscriptions, and attempts
at requests of clients that are not primary, never accepted before. -/
structure Scope where
  deliveries : Bool := true
  subscriptions : Bool := true
  strays : Bool := true

/-- The request of a client may be sent. -/
def Granted (A : Scope) (c : Client) (r : PublishRequest) : Prop :=
  A.strays = true ∨ c.isPrimary = true ∨ r.accepted = true

/-- The failure of a token lets the front request be sent only if it may be. -/
def Fits (A : Scope) (c : Client) (token : ℤ) : Prop :=
  ∀ r ∈ c.publishQueue.head?, r.token = token → Granted A c r

/-- The small steps of publishing from the queue. The request published is always the one
at the front, and the client is not disconnected. -/
inductive PublishStep (A : Scope) : Client → Client → Prop
  | asked (c : Client) (q : Question) : PublishStep A c (c.asked q)
  | access (c : Client) (id : ℕ) : PublishStep A c (c.emit (.access id))
  | skipped {c : Client} (r : PublishRequest) (h : c.state = .disconnected) :
    PublishStep A c (c.emit (.skipped r))
  | idle {c : Client} (h : c.state = .publishingPayload) :
    PublishStep A c (c.setState .connected)
  | tried {c : Client} {r : PublishRequest} {rest : List PublishRequest} {o : Outcome}
    {f : PublishRequest → PublishRequest} {lib : Answers} (hq : c.publishQueue = r :: rest)
    (hs : c.state ≠ .disconnected) (hg : Granted A c r) (hf : FrontUpdate o f) :
    PublishStep A c (c.tried r o f lib)
  | giveUp {c : Client} {r : PublishRequest} {rest : List PublishRequest}
    (hq : c.publishQueue = r :: rest) : PublishStep A c (c.resolveFront (.undelivered r))
  | retry (c : Client) :
    PublishStep A c (c.modifyFront fun q => { q with retryCount := q.retryCount + 1 })

abbrev Publishes (A : Scope) := ReflTransGen (PublishStep A)

variable {A : Scope}

lemma fits_all (h : A.strays = true) (c : Client) (token : ℤ) : Fits A c token :=
  fun _ _ _ => .inl h

lemma tried_fits {c : Client} {r : PublishRequest} {rest : List PublishRequest} {o : Outcome}
    {f : PublishRequest → PublishRequest} (hq : c.publishQueue = r :: rest)
    (hg : Granted A c r) (hacc : (f r).accepted = r.accepted) (lib : Answers) (token : ℤ) :
    Fits A (c.tried r o f lib) token := by
  intro q hmem _
  obtain rfl : f r = q := by simpa [tried, hq] using hmem
  exact hg.imp id (Or.imp id hacc.trans)

section Publishing

variable {fail : Client → ℤ → Client}

lemma processRequestWith_publishes (hf : ∀ c t, Fits A c t → Publishes A c (fail c t))
    {c : Client} {r : PublishRequest} (rest : List PublishRequest)
    (hq : c.publishQueue = r :: rest) (hg : Granted A c r) :
    Publishes A c (c.processRequestWith fail r) := by
  simp only [processRequestWith]
  split
  · next hs => exact .single (.skipped r hs)
  · next hs =>
    have hrefused : Publishes A c ((((c.buildPayload r).2.asked .encoded).asked
        .send).attempted r (c.buildPayload r).1 .refused) := by
      rw [tried_refused]
      exact .single (.tried hq hs hg .refused)
    have haccepted : ∀ token, Publishes A c ((((c.buildPayload r).2.asked .encoded).asked
        .send).acceptedAttempt r (c.buildPayload r).1 token) := by
      intro token
      rw [tried_accepted]
      exact .single (.tried hq hs hg (.accepted token))
    split
    · simp only [publishMessageWith]
      split
      · split
        · exact haccepted _
        · refine hrefused.trans (hf _ _ ?_)
          rw [tried_refused]
          exact tried_fits hq hg (by rfl) _ _
      · split
        · exact haccepted _
        · exact hrefused
      · split
        · next ht =>
          rw [tried_refusedToken]
          refine .tail (.head (.tried hq hs hg (.refusedToken ht)) (hf _ _ ?_)) (.access _ _)
          exact tried_fits hq hg (by rfl) _ _
        · exact (haccepted _).tail (.access _ _)
    · rw [tried_unencoded]
      exact .single (.tried hq hs hg .unencoded)

lemma publishFromQueueWith_publishes (hf : ∀ c t, Fits A c t → Publishes A c (fail c t))
    (c : Client) : Publishes A c (c.publishFromQueueWith fail) := by
  unfold publishFromQueueWith
  split
  · split
    · next hp hq =>
      exact .head (.asked c _) (processRequestWith_publishes hf _ (by rw [asked_publishQueue, hq])
        (.inr (.inl hp)))
    · split
      · next hs => exact .head (.asked c _) (.single (.idle hs))
      · exact .single (.asked c _)
  · exact .single (.asked c _)

lemma onDeliveryFailureWith_publishes (hf : ∀ c t, Fits A c t → Publishes A c (fail c t))
    {c : Client} {token : ℤ} (hc : Fits A c token) :
    Publishes A c (c.onDeliveryFailureWith fail token) := by
  unfold onDeliveryFailureWith
  rcases hq : c.publishQueue with _ | ⟨r, rest⟩
  · exact .refl
  have hgive : ∀ d : Client, d.publishQueue = r :: rest → Publishes A d (d.giveUpWith fail r) :=
    fun d hd => .head (.giveUp hd) (publishFromQueueWith_publishes hf _)
  have hretry : ∀ d : Client, d.publishQueue = r :: rest → Granted A d r →
      Publishes A d (d.retryWith fail r) :=
    fun d hd hg => .head (.retry d) (processRequestWith_publishes hf rest
      (by simp [modifyFront, hd]) hg)
  refine .head (.access c r.id) ?_
  simp only
  split
  · next ht =>
    have hg : Granted A c r := hc r (by simp [hq]) ht
    split
    · exact hgive _ hq
    · split
      · exact .head (.asked _ _) (hretry _ hq hg)
      · exact .head (.asked _ _) (hgive _ hq)
  · exact .refl

lemma onDeliveryFailureN_publishes (n : ℕ) {c : Client} {token : ℤ} (hc : Fits A c token) :
    Publishes A c (onDeliveryFailureN n c token) := by
  induction n generalizing c token with
  | zero => exact .refl
  | succ n ih => exact onDeliveryFailureWith_publishes (fun _ _ h => ih h) hc

end Publishing

lemma onDeliveryFailure_publishes {c : Client} {token : ℤ} (hc : Fits A c token) :
    Publishes A c (c.onDeliveryFailure token) :=
  onDeliveryFailureN_publishes _ hc

lemma publishFromQueue_publishes (c : Client) : Publishes A c c.publishFromQueue :=
  publishFromQueueWith_publishes (fun _ _ h => onDeliveryFailure_publishes h) c

/-- Nothing is asked of the token where everything may happen. -/
lemma onDeliveryFailure_publishes_all (c : Client) (token : ℤ) :
    Publishes {} c (c.onDeliveryFailure token) :=
  onDeliveryFailure_publishes (fits_all rfl c token)

/-! ### All operations -/

/-- An event without a request, raised for `active` only by a primary client. -/
def MayRaise (c : Client) : ClientEvent → Prop
  | .delivered _ | .undelivered _ => False
  | .active => c.isPrimary = true
  | _ => True

/-- The small steps of a client, but for taking a request and becoming primary. -/
inductive ClientStep (A : Scope) : Client → Client → Prop
  | publish {c d : Client} (h : PublishStep A c d) : ClientStep A c d
  | deliver {c : Client} {r : PublishRequest} {rest : List PublishRequest}
    (hA : A.deliveries = true) (hq : c.publishQueue = r :: rest) :
    ClientStep A c (c.resolveFront (.delivered r))
  | event {c : Client} {e : ClientEvent} (h : c.MayRaise e) : ClientStep A c (c.emit (.onEvent e))
  | emptyFront (c : Client) : ClientStep A c (c.emit .emptyFront)
  | commandsResult (c : Client) (accepted : Bool) (hA : A.subscriptions = true) :
    ClientStep A c (c.commandsResult accepted)
  | setState (c : Client) (s : ClientState) : ClientStep A c (c.setState s)
  | resign (c : Client) : ClientStep A c (c.setPrimary false)
  | surroundings (c : Client) (l : Answers) (up : Bool) (commands : Option Bool)
    (inflight : List ℤ) : ClientStep A c { c with lib := l, up, commands, inflight }
  | settings (c : Client) (topics : ClientTopicOptions) (configured : Bool) (bdSeq : ℕ)
    (token : ℤ) : ClientStep A c { c with topics, configured, bdSeq, subscriptionToken := token }

abbrev Steps (A : Scope) := ReflTransGen (ClientStep A)

lemma Publishes.steps {c d : Client} (h : Publishes A c d) : Steps A c d :=
  ReflTransGen.mono (fun _ _ => ClientStep.publish) _ _ h

lemma asked_steps (c : Client) (q : Question) : Steps A c (c.asked q) :=
  .single (.publish (.asked c q))

lemma publishFromQueue_steps (c : Client) : Steps A c c.publishFromQueue :=
  (publishFromQueue_publishes c).steps

lemma foldl_undelivered (c : Client) (q : List PublishRequest) :
    { q.foldl undelivered c with publishQueue := [] } =
      { c with publishQueue := [], log := c.log ++ q.map .undelivered } := by
  induction q generalizing c with
  | nil => simp
  | cons r q ih => simp [ih, undelivered, emit]

lemma dumpQueue_eq (c : Client) : c.dumpQueue =
    { c with publishQueue := [], log := c.log ++ c.publishQueue.map .undelivered } :=
  foldl_undelivered c c.publishQueue

lemma dumpQueue_steps (c : Client) : Steps A c c.dumpQueue := by
  rw [dumpQueue_eq]
  generalize hq : c.publishQueue = q
  induction q generalizing c with
  | nil =>
    have : { c with publishQueue := [], log := c.log ++ ([] : List PublishRequest).map .undelivered }
        = c := by
      rw [← hq, List.map_eq_nil_iff.mpr hq, List.append_nil]
    rw [this]
  | cons r q ih =>
    have h := ih (c.resolveFront (.undelivered r)) (by simp [resolveFront, hq])
    refine .head (.publish (.giveUp hq)) ?_
    simpa [resolveFront, emit] using h

lemma disconnected_steps (c : Client) : Steps A c c.disconnected :=
  .head (.surroundings c c.lib false none [])
    (.head (.setState _ .disconnected) (.single (.event trivial)))

lemma onDisconnect_steps (c : Client) : Steps A c c.onDisconnect :=
  (dumpQueue_steps c).trans (disconnected_steps _)

lemma activated_steps (c : Client) : Steps A c c.activated := by
  unfold activated
  split
  · next h => exact .single (.event h)
  · exact .refl

lemma connected_steps (c : Client) : Steps A c c.connected := by
  simp only [connected]
  have h : Steps A c (({ c with up := true, commands := none, inflight := [] }.setState
      .connected).emit (.onEvent .connected)) :=
    .head (.surroundings c c.lib true none [])
      (.head (.setState _ .connected) (.single (.event trivial)))
  split
  · exact h.trans (asked_steps _ _)
  · exact h

lemma subscribeToCommands_steps (hA : A.subscriptions = true) (c : Client) :
    Steps A c c.subscribeToCommands.2 := by
  simp only [subscribeToCommands]
  refine (asked_steps c .code).trans ?_
  split <;> split
  · exact .single (.commandsResult _ _ hA)
  · exact .head (.commandsResult _ _ hA) (activated_steps _)
  · exact .single (.commandsResult _ _ hA)
  · exact .single (.commandsResult _ _ hA)
  · exact .single (.commandsResult _ _ hA)
  · exact .head (.commandsResult _ _ hA) (.single (.settings _ _ _ _ _))

lemma unsubscribeToCommands_steps (c : Client) : Steps A c c.unsubscribeToCommands.2 := by
  simp only [unsubscribeToCommands]
  split
  · split
    · exact asked_steps c .code
    · exact (asked_steps c .code).tail (.surroundings _ _ _ _ _)
  · split
    · exact asked_steps c .code
    · exact (asked_steps c .code).tail (.surroundings _ _ _ _ _)
  · exact .refl

lemma setPrimary_self {c : Client} {b : Bool} (h : c.isPrimary = b) : c.setPrimary b = c := by
  subst h; rfl

lemma activate_steps (hA : A.subscriptions = true) (c : Client) :
    Steps A (c.setPrimary true) c.activate.2 := by
  simp only [activate]
  split
  · next h => rw [setPrimary_self h]
  · have h : Steps A (c.setPrimary true) (c.setPrimary true).subscribeToCommands.2 :=
      subscribeToCommands_steps hA _
    split
    · exact h.tail (.resign _)
    · exact h

lemma deactivate_steps (c : Client) : Steps A c c.deactivate.2 := by
  simp only [deactivate]
  split
  · exact .refl
  · split
    · exact unsubscribeToCommands_steps c
    · exact (unsubscribeToCommands_steps c).tail (.resign _)

lemma clientConnect_steps (c : Client) : Steps A c c.clientConnect.2 := by
  have h : Steps A c ((c.setState .connecting).asked .code) :=
    .head (.setState c _) (asked_steps _ _)
  simp only [clientConnect]
  split <;> split
  · exact .refl
  · split
    · exact h.trans (onDisconnect_steps _)
    · exact h.trans (connected_steps _)
  · exact .refl
  · split <;> exact h
  · exact asked_steps c .code
  · exact asked_steps c .code

lemma connect_steps (c : Client) : Steps A c c.connect.2 := by
  simp only [connect]
  repeat' split
  · exact .refl
  · exact .refl
  · exact (clientConnect_steps c).tail (.setState _ _)
  · exact (clientConnect_steps c).tail (.setState _ _)

lemma clientDisconnect_steps (c : Client) : Steps A c c.clientDisconnect := by
  simp only [clientDisconnect]
  split
  · have h : Steps A c ((c.setState .disconnecting).asked .code) :=
      .head (.setState c _) (asked_steps _ _)
    split
    · exact h
    · exact (h.tail (.surroundings _ _ false none [])).tail (.setState _ _)
  · exact .head (.setState c _) (asked_steps _ _)
  · split
    · exact ((asked_steps c .connected).tail (.setState _ _)).trans (asked_steps _ .code)
    · exact asked_steps c .connected

lemma disconnect_steps (c : Client) : Steps A c c.disconnect := by
  unfold disconnect
  split
  · exact .refl
  · exact clientDisconnect_steps c

lemma configure_steps (c : Client) (topics : ClientTopicOptions) :
    Steps A c (c.configure topics).2 := by
  have h0 : Steps A c { c with topics := topics } :=
    .single (.settings c topics c.configured c.bdSeq c.subscriptionToken)
  have h : Steps A c { c with topics := topics }.configureClient.2 := by
    simp only [configureClient]
    split
    · split <;> exact h0.trans (asked_steps _ .code)
    · repeat' split
      · exact h0.trans (asked_steps _ .code)
      · exact (h0.trans (asked_steps _ .code)).trans (asked_steps _ .code)
      · exact (h0.trans (asked_steps _ .code)).trans (asked_steps _ .code)
    · exact h0.tail (.settings _ _ _ _ _)
  simp only [configure]
  split
  · exact h
  · exact h.tail (.settings _ _ _ _ _)

lemma request_steps (c : Client) (r : PublishRequest) : Steps A (c.enqueue r) (c.request r) := by
  simp only [request]
  repeat' split
  · exact (asked_steps _ _).trans (publishFromQueue_steps _)
  · exact asked_steps _ _
  · exact .refl

lemma deliverFront_steps (hA : A.deliveries = true) {c : Client} {r : PublishRequest} (rest : List PublishRequest)
    (hq : c.publishQueue = r :: rest) : Steps A c (c.deliverFront r) :=
  .head (.deliver hA hq) (publishFromQueue_steps _)

lemma calledBack_steps (c : Client) (token : ℤ) : Steps A c (c.calledBack token) :=
  .single (.surroundings c _ _ _ _)

lemma onDelivery_steps (hA : A.deliveries = true) (c : Client) (token : ℤ) :
    Steps A c (c.onDelivery token) := by
  unfold onDelivery
  rcases hq : c.publishQueue with _ | ⟨r, rest⟩
  · exact (calledBack_steps c token).tail (.emptyFront _)
  · have h : Steps A c ((c.calledBack token).emit (.access r.id)) :=
      (calledBack_steps c token).tail (.publish (.access _ _))
    simp only
    split
    · exact h.trans (deliverFront_steps hA rest hq)
    · exact h

lemma messages_steps (c : Client) (ms : List (Str × Str)) :
    Steps A c (ms.foldl (fun c m => c.messageReceived m.1 m.2) c) := by
  induction ms generalizing c with
  | nil => exact .refl
  | cons m ms ih => exact .head (.event (e := .message m.1 m.2) trivial) (ih _)

lemma syncReceive_steps (c : Client) : Steps A c c.syncReceive := by
  simp only [syncReceive]
  have h : Steps A c _ := (asked_steps c .received).trans (messages_steps _ c.receive.1)
  split
  · exact h.trans (onDisconnect_steps _)
  · exact h

lemma syncPending_steps (c : Client) : Steps A c c.syncPending.1 := by
  have h : Steps A c _ := asked_steps c .pending
  unfold syncPending
  split
  · exact h.trans (publishFromQueue_steps _)
  · exact h
  · split
    · exact h.trans (onDisconnect_steps _)
    · exact h

/-- The queue is synchronized without a delivery, or the front request is delivered first. -/
lemma syncQueue_split (c : Client) : Steps A c c.syncQueue.1 ∨
    ∃ r rest d, c.publishQueue = r :: rest ∧ d.publishQueue = r :: rest ∧ Steps A c d ∧
      Steps A (d.resolveFront (.delivered r)) c.syncQueue.1 := by
  unfold syncQueue
  rcases hq : c.publishQueue with _ | ⟨r, rest⟩
  · exact .inl .refl
  have h : Steps A c ((c.emit (.access r.id)).asked .completion) :=
    .head (.publish (.access c _)) (asked_steps _ _)
  simp only
  split
  · exact .inr ⟨r, rest, _, rfl, by simp [calledBack, hq], h.trans (calledBack_steps _ r.token),
      (publishFromQueue_steps _).trans (syncPending_steps _)⟩
  · refine .inl ?_
    split
    · exact h.trans (onDisconnect_steps _)
    · exact h.trans (syncPending_steps _)

/-- The same for the whole of `sync`. -/
lemma sync_split (c : Client) : Steps A c c.sync ∨
    ∃ r rest d, c.publishQueue = r :: rest ∧ d.publishQueue = r :: rest ∧ Steps A c d ∧
      Steps A (d.resolveFront (.delivered r)) c.sync := by
  have hrest : Steps A c.syncQueue.1
      (if c.syncQueue.2 then c.syncQueue.1.syncReceive else c.syncQueue.1) := by
    split
    · exact syncReceive_steps _
    · exact .refl
  unfold sync
  split
  · rcases syncQueue_split c with h | ⟨r, rest, d, hq, hd, h1, h2⟩
    · exact .inl (h.trans hrest)
    · exact .inr ⟨r, rest, d, hq, hd, h1, h2.trans hrest⟩
  all_goals exact .inl .refl

lemma sync_steps (hA : A.deliveries = true) (c : Client) : Steps A c c.sync := by
  rcases sync_split c with h | ⟨r, rest, d, -, hd, h1, h2⟩
  · exact h
  · exact h1.trans (.head (.deliver hA hd) h2)

lemma execute_steps (hA : A.deliveries = true) (c : Client) : Steps A c c.execute := by
  unfold execute
  split
  · exact (connect_steps c).trans (sync_steps hA _)
  · exact sync_steps hA c

lemma onSubscribeResult_steps (c : Client) (token : ℤ) (reasonCodes : List ℕ) :
    Steps A c (c.onSubscribeResult token reasonCodes) := by
  unfold onSubscribeResult
  repeat' split
  · exact .head (.surroundings c _ _ (some false) _) (activated_steps _)
  · exact activated_steps c
  · exact .refl

/-- Only `onDelivery` delivers. -/
lemma handle_steps_of_ne {c : Client} {l : LibraryCall} (h : ∀ token, l ≠ .onDelivery token)
    (hf : ∀ token, l = .onDeliveryFailure token → Fits A c token) : Steps A c (c.handle l) := by
  cases l with
  | answers l => exact .single (.surroundings c _ _ _ _)
  | link up => exact .single (.surroundings c _ _ _ _)
  | onDelivery token => exact absurd rfl (h token)
  | onDeliveryFailure token =>
    have hc : Fits A (c.calledBack token) token := hf token rfl
    exact (calledBack_steps c _).trans (onDeliveryFailure_publishes hc).steps
  | onMessage topic payload => exact .single (.event trivial)
  | onDisconnect => exact onDisconnect_steps c
  | onConnect => exact connected_steps c
  | onConnectFailure => exact .single (.setState c _)
  | onCommandSubscription => exact activated_steps c
  | onCommandSubscribeFailure => exact .single (.surroundings c _ _ (some false) _)
  | onSubscribeResult token reasonCodes => exact onSubscribeResult_steps c _ _

lemma callback_steps (hA : A.deliveries = true) {c : Client} {l : LibraryCall}
    (hf : ∀ token, l = .onDeliveryFailure token → Fits A c token) : Steps A c (c.callback l) := by
  unfold callback
  split
  · by_cases h : ∃ token, l = .onDelivery token
    · obtain ⟨token, rfl⟩ := h
      exact onDelivery_steps hA c token
    · exact handle_steps_of_ne (fun token e => h ⟨token, e⟩) hf
  · exact .refl

/-- A requested message is in the queue, or a client that is activated is primary; nothing
else has happened. -/
def taken (c : Client) : ClientCall → Client
  | .request r => c.enqueue r
  | .activate => c.setPrimary true
  | _ => c

lemma taken_log (c : Client) (a : ClientCall) : (c.taken a).log = c.log := by
  cases a <;> rfl

/-- Every operation but `activate`, in any scope that allows deliveries. -/
lemma step_steps_of_ne (hA : A.deliveries = true) {c : Client} {a : ClientCall}
    (ha : a ≠ .activate)
    (hf : ∀ token, a = .library (.onDeliveryFailure token) → Fits A c token) :
    Steps A (c.taken a) (c.step a) := by
  cases a with
  | configure topics => exact configure_steps c topics
  | activate => exact absurd rfl ha
  | deactivate => exact deactivate_steps c
  | request r => exact request_steps c r
  | disconnect => exact disconnect_steps c
  | execute => exact execute_steps hA c
  | library l => exact callback_steps hA fun token h => hf token (congrArg _ h)

/-- **Every operation of a client is a sequence of small steps.** -/
theorem step_steps (c : Client) (a : ClientCall) : Steps {} (c.taken a) (c.step a) := by
  by_cases ha : a = .activate
  · subst ha
    exact activate_steps rfl c
  · exact step_steps_of_ne rfl ha fun token _ => fits_all rfl c token

/-- A reflexive and transitive relation across every small step holds across every
operation. -/
theorem Steps.rel {R : Client → Client → Prop} (hrefl : ∀ c, R c c)
    (htrans : ∀ {a b c}, R a b → R b c → R a c) (h : ∀ {c d}, ClientStep A c d → R c d)
    {c d : Client} (hs : Steps A c d) : R c d := by
  induction hs with
  | refl => exact hrefl c
  | tail _ hstep ih => exact htrans ih (h hstep)

/-- What every small step keeps, every sequence of them keeps. -/
theorem Steps.invariant {P : Client → Prop} (h : ∀ {c d}, ClientStep A c d → P c → P d)
    {c d : Client} (hs : Steps A c d) (hc : P c) : P d := by
  induction hs with
  | refl => exact hc
  | tail _ hstep ih => exact h hstep ih

end Sparkplug.Client
