import Sparkplug.ClientState

/-!
Publishing from the queue.

In the source `publishFromQueue`, `processRequest`, `publishMessage` and
`onDeliveryFailure` call each other. Here the first three take the failure callback as an
argument, and the callback is a recursion on the number of attempts the queue has left,
which each round of the recursion uses up by one. `onDeliveryFailure_eq` is the source's
own recursion, without the counter.
-/

namespace Sparkplug.Client

/-- `publishMessage` of the three classes, with the failure callback they call. -/
def publishMessageWith (fail : Client → ℤ → Client) (c : Client) (r : PublishRequest)
    (seq : ℕ) : Client :=
  let a := c.sendAnswer
  let c := c.asked .send
  match c.kind with
  | .pahoSync =>
    if a.code = mqttSuccess then c.acceptedAttempt r seq a.token
    else fail (c.attempted r seq .refused) r.token
  | .pahoAsync =>
    if a.code = mqttSuccess then c.acceptedAttempt r seq a.token
    else c.attempted r seq .refused
  | .cppMqtt =>
    -- the token is stored before it is tested, and read once more for the return value
    if a.token < 0 then
      (fail ((c.modifyFront fun q => { q with token := a.token }).attempted r seq .refused)
        a.token).emit (.access r.id)
    else (c.acceptedAttempt r seq a.token).emit (.access r.id)

/-- The sequence number and the payload of a request, up to the encoding. -/
def buildPayload (c : Client) (r : PublishRequest) : ℕ × Client :=
  let c := (c.setState .publishingPayload).emit (.access r.id)
  let c := if r.isNodeBirth then c.resetSequence else c
  (c.payloadSequence, c.initializePayload.emit (.addToPayload r.publisher r.isBirth))

/-- `processRequest` on the request at the front of the queue. -/
def processRequestWith (fail : Client → ℤ → Client) (c : Client) (r : PublishRequest) :
    Client :=
  if c.state = .disconnected then c.emit (.skipped r)
  else
    let seq := (c.buildPayload r).1
    let c := (c.buildPayload r).2
    if 0 < c.encodedLength then (c.asked .encoded).publishMessageWith fail r seq
    else (c.asked .encoded).attempted r seq .unencoded

/-- `publishFromQueue` of `PahoClient` and `CppMqttClient`. -/
def publishFromQueueWith (fail : Client → ℤ → Client) (c : Client) : Client :=
  if c.isConnected then
    match c.isPrimary, c.publishQueue with
    | true, r :: _ => (c.asked .connected).processRequestWith fail r
    | _, _ =>
      if c.state = .publishingPayload then (c.asked .connected).setState .connected
      else c.asked .connected
  else c.asked .connected

/-- The front request is given up: the next one is published. -/
def giveUpWith (fail : Client → ℤ → Client) (c : Client) (r : PublishRequest) : Client :=
  ({ c with publishQueue := c.publishQueue.tail }.undelivered r).publishFromQueueWith fail

/-- The front request is tried once more. -/
def retryWith (fail : Client → ℤ → Client) (c : Client) (r : PublishRequest) : Client :=
  (c.modifyFront fun q => { q with retryCount := q.retryCount + 1 }).processRequestWith fail
    { r with retryCount := r.retryCount + 1 }

/-- The body of `onDeliveryFailure` of `PahoClient` and `CppMqttClient`. -/
def onDeliveryFailureWith (fail : Client → ℤ → Client) (c : Client) (token : ℤ) : Client :=
  match c.publishQueue with
  | [] => c
  | r :: _ =>
    let c := c.emit (.access r.id)
    if r.token = token then
      if publishRetries ≤ r.retryCount then c.giveUpWith fail r
      else if c.isConnected then (c.asked .connected).retryWith fail r
      else (c.asked .connected).giveUpWith fail r
    else c

/-- The recursion, for at most `n` rounds. -/
def onDeliveryFailureN : ℕ → Client → ℤ → Client
  | 0, c, _ => c
  | n + 1, c, token => c.onDeliveryFailureWith (onDeliveryFailureN n) token

/-- The attempts a queue has left: for each request its retries and one round to give up. -/
def attemptsLeft : List PublishRequest → ℕ
  | [] => 0
  | r :: q => publishRetries - r.retryCount + 1 + attemptsLeft q

def onDeliveryFailure (c : Client) (token : ℤ) : Client :=
  onDeliveryFailureN (attemptsLeft c.publishQueue) c token

def publishMessage (c : Client) (r : PublishRequest) (seq : ℕ) : Client :=
  c.publishMessageWith onDeliveryFailure r seq

def processRequest (c : Client) (r : PublishRequest) : Client :=
  c.processRequestWith onDeliveryFailure r

def publishFromQueue (c : Client) : Client := c.publishFromQueueWith onDeliveryFailure

/-! ### The recursion does not depend on the counter -/

@[simp] lemma emit_publishQueue (c : Client) (e : Effect) :
    (c.emit e).publishQueue = c.publishQueue := rfl

@[simp] lemma asked_publishQueue (c : Client) (q : Question) :
    (c.asked q).publishQueue = c.publishQueue := by
  cases q <;> rfl

@[simp] lemma setState_publishQueue (c : Client) (s : ClientState) :
    (c.setState s).publishQueue = c.publishQueue := by
  unfold setState; split
  · rfl
  · cases s <;> rfl

@[simp] lemma buildPayload_publishQueue (c : Client) (r : PublishRequest) :
    (c.buildPayload r).2.publishQueue = c.publishQueue := by
  unfold buildPayload initializePayload resetSequence
  split <;> simp

/-- Two failure callbacks do the same on every client with at most `k` attempts left. -/
def Agree (k : ℕ) (f g : Client → ℤ → Client) : Prop :=
  ∀ c token, attemptsLeft c.publishQueue ≤ k → f c token = g c token

variable {k : ℕ} {f g : Client → ℤ → Client}

lemma attemptsLeft_token (q : List PublishRequest) (t : ℤ) :
    attemptsLeft (q.modifyHead fun r => { r with token := t }) = attemptsLeft q := by
  cases q <;> rfl

lemma publishMessageWith_congr (h : Agree k f g) {c : Client} (r : PublishRequest) (seq : ℕ)
    (hc : attemptsLeft c.publishQueue ≤ k) :
    c.publishMessageWith f r seq = c.publishMessageWith g r seq := by
  simp only [publishMessageWith]
  rw [h ((c.asked .send).attempted r seq .refused) r.token (by simpa [attempted] using hc),
    h _ c.sendAnswer.token
      (by simpa [attempted, modifyFront, attemptsLeft_token] using hc)]

lemma processRequestWith_congr (h : Agree k f g) {c : Client} (r : PublishRequest)
    (hc : attemptsLeft c.publishQueue ≤ k) :
    c.processRequestWith f r = c.processRequestWith g r := by
  simp only [processRequestWith]
  rw [publishMessageWith_congr h r _ (by simpa using hc)]

lemma publishFromQueueWith_congr (h : Agree k f g) {c : Client}
    (hc : attemptsLeft c.publishQueue ≤ k) :
    c.publishFromQueueWith f = c.publishFromQueueWith g := by
  have hp : ∀ r, (c.asked .connected).processRequestWith f r
      = (c.asked .connected).processRequestWith g r :=
    fun r => processRequestWith_congr h r (by simpa using hc)
  simp only [publishFromQueueWith, hp]

lemma onDeliveryFailureWith_congr (h : Agree k f g) {c : Client} (token : ℤ)
    (hc : attemptsLeft c.publishQueue ≤ k + 1) :
    c.onDeliveryFailureWith f token = c.onDeliveryFailureWith g token := by
  unfold onDeliveryFailureWith
  rcases hq : c.publishQueue with _ | ⟨r, rest⟩
  · rfl
  rw [hq] at hc
  rw [attemptsLeft] at hc
  have hgive : ∀ d : Client, d.publishQueue = r :: rest → d.giveUpWith f r = d.giveUpWith g r := by
    intro d hd
    refine publishFromQueueWith_congr h ?_
    simp only [undelivered, emit_publishQueue, hd, List.tail_cons]
    omega
  have hretry : ∀ d : Client, d.publishQueue = r :: rest → r.retryCount < publishRetries →
      d.retryWith f r = d.retryWith g r := by
    intro d hd hr
    refine processRequestWith_congr h _ ?_
    simp only [modifyFront, hd, List.modifyHead_cons, attemptsLeft]
    omega
  simp only
  split
  · split
    · exact hgive _ (by simpa using hq)
    · split
      · exact hretry _ (by simpa using hq) (by omega)
      · exact hgive _ (by simpa using hq)
  · rfl

lemma attemptsLeft_pos {q : List PublishRequest} (h : q ≠ []) : 1 ≤ attemptsLeft q := by
  cases q with
  | nil => exact absurd rfl h
  | cons r q => rw [attemptsLeft]; omega

/-- With a counter no smaller than the attempts left the counter does not matter. -/
lemma onDeliveryFailureN_eq {n m : ℕ} {c : Client} (token : ℤ)
    (hn : attemptsLeft c.publishQueue ≤ n) (hm : attemptsLeft c.publishQueue ≤ m) :
    onDeliveryFailureN n c token = onDeliveryFailureN m c token := by
  induction n generalizing m c token with
  | zero =>
    have hq : c.publishQueue = [] := by
      by_contra hq
      have := attemptsLeft_pos hq
      omega
    cases m <;> simp [onDeliveryFailureN, onDeliveryFailureWith, hq]
  | succ n ih =>
    by_cases hq : c.publishQueue = []
    · cases m <;> simp [onDeliveryFailureN, onDeliveryFailureWith, hq]
    have hpos := attemptsLeft_pos hq
    cases m with
    | zero => omega
    | succ m =>
      refine onDeliveryFailureWith_congr (k := attemptsLeft c.publishQueue - 1) ?_ token (by omega)
      intro d t hd
      exact ih t (by omega) (by omega)

/-- **The recursion of the source.** -/
theorem onDeliveryFailure_eq (c : Client) (token : ℤ) :
    c.onDeliveryFailure token = c.onDeliveryFailureWith onDeliveryFailure token := by
  have h : c.onDeliveryFailure token
      = onDeliveryFailureN (attemptsLeft c.publishQueue + 1) c token :=
    onDeliveryFailureN_eq token le_rfl (Nat.le_succ _)
  rw [h]
  refine onDeliveryFailureWith_congr (k := attemptsLeft c.publishQueue) ?_ token (Nat.le_succ _)
  intro d t hd
  exact onDeliveryFailureN_eq t hd le_rfl

end Sparkplug.Client
