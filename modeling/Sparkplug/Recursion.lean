import Sparkplug.ClientSteps

/-!
The recursion of publishing.

`publishFromQueue`, `processRequest` and `onDeliveryFailure` call each other while a failure
follows a failure. The rules here take a relation for each of the three, between the client
before and after, and ask what one round of the source needs; they give the relations for
the whole recursion. The first rule tells the rounds apart by everything the source asks,
the second is for properties that need less.
-/

namespace Sparkplug

/-- The answers left after the link was asked for, after a payload that was not sent, and
after one that was. -/
def Answers.pastLink (l : Answers) : Answers := { l with connected := l.connected.tail }
def Answers.unsent (l : Answers) : Answers := { l with encoded := l.encoded.tail }
def Answers.sent (l : Answers) : Answers :=
  { l with encoded := l.encoded.tail, send := l.send.tail }

/-- The library does not take the message. -/
def SendAnswer.refused (a : SendAnswer) : ClientKind → Bool
  | .pahoSync | .pahoAsync => a.code ≠ mqttSuccess
  | .cppMqtt => a.token < 0

/-- A refused request; the third class stores the token it was refused under. -/
def PublishRequest.refusedWith (r : PublishRequest) (a : SendAnswer) : ClientKind → PublishRequest
  | .pahoSync | .pahoAsync => r
  | .cppMqtt => { r with token := a.token }

namespace Client

/-- `publishMessage` returns, which in the third class reads the token of the request. -/
def returned (c : Client) (r : PublishRequest) (d : Client) : Client :=
  match c.kind with
  | .pahoSync | .pahoAsync => d
  | .cppMqtt => d.emit (.access r.id)

/-- The front request has been sent, and the library has taken it or not. -/
def acceptedFront (c : Client) (r : PublishRequest) : Client :=
  c.tried r (.accepted c.sendAnswer.token)
    (fun q => { q with token := c.sendAnswer.token, accepted := true }) c.lib.sent

def refusedFront (c : Client) (r : PublishRequest) : Client :=
  c.tried r .refused (·.refusedWith c.sendAnswer c.kind) c.lib.sent

/-- After a failure the front request has been given up, with its retries used or without a
connection, or is to be tried once more. -/
def exhaustedFront (c : Client) (r : PublishRequest) : Client :=
  (c.emit (.access r.id)).resolveFront (.undelivered r)

def lostFront (c : Client) (r : PublishRequest) : Client :=
  ((c.emit (.access r.id)).asked .connected).resolveFront (.undelivered r)

def retriedFront (c : Client) (r : PublishRequest) : Client :=
  ((c.emit (.access r.id)).asked .connected).modifyFront
    fun q => { q with retryCount := q.retryCount + 1 }

/-! ### Failures of no account -/

lemma onDeliveryFailure_of_nil {c : Client} (hq : c.publishQueue = []) (token : ℤ) :
    c.onDeliveryFailure token = c := by
  simp [onDeliveryFailure_eq, onDeliveryFailureWith, hq]

/-- The failure of a token that is not that of the front request. -/
lemma onDeliveryFailure_of_ne {c : Client} {r : PublishRequest} {rest : List PublishRequest}
    (hq : c.publishQueue = r :: rest) {token : ℤ} (ht : r.token ≠ token) :
    c.onDeliveryFailure token = c.emit (.access r.id) := by
  simp [onDeliveryFailure_eq, onDeliveryFailureWith, hq, ht]

/-! ### The rounds -/

/-- The relations hold of what the source does if they hold of the calls it makes: for
`publishFromQueue`, for `processRequest` on the front request, and for `onDeliveryFailure`
of the token of the front request. -/
structure Rounds (Publish Process Fail : Client → Client → Prop) : Prop where
  away : ∀ c, c.isConnected = false → Publish c (c.asked .connected)
  idle : ∀ c, c.isConnected = true → c.isPrimary = false ∨ c.publishQueue = [] →
    Publish c (c.asked .connected) ∧
      (c.state = .publishingPayload → Publish c ((c.asked .connected).setState .connected))
  publish : ∀ c r rest d, c.publishQueue = r :: rest → c.isConnected = true →
    c.isPrimary = true → Process (c.asked .connected) d → Publish c d
  skipped : ∀ c r rest, c.publishQueue = r :: rest → c.state = .disconnected →
    Process c (c.emit (.skipped r))
  unencoded : ∀ c r rest, c.publishQueue = r :: rest → c.state ≠ .disconnected →
    c.encodedLength = 0 → Process c (c.tried r .unencoded id c.lib.unsent)
  accepted : ∀ c r rest, c.publishQueue = r :: rest → c.state ≠ .disconnected →
    0 < c.encodedLength → c.sendAnswer.refused c.kind = false →
    Process c (c.returned r (c.acceptedFront r))
  refused : ∀ c r rest, c.publishQueue = r :: rest → c.state ≠ .disconnected →
    0 < c.encodedLength → c.sendAnswer.refused c.kind = true → c.kind = .pahoAsync →
    Process c (c.refusedFront r)
  failed : ∀ c r rest d, c.publishQueue = r :: rest → c.state ≠ .disconnected →
    0 < c.encodedLength → c.sendAnswer.refused c.kind = true → c.kind ≠ .pahoAsync →
    Fail (c.refusedFront r) d → Process c (c.returned r d)
  giveUp : ∀ c r rest d, c.publishQueue = r :: rest → publishRetries ≤ r.retryCount →
    Publish (c.exhaustedFront r) d → Fail c d
  lost : ∀ c r rest d, c.publishQueue = r :: rest → r.retryCount < publishRetries →
    c.isConnected = false → Publish (c.lostFront r) d → Fail c d
  retry : ∀ c r rest d, c.publishQueue = r :: rest → r.retryCount < publishRetries →
    c.isConnected = true → Process (c.retriedFront r) d → Fail c d

section Queues

variable {c : Client} {r : PublishRequest} {rest : List PublishRequest}

lemma refusedFront_queue (hq : c.publishQueue = r :: rest) :
    (c.refusedFront r).publishQueue = r.refusedWith c.sendAnswer c.kind :: rest := by
  simp [refusedFront, tried, hq]

lemma exhaustedFront_queue (hq : c.publishQueue = r :: rest) :
    (c.exhaustedFront r).publishQueue = rest := by
  simp [exhaustedFront, resolveFront, hq]

lemma lostFront_queue (hq : c.publishQueue = r :: rest) :
    (c.lostFront r).publishQueue = rest := by
  simp [lostFront, resolveFront, hq]

lemma retriedFront_queue (hq : c.publishQueue = r :: rest) :
    (c.retriedFront r).publishQueue = { r with retryCount := r.retryCount + 1 } :: rest := by
  simp [retriedFront, modifyFront, hq]

lemma refusedWith_id (r : PublishRequest) (a : SendAnswer) (k : ClientKind) :
    (r.refusedWith a k).id = r.id := by
  cases k <;> rfl

lemma refusedWith_retryCount (r : PublishRequest) (a : SendAnswer) (k : ClientKind) :
    (r.refusedWith a k).retryCount = r.retryCount := by
  cases k <;> rfl

end Queues

/-- What one `processRequest` does, by the answers to it. -/
lemma processRequest_eq {c : Client} (hs : c.state ≠ .disconnected) (r : PublishRequest) :
    c.processRequest r =
      if c.encodedLength = 0 then c.tried r .unencoded id c.lib.unsent
      else c.returned r <|
        if c.sendAnswer.refused c.kind = false then c.acceptedFront r
        else if c.kind = .pahoAsync then c.refusedFront r
        else (c.refusedFront r).onDeliveryFailure (r.refusedWith c.sendAnswer c.kind).token := by
  have henc : (c.buildPayload r).2.encodedLength = c.encodedLength := by
    simp [buildPayload_eq, encodedLength]
  have hkind : (((c.buildPayload r).2.asked .encoded)).kind = c.kind := by
    simp [buildPayload_eq, asked]
  have hanswer : ((c.buildPayload r).2.asked .encoded).sendAnswer = c.sendAnswer := by
    simp [buildPayload_eq, asked, sendAnswer]
  have hunsent : ((c.buildPayload r).2.asked .encoded).lib = c.lib.unsent := by
    simp [buildPayload_eq, asked, Answers.unsent]
  have hsent : (((c.buildPayload r).2.asked .encoded).asked .send).lib = c.lib.sent := by
    simp [buildPayload_eq, asked, Answers.sent]
  have hkind' : ((((c.buildPayload r).2.asked .encoded)).asked .send).kind = c.kind := hkind
  unfold processRequest processRequestWith
  rw [if_neg hs]
  simp only [henc]
  by_cases he : c.encodedLength = 0
  · rw [if_neg (by omega), if_pos he, tried_unencoded, hunsent]
  · rw [if_pos (by omega), if_neg he]
    simp only [publishMessageWith, hkind', hanswer]
    cases hk : c.kind with
    | pahoSync | pahoAsync =>
      by_cases ha : c.sendAnswer.code = mqttSuccess
      · simp [ha, SendAnswer.refused, returned, hk, tried_accepted, hsent, acceptedFront]
      · simp [ha, SendAnswer.refused, returned, hk, tried_refused, hsent, refusedFront,
          PublishRequest.refusedWith]
        rfl
    | cppMqtt =>
      by_cases ha : c.sendAnswer.token < 0
      · simp [ha, SendAnswer.refused, returned, hk, tried_refusedToken, hsent, refusedFront,
          PublishRequest.refusedWith]
      · simp [ha, SendAnswer.refused, returned, hk, tried_accepted, hsent, acceptedFront]

namespace Rounds

variable {Publish Process Fail : Client → Client → Prop} (h : Rounds Publish Process Fail)

include h

/-- What is known of the failure callback on a client with at most `k` attempts left. -/
lemma process_of {k : ℕ}
    (hfail : ∀ c r rest, c.publishQueue = r :: rest → attemptsLeft c.publishQueue ≤ k →
      Fail c (c.onDeliveryFailure r.token))
    {c : Client} {r : PublishRequest} {rest : List PublishRequest} (hq : c.publishQueue = r :: rest)
    (hn : attemptsLeft c.publishQueue ≤ k) : Process c (c.processRequest r) := by
  by_cases hs : c.state = .disconnected
  · have hskip : c.processRequest r = c.emit (.skipped r) := if_pos hs
    rw [hskip]
    exact h.skipped c r rest hq hs
  rw [processRequest_eq hs]
  split
  · next he => exact h.unencoded c r rest hq hs he
  next he =>
  have hpos := Nat.pos_of_ne_zero he
  split
  · next ha => exact h.accepted c r rest hq hs hpos ha
  next ha =>
  rw [Bool.not_eq_false] at ha
  split
  · next hk =>
    have hret : c.returned r (c.refusedFront r) = c.refusedFront r := by simp [returned, hk]
    rw [hret]
    exact h.refused c r rest hq hs hpos ha hk
  · next hk =>
    refine h.failed c r rest _ hq hs hpos ha hk (hfail _ _ rest (refusedFront_queue hq) ?_)
    rwa [refusedFront_queue hq, attemptsLeft, refusedWith_retryCount, ← attemptsLeft, ← hq]

lemma publish_of {k : ℕ}
    (hfail : ∀ c r rest, c.publishQueue = r :: rest → attemptsLeft c.publishQueue ≤ k →
      Fail c (c.onDeliveryFailure r.token))
    {c : Client} (hn : attemptsLeft c.publishQueue ≤ k) : Publish c c.publishFromQueue := by
  unfold publishFromQueue publishFromQueueWith
  split
  · next hc =>
    split
    · next r rest hp hq =>
      refine h.publish c r rest _ hq hc hp ?_
      exact h.process_of hfail (c := c.asked .connected) (by simpa using hq) (by simpa using hn)
    · next hne =>
      have hidle := h.idle c hc (by
        cases hp : c.isPrimary with
        | false => exact .inl rfl
        | true =>
          rcases hq : c.publishQueue with _ | ⟨r, rest⟩
          · exact .inr rfl
          · exact absurd hq (hne r rest hp))
      split
      · next hs => exact hidle.2 hs
      · exact hidle.1
  · next hc => exact h.away c (by simpa using hc)

/-- The failure of the front request. -/
lemma fail_of (k : ℕ) : ∀ c r rest, c.publishQueue = r :: rest →
    attemptsLeft c.publishQueue ≤ k → Fail c (c.onDeliveryFailure r.token) := by
  induction k with
  | zero =>
    intro c r rest hq hn
    have := attemptsLeft_pos (q := c.publishQueue) (by simp [hq])
    omega
  | succ k ih =>
    intro c r rest hq hn
    rw [hq, attemptsLeft] at hn
    rw [onDeliveryFailure_eq]
    simp only [onDeliveryFailureWith, hq, if_true]
    split
    · next hr =>
      refine h.giveUp c r rest _ hq hr (h.publish_of ih ?_)
      rw [exhaustedFront_queue hq]
      omega
    · next hr =>
      split
      · next hc =>
        refine h.retry c r rest _ hq (by omega) hc (h.process_of ih (retriedFront_queue hq) ?_)
        rw [retriedFront_queue hq, attemptsLeft]
        dsimp only
        omega
      · next hc =>
        refine h.lost c r rest _ hq (by omega) (Bool.eq_false_iff.mpr hc) (h.publish_of ih ?_)
        rw [lostFront_queue hq]
        omega

/-- **The rule for `publishFromQueue`.** -/
theorem publishFromQueue (c : Client) : Publish c c.publishFromQueue :=
  h.publish_of (h.fail_of _) le_rfl

/-- **The rule for `processRequest`** on the front request. -/
theorem processRequest {c : Client} {r : PublishRequest} {rest : List PublishRequest}
    (hq : c.publishQueue = r :: rest) : Process c (c.processRequest r) :=
  h.process_of (h.fail_of _) hq le_rfl

/-- **The rule for `onDeliveryFailure`.** -/
theorem onDeliveryFailure {c : Client} {r : PublishRequest} {rest : List PublishRequest}
    (hq : c.publishQueue = r :: rest) : Fail c (c.onDeliveryFailure r.token) :=
  h.fail_of _ c r rest hq le_rfl

end Rounds

/-- The same with less said about the rounds. -/
structure Recursion (Publish Process Fail : Client → Client → Prop) : Prop where
  away : ∀ c, c.isConnected = false → Publish c (c.asked .connected)
  idle : ∀ c, c.isConnected = true → c.isPrimary = false ∨ c.publishQueue = [] →
    Publish c (c.asked .connected) ∧
      (c.state = .publishingPayload → Publish c ((c.asked .connected).setState .connected))
  publish : ∀ c d, c.isConnected = true → c.isPrimary = true →
    Process (c.asked .connected) d → Publish c d
  skipped : ∀ c r, c.state = .disconnected → Process c (c.emit (.skipped r))
  unencoded : ∀ c r rest lib, c.publishQueue = r :: rest → c.state ≠ .disconnected →
    c.encodedLength = 0 → Process c (c.tried r .unencoded id lib)
  accepted : ∀ c r rest token lib, c.publishQueue = r :: rest → c.state ≠ .disconnected →
    let d := c.tried r (.accepted token) (fun q => { q with token := token, accepted := true }) lib
    Process c d ∧ Process c (d.emit (.access r.id))
  refused : ∀ c r rest lib, c.publishQueue = r :: rest → c.state ≠ .disconnected →
    c.kind = .pahoAsync → Process c (c.tried r .refused id lib)
  failed : ∀ c r rest f lib d, c.publishQueue = r :: rest → c.state ≠ .disconnected →
    FrontUpdate .refused f → lib.encoded = c.lib.encoded.tail →
    Fail (c.tried r .refused f lib) d → Process c d ∧ Process c (d.emit (.access r.id))
  giveUp : ∀ c r rest d, c.publishQueue = r :: rest →
    (Publish ((c.emit (.access r.id)).resolveFront (.undelivered r)) d → Fail c d) ∧
    (Publish (((c.emit (.access r.id)).asked .connected).resolveFront (.undelivered r)) d →
      Fail c d)
  retry : ∀ c r rest d, c.publishQueue = r :: rest → r.retryCount < publishRetries →
    Process (((c.emit (.access r.id)).asked .connected).modifyFront
      fun q => { q with retryCount := q.retryCount + 1 }) d → Fail c d

namespace Recursion

variable {Publish Process Fail : Client → Client → Prop} (h : Recursion Publish Process Fail)

include h

lemma rounds : Rounds Publish Process Fail where
  away := h.away
  idle := h.idle
  publish c _ _ d _ := h.publish c d
  skipped c r _ _ := h.skipped c r
  unencoded c r rest hq hs he := h.unencoded c r rest _ hq hs he
  accepted c r rest hq hs _ _ := by
    have ha := h.accepted c r rest c.sendAnswer.token c.lib.sent hq hs
    unfold returned
    split
    · exact ha.1
    · exact ha.1
    · exact ha.2
  refused c r rest hq hs _ _ hk := by
    have hsame : (fun q : PublishRequest => q.refusedWith c.sendAnswer c.kind) = id := by
      rw [hk]
      rfl
    rw [refusedFront, hsame]
    exact h.refused c r rest _ hq hs hk
  failed c r rest d hq hs _ ha hk hd := by
    have hf : FrontUpdate .refused (·.refusedWith c.sendAnswer c.kind) := by
      cases hkind : c.kind with
      | pahoSync => exact .refused
      | pahoAsync => exact absurd hkind hk
      | cppMqtt =>
        rw [hkind] at ha
        exact .refusedToken (of_decide_eq_true ha)
    have hfail := h.failed c r rest _ c.lib.sent d hq hs hf rfl hd
    unfold returned
    split
    · exact hfail.1
    · exact hfail.1
    · exact hfail.2
  giveUp c r rest d hq _ := (h.giveUp c r rest d hq).1
  lost c r rest d hq _ _ := (h.giveUp c r rest d hq).2
  retry c r rest d hq hr _ := h.retry c r rest d hq hr

/-- **The rule for `publishFromQueue`.** -/
theorem publishFromQueue (c : Client) : Publish c c.publishFromQueue :=
  h.rounds.publishFromQueue c

/-- **The rule for `onDeliveryFailure`.** -/
theorem onDeliveryFailure {c : Client} {r : PublishRequest} {rest : List PublishRequest}
    (hq : c.publishQueue = r :: rest) : Fail c (c.onDeliveryFailure r.token) :=
  h.rounds.onDeliveryFailure hq

end Recursion

end Client

end Sparkplug
