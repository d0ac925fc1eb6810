import Sparkplug.Recursion
import Sparkplug.Primary
import Sparkplug.Sequence

/-!
Failing publishes.

A publish that fails is tried again, and after too many retries the request is given up and
the next one is published, all within one call. Each round uses up an attempt that the
queue has left, so the call returns; each request is tried at most once more than its
retries; and what remains is the rest of the queue, with its front accepted.
-/

namespace Sparkplug.Client

open Ledger Sequence

/-! ### The call returns

The four functions once more, with a failure callback that may not return. -/

section Using

variable (fail : Client → ℤ → Option Client)

def publishMessageUsing (c : Client) (r : PublishRequest) (seq : ℕ) : Option Client :=
  let a := c.sendAnswer
  let c := c.asked .send
  match c.kind with
  | .pahoSync =>
    if a.code = mqttSuccess then some (c.acceptedAttempt r seq a.token)
    else fail (c.attempted r seq .refused) r.token
  | .pahoAsync =>
    if a.code = mqttSuccess then some (c.acceptedAttempt r seq a.token)
    else some (c.attempted r seq .refused)
  | .cppMqtt =>
    if a.token < 0 then
      (fail ((c.modifyFront fun q => { q with token := a.token }).attempted r seq .refused)
        a.token).map fun d => d.emit (.access r.id)
    else some ((c.acceptedAttempt r seq a.token).emit (.access r.id))

def processRequestUsing (c : Client) (r : PublishRequest) : Option Client :=
  if c.state = .disconnected then some (c.emit (.skipped r))
  else
    let seq := (c.buildPayload r).1
    let c := (c.buildPayload r).2
    if 0 < c.encodedLength then (c.asked .encoded).publishMessageUsing fail r seq
    else some ((c.asked .encoded).attempted r seq .unencoded)

def publishFromQueueUsing (c : Client) : Option Client :=
  if c.isConnected then
    match c.isPrimary, c.publishQueue with
    | true, r :: _ => (c.asked .connected).processRequestUsing fail r
    | _, _ =>
      if c.state = .publishingPayload then some ((c.asked .connected).setState .connected)
      else some (c.asked .connected)
  else some (c.asked .connected)

def giveUpUsing (c : Client) (r : PublishRequest) : Option Client :=
  ({ c with publishQueue := c.publishQueue.tail }.undelivered r).publishFromQueueUsing fail

def retryUsing (c : Client) (r : PublishRequest) : Option Client :=
  (c.modifyFront fun q => { q with retryCount := q.retryCount + 1 }).processRequestUsing fail
    { r with retryCount := r.retryCount + 1 }

def onDeliveryFailureUsing (c : Client) (token : ℤ) : Option Client :=
  match c.publishQueue with
  | [] => some c
  | r :: _ =>
    let c := c.emit (.access r.id)
    if r.token = token then
      if publishRetries ≤ r.retryCount then c.giveUpUsing fail r
      else if c.isConnected then (c.asked .connected).retryUsing fail r
      else (c.asked .connected).giveUpUsing fail r
    else some c

end Using

/-- The recursion of the source, if it ends in fewer than `n` rounds. -/
def onDeliveryFailureIn : ℕ → Client → ℤ → Option Client
  | 0, _, _ => none
  | n + 1, c, token => c.onDeliveryFailureUsing (onDeliveryFailureIn n) token

def publishFromQueueIn (n : ℕ) (c : Client) : Option Client :=
  c.publishFromQueueUsing (onDeliveryFailureIn n)

/-- The callback `f` returns what `g` says for every client with fewer than `n` attempts
left. -/
def Returns (n : ℕ) (f : Client → ℤ → Option Client) (g : Client → ℤ → Client) : Prop :=
  ∀ c token, attemptsLeft c.publishQueue < n → f c token = some (g c token)

section Returns

variable {n : ℕ} {f : Client → ℤ → Option Client} {g : Client → ℤ → Client}

lemma publishMessageUsing_eq (h : Returns n f g) {c : Client} (r : PublishRequest) (seq : ℕ)
    (hc : attemptsLeft c.publishQueue < n) :
    c.publishMessageUsing f r seq = some (c.publishMessageWith g r seq) := by
  simp only [publishMessageUsing, publishMessageWith]
  rw [h ((c.asked .send).attempted r seq .refused) r.token (by simpa [attempted] using hc),
    h _ c.sendAnswer.token
      (by simpa [attempted, modifyFront, attemptsLeft_token] using hc)]
  cases (c.asked .send).kind <;> simp only <;> split <;> rfl

lemma processRequestUsing_eq (h : Returns n f g) {c : Client} (r : PublishRequest)
    (hc : attemptsLeft c.publishQueue < n) :
    c.processRequestUsing f r = some (c.processRequestWith g r) := by
  simp only [processRequestUsing, processRequestWith]
  rw [publishMessageUsing_eq h r _ (by simpa using hc)]
  split
  · rfl
  · split <;> rfl

lemma publishFromQueueUsing_eq (h : Returns n f g) {c : Client}
    (hc : attemptsLeft c.publishQueue < n) :
    c.publishFromQueueUsing f = some (c.publishFromQueueWith g) := by
  have hp : ∀ r, (c.asked .connected).processRequestUsing f r
      = some ((c.asked .connected).processRequestWith g r) :=
    fun r => processRequestUsing_eq h r (by simpa using hc)
  have hidle : (if c.state = .publishingPayload then
      some ((c.asked .connected).setState .connected) else some (c.asked .connected)) =
      some (if c.state = .publishingPayload then (c.asked .connected).setState .connected
        else c.asked .connected) := by
    split <;> rfl
  simp only [publishFromQueueUsing, publishFromQueueWith, hp, hidle]
  split
  · cases c.isPrimary <;> cases c.publishQueue <;> rfl
  · rfl

lemma onDeliveryFailureUsing_eq (h : Returns n f g) {c : Client} (token : ℤ)
    (hc : attemptsLeft c.publishQueue < n + 1) :
    c.onDeliveryFailureUsing f token = some (c.onDeliveryFailureWith g token) := by
  unfold onDeliveryFailureUsing onDeliveryFailureWith
  rcases hq : c.publishQueue with _ | ⟨r, rest⟩
  · rfl
  rw [hq, attemptsLeft] at hc
  have hgive : ∀ d : Client, d.publishQueue = r :: rest →
      d.giveUpUsing f r = some (d.giveUpWith g r) := by
    intro d hd
    refine publishFromQueueUsing_eq h ?_
    simp only [undelivered, emit_publishQueue, hd, List.tail_cons]
    omega
  have hretry : ∀ d : Client, d.publishQueue = r :: rest → r.retryCount < publishRetries →
      d.retryUsing f r = some (d.retryWith g r) := by
    intro d hd hr
    refine processRequestUsing_eq h _ ?_
    simp only [modifyFront, hd, List.modifyHead_cons, attemptsLeft]
    omega
  simp only
  split
  · split
    · exact hgive _ (by simpa using hq)
    · split
      · exact hretry _ (by simpa using hq) (by omega)
      · exact hgive _ (by simpa using hq)
  · rfl

end Returns

lemma onDeliveryFailureIn_eq (n : ℕ) :
    Returns n (onDeliveryFailureIn n) onDeliveryFailure := by
  induction n with
  | zero => exact fun _ _ h => absurd h (Nat.not_lt_zero _)
  | succ n ih =>
    intro c token hc
    rw [onDeliveryFailure_eq]
    exact onDeliveryFailureUsing_eq ih token hc

/-- With more rounds than attempts left the call returns. -/
lemma publishFromQueueIn_eq {n : ℕ} {c : Client} (h : attemptsLeft c.publishQueue < n) :
    publishFromQueueIn n c = some c.publishFromQueue :=
  publishFromQueueUsing_eq (onDeliveryFailureIn_eq n) h

/-! ### The attempts at one request -/

/-- How often request `id` was tried between `c` and `d`. -/
def tries (id : ℕ) (c d : Client) : ℕ := (attempts (effects c d)).countP (·.request.id = id)

/-- The attempts that the requests `id` of a queue have left. -/
def budget (id : ℕ) : List PublishRequest → ℕ
  | [] => 0
  | r :: q => (if r.id = id then publishRetries - r.retryCount + 1 else 0) + budget id q

lemma budget_le (id : ℕ) (q : List PublishRequest) :
    budget id q ≤ (publishRetries + 1) * (q.map PublishRequest.id).count id := by
  induction q with
  | nil => exact Nat.zero_le _
  | cons r q ih =>
    rw [budget, List.map_cons, List.count_cons, Nat.mul_add, Nat.add_comm]
    refine Nat.add_le_add ih ?_
    split
    · next h => simp [h]
    · exact Nat.zero_le _

/-- Between `c` and `d` request `id` was tried at most `b id` times. -/
def TriesAtMost (b : ℕ → ℕ) (c d : Client) : Prop :=
  ∃ l, d.log = c.log ++ l ∧ ∀ id, (attempts l).countP (·.request.id = id) ≤ b id

lemma TriesAtMost.tries_le {b : ℕ → ℕ} {c d : Client} (h : TriesAtMost b c d) (id : ℕ) :
    tries id c d ≤ b id := by
  obtain ⟨l, hl, hb⟩ := h
  rw [tries, effects_eq hl]
  exact hb id

/-- Without an attempt. -/
lemma TriesAtMost.of_quiet {b : ℕ → ℕ} {c d : Client} (l : List Effect)
    (hl : d.log = c.log ++ l) (hatt : attempts l = []) : TriesAtMost b c d :=
  ⟨l, hl, by simp [hatt]⟩

/-- After a step without an attempt. -/
lemma TriesAtMost.after_quiet {b b' : ℕ → ℕ} {c c' d : Client} (h : TriesAtMost b c' d)
    (l : List Effect) (hl : c'.log = c.log ++ l) (hatt : attempts l = []) (hb : ∀ id, b id ≤ b' id) :
    TriesAtMost b' c d := by
  obtain ⟨m, hm, h⟩ := h
  refine ⟨l ++ m, by rw [hm, hl, List.append_assoc], fun id => ?_⟩
  rw [attempts_append, hatt, List.nil_append]
  exact (h id).trans (hb id)

lemma TriesAtMost.emit {b : ℕ → ℕ} {c d : Client} (h : TriesAtMost b c d) {e : Effect}
    (he : attempts [e] = []) : TriesAtMost b c (d.emit e) := by
  obtain ⟨l, hl, h⟩ := h
  refine ⟨l ++ [e], by simp [Client.emit, hl], fun id => ?_⟩
  rw [attempts_append, he, List.append_nil]
  exact h id

lemma count_attemptLog (c : Client) (r : PublishRequest) (o : Outcome) (id : ℕ) :
    (attempts (attemptLog c r o)).countP (·.request.id = id) = if r.id = id then 1 else 0 := by
  have hatt : attempts (attemptLog c r o) =
      [⟨r, c.nextSeq r, if r.isNodeBirth then some c.bdSeq else none, o⟩] := rfl
  rw [hatt, List.countP_singleton]
  simp

/-- One attempt at the front request leaves its retries. -/
lemma tried_triesAtMost {c : Client} {r : PublishRequest} {rest : List PublishRequest}
    (hq : c.publishQueue = r :: rest) (o : Outcome) (f : PublishRequest → PublishRequest)
    (lib : Answers) : TriesAtMost (budget · c.publishQueue) c (c.tried r o f lib) := by
  refine ⟨attemptLog c r o, rfl, fun id => ?_⟩
  simp only [count_attemptLog, hq, budget]
  split <;> omega

/-- The failure of a front request that has been tried: what its retries and the rest of the
queue have left. -/
def FailTries (c d : Client) : Prop :=
  ∀ r rest, c.publishQueue = r :: rest → TriesAtMost
    (fun id => (if r.id = id then publishRetries - r.retryCount else 0) + budget id rest) c d

lemma triesAtMost_recursion :
    Recursion (fun c d => TriesAtMost (budget · c.publishQueue) c d)
      (fun c d => TriesAtMost (budget · c.publishQueue) c d) FailTries where
  away c _ := .of_quiet [] (by simp) rfl
  idle c _ _ := ⟨.of_quiet [] (by simp) rfl, fun _ => .of_quiet [] (by simp) rfl⟩
  publish c d _ _ h := h.after_quiet [] (by simp) rfl (by simp)
  skipped c r _ := .of_quiet [.skipped r] rfl rfl
  unencoded c r rest lib hq _ _ := tried_triesAtMost hq _ _ lib
  accepted c r rest token lib hq _ :=
    have h := tried_triesAtMost hq _ _ lib
    ⟨h, h.emit rfl⟩
  refused c r rest lib hq _ _ := tried_triesAtMost hq _ _ lib
  failed c r rest f lib d hq _ hf _ h := by
    have hfr : (f r).id = r.id ∧ (f r).retryCount = r.retryCount := by
      cases hf <;> exact ⟨rfl, rfl⟩
    obtain ⟨l, hl, h⟩ := h (f r) rest (by simp [tried, hq])
    have hd : TriesAtMost (budget · c.publishQueue) c d := by
      refine ⟨attemptLog c r .refused ++ l, by simp [hl, tried], fun id => ?_⟩
      have hid := h id
      simp only [hfr] at hid
      simp only [attempts_append, List.countP_append, count_attemptLog, hq, budget]
      split at hid <;> split <;> omega
    exact ⟨hd, hd.emit rfl⟩
  giveUp c r rest d hq := by
    have hgive : ∀ c' : Client, c'.log = c.log ++ [.access r.id, .undelivered r] →
        c'.publishQueue = rest → TriesAtMost (budget · c'.publishQueue) c' d → FailTries c d := by
      intro c' hl hq' h q rest' he
      obtain ⟨rfl, rfl⟩ := List.cons.inj (hq.symm.trans he)
      exact h.after_quiet _ hl rfl fun id => by simp [hq']
    exact ⟨hgive _ (by simp [resolveFront, emit]) (by simp [resolveFront, hq]),
      hgive _ (by simp [resolveFront, emit]) (by simp [resolveFront, hq])⟩
  retry c r rest d hq hr h q rest' he := by
    obtain ⟨rfl, rfl⟩ := List.cons.inj (hq.symm.trans he)
    refine h.after_quiet [.access r.id] (by simp [modifyFront, emit]) rfl fun id => ?_
    simp only [modifyFront, asked_publishQueue, emit_publishQueue, hq, List.modifyHead_cons, budget]
    split <;> omega

/-! ### The queue afterwards -/

/-- If a request is left between `c` and `d`, the last attempt was at the front one, and the
library has accepted it under the token that is recorded. -/
def FrontSent (c d : Client) : Prop :=
  ∃ l, d.log = c.log ++ l ∧ ∀ r, d.publishQueue.head? = some r →
    ∃ a, (attempts l).getLast? = some a ∧ a.request.id = r.id ∧ a.outcome = .accepted r.token

/-- The queue of `c` after a call that ends in `d`: the requests that have left it have been
reported as undelivered, once and in order, and the front of the rest, if any, has been
accepted by the library in the last attempt, and its token recorded. -/
structure SoundQueue (c d : Client) : Prop where
  resolved : keys c.publishQueue = reported (effects c d) ++ keys d.publishQueue
  undelivered : ∀ p ∈ reports (effects c d), p.2 = false
  told : announced (effects c d) = (reports (effects c d)).map Report.event
  front : ∀ r, d.publishQueue.head? = some r → ∃ a, (attempts (effects c d)).getLast? = some a ∧
    a.request.id = r.id ∧ a.outcome = .accepted r.token

/-- After a step that may have built a payload. -/
lemma FrontSent.after {c c' d : Client} (h : FrontSent c' d) (l : List Effect)
    (hl : c'.log = c.log ++ l) : FrontSent c d := by
  obtain ⟨m, hm, h⟩ := h
  refine ⟨l ++ m, by rw [hm, hl, List.append_assoc], fun r hr => ?_⟩
  obtain ⟨a, ha, hid⟩ := h r hr
  exact ⟨a, by rw [attempts_append, List.getLast?_append, ha]; rfl, hid⟩

lemma FrontSent.emit {c d : Client} (h : FrontSent c d) {e : Effect} (he : attempts [e] = []) :
    FrontSent c (d.emit e) := by
  obtain ⟨l, hl, h⟩ := h
  refine ⟨l ++ [e], by simp [Client.emit, hl], fun r hr => ?_⟩
  rw [attempts_append, he, List.append_nil]
  exact h r hr

/-- The client takes notice of failures, is not disconnected, and every payload will be
encoded. -/
structure Sends (c : Client) : Prop where
  kind : c.kind ≠ .pahoAsync
  state : c.state ≠ .disconnected
  encoded : ∀ k, 0 < c.lib.encoded.get k

/-- The front is sent if the client is primary and was connected when it was last asked. -/
def SendsFront (c d : Client) : Prop :=
  Sends c → c.isPrimary = true → d.up = true → FrontSent c d

lemma accepted_frontSent {c : Client} {r : PublishRequest} {rest : List PublishRequest}
    (hq : c.publishQueue = r :: rest) (token : ℤ) (lib : Answers) :
    FrontSent c (c.tried r (.accepted token)
      (fun q => { q with token := token, accepted := true }) lib) := by
  refine ⟨attemptLog c r (.accepted token), rfl, fun q h => ?_⟩
  obtain rfl : { r with token := token, accepted := true } = q := by simpa [tried, hq] using h
  exact ⟨_, rfl, rfl, rfl⟩

lemma sendsFront_recursion : Recursion SendsFront SendsFront SendsFront where
  away c hc := fun _ _ hu => absurd (hc.symm.trans hu) (by simp)
  idle c _ hidle := by
    have hnil : ∀ d : Client, d.log = c.log → d.publishQueue = c.publishQueue →
        SendsFront c d := by
      intro d hl hq _ hp _
      have hempty : c.publishQueue = [] := hidle.resolve_left (by simp [hp])
      exact ⟨[], by simp [hl], fun r hr => by simp [hq, hempty] at hr⟩
    exact ⟨hnil _ (by simp) (by simp), fun _ => hnil _ (by simp) (by simp)⟩
  publish c d _ _ h hs hp hu :=
    (h ⟨hs.kind, hs.state, hs.encoded⟩ hp hu).after [] (by simp)
  skipped c r h hs := absurd h hs.state
  unencoded c r rest lib _ _ he hs := absurd he (Nat.pos_iff_ne_zero.mp (hs.encoded 0))
  accepted c r rest token lib hq _ :=
    have h := accepted_frontSent hq token lib
    ⟨fun _ _ _ => h, fun _ _ _ => h.emit rfl⟩
  refused c r rest lib _ _ hk hs := absurd hk hs.kind
  failed c r rest f lib d hq _ _ hlib h := by
    have hd : Sends c → c.isPrimary = true → d.up = true → FrontSent c d := by
      intro hs hp hu
      have hs' : Sends (c.tried r .refused f lib) :=
        ⟨hs.kind, by simp [tried], fun k => by simpa [tried, hlib] using hs.encoded (k + 1)⟩
      exact (h hs' hp hu).after (attemptLog c r .refused) rfl
    exact ⟨hd, fun hs hp hu => (hd hs hp hu).emit rfl⟩
  giveUp c r rest d _ :=
    ⟨fun h hs hp hu => (h ⟨hs.kind, hs.state, hs.encoded⟩ hp hu).after
        [.access r.id, .undelivered r] (by simp [resolveFront, Client.emit]),
      fun h hs hp hu => (h ⟨hs.kind, hs.state, hs.encoded⟩ hp hu).after
        [.access r.id, .undelivered r] (by simp [resolveFront, Client.emit])⟩
  retry c r rest d _ _ h hs hp hu :=
    (h ⟨hs.kind, hs.state, hs.encoded⟩ hp hu).after [.access r.id]
      (by simp [modifyFront, Client.emit])

/-- What happens to the queue whatever the library answers. -/
lemma publishFromQueue_resolved (c : Client) :
    keys c.publishQueue =
        reported (effects c c.publishFromQueue) ++ keys c.publishFromQueue.publishQueue ∧
      announced (effects c c.publishFromQueue) =
        (reports (effects c c.publishFromQueue)).map Report.event ∧
      ∀ p ∈ reports (effects c c.publishFromQueue), p.2 = false := by
  obtain ⟨l, hl, hq, ha⟩ := (publishFromQueue_steps (A := {}) c).rel Conserves.refl
    Conserves.trans clientStep_conserves
  obtain ⟨m, hm, hr⟩ := steps_undelivers (publishFromQueue_steps (A := quiet) c)
  obtain rfl : m = l := List.append_cancel_left (hm.symm.trans hl)
  rw [effects_eq hl]
  exact ⟨hq, ha, hr⟩

/-- **Failing publishes end.** The call returns, no request is tried more often than its
retries and once more, and if the client was connected when it was last asked and is
primary, the queue is sound. -/
theorem publishFromQueue_ends {c : Client} (hk : c.kind ≠ .pahoAsync)
    (hs : c.state ≠ .disconnected) (he : ∀ k, 0 < c.lib.encoded.get k) :
    (∀ n, attemptsLeft c.publishQueue < n → publishFromQueueIn n c = some c.publishFromQueue) ∧
    (∀ id, tries id c c.publishFromQueue ≤
      (publishRetries + 1) * (c.publishQueue.map PublishRequest.id).count id) ∧
    (c.publishFromQueue.up = true → c.publishFromQueue.isPrimary = true →
      SoundQueue c c.publishFromQueue) := by
  refine ⟨fun n hn => publishFromQueueIn_eq hn, fun id => ?_, fun hu hp => ?_⟩
  · exact (triesAtMost_recursion.publishFromQueue c).tries_le id |>.trans (budget_le id _)
  · obtain ⟨hq, ha, hr⟩ := publishFromQueue_resolved c
    have hprim : c.isPrimary = true :=
      (publishFromQueue_publishes (A := {}) c).frame.isPrimary.symm.trans hp
    obtain ⟨l, hl, hfront⟩ := sendsFront_recursion.publishFromQueue c ⟨hk, hs, he⟩ hprim hu
    refine ⟨hq, hr, ha, ?_⟩
    rw [effects_eq hl]
    exact hfront

/-- A client with two requests whose library refuses six messages and takes the seventh. -/
def refusedSixTimes : Client where
  kind := .pahoSync
  state := .connected
  isPrimary := true
  publishQueue := [⟨0, true, .node, [], -1, 0, false⟩, ⟨1, false, .node, [], -1, 0, false⟩]
  lib := { send := .appendStream' (.replicate 6 ⟨-1, 0⟩) (.const ⟨0, 7⟩) }

/-- The first request is given up, and the second one is in flight. -/
theorem refusedSixTimes_sound :
    SoundQueue refusedSixTimes refusedSixTimes.publishFromQueue ∧
      refusedSixTimes.publishFromQueue.publishQueue = [⟨1, false, .node, [], 7, 0, true⟩] :=
  ⟨(publishFromQueue_ends (c := refusedSixTimes) (by decide) (by decide)
    fun _ => Nat.one_pos).2.2 (by decide) (by decide), by decide⟩

end Sparkplug.Client
