import Sparkplug.Handovers
import Sparkplug.Settling
import Sparkplug.Wire

/-!
What a client still sends when it is not primary.

Publishing from the queue asks whether the client is primary, but the retry after a failure does
not. So a client that is left with requests when it ceases to be primary begins none of them, but
may send the front one again, each time using up one of the retries that are left.
-/

namespace Sparkplug

open Machine Client Ledger Sequence

namespace Leftovers

/-- From `c` to `d` a client of class `kind` sends retries only, at most `k` more of them than its
queue loses. -/
def Lingers (kind : ClientKind) (k : ℕ) (c d : Client) : Prop :=
  ∃ l, d.log = c.log ++ l ∧
    (attempts l).length + (retries d.publishQueue).sum ≤ (retries c.publishQueue).sum + k ∧
    ∀ a ∈ attempts l, 0 < a.request.retryCount ∧ kind ≠ .pahoSync

section Lingers

variable {kind : ClientKind} {j k : ℕ} {b c d : Client}

lemma Lingers.trans (h : Lingers kind j b c) (h' : Lingers kind k c d) :
    Lingers kind (j + k) b d := by
  obtain ⟨l, hl, hsum, hretried⟩ := h
  obtain ⟨m, hm, hsum', hretried'⟩ := h'
  refine ⟨l ++ m, by rw [hm, hl, List.append_assoc], ?_, fun a ha => ?_⟩
  · rw [attempts_append, List.length_append]
    omega
  · rw [attempts_append] at ha
    exact (List.mem_append.mp ha).elim (hretried a) (hretried' a)

/-- A step that sends nothing and adds no request. -/
lemma Lingers.of_quiet (l : List Effect) (hl : d.log = c.log ++ l) (hatt : attempts l = [])
    (hsum : (retries d.publishQueue).sum ≤ (retries c.publishQueue).sum) :
    Lingers kind 0 c d :=
  ⟨l, hl, by simpa [hatt] using hsum, by simp [hatt]⟩

lemma Lingers.refl (c : Client) : Lingers kind 0 c c := .of_quiet [] (by simp) rfl le_rfl

lemma Lingers.mono (h : Lingers kind j c d) (hjk : j ≤ k) : Lingers kind k c d := by
  obtain ⟨l, hl, hsum, hretried⟩ := h
  exact ⟨l, hl, by omega, hretried⟩

lemma lingers_of_idles (h : Wire.Idles c d) : Lingers kind 0 c d := by
  obtain ⟨l, hl, hatt, -⟩ := h.log
  exact .of_quiet l hl hatt (by rw [h.queue])

end Lingers

/-! ### Publishing without being primary -/

section Tried

variable {kind : ClientKind} {c : Client} {r : PublishRequest} {rest : List PublishRequest}

lemma retries_modifyHead {f : PublishRequest → PublishRequest}
    (hf : ∀ r, (f r).retryCount = r.retryCount) (q : List PublishRequest) :
    retries (q.modifyHead f) = retries q := by
  cases q <;> simp [retries, hf]

/-- The payload of a request that is tried again. -/
lemma tried_lingers {o : Outcome} {f : PublishRequest → PublishRequest} (lib : Answers)
    (hk : kind ≠ .pahoSync) (hr : 0 < r.retryCount) (hf : FrontUpdate o f) :
    Lingers kind 1 c (c.tried r o f lib) := by
  have hcount : ∀ q, (f q).retryCount = q.retryCount := fun q => by cases hf <;> rfl
  refine ⟨attemptLog c r o, rfl, ?_, ?_⟩
  · have hone : (attempts (attemptLog c r o)).length = 1 := rfl
    rw [hone, tried, retries_modifyHead hcount]
    omega
  · rintro a ha
    obtain rfl := List.mem_singleton.mp ha
    exact ⟨hr, hk⟩

/-- The front request leaves with a report. -/
lemma resolveFront_lingers (hq : c.publishQueue = r :: rest) {e : Effect}
    (he : e.payload = none) : Lingers kind 0 c (c.resolveFront e) := by
  refine .of_quiet [e] rfl (by simp [attempts, he]) ?_
  simp [resolveFront, Client.emit, hq, retries]

/-- The front request is to be tried once more. -/
lemma retry_lingers {d : Client} (hq : c.publishQueue = r :: rest)
    (hr : r.retryCount < publishRetries)
    (h : Lingers kind 1 (c.modifyFront fun q => { q with retryCount := q.retryCount + 1 }) d) :
    Lingers kind 0 c d := by
  obtain ⟨l, hl, hsum, hretried⟩ := h
  refine ⟨l, hl, ?_, hretried⟩
  have hless : (retries (c.modifyFront fun q =>
      { q with retryCount := q.retryCount + 1 }).publishQueue).sum + 1 =
      (retries c.publishQueue).sum := by
    simp only [modifyFront, hq, retries, List.modifyHead_cons, List.map_cons, List.sum_cons]
    omega
  omega

end Tried

/-- What a client does that is not primary: it publishes nothing, and what it processes is to be
tried again. -/
lemma lingers_recursion {kind : ClientKind} (hk : kind ≠ .pahoSync) :
    Recursion (fun c d => c.isPrimary = false → Lingers kind 0 c d)
      (fun c d => c.isPrimary = false → (∀ r ∈ c.publishQueue.head?, 0 < r.retryCount) →
        Lingers kind 1 c d)
      (fun c d => c.isPrimary = false → Lingers kind 0 c d) where
  away c _ _ := lingers_of_idles (Wire.asked_idles c _)
  idle c _ _ := by
    refine ⟨fun _ => lingers_of_idles (Wire.asked_idles c _), fun _ _ => ?_⟩
    exact lingers_of_idles ((Wire.asked_idles c _).trans (Wire.setState_idles _ _))
  publish c d _ hp _ hnot := by rw [hnot] at hp; cases hp
  skipped c r _ _ _ := (lingers_of_idles (Wire.emit_idles c rfl rfl)).mono (by omega)
  unencoded c r rest lib hq _ _ _ hr := tried_lingers lib hk (hr r (by simp [hq])) .unencoded
  accepted c r rest token lib hq _ := by
    have htried : (∀ r ∈ c.publishQueue.head?, 0 < r.retryCount) → Lingers kind 1 c
        (c.tried r (.accepted token) (fun q => { q with token := token, accepted := true }) lib) :=
      fun hr => tried_lingers lib hk (hr r (by simp [hq])) (.accepted token)
    refine ⟨fun _ => htried, fun _ hr => ?_⟩
    exact (htried hr).trans (lingers_of_idles (Wire.access_idles _ _))
  refused c r rest lib hq _ _ _ hr := tried_lingers lib hk (hr r (by simp [hq])) .refused
  failed c r rest f lib d hq _ hf _ hd := by
    have htried : c.isPrimary = false → (∀ r ∈ c.publishQueue.head?, 0 < r.retryCount) →
        Lingers kind 1 c d := fun hp hr =>
      (tried_lingers lib hk (hr r (by simp [hq])) hf).trans (hd hp)
    refine ⟨htried, fun hp hr => ?_⟩
    exact (htried hp hr).trans (lingers_of_idles (Wire.access_idles _ _))
  giveUp c r rest d hq := by
    have haccess : Lingers kind 0 c (c.emit (.access r.id)) :=
      lingers_of_idles (Wire.access_idles c _)
    refine ⟨fun hd hp => ?_, fun hd hp => ?_⟩
    · have hresolved : Lingers kind 0 _ ((c.emit (.access r.id)).resolveFront (.undelivered r)) :=
        resolveFront_lingers (c := c.emit (.access r.id)) hq rfl
      exact (haccess.trans hresolved).trans (hd hp)
    · have hasked := haccess.trans (lingers_of_idles (Wire.asked_idles _ .connected))
      have hqueue : ((c.emit (.access r.id)).asked .connected).publishQueue = r :: rest := by
        simpa using hq
      have hresolved : Lingers kind 0 _ (((c.emit (.access r.id)).asked .connected).resolveFront
          (.undelivered r)) := resolveFront_lingers hqueue rfl
      exact (hasked.trans hresolved).trans (hd ((asked_isPrimary _ _).trans hp))
  retry c r rest d hq hr hd hp := by
    have hasked : Lingers kind 0 c ((c.emit (.access r.id)).asked .connected) :=
      lingers_of_idles ((Wire.access_idles c _).trans (Wire.asked_idles _ .connected))
    have hqueue : ((c.emit (.access r.id)).asked .connected).publishQueue = r :: rest := by
      simpa using hq
    refine hasked.trans (retry_lingers hqueue hr (hd ((asked_isPrimary _ _).trans hp) ?_))
    intro q hmem
    rw [modifyFront, hqueue] at hmem
    obtain rfl := Option.some.inj hmem
    exact Nat.succ_pos _

/-! ### The operations -/

section Operations

variable {kind : ClientKind} {c : Client}

lemma publishFromQueue_idles (hp : c.isPrimary = false) : Wire.Idles c c.publishFromQueue := by
  unfold publishFromQueue publishFromQueueWith
  split
  · split
    · next hprimary _ =>
      rw [hp] at hprimary
      cases hprimary
    · split
      · exact (Wire.asked_idles c _).trans (Wire.setState_idles _ _)
      · exact Wire.asked_idles c _
  · exact Wire.asked_idles c _

lemma deliverFront_lingers {r : PublishRequest} {rest : List PublishRequest}
    (hp : c.isPrimary = false) (hq : c.publishQueue = r :: rest) :
    Lingers kind 0 c (c.deliverFront r) :=
  (resolveFront_lingers hq rfl).trans (lingers_of_idles (publishFromQueue_idles hp))

lemma calledBack_lingers (c : Client) (token : ℤ) : Lingers kind 0 c (c.calledBack token) :=
  .of_quiet [] (by simp [calledBack]) rfl le_rfl

lemma onDelivery_lingers (hp : c.isPrimary = false) (token : ℤ) :
    Lingers kind 0 c (c.onDelivery token) := by
  have hback : Lingers kind 0 c (c.calledBack token) := calledBack_lingers c token
  unfold onDelivery
  rcases hq : c.publishQueue with _ | ⟨r, rest⟩
  · exact hback.trans (lingers_of_idles (Wire.emit_idles _ rfl rfl))
  · have haccess := hback.trans (lingers_of_idles (Wire.access_idles _ r.id))
    simp only
    split
    · exact haccess.trans (deliverFront_lingers hp hq)
    · exact haccess

lemma onDisconnect_lingers (c : Client) : Lingers kind 0 c c.onDisconnect := by
  refine .of_quiet _ (onDisconnect_log c) ?_ (by simp [retries])
  simp [attempts, List.filterMap_map, Function.comp_def, Effect.payload]

lemma onDeliveryFailure_lingers (hk : kind ≠ .pahoSync) (hp : c.isPrimary = false) (token : ℤ) :
    Lingers kind 0 c ((c.calledBack token).onDeliveryFailure token) := by
  have hback : Lingers kind 0 c (c.calledBack token) := calledBack_lingers c token
  rcases hq : c.publishQueue with _ | ⟨r, rest⟩
  · rwa [onDeliveryFailure_of_nil (c := c.calledBack token) hq]
  · by_cases ht : r.token = token
    · subst ht
      exact hback.trans ((lingers_recursion hk).onDeliveryFailure (c := c.calledBack r.token) hq hp)
    · rw [onDeliveryFailure_of_ne (c := c.calledBack token) hq ht]
      exact hback.trans (lingers_of_idles (Wire.access_idles _ r.id))

lemma syncPending_lingers (hp : c.isPrimary = false) : Lingers kind 0 c c.syncPending.1 := by
  have hasked : Lingers kind 0 c (c.asked .pending) := lingers_of_idles (Wire.asked_idles c _)
  have hpublish := publishFromQueue_idles (c := c.asked .pending) ((asked_isPrimary _ _).trans hp)
  unfold syncPending
  split
  · exact hasked.trans (lingers_of_idles hpublish)
  · exact hasked
  · split
    · exact hasked.trans (onDisconnect_lingers _)
    · exact hasked

lemma syncQueue_lingers (hp : c.isPrimary = false) : Lingers kind 0 c c.syncQueue.1 := by
  unfold syncQueue
  rcases hq : c.publishQueue with _ | ⟨r, rest⟩
  · exact .refl c
  have hasked : Lingers kind 0 c ((c.emit (.access r.id)).asked .completion) :=
    lingers_of_idles ((Wire.access_idles c _).trans (Wire.asked_idles _ _))
  have hoff : ((c.emit (.access r.id)).asked .completion).isPrimary = false :=
    (asked_isPrimary _ _).trans hp
  have hqueue : ((c.emit (.access r.id)).asked .completion).publishQueue = r :: rest := by
    simpa using hq
  simp only
  generalize (c.emit (.access r.id)).asked .completion = d at hasked hoff hqueue ⊢
  have hback := hasked.trans (calledBack_lingers d r.token)
  split
  · have hframe := deliverFront_frame (c := d.calledBack r.token) rest hqueue
    have hdelivered := hback.trans (deliverFront_lingers (c := d.calledBack r.token) hoff hqueue)
    exact hdelivered.trans (syncPending_lingers (hframe.isPrimary.trans hoff))
  · split
    · exact hasked.trans (onDisconnect_lingers d)
    · exact hasked.trans (syncPending_lingers hoff)

lemma syncReceive_lingers (c : Client) : Lingers kind 0 c c.syncReceive := by
  have hmessages : ∀ (ms : List (Str × Str)) (d : Client),
      Wire.Idles d (ms.foldl (fun d m => d.messageReceived m.1 m.2) d) := by
    intro ms
    induction ms with
    | nil => exact fun d => .refl d
    | cons m ms ih => exact fun d => (Wire.emit_idles d rfl rfl).trans (ih _)
  have hall : Lingers kind 0 c _ :=
    lingers_of_idles ((Wire.asked_idles c .received).trans (hmessages c.receive.1 _))
  simp only [syncReceive]
  split
  · exact hall.trans (onDisconnect_lingers _)
  · exact hall

lemma sync_lingers (hp : c.isPrimary = false) : Lingers kind 0 c c.sync := by
  unfold sync
  split
  · split
    · exact (syncQueue_lingers hp).trans (syncReceive_lingers _)
    · exact syncQueue_lingers hp
  all_goals exact .refl c

lemma connect_lingers (c : Client) : Lingers kind 0 c c.connect.2 := by
  refine connect_of (.refl c) (fun _ => ?_) fun d hd =>
    hd.trans (lingers_of_idles (Wire.setState_idles d _))
  have hconnecting : Lingers kind 0 c ((c.setState .connecting).asked .code) :=
    lingers_of_idles ((Wire.setState_idles c _).trans (Wire.asked_idles _ .code))
  simp only [clientConnect]
  split
  · repeat' split
    · exact .refl c
    · exact hconnecting.trans (onDisconnect_lingers _)
    · exact hconnecting.trans (lingers_of_idles (Wire.connected_idles _))
  · repeat' split
    · exact .refl c
    · exact hconnecting
    · exact hconnecting
  · split <;> exact lingers_of_idles (Wire.asked_idles c .code)

lemma execute_lingers (hp : c.isPrimary = false) : Lingers kind 0 c c.execute := by
  have hoff : c.connect.2.isPrimary = false := by
    rcases connect_cases c with ⟨h, -⟩ | ⟨h, -⟩
    · exact h.trans hp
    · exact h
  unfold execute
  split
  · exact (connect_lingers c).trans (sync_lingers hoff)
  · exact sync_lingers hp

lemma request_lingers (hp : c.isPrimary = false) (r : PublishRequest) :
    Lingers kind 0 (c.enqueue r) (c.request r) := by
  simp only [request]
  repeat' split
  · exact lingers_of_idles ((Wire.asked_idles _ _).trans
      (publishFromQueue_idles ((asked_isPrimary _ _).trans hp)))
  · exact lingers_of_idles (Wire.asked_idles _ _)
  · exact .refl _

lemma callback_lingers (hp : c.isPrimary = false) (l : LibraryCall) :
    Lingers c.kind 0 c (c.callback l) := by
  unfold callback
  split
  · next hreg =>
    cases l with
    | answers | link | onCommandSubscribeFailure => exact .of_quiet [] (by simp [handle]) rfl le_rfl
    | onDelivery token => exact onDelivery_lingers hp token
    | onDeliveryFailure token =>
      refine onDeliveryFailure_lingers (fun hk => ?_) hp token
      rw [hk] at hreg
      cases hreg
    | onMessage topic payload => exact lingers_of_idles (Wire.emit_idles c rfl rfl)
    | onDisconnect => exact onDisconnect_lingers c
    | onConnect => exact lingers_of_idles (Wire.connected_idles c)
    | onConnectFailure => exact lingers_of_idles (Wire.setState_idles c _)
    | onCommandSubscription => exact lingers_of_idles (Wire.activated_idles c)
    | onSubscribeResult => exact lingers_of_idles (Wire.onSubscribeResult_idles c _ _)
  · exact .refl c

/-- The most that a call adds to the retries left: those of a request. -/
def budget (a : ClientCall) : ℕ := if a.passed.isSome then publishRetries else 0

/-- **What a call makes a client send that is not primary**: retries only. -/
lemma step_lingers (hp : c.isPrimary = false) (a : ClientCall) :
    Lingers c.kind (budget a) c (c.step a) := by
  cases a with
  | configure topics => exact lingers_of_idles (Wire.configure_idles c topics)
  | activate => exact lingers_of_idles (Wire.activate_idles c)
  | deactivate => exact lingers_of_idles (Wire.deactivate_idles c)
  | disconnect => exact lingers_of_idles (Wire.disconnect_idles c)
  | execute => exact execute_lingers hp
  | library l => exact callback_lingers hp l
  | request r =>
    have henqueue : Lingers c.kind (budget (.request r)) c (c.enqueue r) := by
      refine ⟨[], by simp [enqueue], ?_, by simp [attempts]⟩
      simp [attempts, enqueue, retries, budget, ClientCall.passed]
    exact henqueue.trans (request_lingers hp r)

lemma run_lingers (c : Client) (as : List ClientCall)
    (h : Each Client.step (fun c _ => c.isPrimary = false) c as) :
    Lingers c.kind (as.map budget).sum c (run Client.step c as) := by
  induction as generalizing c with
  | nil => exact .refl c
  | cons a as ih =>
    have hrest := ih (c.step a) h.2
    rw [step_kind] at hrest
    exact (step_lingers h.1 a).trans hrest

end Operations

lemma sum_budget (as : List ClientCall) :
    (as.map budget).sum = publishRetries * (as.filterMap ClientCall.passed).length := by
  induction as with
  | nil => rfl
  | cons a as ih =>
    rw [List.map_cons, List.sum_cons, ih, List.filterMap_cons, budget]
    cases a.passed with
    | none => simp
    | some r => rw [List.length_cons, Nat.mul_succ, Option.isSome_some, if_pos rfl, Nat.add_comm]

end Leftovers

namespace Node

open Leftovers

/-- The client is not primary at any of the calls to it. -/
def StaysOff (n : Node) (calls : List NodeCall) (i : ClientId) : Prop :=
  Each Client.step (fun c _ => c.isPrimary = false) (n.client i).cur
    (n.callsTo (run step n calls) i)

instance (n : Node) (calls : List NodeCall) (i : ClientId) : Decidable (n.StaysOff calls i) :=
  inferInstanceAs (Decidable (Each ..))

/-- The messages client `i` tries to send on the way from `n` to `m`. -/
def sentBy (n m : Node) (i : ClientId) : List Attempt :=
  attempts (effects (n.client i).cur (m.client i).cur)

/-- On the way from `n` to `m` all that client `i` sends are retries, no more than there are left;
a synchronous client sends nothing. -/
structure OnlyRetries (n m : Node) (i : ClientId) : Prop where
  bounded : (n.sentBy m i).length + (retries (m.client i).cur.publishQueue).sum ≤
    (retries (n.client i).cur.publishQueue).sum +
      publishRetries * ((n.callsTo m i).filterMap ClientCall.passed).length
  retried : ∀ a ∈ n.sentBy m i, 0 < a.request.retryCount
  synchronous : (n.client i).cur.kind = .pahoSync → n.sentBy m i = []

/-- **A client that is not primary begins nothing.** From any state, as long as it is not
primary, what it sends are retries, no more than are left to the requests it holds and to those
it is asked for. -/
theorem leftovers_retried (n : Node) (calls : List NodeCall) (i : ClientId)
    (h : n.StaysOff calls i) : OnlyRetries n (run step n calls) i := by
  obtain ⟨l, hl, hsum, hretried⟩ := run_lingers (n.client i).cur _ h
  rw [← client_callsTo] at hl hsum
  have hsent : n.sentBy (run step n calls) i = attempts l := by rw [sentBy, effects_eq hl]
  refine ⟨?_, ?_, fun hk => ?_⟩
  · rwa [hsent, ← sum_budget]
  · rw [hsent]
    exact fun a ha => (hretried a ha).1
  · rw [hsent, List.eq_nil_iff_forall_not_mem]
    exact fun a ha => (hretried a ha).2 hk

/-- A second client has become active while the birth of the first one was on its way, and the
library of the first reports that it has failed. -/
def failedLate : List NodeCall :=
  [.library 0 (.onDeliveryFailure 1), .library 0 (.onDeliveryFailure 1)]

theorem takenOver_retried : OnlyRetries (run step (create (.plain .pahoAsync)) takenOver)
    (run step (run step (create (.plain .pahoAsync)) takenOver) failedLate) 0 :=
  leftovers_retried _ failedLate 0 (by decide)

/-- It sends the birth twice. -/
example : (sentBy (run step (create (.plain .pahoAsync)) takenOver)
    (run step (run step (create (.plain .pahoAsync)) takenOver) failedLate) 0).length = 2 := by
  decide

end Node

end Sparkplug
