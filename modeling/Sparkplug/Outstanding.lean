import Sparkplug.Primary
import Sparkplug.Recursion

/-!
Outstanding callbacks.

An asynchronous client goes on publishing when the library calls back for the request at
the front of its queue. So as long as it is connected and primary, a queue that is not
empty needs a front request that the library has accepted in this connection and will call
back about. Most attempts to publish leave it so; those that do not are said to stall.
-/

namespace Sparkplug

/-- An attempt after which nothing happens until someone asks again: the request was not
looked at in the disconnected state, or could not be encoded, or was refused to a class
that takes no notice. -/
def Effect.stalls (kind : ClientKind) : Effect → Bool
  | .skipped _ => true
  | .attempt a =>
    match a.outcome with
    | .unencoded => true
    | .refused => kind = .pahoAsync
    | .accepted _ => false
  | _ => false

namespace Client

open Machine Relation

/-- The front request, if any, has been accepted in this connection and its callback is
outstanding. -/
def FrontOut (c : Client) : Prop :=
  ∀ r, c.publishQueue.head? = some r → r.accepted = true ∧ r.token ∈ c.inflight

instance (c : Client) : Decidable (FrontOut c) :=
  match h : c.publishQueue with
  | [] => isTrue fun r hr => by simp [h] at hr
  | r :: _ => decidable_of_iff (r.accepted = true ∧ r.token ∈ c.inflight) <| by
      simp [FrontOut, h]

/-- A connected primary client has work only with a callback outstanding. -/
def Flowing (c : Client) : Prop := c.up = true → c.isPrimary = true → FrontOut c

instance (c : Client) : Decidable (Flowing c) :=
  inferInstanceAs (Decidable (c.up = true → c.isPrimary = true → FrontOut c))

/-- No attempt between `c` and `d` stalls. -/
def NoStall (c d : Client) : Prop := ∀ e ∈ Ledger.effects c d, e.stalls c.kind = false

instance (c d : Client) : Decidable (NoStall c d) :=
  inferInstanceAs (Decidable (∀ e ∈ Ledger.effects c d, e.stalls c.kind = false))

lemma Publishes.log {A : Scope} {c d : Client} (h : Publishes A c d) : c.log <+: d.log :=
  Ledger.Steps.log h.steps

/-- A part of a stretch without a stall has none. -/
lemma NoStall.part {b c d e : Client} (hk : c.kind = b.kind) (h1 : b.log <+: c.log)
    (h2 : c.log <+: d.log) (h3 : d.log <+: e.log) (h : NoStall b e) : NoStall c d := by
  obtain ⟨k, hk1⟩ := h1
  obtain ⟨l, hl⟩ := h2
  obtain ⟨m, hm⟩ := h3
  have he : e.log = b.log ++ (k ++ (l ++ m)) := by
    rw [← hm, ← hl, ← hk1]
    simp
  intro x hx
  rw [Ledger.effects_eq hl.symm] at hx
  rw [hk]
  exact h x (by rw [Ledger.effects_eq he]; simp [hx])

lemma NoStall.not_mem {c d : Client} {l : List Effect} (h : NoStall c d)
    (hl : d.log = c.log ++ l) {e : Effect} (he : e ∈ l) : e.stalls c.kind = false :=
  h e (by rw [Ledger.effects_eq hl]; exact he)

lemma flowing_of_notPrimary {c : Client} (h : c.isPrimary = false) : Flowing c :=
  fun _ hp => absurd (h.symm.trans hp) (by simp)

lemma flowing_of_nil {c : Client} (h : c.publishQueue = []) : Flowing c := by
  intro _ _ r hr
  simp [h] at hr

/-! ### Publishing does not stall unseen -/

lemma emit_flowing {c : Client} (h : Flowing c) (e : Effect) : Flowing (c.emit e) := h

lemma accepted_flowing {c : Client} {r : PublishRequest} {rest : List PublishRequest}
    (hq : c.publishQueue = r :: rest) (token : ℤ) (lib : Answers) :
    Flowing (c.tried r (.accepted token) (fun q => { q with token := token, accepted := true })
      lib) := by
  intro _ _ q hqr
  simp only [tried, hq, List.modifyHead_cons, List.head?_cons, Option.some.injEq] at hqr
  subst hqr
  exact ⟨rfl, by simp [tried, Outcome.token]⟩

lemma tried_stalls {c d : Client} {r : PublishRequest} {o : Outcome}
    {f : PublishRequest → PublishRequest} {lib : Answers} (h : NoStall c d)
    (hd : (c.tried r o f lib).log <+: d.log) :
    (Effect.attempt ⟨r, c.nextSeq r, if r.isNodeBirth then some c.bdSeq else none, o⟩).stalls
      c.kind = false := by
  obtain ⟨l, hl⟩ := hd
  have hlog : d.log = c.log ++ (attemptLog c r o ++ l) := by
    rw [← hl, tried, List.append_assoc]
  exact h.not_mem hlog (by simp [attemptLog])

/-- Where the client gets to without a stall it is flowing. -/
structure Flows (c d : Client) : Prop where
  log : c.log <+: d.log
  flowing : c.kind ≠ .pahoSync → NoStall c d → Flowing d

/-- What was done before is no matter. -/
lemma Flows.after {b c d : Client} (h : Flows c d) (hk : c.kind = b.kind) (hl : b.log <+: c.log) :
    Flows b d where
  log := hl.trans h.log
  flowing hb hn := h.flowing (hk ▸ hb) (hn.part hk hl h.log List.prefix_rfl)

lemma Flows.emit {c d : Client} (h : Flows c d) (e : Effect) : Flows c (d.emit e) where
  log := h.log.trans ⟨[e], rfl⟩
  flowing hk hn := emit_flowing (h.flowing hk (hn.part rfl List.prefix_rfl h.log ⟨[e], rfl⟩)) e

/-- An attempt that stalls. -/
lemma flows_of_stalls {c : Client} {r : PublishRequest} {o : Outcome}
    {f : PublishRequest → PublishRequest} {lib : Answers}
    (ho : (Effect.attempt ⟨r, c.nextSeq r, if r.isNodeBirth then some c.bdSeq else none,
      o⟩).stalls c.kind = true) : Flows c (c.tried r o f lib) where
  log := ⟨_, rfl⟩
  flowing _ hn := absurd ((tried_stalls hn List.prefix_rfl).symm.trans ho) (by simp)

/-- Each call of the recursion flows if those it makes do. -/
lemma flows_recursion : Recursion Flows Flows Flows where
  away c hc := ⟨by simp, fun _ _ hu => absurd (hc.symm.trans hu) (by simp)⟩
  idle c _ hidle := by
    have hflowing : ∀ d : Client, d.isPrimary = c.isPrimary → d.publishQueue = c.publishQueue →
        Flowing d := by
      intro d hp hq
      rcases hidle with h | h
      · exact flowing_of_notPrimary (hp.trans h)
      · exact flowing_of_nil (hq.trans h)
    refine ⟨⟨by simp, fun _ _ => hflowing _ (by simp) (by simp)⟩, fun _ => ⟨by simp, fun _ _ => ?_⟩⟩
    exact hflowing _ (by simp [setState_isPrimary]) (by simp)
  publish c d _ _ h := h.after (by simp) (by simp)
  skipped c r _ := by
    refine ⟨⟨_, rfl⟩, fun _ hn => ?_⟩
    cases hn.not_mem rfl (List.mem_singleton_self (Effect.skipped r))
  unencoded c r rest lib _ _ _ := flows_of_stalls rfl
  accepted c r rest token lib hq _ := by
    have h : Flows c (c.tried r (.accepted token)
        (fun q => { q with token := token, accepted := true }) lib) :=
      ⟨⟨_, rfl⟩, fun _ _ => accepted_flowing hq token lib⟩
    exact ⟨h, h.emit _⟩
  refused c r rest lib _ _ hk := flows_of_stalls (by simp [Effect.stalls, hk])
  failed c r rest f lib d _ _ _ _ h := by
    have h' : Flows c d := h.after rfl ⟨_, rfl⟩
    exact ⟨h', h'.emit _⟩
  giveUp c r rest d _ := by
    refine ⟨fun h => h.after rfl ?_, fun h => h.after (by simp [resolveFront, Client.emit]) ?_⟩
    · exact ⟨[.access r.id, .undelivered r], by simp [resolveFront, Client.emit]⟩
    · exact ⟨[.access r.id, .undelivered r], by simp [resolveFront, Client.emit]⟩
  retry c r rest d _ _ h := by
    refine h.after (by simp [modifyFront, Client.emit]) ⟨[.access r.id], ?_⟩
    simp [modifyFront, Client.emit]

lemma publishFromQueue_flowing {c : Client} (hk : c.kind ≠ .pahoSync)
    (h : NoStall c c.publishFromQueue) : Flowing c.publishFromQueue :=
  (flows_recursion.publishFromQueue c).flowing hk h

/-! ### The operations -/

/-- The operation turns a client that need not flow into one that has to. -/
def exposes (c : Client) : ClientCall → Bool
  | .activate => !c.isPrimary && c.up && !decide (RefusalSeen c)
  | .disconnect => c.kind = .cppMqtt && c.state ≠ .disconnected && c.isConnected && c.isPrimary
  | .library (.link up) => up && c.isPrimary
  | _ => false

/-- The operation begins a new connection of a client that is still primary. -/
def reconnects (c : Client) : ClientCall → Bool
  | .library .onConnect => c.isPrimary
  | _ => false

/-- The operation leaves no connected primary client waiting for nothing. -/
structure KeepsFlowing (c : Client) (a : ClientCall) : Prop where
  exposed : c.exposes a = true → FrontOut c
  reconnected : c.reconnects a = true → c.publishQueue = []
  unstalled : c.isPrimary = true → NoStall c (c.step a)

instance (c : Client) (a : ClientCall) : Decidable (KeepsFlowing c a) :=
  decidable_of_iff ((c.exposes a = true → FrontOut c) ∧
    (c.reconnects a = true → c.publishQueue = []) ∧ (c.isPrimary = true → NoStall c (c.step a)))
    ⟨fun ⟨h1, h2, h3⟩ => ⟨h1, h2, h3⟩, fun ⟨h1, h2, h3⟩ => ⟨h1, h2, h3⟩⟩

/-- Nothing that `Flowing` looks at has changed. -/
structure Still (c d : Client) : Prop where
  kind : d.kind = c.kind
  up : d.up = c.up
  isPrimary : d.isPrimary = c.isPrimary
  queue : d.publishQueue = c.publishQueue
  inflight : d.inflight = c.inflight

lemma Still.refl (c : Client) : Still c c := ⟨rfl, rfl, rfl, rfl, rfl⟩

lemma Still.trans {b c d : Client} (h : Still b c) (k : Still c d) : Still b d :=
  ⟨k.kind.trans h.kind, k.up.trans h.up, k.isPrimary.trans h.isPrimary, k.queue.trans h.queue,
    k.inflight.trans h.inflight⟩

lemma Still.flowing {c d : Client} (h : Still c d) (hc : Flowing c) : Flowing d := by
  intro hu hp r hr
  rw [h.queue] at hr
  rw [h.inflight]
  exact hc (h.up ▸ hu) (h.isPrimary ▸ hp) r hr

lemma emit_still (c : Client) (e : Effect) : Still c (c.emit e) :=
  ⟨rfl, rfl, rfl, rfl, rfl⟩

lemma asked_code_still (c : Client) : Still c (c.asked .code) :=
  ⟨rfl, rfl, rfl, rfl, rfl⟩

lemma setState_still {s : ClientState} (hs : s ≠ .disconnected) (c : Client) :
    Still c (c.setState s) := by
  rw [setState_eq hs]
  exact ⟨rfl, rfl, rfl, rfl, rfl⟩

lemma activated_still (c : Client) : Still c c.activated := by
  unfold activated
  split
  · exact emit_still c _
  · exact .refl c

lemma request_flowing {c : Client} (hk : c.kind ≠ .pahoSync) (hc : Flowing c)
    (r : PublishRequest) (h : NoStall c (c.request r)) : Flowing (c.request r) := by
  unfold request at h ⊢
  simp only at h ⊢
  split at h
  · next hlen =>
    rw [if_pos hlen]
    split at h
    · next hconn =>
      rw [if_pos hconn]
      have hlog : c.log <+: ((c.enqueue r).asked .connected).log := by simp [enqueue]
      exact publishFromQueue_flowing (by simpa [enqueue] using hk)
        (h.part (by simp [enqueue]) hlog (publishFromQueue_publishes (A := {}) _).log List.prefix_rfl)
    · next hconn =>
      rw [if_neg hconn]
      exact fun hu => absurd hu hconn
  · next hlen =>
    rw [if_neg hlen]
    intro hu hp q hq
    rcases hcq : c.publishQueue with _ | ⟨q', rest⟩
    · simp [enqueue, hcq] at hlen
    · have hq' : c.publishQueue.head? = some q := by
        simpa [enqueue, hcq] using hq
      exact hc hu hp q hq'

lemma calledBack_frontOut {c : Client} {token : ℤ} {r : PublishRequest} (h : FrontOut c)
    (hr : c.publishQueue.head? = some r) (ht : r.token ≠ token) : FrontOut (c.calledBack token) := by
  intro q hq
  obtain ⟨ha, hm⟩ := h q hq
  rw [show q = r from Option.some.inj (hq.symm.trans hr)] at ha hm ⊢
  exact ⟨ha, (List.mem_erase_of_ne ht).mpr hm⟩

lemma onDelivery_flowing {c : Client} (hk : c.kind ≠ .pahoSync) (hc : Flowing c) (token : ℤ)
    (h : NoStall c (c.onDelivery token)) : Flowing (c.onDelivery token) := by
  unfold onDelivery at h ⊢
  rcases hq : c.publishQueue with _ | ⟨r, rest⟩
  · exact flowing_of_nil hq
  rw [hq] at h
  simp only at h ⊢
  split at h
  · next ht =>
    rw [if_pos ht]
    have hlog : c.log <+:
        (((c.calledBack token).emit (.access r.id)).resolveFront (.delivered r)).log :=
      ⟨[.access r.id, .delivered r], by simp [resolveFront, emit, calledBack]⟩
    have hkind : (((c.calledBack token).emit (.access r.id)).resolveFront (.delivered r)).kind =
        c.kind := rfl
    exact publishFromQueue_flowing
      (c := ((c.calledBack token).emit (.access r.id)).resolveFront (.delivered r)) hk
      (h.part hkind hlog (publishFromQueue_publishes (A := {}) _).log List.prefix_rfl)
  · next ht =>
    rw [if_neg ht]
    intro hu hp
    exact calledBack_frontOut (hc hu hp) (by simp [hq]) ht

lemma onDeliveryFailure_flowing {c : Client} (hk : c.kind ≠ .pahoSync) (hc : Flowing c)
    (token : ℤ) (h : NoStall c ((c.calledBack token).onDeliveryFailure token)) :
    Flowing ((c.calledBack token).onDeliveryFailure token) := by
  rcases hq : c.publishQueue with _ | ⟨r, rest⟩
  · exact flowing_of_nil (((onDeliveryFailure_publishes_all _ _).frame).queue hq)
  by_cases ht : r.token = token
  · subst ht
    exact (flows_recursion.onDeliveryFailure (c := c.calledBack r.token) hq).flowing hk h
  · rw [onDeliveryFailure_eq]
    have hq' : (c.calledBack token).publishQueue = r :: rest := hq
    simp only [onDeliveryFailureWith, hq', if_neg ht]
    intro hu hp
    exact calledBack_frontOut (hc hu hp) (by simp [hq]) ht

lemma subscribeToCommands_still (c : Client) : Still c c.subscribeToCommands.2 := by
  have h := asked_code_still c
  have hres : ∀ accepted, Still c ((c.asked .code).commandsResult accepted) :=
    fun _ => h.trans ⟨rfl, rfl, rfl, rfl, rfl⟩
  simp only [subscribeToCommands]
  split <;> split
  · exact hres false
  · exact (hres true).trans (activated_still ((c.asked .code).commandsResult true))
  · exact hres false
  · exact hres true
  · exact hres false
  · exact (hres true).trans ⟨rfl, rfl, rfl, rfl, rfl⟩

lemma activate_flowing {c : Client} (hc : Flowing c) (h : KeepsFlowing c .activate) :
    Flowing c.activate.2 := by
  cases hp : c.isPrimary with
  | true => rwa [activate_of_isPrimary hp]
  | false =>
    have hs := subscribeToCommands_still (c.setPrimary true)
    have hsame : c.activate.2.up = c.up ∧ c.activate.2.publishQueue = c.publishQueue ∧
        c.activate.2.inflight = c.inflight := by
      simp only [activate, hp]
      split
      · exact absurd ‹false = true› (by simp)
      · split <;> exact ⟨hs.up, hs.queue, hs.inflight⟩
    obtain ⟨hu, hq, hi⟩ := hsame
    intro hup hprim r hr
    rw [hi]
    rw [hq] at hr
    have hrefused : ¬RefusalSeen c := fun hr =>
      absurd (((activate_cases hp).2.2.1.mpr hr).symm.trans hprim) (by simp)
    exact h.exposed (by simp [exposes, hp, hrefused, hu.symm.trans hup]) r hr

lemma disconnect_flowing {c : Client} (hk : c.kind ≠ .pahoSync) (hc : Flowing c)
    (h : KeepsFlowing c .disconnect) : Flowing c.disconnect := by
  unfold disconnect
  split
  · exact hc
  · next hs =>
    unfold clientDisconnect
    cases hkc : c.kind with
    | pahoSync => exact absurd hkc hk
    | pahoAsync =>
      exact ((setState_still (by simp) c).trans (asked_code_still _)).flowing hc
    | cppMqtt =>
      simp only
      split
      · next hconn =>
        refine ((setState_still (by simp) _).trans (asked_code_still _)).flowing ?_
        intro _ hp r hr
        rw [asked_isPrimary] at hp
        rw [asked_publishQueue] at hr
        exact h.exposed (by simp [exposes, hkc, hs, hconn, hp]) r hr
      · next hconn => exact fun hu => absurd hu hconn

lemma connect_still {c : Client} (hk : c.kind ≠ .pahoSync) : Still c c.connect.2 := by
  unfold connect
  split
  · exact .refl c
  · next hs =>
    split
    · exact .refl c
    · have hcc : Still c c.clientConnect.2 ∧ (c.clientConnect.1 < 0 →
          c.clientConnect.2.state = .disconnected) := by
        refine ⟨?_, (clientConnect_cases (not_not.mp hs)).2⟩
        have h1 := (setState_still (s := .connecting) (by simp) c).trans (asked_code_still _)
        simp only [clientConnect]
        cases hkc : c.kind with
        | pahoSync => exact absurd hkc hk
        | pahoAsync =>
          simp only
          split
          · exact .refl c
          · split <;> exact h1
        | cppMqtt =>
          simp only
          split <;> exact asked_code_still c
      simp only
      split
      · next hlt =>
        have hsame : c.clientConnect.2.setState .disconnected = c.clientConnect.2 := by
          simp [setState, hcc.2 hlt]
        rw [hsame]
        exact hcc.1
      · exact hcc.1.trans (setState_still (by simp) _)

lemma execute_still {c : Client} (hk : c.kind ≠ .pahoSync) : Still c c.execute := by
  have hsync : ∀ d : Client, d.kind ≠ .pahoSync → d.sync = d := by
    intro d hd
    unfold sync
    split
    · exact absurd ‹_› hd
    all_goals rfl
  unfold execute
  split
  · rw [hsync _ ((connect_still hk).kind ▸ hk)]
    exact connect_still hk
  · rw [hsync c hk]
    exact .refl c

lemma configure_still (c : Client) (topics : ClientTopicOptions) :
    Still c (c.configure topics).2 := by
  have h1 := asked_code_still { c with topics := topics }
  have h : Still { c with topics := topics } { c with topics := topics }.configureClient.2 := by
    simp only [configureClient]
    split
    · split <;> exact h1
    · repeat' split
      · exact h1
      · exact h1.trans (asked_code_still _)
      · exact h1.trans (asked_code_still _)
    · exact ⟨rfl, rfl, rfl, rfl, rfl⟩
  have h0 : Still c { c with topics := topics } := ⟨rfl, rfl, rfl, rfl, rfl⟩
  simp only [configure]
  split
  · exact h0.trans h
  · exact (h0.trans h).trans ⟨rfl, rfl, rfl, rfl, rfl⟩

lemma onSubscribeResult_still (c : Client) (token : ℤ) (reasonCodes : List ℕ) :
    Still c (c.onSubscribeResult token reasonCodes) := by
  unfold onSubscribeResult
  repeat' split
  · have h0 : Still c { c with commands := some false } := ⟨rfl, rfl, rfl, rfl, rfl⟩
    exact h0.trans (activated_still _)
  · exact activated_still c
  · exact .refl c

lemma handle_flowing {c : Client} (hk : c.kind ≠ .pahoSync) (hc : Flowing c) (l : LibraryCall)
    (h : KeepsFlowing c (.library l)) (hl : registers c.kind l = true) :
    Flowing (c.handle l) := by
  have hstep : c.step (.library l) = c.handle l := by simp [step, callback, hl]
  cases l with
  | answers l => exact hc
  | link up => exact fun hu hp => h.exposed (by simp [exposes, show up = true from hu,
      show c.isPrimary = true from hp])
  | onDelivery token =>
    cases hp : c.isPrimary with
    | false => exact flowing_of_notPrimary ((onDelivery_frame c token).isPrimary.trans hp)
    | true =>
      have h' := h.unstalled hp
      rw [hstep] at h'
      exact onDelivery_flowing hk hc token h'
  | onDeliveryFailure token =>
    cases hp : c.isPrimary with
    | false =>
      have hf := (calledBack_frame c token).trans (onDeliveryFailure_publishes_all _ token).frame
      exact flowing_of_notPrimary (hf.isPrimary.trans hp)
    | true =>
      have h' := h.unstalled hp
      rw [hstep] at h'
      exact onDeliveryFailure_flowing hk hc token h'
  | onMessage topic payload => exact hc
  | onDisconnect => exact flowing_of_nil (onDisconnect_publishQueue c)
  | onConnect =>
    intro _ hp
    have hq : c.connected.publishQueue = [] := by
      rw [connected_publishQueue]
      exact h.reconnected ((connected_isPrimary c).symm.trans hp)
    exact flowing_of_nil hq ‹_› hp
  | onConnectFailure =>
    by_cases hs : c.state = .disconnected
    · have hsame : c.setState .disconnected = c := by simp [setState, hs]
      rw [handle, hsame]
      exact hc
    · intro _ hp
      simp [handle, setState_disconnected_isPrimary, hs] at hp
  | onCommandSubscription => exact (activated_still c).flowing hc
  | onCommandSubscribeFailure => exact hc
  | onSubscribeResult token reasonCodes => exact (onSubscribeResult_still c _ _).flowing hc

/-- An operation that stalls nothing keeps a client flowing. -/
lemma step_flowing {c : Client} (hk : c.kind ≠ .pahoSync) (hc : Flowing c) (a : ClientCall)
    (h : KeepsFlowing c a) : Flowing (c.step a) := by
  cases a with
  | configure topics => exact (configure_still c topics).flowing hc
  | activate => exact activate_flowing hc h
  | deactivate => exact flowing_of_notPrimary (deactivate_isPrimary c)
  | request r =>
    cases hp : c.isPrimary with
    | false => exact flowing_of_notPrimary ((request_frame c r).isPrimary.trans hp)
    | true => exact request_flowing hk hc r (h.unstalled hp)
  | disconnect => exact disconnect_flowing hk hc h
  | execute => exact (execute_still hk).flowing hc
  | library l =>
    cases hl : registers c.kind l with
    | true =>
      have := handle_flowing hk hc l h hl
      rwa [show c.step (.library l) = c.handle l by simp [step, callback, hl]]
    | false => rwa [show c.step (.library l) = c by simp [step, callback, hl]]

/-- A run none of whose operations stalls keeps the queue flowing. -/
theorem along_flowing {c : Client} (hk : c.kind ≠ .pahoSync) (h : Flowing c)
    (calls : List ClientCall) (hc : Each step KeepsFlowing c calls) :
    Along step (fun c => c.kind ≠ .pahoSync ∧ Flowing c) c calls :=
  along_of_each (fun c a ⟨hk, hf⟩ hka => ⟨step_kind c a ▸ hk, step_flowing hk hf a hka⟩) ⟨hk, h⟩ hc

end Client

end Sparkplug
