import Sparkplug.Subscription
import Sparkplug.Births

/-!
The standing of a client: whether it is primary, and whether the subscription that is to
make it active still waits for its acknowledgement.

Most operations of a client neither begin nor end anything here, and those that make it
cease to be primary say so with an event. The few that do not are named.
-/

namespace Sparkplug

open Machine

/-- The last subscription has been acknowledged. -/
def Effect.acks (acknowledged : Bool) : Effect → Bool
  | .subscribed _ => false
  | .onEvent .active => true
  | _ => acknowledged

def acknowledged (l : List Effect) : Bool := l.foldl Effect.acks false

/-- The effect begins or ends the wait for an acknowledgement. -/
def Effect.isStanding : Effect → Bool
  | .subscribed _ | .onEvent .active => true
  | _ => false

lemma acks_of_not_isStanding {e : Effect} (h : e.isStanding = false) (b : Bool) :
    Effect.acks b e = b := by
  cases e with
  | subscribed => cases h
  | onEvent e => cases e <;> first | rfl | cases h
  | _ => rfl

lemma acknowledged_append {k l : List Effect} (h : ∀ e ∈ l, e.isStanding = false) :
    acknowledged (k ++ l) = acknowledged k := by
  rw [acknowledged, List.foldl_append, ← acknowledged]
  generalize acknowledged k = b
  induction l with
  | nil => rfl
  | cons e l ih =>
    rw [List.foldl_cons, acks_of_not_isStanding (h e (by simp))]
    exact ih fun e he => h e (by simp [he])

namespace Client

/-- The client is primary, and its library has accepted a subscription that it has not yet
acknowledged. The subscription of a `PahoSyncClient` is acknowledged at once. -/
def Awaits (c : Client) : Prop :=
  c.kind ≠ .pahoSync ∧ c.isPrimary = true ∧ c.commands = some true ∧ acknowledged c.log = false

instance (c : Client) : Decidable (Awaits c) := inferInstanceAs (Decidable (_ ∧ _))

/-! ### What leaves the standing alone -/

/-- From `c` to `d` the client has not become primary and has not been subscribed or said
that it is active. If it ceased to be primary it has said that it is disconnected. -/
structure Keeps (c d : Client) : Prop where
  kind : d.kind = c.kind
  isPrimary : d.isPrimary = true → c.isPrimary = true
  log : ∃ l, d.log = c.log ++ l ∧ (∀ e ∈ l, e.isStanding = false) ∧
    (c.isPrimary = true → d.isPrimary = false → .onEvent .disconnected ∈ l)
  commands : d.isPrimary = true → c.kind ≠ .pahoSync → d.commands = c.commands

lemma Keeps.of_same {c d : Client} (hk : d.kind = c.kind) (hp : d.isPrimary = c.isPrimary)
    (hc : d.commands = c.commands) (l : List Effect) (hl : d.log = c.log ++ l)
    (hq : ∀ e ∈ l, e.isStanding = false) : Keeps c d where
  kind := hk
  isPrimary h := hp ▸ h
  log := ⟨l, hl, hq, fun h h' => absurd (h'.symm.trans (hp.trans h)) (by simp)⟩
  commands _ _ := hc

lemma Keeps.refl (c : Client) : Keeps c c := .of_same rfl rfl rfl [] (by simp) (by simp)

lemma Keeps.trans {b c d : Client} (h : Keeps b c) (k : Keeps c d) : Keeps b d where
  kind := k.kind.trans h.kind
  isPrimary hd := h.isPrimary (k.isPrimary hd)
  log := by
    obtain ⟨l, hl, hq, hdisc⟩ := h.log
    obtain ⟨m, hm, kq, kdisc⟩ := k.log
    refine ⟨l ++ m, by rw [hm, hl, List.append_assoc], ?_, fun hb hd => ?_⟩
    · exact fun e he => (List.mem_append.mp he).elim (hq e) (kq e)
    · rw [List.mem_append]
      cases hc : c.isPrimary with
      | true => exact .inr (kdisc hc hd)
      | false => exact .inl (hdisc hb hc)
  commands hd hb := (k.commands hd (h.kind ▸ hb)).trans (h.commands (k.isPrimary hd) hb)

/-- A step of a client that was and is not primary. -/
lemma Keeps.of_idle {c d : Client} (hk : d.kind = c.kind) (hc : c.isPrimary = false)
    (hd : d.isPrimary = false) (l : List Effect) (hl : d.log = c.log ++ l)
    (hq : ∀ e ∈ l, e.isStanding = false) : Keeps c d where
  kind := hk
  isPrimary h := absurd (hd.symm.trans h) (by simp)
  log := ⟨l, hl, hq, fun h => absurd (hc.symm.trans h) (by simp)⟩
  commands h := absurd (hd.symm.trans h) (by simp)

lemma Keeps.of_frame {c d : Client} (h : Frame c d) (l : List Effect) (hl : d.log = c.log ++ l)
    (hq : ∀ e ∈ l, e.isStanding = false) : Keeps c d :=
  .of_same h.kind h.isPrimary h.commands l hl hq

/-- A client that stays primary goes on waiting. -/
lemma Keeps.awaits {c d : Client} (h : Keeps c d) (hd : d.isPrimary = true) (hc : Awaits c) :
    Awaits d := by
  obtain ⟨l, hl, hq, -⟩ := h.log
  obtain ⟨hk, -, hcom, hack⟩ := hc
  refine ⟨h.kind ▸ hk, hd, (h.commands hd hk).trans hcom, ?_⟩
  rw [hl, acknowledged_append hq]
  exact hack

lemma emit_keeps (c : Client) {e : Effect} (he : e.isStanding = false) : Keeps c (c.emit e) :=
  .of_frame (emit_frame c e) [e] rfl (by simpa using he)

lemma asked_keeps (c : Client) (q : Question) : Keeps c (c.asked q) :=
  .of_frame (asked_frame c q) [] (by simp) (by simp)

lemma setState_keeps {s : ClientState} (hs : s ≠ .disconnected) (c : Client) :
    Keeps c (c.setState s) := by
  rw [setState_eq hs]
  exact .of_same rfl rfl rfl [] (by simp) (by simp)

lemma publishStep_keeps {A : Scope} {c d : Client} (h : PublishStep A c d) : Keeps c d := by
  have hf := publishStep_frame h
  cases h with
  | asked q => exact asked_keeps c q
  | access k => exact emit_keeps c rfl
  | skipped r => exact emit_keeps c rfl
  | idle => exact setState_keeps (by simp) c
  | @tried r rest o f lib =>
    exact .of_frame hf (attemptLog c r o) rfl (by simp [attemptLog, Effect.isStanding])
  | giveUp => exact .of_frame hf [.undelivered _] rfl (by simp [Effect.isStanding])
  | retry => exact .of_frame hf [] (by simp [modifyFront]) (by simp)

lemma Publishes.keeps {A : Scope} {c d : Client} (h : Publishes A c d) : Keeps c d := by
  induction h with
  | refl => exact .refl c
  | tail _ hstep ih => exact ih.trans (publishStep_keeps hstep)

lemma resolveFront_keeps {c : Client} {r : PublishRequest} {rest : List PublishRequest}
    (hq : c.publishQueue = r :: rest) : Keeps c (c.resolveFront (.delivered r)) :=
  .of_frame (resolveFront_frame hq _) [.delivered r] rfl (by simp [Effect.isStanding])

lemma calledBack_keeps (c : Client) (token : ℤ) : Keeps c (c.calledBack token) :=
  .of_frame (calledBack_frame c token) [] (by simp [calledBack]) (by simp)

/-- A lost connection ends being primary, unless the client is disconnected already. -/
lemma onDisconnect_keeps {c : Client}
    (h : c.isPrimary = true → c.state ≠ .disconnected ∨ c.kind = .pahoSync) :
    Keeps c c.onDisconnect := by
  have hp := onDisconnect_isPrimary c
  refine ⟨?_, fun hd => ?_, ?_, fun hd hk => ?_⟩
  · rw [onDisconnect, dumpQueue_eq]
    exact setState_kind _ _
  · rw [hp, Bool.and_eq_true] at hd
    exact hd.1
  · refine ⟨c.publishQueue.map .undelivered ++ [.onEvent .disconnected], ?_, ?_, by simp⟩
    · exact onDisconnect_log c
    · intro e he
      rcases List.mem_append.mp he with he | he
      · obtain ⟨r, -, rfl⟩ := List.mem_map.mp he
        rfl
      · rw [List.mem_singleton.mp he]
        rfl
  · rw [hp, Bool.and_eq_true, decide_eq_true_eq] at hd
    exact absurd hd.2 ((h hd.1).resolve_right hk)

/-- A new connection ends the subscriptions of the last one. -/
lemma connected_keeps {c : Client} (h : c.isPrimary = true → c.kind = .pahoSync) :
    Keeps c c.connected where
  kind := by
    simp only [connected]
    split <;> simp [subscribeToPrimaryHost, emit]
  isPrimary hd := by rwa [connected_isPrimary] at hd
  log := by
    refine ⟨_, connected_log c, by simp [Effect.isStanding], fun hc hd => ?_⟩
    rw [connected_isPrimary, hc] at hd
    cases hd
  commands hd hk := absurd (h (by rwa [connected_isPrimary] at hd)) hk

/-! ### The operations that leave it alone -/

lemma configure_keeps (c : Client) (topics : ClientTopicOptions) :
    Keeps c (c.configure topics).2 :=
  .of_frame (configure_frame c topics) [] (by simp [configure_log]) (by simp)

lemma request_keeps (c : Client) (r : PublishRequest) : Keeps c (c.request r) := by
  have h0 : Keeps c (c.enqueue r) := .of_same rfl rfl rfl [] (by simp [enqueue]) (by simp)
  refine h0.trans ?_
  simp only [request]
  repeat' split
  · exact (asked_keeps _ _).trans (publishFromQueue_publishes (A := {}) _).keeps
  · exact asked_keeps _ _
  · exact .refl _

lemma connect_keeps (c : Client) : Keeps c c.connect.2 := by
  have h : Keeps c ((c.setState .connecting).asked .code) :=
    (setState_keeps (by simp) c).trans (asked_keeps _ _)
  refine connect_of (.refl c) (fun _ => ?_) fun d hd => hd.trans (setState_keeps (by simp) d)
  simp only [clientConnect]
  cases hk : c.kind with
  | pahoSync =>
    have hk' : ((c.setState .connecting).asked .code).kind = .pahoSync := h.kind.trans hk
    simp only
    repeat' split
    · exact .refl c
    · exact h.trans (onDisconnect_keeps fun _ => .inr hk')
    · exact h.trans (connected_keeps fun _ => hk')
  | pahoAsync =>
    simp only
    repeat' split
    · exact .refl c
    · exact h
    · exact h
  | cppMqtt =>
    simp only
    split <;> exact asked_keeps c .code

lemma sync_keeps {c : Client} : Keeps c c.sync := by
  cases hk : c.kind with
  | pahoSync =>
    have hsyncs : Syncs (Keeps c) := {
      publish := fun hstep h => h.trans (publishStep_keeps hstep)
      deliver := fun hq h => h.trans (resolveFront_keeps hq)
      calledBack := fun token h => h.trans (calledBack_keeps _ token)
      message := fun _ _ h => h.trans (emit_keeps _ rfl)
      lost := fun h => h.trans (onDisconnect_keeps fun _ => .inr (h.kind.trans hk)) }
    exact sync_of hsyncs (.refl c)
  | pahoAsync | cppMqtt =>
    rw [sync_of_ne (by simp [hk])]
    exact .refl c

lemma execute_keeps (c : Client) : Keeps c c.execute := by
  unfold execute
  split
  · exact (connect_keeps c).trans sync_keeps
  · exact sync_keeps

lemma activate_keeps {c : Client} (h : c.isPrimary = true) : Keeps c c.activate.2 := by
  rw [activate_of_isPrimary h]
  exact .refl c

lemma deactivate_keeps {c : Client} (h : c.isPrimary = false) : Keeps c c.deactivate.2 := by
  rw [deactivate, if_pos h]
  exact .refl c

/-- A client that is disconnected at once is not told so, and says nothing. -/
lemma disconnect_keeps {c : Client} (h : ClosesNow c → c.isPrimary = false) :
    Keeps c c.disconnect := by
  have hkind : c.disconnect.kind = c.kind := step_kind c .disconnect
  have hlog : c.disconnect.log = c.log ++ [] := by simp [disconnect_log]
  by_cases hc : ClosesNow c
  · exact .of_idle hkind (h hc) (disconnect_of_closesNow hc).1 [] hlog (by simp)
  · obtain ⟨hp, hcom, -⟩ := disconnect_of_not_closesNow hc
    exact .of_same hkind hp hcom [] hlog (by simp)

/-! ### Activation -/

instance (c : Client) : Decidable (AcceptsCommands c) :=
  inferInstanceAs (Decidable (if c.kind = .cppMqtt then _ else _))

/-- The library refuses the subscription and `activate` does not see it. -/
def RefusalUnseen (c : Client) : Prop := c.kind ≠ .cppMqtt ∧ c.returnCode ≠ mqttSuccess

instance (c : Client) : Decidable (RefusalUnseen c) := inferInstanceAs (Decidable (_ ∧ _))

/-- An accepted subscription is awaited, or acknowledged at once. -/
lemma subscribeToCommands_accepted {c : Client} (hp : c.isPrimary = true) (h : AcceptsCommands c) :
    Awaits c.subscribeToCommands.2 ∨
      c.subscribeToCommands.2.log = c.log ++ [.subscribed true, .onEvent .active] := by
  unfold AcceptsCommands at h
  cases hk : c.kind with
  | pahoSync =>
    have hc : c.returnCode = mqttSuccess := by simpa [hk] using h
    exact .inr (by simp [subscribeToCommands, hk, hc, activated, hp, commandsResult, emit])
  | pahoAsync =>
    have hc : c.returnCode = mqttSuccess := by simpa [hk] using h
    refine .inl ?_
    simp [subscribeToCommands, hk, hc, Awaits, hp, commandsResult, emit, acknowledged, Effect.acks]
  | cppMqtt =>
    have hc : c.returnCode ≠ -1 := by simpa [hk] using h
    refine .inl ?_
    simp [subscribeToCommands, hk, hc, Awaits, hp, commandsResult, emit, acknowledged, Effect.acks]

lemma activate_accepted {c : Client} (hp : c.isPrimary = false) (h : AcceptsCommands c) :
    c.activate.2.isPrimary = true ∧
      (Awaits c.activate.2 ∨ .onEvent .active ∈ Ledger.effects c c.activate.2) := by
  have hseen : ¬RefusalSeen c := by
    rintro ⟨hk, hc⟩
    rw [AcceptsCommands, if_pos hk] at h
    exact h hc
  have hneg : ¬(c.setPrimary true).subscribeToCommands.1 < 0 :=
    mt (subscribeToCommands_cases _).2.2.2.1.mp hseen
  have heq : c.activate.2 = (c.setPrimary true).subscribeToCommands.2 := by
    simp [activate, hp, hneg]
  refine ⟨activate_isPrimary hp hseen, ?_⟩
  rw [heq]
  rcases subscribeToCommands_accepted (c := c.setPrimary true) rfl h with hw | hl
  · exact .inl hw
  · have hlog : (c.setPrimary true).subscribeToCommands.2.log
        = c.log ++ [.subscribed true, .onEvent .active] := hl
    rw [Ledger.effects_eq hlog]
    simp

lemma accepts_or_refuses (c : Client) : AcceptsCommands c ∨ RefusalUnseen c ∨ RefusalSeen c := by
  unfold AcceptsCommands RefusalUnseen RefusalSeen
  by_cases hk : c.kind = .cppMqtt
  · by_cases hc : c.returnCode = -1 <;> simp [hk, hc]
  · by_cases hc : c.returnCode = mqttSuccess <;> simp [hk, hc]

/-! ### Callbacks -/

/-- The callback ends the wait of a primary client and leaves it primary. -/
def forgets (c : Client) (l : LibraryCall) : Bool :=
  registers c.kind l && c.isPrimary && match l with
    | .onConnect | .onCommandSubscribeFailure => true
    | .onDisconnect => c.state = .disconnected
    | _ => false

/-- The callback makes a primary client cease to be primary without an event. -/
def drops (c : Client) (l : LibraryCall) : Bool :=
  registers c.kind l && c.isPrimary && match l with
    | .onConnectFailure => c.state ≠ .disconnected
    | _ => false

/-- An acknowledgement matters to a primary client only. -/
lemma activated_standing {c d : Client} (hk : d.kind = c.kind) (hp : d.isPrimary = c.isPrimary)
    (hl : d.log = c.log) :
    Keeps c d.activated ∧ d.activated.isPrimary = c.isPrimary ∨
      d.activated.isPrimary = true ∧ .onEvent .active ∈ Ledger.effects c d.activated := by
  unfold activated
  split
  · next h =>
    have hlog : (d.emit (.onEvent .active)).log = c.log ++ [.onEvent .active] := by simp [emit, hl]
    rw [Ledger.effects_eq hlog]
    exact .inr ⟨h, by simp⟩
  · next h =>
    have hd : d.isPrimary = false := by simpa using h
    exact .inl ⟨.of_idle hk (hp ▸ hd) hd [] (by simp [hl]) (by simp), hp⟩

lemma onDelivery_keeps (c : Client) (token : ℤ) : Keeps c (c.onDelivery token) := by
  have h := calledBack_keeps c token
  unfold onDelivery
  rcases hq : c.publishQueue with _ | ⟨r, rest⟩
  · exact h.trans (emit_keeps _ rfl)
  have h1 := h.trans (emit_keeps (c.calledBack token) (e := .access r.id) rfl)
  simp only
  split
  · have hfront : ((c.calledBack token).emit (.access r.id)).publishQueue = r :: rest := hq
    have hpub := publishFromQueue_publishes (A := {})
      (((c.calledBack token).emit (.access r.id)).resolveFront (.delivered r))
    exact (h1.trans (resolveFront_keeps hfront)).trans hpub.keeps
  · exact h1

/-- **What a callback does to the standing of a client.** -/
theorem callback_cases (c : Client) (l : LibraryCall) :
    Keeps c (c.callback l) ∧ (l ≠ .onDisconnect → (c.callback l).isPrimary = c.isPrimary) ∨
    (c.callback l).isPrimary = true ∧
      (.onEvent .active ∈ Ledger.effects c (c.callback l) ∨ c.forgets l = true) ∨
    (c.callback l).isPrimary = false ∧ (c.callback l).log = c.log ∧ c.drops l = true := by
  unfold callback
  by_cases hl : registers c.kind l = true
  swap
  · rw [if_neg hl]
    exact .inl ⟨.refl c, fun _ => rfl⟩
  rw [if_pos hl]
  cases l with
  | answers l => exact .inl ⟨.of_same rfl rfl rfl [] (by simp [handle]) (by simp), fun _ => rfl⟩
  | link up => exact .inl ⟨.of_same rfl rfl rfl [] (by simp [handle]) (by simp), fun _ => rfl⟩
  | onDelivery token =>
    exact .inl ⟨onDelivery_keeps c token, fun _ => (onDelivery_frame c token).isPrimary⟩
  | onDeliveryFailure token =>
    have hpub := onDeliveryFailure_publishes_all (c.calledBack token) token
    exact .inl ⟨(calledBack_keeps c token).trans hpub.keeps, fun _ => hpub.frame.isPrimary⟩
  | onMessage topic payload => exact .inl ⟨emit_keeps c rfl, fun _ => rfl⟩
  | onDisconnect =>
    by_cases hc : c.isPrimary = true ∧ c.state = .disconnected
    · have hp : c.onDisconnect.isPrimary = true := by simp [onDisconnect_isPrimary, hc]
      exact .inr (.inl ⟨hp, .inr (by simp [forgets, hl, hc])⟩)
    · refine .inl ⟨onDisconnect_keeps fun hp => .inl fun hs => hc ⟨hp, hs⟩, ?_⟩
      exact fun h => absurd rfl h
  | onConnect =>
    cases hp : c.isPrimary with
    | true => exact .inr (.inl ⟨(connected_isPrimary c).trans hp, .inr (by simp [forgets, hl, hp])⟩)
    | false =>
      have hkeeps : Keeps c c.connected := connected_keeps (by simp [hp])
      exact .inl ⟨hkeeps, fun _ => (connected_isPrimary c).trans hp⟩
  | onConnectFailure =>
    have hprim := setState_disconnected_isPrimary c
    by_cases hs : c.state = .disconnected
    · have hsame : c.setState .disconnected = c := by simp [setState, hs]
      refine .inl ⟨?_, fun _ => ?_⟩ <;> simp only [handle, hsame]
      exact .refl c
    · have hd : (c.setState .disconnected).isPrimary = false := by simp [hprim, hs]
      cases hp : c.isPrimary with
      | true => exact .inr (.inr ⟨hd, setState_log _ _, by simp [drops, hl, hp, hs]⟩)
      | false =>
        exact .inl ⟨.of_idle (setState_kind _ _) hp hd [] (by simp [handle]) (by simp),
          fun _ => hd⟩
  | onCommandSubscription =>
    rcases activated_standing (c := c) rfl rfl rfl with ⟨h, hp⟩ | ⟨h, ha⟩
    · exact .inl ⟨h, fun _ => hp⟩
    · exact .inr (.inl ⟨h, .inl ha⟩)
  | onCommandSubscribeFailure =>
    cases hp : c.isPrimary with
    | true => exact .inr (.inl ⟨hp, .inr (by simp [forgets, hl, hp])⟩)
    | false => exact .inl ⟨.of_idle rfl hp hp [] (by simp [handle]) (by simp), fun _ => hp⟩
  | onSubscribeResult token reasonCodes =>
    simp only [handle, onSubscribeResult]
    split
    · have hack := activated_standing (c := c)
        (d := if refusal reasonCodes then { c with commands := some false } else c)
        (by split <;> rfl) (by split <;> rfl) (by split <;> rfl)
      rcases hack with ⟨h, hp⟩ | ⟨h, ha⟩
      · exact .inl ⟨h, fun _ => hp⟩
      · exact .inr (.inl ⟨h, .inl ha⟩)
    · exact .inl ⟨.refl c, fun _ => rfl⟩

end Client

end Sparkplug
