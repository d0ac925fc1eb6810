import Sparkplug.Ledger

/-!
Primary clients.

Two properties of a client between its operations: a client that is not primary has an
empty queue, and a primary client is not disconnected and has a command subscription of
the current connection. For each operation it is said exactly when it keeps the property.
-/

namespace Sparkplug.Client

open Machine Relation

/-! ### What publishing leaves alone -/

@[simp] lemma setState_kind (c : Client) (s : ClientState) : (c.setState s).kind = c.kind := by
  unfold setState; split
  · rfl
  · cases s <;> rfl

@[simp] lemma setState_commands (c : Client) (s : ClientState) :
    (c.setState s).commands = c.commands := by
  unfold setState; split
  · rfl
  · cases s <;> rfl

@[simp] lemma setState_state (c : Client) (s : ClientState) : (c.setState s).state = s := by
  unfold setState; split
  · next h => exact h
  · cases s <;> rfl

lemma setState_isPrimary {s : ClientState} (hs : s ≠ .disconnected) (c : Client) :
    (c.setState s).isPrimary = c.isPrimary := by
  rw [setState_eq hs]

/-- Entering the disconnected state ends being primary; being in it does not. -/
lemma setState_disconnected_isPrimary (c : Client) :
    (c.setState .disconnected).isPrimary = (c.isPrimary && decide (c.state = .disconnected)) := by
  unfold setState; split
  · next h => simp [h]
  · next h => simp [h, setPrimary]

@[simp] lemma asked_isPrimary (c : Client) (q : Question) :
    (c.asked q).isPrimary = c.isPrimary := by
  cases q <;> rfl

@[simp] lemma asked_state (c : Client) (q : Question) : (c.asked q).state = c.state := by
  cases q <;> rfl

@[simp] lemma asked_commands (c : Client) (q : Question) : (c.asked q).commands = c.commands := by
  cases q <;> rfl

@[simp] lemma asked_kind (c : Client) (q : Question) : (c.asked q).kind = c.kind := by
  cases q <;> rfl

/-- Neither publishing nor a delivery changes whether a client is primary or subscribed, or
disconnects it, or refills an empty queue. -/
structure Frame (c d : Client) : Prop where
  kind : d.kind = c.kind
  isPrimary : d.isPrimary = c.isPrimary
  commands : d.commands = c.commands
  state : c.state ≠ .disconnected → d.state ≠ .disconnected
  queue : c.publishQueue = [] → d.publishQueue = []

lemma Frame.refl (c : Client) : Frame c c := ⟨rfl, rfl, rfl, id, id⟩

lemma Frame.trans {b c d : Client} (h : Frame b c) (k : Frame c d) : Frame b d :=
  ⟨k.kind.trans h.kind, k.isPrimary.trans h.isPrimary, k.commands.trans h.commands,
    k.state ∘ h.state, k.queue ∘ h.queue⟩

lemma emit_frame (c : Client) (e : Effect) : Frame c (c.emit e) := ⟨rfl, rfl, rfl, id, id⟩

lemma resolveFront_frame {c : Client} {r : PublishRequest} {rest : List PublishRequest}
    (hq : c.publishQueue = r :: rest) (e : Effect) : Frame c (c.resolveFront e) :=
  ⟨rfl, rfl, rfl, id, by simp [hq]⟩

lemma publishStep_frame {A : Scope} {c d : Client} (h : PublishStep A c d) : Frame c d := by
  cases h with
  | asked q => exact ⟨by simp, by simp, by simp, by simp, by simp⟩
  | access id => exact emit_frame c _
  | skipped r h => exact emit_frame c _
  | idle h =>
    rw [setState_eq (by simp)]
    exact ⟨rfl, rfl, rfl, by simp, id⟩
  | tried hq hs hg hf => exact ⟨rfl, rfl, rfl, by simp [tried], by simp [hq]⟩
  | giveUp hq => exact resolveFront_frame hq _
  | retry => exact ⟨rfl, rfl, rfl, id, fun h => by simp [modifyFront, h]⟩

lemma Publishes.frame {A : Scope} {c d : Client} (h : Publishes A c d) : Frame c d := by
  induction h with
  | refl => exact .refl c
  | tail _ hstep ih => exact ih.trans (publishStep_frame hstep)

lemma deliverFront_frame {c : Client} {r : PublishRequest} (rest : List PublishRequest)
    (hq : c.publishQueue = r :: rest) : Frame c (c.deliverFront r) :=
  (resolveFront_frame hq _).trans (publishFromQueue_publishes (A := {}) _).frame

lemma calledBack_frame (c : Client) (token : ℤ) : Frame c (c.calledBack token) :=
  ⟨rfl, rfl, rfl, id, id⟩

lemma asked_frame (c : Client) (q : Question) : Frame c (c.asked q) :=
  publishStep_frame (A := {}) (.asked c q)

lemma onDelivery_frame (c : Client) (token : ℤ) : Frame c (c.onDelivery token) := by
  have h := calledBack_frame c token
  unfold onDelivery
  rcases hq : c.publishQueue with _ | ⟨r, rest⟩
  · exact h.trans (emit_frame _ _)
  have h1 := h.trans (emit_frame (c.calledBack token) (.access r.id))
  simp only
  split
  · exact h1.trans (deliverFront_frame rest hq)
  · exact h1

lemma clientStep_kind {A : Scope} {c d : Client} (h : ClientStep A c d) : d.kind = c.kind := by
  cases h with
  | publish h => exact (publishStep_frame h).kind
  | setState s => simp
  | _ => rfl

lemma step_kind (c : Client) (a : ClientCall) : (c.step a).kind = c.kind := by
  have htaken : (c.taken a).kind = c.kind := by cases a <;> rfl
  have hrel : (c.step a).kind = (c.taken a).kind :=
    (step_steps c a).rel (R := fun c d => d.kind = c.kind) (fun _ => rfl)
      (fun h k => k.trans h) clientStep_kind
  exact hrel.trans htaken

lemma run_kind (c : Client) (calls : List ClientCall) : (run step c calls).kind = c.kind :=
  run_invariant (P := fun d : Client => d.kind = c.kind)
    (fun d a h => (step_kind d a).trans h) rfl calls

/-! ### Synchronizing -/

/-- A property that the small steps of a synchronization keep. -/
structure Syncs (P : Client → Prop) : Prop where
  publish : ∀ {c d}, PublishStep {} c d → P c → P d
  deliver : ∀ {c r rest}, c.publishQueue = r :: rest → P c → P (c.resolveFront (.delivered r))
  calledBack : ∀ {c} token, P c → P (c.calledBack token)
  message : ∀ {c} topic payload, P c → P (c.messageReceived topic payload)
  lost : ∀ {c}, P c → P c.onDisconnect

variable {P : Client → Prop}

lemma publishFromQueue_of (h : Syncs P) {c : Client} (hc : P c) : P c.publishFromQueue := by
  have hall : ∀ d, Publishes {} c d → P d := by
    intro d hd
    induction hd with
    | refl => exact hc
    | tail _ hstep ih => exact h.publish hstep ih
  exact hall _ (publishFromQueue_publishes c)

lemma syncPending_of (h : Syncs P) {c : Client} (hc : P c) : P c.syncPending.1 := by
  have hask := h.publish (.asked c .pending) hc
  unfold syncPending
  split
  · exact publishFromQueue_of h hask
  · exact hask
  · split
    · exact h.lost hask
    · exact hask

lemma syncQueue_of (h : Syncs P) {c : Client} (hc : P c) : P c.syncQueue.1 := by
  unfold syncQueue
  rcases hq : c.publishQueue with _ | ⟨r, rest⟩
  · exact hc
  have h1 : P ((c.emit (.access r.id)).asked .completion) :=
    h.publish (.asked _ _) (h.publish (.access c r.id) hc)
  simp only
  split
  · refine syncPending_of h (publishFromQueue_of h ?_)
    exact h.deliver (by simpa [Client.calledBack] using hq) (h.calledBack r.token h1)
  · split
    · exact h.lost h1
    · exact syncPending_of h h1

lemma syncReceive_of (h : Syncs P) {c : Client} (hc : P c) : P c.syncReceive := by
  have hmsgs : ∀ (ms : List (Str × Str)) (d : Client), P d →
      P (ms.foldl (fun d m => d.messageReceived m.1 m.2) d) := by
    intro ms
    induction ms with
    | nil => exact fun d hd => hd
    | cons m ms ih => exact fun d hd => ih _ (h.message m.1 m.2 hd)
  have h1 := hmsgs c.receive.1 _ (h.publish (.asked c .received) hc)
  simp only [syncReceive]
  split
  · exact h.lost h1
  · exact h1

lemma sync_of (h : Syncs P) {c : Client} (hc : P c) : P c.sync := by
  unfold sync
  split
  · split
    · exact syncReceive_of h (syncQueue_of h hc)
    · exact syncQueue_of h hc
  all_goals exact hc

/-- The other two classes do nothing there. -/
lemma sync_of_ne {c : Client} (hk : c.kind ≠ .pahoSync) : c.sync = c := by
  unfold sync
  split
  · next h => exact absurd h hk
  all_goals rfl

/-- A property that publishing, a delivery and the loss of the connection keep. -/
structure Kept (P : Client → Prop) : Prop where
  frame : ∀ {c d}, Frame c d → P c → P d
  lost : ∀ {c}, P c → P c.onDisconnect

lemma Kept.syncs (h : Kept P) : Syncs P where
  publish hstep := h.frame (publishStep_frame hstep)
  deliver hq := h.frame (resolveFront_frame hq _)
  calledBack token := h.frame (calledBack_frame _ token)
  message _ _ := h.frame (emit_frame _ _)
  lost := h.lost

lemma sync_kept (h : Kept P) {c : Client} (hc : P c) : P c.sync := sync_of h.syncs hc

/-! ### The other operations, field by field -/

@[simp] lemma onDisconnect_publishQueue (c : Client) : c.onDisconnect.publishQueue = [] := by
  simp [onDisconnect, dumpQueue, disconnected, endSession]

lemma onDisconnect_isPrimary (c : Client) :
    c.onDisconnect.isPrimary = (c.isPrimary && decide (c.state = .disconnected)) := by
  rw [onDisconnect, dumpQueue_eq]
  exact setState_disconnected_isPrimary _

lemma onDisconnect_log (c : Client) : c.onDisconnect.log =
    c.log ++ (c.publishQueue.map .undelivered ++ [.onEvent .disconnected]) := by
  rw [onDisconnect, dumpQueue_eq]
  simp [disconnected, emit, endSession]

lemma connected_log (c : Client) : c.connected.log = c.log ++ [.onEvent .connected] := by
  simp only [connected]
  split <;> simp [subscribeToPrimaryHost, emit]

@[simp] lemma connected_publishQueue (c : Client) : c.connected.publishQueue = c.publishQueue := by
  simp only [connected]
  split <;> simp [subscribeToPrimaryHost]

@[simp] lemma connected_isPrimary (c : Client) : c.connected.isPrimary = c.isPrimary := by
  have h : ∀ d : Client, ((d.setState .connected).emit (.onEvent .connected)).isPrimary
      = d.isPrimary := fun d => setState_isPrimary (by simp) d
  simp only [connected]
  split <;> simp [subscribeToPrimaryHost, h]

@[simp] lemma activated_frame (c : Client) : Frame c c.activated := by
  unfold activated
  split
  · exact emit_frame c _
  · exact .refl c

/-- What `subscribeToCommands` returns, and what it does to the subscription. -/
lemma subscribeToCommands_cases (c : Client) :
    c.subscribeToCommands.2.publishQueue = c.publishQueue ∧
    c.subscribeToCommands.2.isPrimary = c.isPrimary ∧
    c.subscribeToCommands.2.state = c.state ∧
    (c.subscribeToCommands.1 < 0 ↔ c.kind = .cppMqtt ∧ c.returnCode = -1) ∧
    (c.subscribeToCommands.2.commands = some true ↔
      if c.kind = .cppMqtt then c.returnCode ≠ -1 else c.returnCode = mqttSuccess) := by
  have hact : ∀ d : Client, d.activated.publishQueue = d.publishQueue ∧
      d.activated.isPrimary = d.isPrimary ∧ d.activated.state = d.state ∧
      d.activated.commands = d.commands := by
    intro d
    unfold activated
    split <;> exact ⟨rfl, rfl, rfl, rfl⟩
  cases hk : c.kind with
  | pahoSync =>
    by_cases hc : c.returnCode = mqttSuccess <;>
      simp [subscribeToCommands, commandsResult, emit, exitFailure, hk, hc, hact]
  | pahoAsync =>
    by_cases hc : c.returnCode = mqttSuccess <;>
      simp [subscribeToCommands, commandsResult, emit, exitFailure, hk, hc]
  | cppMqtt =>
    by_cases hc : c.returnCode = -1 <;>
      simp [subscribeToCommands, commandsResult, emit, hk, hc]

/-- The library refuses the subscription and `activate` sees it. -/
def RefusalSeen (c : Client) : Prop := c.kind = .cppMqtt ∧ c.returnCode = -1

instance (c : Client) : Decidable (RefusalSeen c) :=
  inferInstanceAs (Decidable (c.kind = .cppMqtt ∧ c.returnCode = -1))

lemma activate_cases {c : Client} (h : c.isPrimary = false) :
    c.activate.2.publishQueue = c.publishQueue ∧
    c.activate.2.state = c.state ∧
    (c.activate.2.isPrimary = false ↔ RefusalSeen c) ∧
    (c.activate.2.commands = some true ↔
      if c.kind = .cppMqtt then c.returnCode ≠ -1 else c.returnCode = mqttSuccess) := by
  obtain ⟨hq, hp, hs, hneg, hc⟩ := subscribeToCommands_cases (c.setPrimary true)
  have hr : RefusalSeen c ↔ (c.setPrimary true).subscribeToCommands.1 < 0 := hneg.symm
  unfold activate
  rw [if_neg (by simp [h])]
  simp only
  split
  · next hlt => exact ⟨hq, hs, iff_of_true rfl (hr.mpr hlt), hc⟩
  · next hlt =>
    have hprimary : (c.setPrimary true).subscribeToCommands.2.isPrimary = true := hp
    exact ⟨hq, hs, iff_of_false (by simp [hprimary]) (mt hr.mp hlt), hc⟩

lemma activate_isPrimary {c : Client} (hp : c.isPrimary = false) (h : ¬RefusalSeen c) :
    c.activate.2.isPrimary = true := by
  by_contra hne
  exact h ((activate_cases hp).2.2.1.mp (by simpa using hne))

lemma activate_refused {c : Client} (hp : c.isPrimary = false) (h : RefusalSeen c) :
    c.activate.2.isPrimary = false ∧ c.activate.2.log = c.log ++ [.subscribed false] := by
  refine ⟨(activate_cases hp).2.2.1.mpr h, ?_⟩
  obtain ⟨hk, hc⟩ := h
  have hcode : (c.setPrimary true).returnCode = -1 := hc
  have hkind : (c.setPrimary true).kind = .cppMqtt := hk
  have hlog : (c.setPrimary true).subscribeToCommands =
      (-1, ((c.setPrimary true).asked .code).commandsResult false) := by
    simp [subscribeToCommands, hcode, hkind]
  rw [activate, if_neg (by simp [hp]), hlog]
  simp [commandsResult, emit, setPrimary]

lemma activate_of_isPrimary {c : Client} (h : c.isPrimary = true) : c.activate.2 = c := by
  simp [activate, h]

lemma deactivate_publishQueue (c : Client) : c.deactivate.2.publishQueue = c.publishQueue := by
  have h : c.unsubscribeToCommands.2.publishQueue = c.publishQueue := by
    unfold unsubscribeToCommands
    split <;> try split
    all_goals simp
  unfold deactivate
  split
  · rfl
  · simp only
    split <;> exact h

/-- No client returns a negative code for a failed unsubscription. -/
lemma deactivate_isPrimary (c : Client) : c.deactivate.2.isPrimary = false := by
  have h : ¬c.unsubscribeToCommands.1 < 0 := by
    unfold unsubscribeToCommands
    split <;> try split
    all_goals simp [exitFailure]
  unfold deactivate
  split
  · assumption
  · simp only
    rw [if_neg h]
    rfl

lemma configureClient_frame (c : Client) : Frame c c.configureClient.2 := by
  have h1 := asked_frame c .code
  have h2 := h1.trans (asked_frame (c.asked .code) .code)
  simp only [configureClient]
  split
  · split <;> exact h1
  · repeat' split
    · exact h1
    · exact h2
    · exact h2
  · exact ⟨rfl, rfl, rfl, id, id⟩

lemma configure_frame (c : Client) (topics : ClientTopicOptions) :
    Frame c (c.configure topics).2 := by
  have h0 : Frame c { c with topics := topics } := ⟨rfl, rfl, rfl, id, id⟩
  have h := h0.trans (configureClient_frame { c with topics := topics })
  simp only [configure]
  split
  · exact h
  · exact ⟨h.kind, h.isPrimary, h.commands, h.state, h.queue⟩

lemma configure_log (c : Client) (topics : ClientTopicOptions) :
    (c.configure topics).2.log = c.log := by
  simp only [configure, configureClient]
  cases c.kind <;> simp only <;> repeat' split
  all_goals simp [incrementBdSeq]

/-- A request to a client that is not primary stays in the queue. -/
lemma request_publishQueue {c : Client} (h : c.isPrimary = false) (r : PublishRequest) :
    (c.request r).publishQueue = c.publishQueue ++ [r] := by
  have hp : ∀ d : Client, d.isPrimary = false → d.publishFromQueue.publishQueue = d.publishQueue := by
    intro d hd
    simp only [publishFromQueue, publishFromQueueWith, hd]
    repeat' split
    all_goals simp_all
  simp only [request]
  repeat' split
  · rw [hp _ (by simpa [enqueue] using h)]
    simp [enqueue]
  · simp [enqueue]
  · rfl

/-- A request changes the queue, and is otherwise framed. -/
lemma request_frame (c : Client) (r : PublishRequest) : Frame (c.enqueue r) (c.request r) := by
  simp only [request]
  repeat' split
  · exact (asked_frame _ _).trans (publishFromQueue_publishes (A := {}) _).frame
  · exact asked_frame _ _
  · exact .refl _

/-- A new connection attempt leaves the queue and being primary alone, or it fails at once
and dumps the queue. -/
lemma clientConnect_cases {c : Client} (hs : c.state = .disconnected) :
    (c.clientConnect.2.isPrimary = c.isPrimary ∧
      c.clientConnect.2.publishQueue = c.publishQueue ∨
    c.clientConnect.2.isPrimary = false ∧ c.clientConnect.2.publishQueue = []) ∧
    (c.clientConnect.1 < 0 → c.clientConnect.2.state = .disconnected) := by
  have hp : (c.setState .connecting).isPrimary = c.isPrimary := setState_isPrimary (by simp) c
  cases hk : c.kind with
  | pahoSync =>
    by_cases hc : c.returnCode = mqttSuccess
    · simp [clientConnect, hk, hs, hc, hp]
    · refine ⟨.inr ⟨?_, ?_⟩, ?_⟩ <;>
        simp [clientConnect, hk, hs, hc, onDisconnect_isPrimary, exitFailure]
  | pahoAsync =>
    by_cases hc : c.returnCode = mqttSuccess <;>
      simp [clientConnect, hk, hs, hc, hp, exitFailure]
  | cppMqtt =>
    by_cases hc : c.returnCode = -1 <;> simp [clientConnect, hk, hs, hc]

/-- What the last write of `connect` keeps: a failure that `connect` sees leaves the client
disconnected, as it was. -/
lemma connect_of {c : Client} (hc : P c) (hconn : c.state = .disconnected → P c.clientConnect.2)
    (hstate : ∀ d, P d → P (d.setState .connecting)) : P c.connect.2 := by
  unfold connect
  split
  · exact hc
  next hs =>
  have hs : c.state = .disconnected := not_not.mp hs
  split
  · exact hc
  simp only
  split
  · next hlt =>
    have hsame : c.clientConnect.2.setState .disconnected = c.clientConnect.2 := by
      simp [setState, (clientConnect_cases hs).2 hlt]
    rw [hsame]
    exact hconn hs
  · exact hstate _ (hconn hs)

lemma connect_cases (c : Client) :
    c.connect.2.isPrimary = c.isPrimary ∧ c.connect.2.publishQueue = c.publishQueue ∨
      c.connect.2.isPrimary = false ∧ c.connect.2.publishQueue = [] :=
  connect_of (P := fun d => d.isPrimary = c.isPrimary ∧ d.publishQueue = c.publishQueue ∨
      d.isPrimary = false ∧ d.publishQueue = []) (.inl ⟨rfl, rfl⟩)
    (fun hs => (clientConnect_cases hs).1) fun d hd => by simpa [setState_isPrimary] using hd

/-- The library closes the connection at once: only `PahoSyncClient` can see that. -/
def ClosesNow (c : Client) : Prop :=
  c.kind = .pahoSync ∧ c.state ≠ .disconnected ∧ c.returnCode = mqttSuccess

lemma disconnect_publishQueue (c : Client) : c.disconnect.publishQueue = c.publishQueue := by
  simp only [disconnect, clientDisconnect]
  split
  · rfl
  · split
    · split <;> simp [endSession]
    · simp
    · split <;> simp

lemma disconnect_of_closesNow {c : Client} (h : ClosesNow c) :
    c.disconnect.isPrimary = false ∧ c.disconnect.state = .disconnected := by
  obtain ⟨hk, hs, hc⟩ := h
  simp [disconnect, clientDisconnect, hk, hs, hc, endSession, setState_disconnected_isPrimary]

lemma disconnect_of_not_closesNow {c : Client} (h : ¬ClosesNow c) :
    c.disconnect.isPrimary = c.isPrimary ∧ c.disconnect.commands = c.commands ∧
      (c.state ≠ .disconnected → c.disconnect.state ≠ .disconnected) := by
  have hp : ∀ d : Client, (d.setState .disconnecting).isPrimary = d.isPrimary :=
    setState_isPrimary (by simp)
  unfold disconnect
  split
  · exact ⟨rfl, rfl, id⟩
  · next hs =>
    unfold clientDisconnect
    split
    · next hk =>
      have hc : c.returnCode ≠ mqttSuccess := fun hc => h ⟨hk, hs, hc⟩
      simp [hc, hp]
    · simp [hp]
    · split <;> simp [hp]

lemma disconnect_log (c : Client) : c.disconnect.log = c.log := by
  simp only [disconnect, clientDisconnect]
  repeat' split
  all_goals simp [endSession]

/-! ### No requests without being primary -/

/-- A client that is not primary holds no requests. -/
def Dumped (c : Client) : Prop := c.isPrimary = false → c.publishQueue = []

lemma dumped_kept : Kept Dumped where
  frame h hc := fun hd => h.queue (hc (h.isPrimary ▸ hd))
  lost _ := fun _ => onDisconnect_publishQueue _

/-- The operation leaves no requests behind in a client that is not primary. -/
def EmptiesQueue (c : Client) : ClientCall → Prop
  | .deactivate => c.publishQueue = []
  | .request _ => c.isPrimary = true
  | .disconnect => ClosesNow c → c.publishQueue = []
  | .library .onConnectFailure => registers c.kind .onConnectFailure = true →
      c.state ≠ .disconnected → c.publishQueue = []
  | _ => True

lemma execute_dumped {c : Client} (h : Dumped c) : Dumped c.execute := by
  unfold execute
  split
  · refine sync_kept dumped_kept fun hp => ?_
    rcases connect_cases c with ⟨hprim, hq⟩ | ⟨-, hq⟩
    · rw [hq]
      exact h (hprim ▸ hp)
    · exact hq
  · exact sync_kept dumped_kept h

lemma onSubscribeResult_cases (c : Client) (token : ℤ) (reasonCodes : List ℕ) :
    (c.onSubscribeResult token reasonCodes).isPrimary = c.isPrimary ∧
      (c.onSubscribeResult token reasonCodes).publishQueue = c.publishQueue ∧
      (c.onSubscribeResult token reasonCodes).state = c.state ∧
      (c.onSubscribeResult token reasonCodes).commands =
        if c.subscriptionToken = token ∧ refusal reasonCodes then some false else c.commands := by
  unfold onSubscribeResult activated
  by_cases ht : c.subscriptionToken = token
  · cases hr : refusal reasonCodes <;> cases hp : c.isPrimary <;> simp [ht, hp, emit]
  · simp [ht]

lemma handle_dumped_iff {c : Client} (h : Dumped c) {l : LibraryCall}
    (hl : registers c.kind l = true) : Dumped (c.handle l) ↔ EmptiesQueue c (.library l) := by
  have frame : ∀ {d : Client}, Frame c d → Dumped d := fun hf => dumped_kept.frame hf h
  cases l with
  | answers l => exact iff_of_true h trivial
  | link up => exact iff_of_true h trivial
  | onDelivery token => exact iff_of_true (frame (onDelivery_frame c token)) trivial
  | onDeliveryFailure token =>
    have hf := (calledBack_frame c token).trans (onDeliveryFailure_publishes_all _ token).frame
    exact iff_of_true (frame hf) trivial
  | onMessage topic payload => exact iff_of_true (frame (emit_frame c _)) trivial
  | onDisconnect => exact iff_of_true (fun _ => onDisconnect_publishQueue c) trivial
  | onConnect => exact iff_of_true (by simpa [Dumped, handle] using h) trivial
  | onConnectFailure =>
    simp only [Dumped, handle, EmptiesQueue, setState_disconnected_isPrimary,
      setState_publishQueue]
    by_cases hs : c.state = .disconnected
    · simpa [hs, Dumped] using h
    · simp [hs, hl]
  | onCommandSubscription => exact iff_of_true (frame (activated_frame c)) trivial
  | onCommandSubscribeFailure => exact iff_of_true h trivial
  | onSubscribeResult token reasonCodes =>
    obtain ⟨hp, hq, -⟩ := onSubscribeResult_cases c token reasonCodes
    refine iff_of_true ?_ trivial
    simpa [Dumped, handle, hp, hq] using h

lemma callback_dumped_iff {c : Client} (h : Dumped c) (l : LibraryCall) :
    Dumped (c.callback l) ↔ EmptiesQueue c (.library l) := by
  unfold callback
  split
  · next hl => exact handle_dumped_iff h hl
  · next hl =>
    refine iff_of_true h ?_
    cases l <;> first | trivial | exact fun hr => absurd hr hl

/-- When an operation leaves requests behind. -/
lemma dumped_step_iff {c : Client} (h : Dumped c) (a : ClientCall) :
    Dumped (c.step a) ↔ EmptiesQueue c a := by
  have frame : ∀ {d : Client}, Frame c d → Dumped d := fun hf => dumped_kept.frame hf h
  cases a with
  | configure topics => exact iff_of_true (frame (configure_frame c topics)) trivial
  | activate =>
    refine iff_of_true (fun hp => ?_) trivial
    cases hc : c.isPrimary with
    | true =>
      have hp' : c.activate.2.isPrimary = false := hp
      rw [activate_of_isPrimary hc, hc] at hp'
      cases hp'
    | false => exact (activate_cases hc).1.trans (h hc)
  | deactivate =>
    simp only [Dumped, step, EmptiesQueue, deactivate_isPrimary, deactivate_publishQueue,
      forall_const]
  | request r =>
    cases hc : c.isPrimary with
    | true =>
      have hp : (c.request r).isPrimary = true := (request_frame c r).isPrimary.trans hc
      exact iff_of_true (fun hd => absurd (hp.symm.trans hd) (by simp)) hc
    | false =>
      refine iff_of_false (fun hd => ?_) (by simp [EmptiesQueue, hc])
      have hp : (c.request r).isPrimary = false := (request_frame c r).isPrimary.trans hc
      have := hd hp
      simp [step, request_publishQueue hc] at this
  | disconnect =>
    simp only [Dumped, step, EmptiesQueue, disconnect_publishQueue]
    by_cases hc : ClosesNow c
    · simp [disconnect_of_closesNow hc, hc]
    · simpa [disconnect_of_not_closesNow hc, hc, Dumped] using h
  | execute => exact iff_of_true (execute_dumped h) trivial
  | library l => exact callback_dumped_iff h l

/-! ### What becomes of the requests -/

/-- If the operation ends being primary, it has reported every queued request once and in
order, and as undelivered but for a front request whose delivery `execute` has just seen. -/
def ReportsDumped (c : Client) (a : ClientCall) : Prop :=
  c.isPrimary = true → (c.step a).isPrimary = false →
    Ledger.reported (Ledger.effects c (c.step a)) = Ledger.keys c.publishQueue ∧
    ∀ p ∈ Ledger.reports (Ledger.effects c (c.step a)), p.2 = true →
      a = .execute ∧ c.publishQueue.head? = some p.1

lemma execute_reports (c : Client) : ∃ l, c.execute.log = c.log ++ l ∧
    ∀ p ∈ Ledger.reports l, p.2 = true → c.publishQueue.head? = some p.1 := by
  unfold execute
  split
  · obtain ⟨k, hk, hrk⟩ := Ledger.steps_undelivers (connect_steps c)
    obtain ⟨m, hm, hrm⟩ := Ledger.sync_reports c.connect.2
    refine ⟨k ++ m, by rw [hm, hk, List.append_assoc], fun p hp ht => ?_⟩
    rw [Ledger.reports_append, List.mem_append] at hp
    rcases hp with hp | hp
    · exact absurd (hrk p hp) (by simp [ht])
    · have hhead := hrm p hp ht
      rcases connect_cases c with ⟨-, hq⟩ | ⟨-, hq⟩
      · rwa [hq] at hhead
      · simp [hq] at hhead
  · exact Ledger.sync_reports c

/-- An operation that ends being primary delivers nothing, unless it is `execute`. -/
lemma undelivers_of_lost {c : Client} {a : ClientCall} (ha : a ≠ .execute)
    (hp : c.isPrimary = true) (hn : (c.step a).isPrimary = false) :
    Ledger.Undelivers c (c.step a) := by
  have absurdFrame : ∀ {d : Client}, d.isPrimary = c.isPrimary → d.isPrimary = false →
      Ledger.Undelivers c (c.step a) := fun h k => absurd (k.symm.trans (h.trans hp)) (by simp)
  cases a with
  | configure topics => exact absurdFrame (configure_frame c topics).isPrimary hn
  | activate => exact absurdFrame (by rw [step, activate_of_isPrimary hp]) hn
  | deactivate => exact Ledger.steps_undelivers (deactivate_steps c)
  | request r => exact absurdFrame (request_frame c r).isPrimary hn
  | disconnect => exact Ledger.steps_undelivers (disconnect_steps c)
  | execute => exact absurd rfl ha
  | library l =>
    simp only [step, callback] at hn ⊢
    split at hn
    · next hl =>
      rw [if_pos hl]
      by_cases h : ∃ token, l = .onDelivery token
      · obtain ⟨token, rfl⟩ := h
        have hd := (onDelivery_frame c token).isPrimary.trans hp
        exact absurd (hn.symm.trans hd) (by simp)
      · exact Ledger.steps_undelivers (handle_steps_of_ne (fun token e => h ⟨token, e⟩)
            fun token _ => fits_all rfl c token)
    · exact absurd (hn.symm.trans hp) (by simp)

/-- Where the queue is empty afterwards every request has been reported. -/
lemma reportsDumped_of_dumped {c : Client} {a : ClientCall} (h : Dumped (c.step a)) :
    ReportsDumped c a := by
  intro hp hn
  have htaken : (c.taken a).publishQueue = c.publishQueue ∧ (c.taken a).log = c.log := by
    cases a with
    | request r =>
      have := (request_frame c r).isPrimary.trans hp
      exact absurd (this.symm.trans hn) (by simp)
    | _ => exact ⟨rfl, rfl⟩
  refine ⟨?_, ?_⟩
  · obtain ⟨l, hl, hk, -⟩ := Ledger.step_conserves c a
    rw [htaken.2] at hl
    rw [Ledger.effects_eq hl, ← htaken.1, hk, h hn]
    simp [Ledger.keys]
  · intro p hmem ht
    by_cases ha : a = .execute
    · subst ha
      obtain ⟨l, hl, hd⟩ := execute_reports c
      rw [step, Ledger.effects_eq hl] at hmem
      exact ⟨rfl, hd p hmem ht⟩
    · obtain ⟨l, hl, hu⟩ := undelivers_of_lost ha hp hn
      rw [Ledger.effects_eq hl] at hmem
      exact absurd (hu p hmem) (by simp [ht])

/-- A run leaves no requests behind, and reports those it drops, exactly when each of its
operations empties the queue where it has to. -/
theorem along_dumped_iff {c : Client} (h : Dumped c) (calls : List ClientCall) :
    Along step Dumped c calls ∧ Each step ReportsDumped c calls ↔ Each step EmptiesQueue c calls := by
  have hiff : Along step Dumped c calls ↔ Each step EmptiesQueue c calls :=
    along_iff_each (fun _ a hc => dumped_step_iff hc a) h
  refine ⟨fun hk => hiff.mp hk.1, fun hk => ⟨hiff.mpr hk, ?_⟩⟩
  have halong := hiff.mpr hk
  clear hiff hk
  induction calls generalizing c with
  | nil => trivial
  | cons a calls ih => exact ⟨reportsDumped_of_dumped halong.2.head, ih halong.2.head halong.2⟩

end Sparkplug.Client
