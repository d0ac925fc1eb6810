import Sparkplug.Primary

/-!
Subscriptions of primary clients.

A client becomes primary before it has subscribed, and which refusals take that back
differs from class to class. For each operation it is said exactly when it keeps a primary
client subscribed.
-/

namespace Sparkplug.Client

open Machine Relation

/-- A primary client is not disconnected and has a command subscription, accepted in the
current connection and not refused since. -/
def Subscribed (c : Client) : Prop :=
  c.isPrimary = true → c.state ≠ .disconnected ∧ c.commands = some true

/-- The library accepts the subscription `activate` asks for. -/
def AcceptsCommands (c : Client) : Prop :=
  if c.kind = .cppMqtt then c.returnCode ≠ -1 else c.returnCode = mqttSuccess

/-- The operation leaves a primary client subscribed. -/
def KeepsSubscription (c : Client) : ClientCall → Prop
  | .activate => c.isPrimary = true ∨ RefusalSeen c ∨ c.state ≠ .disconnected ∧ AcceptsCommands c
  | .library .onConnect => registers c.kind .onConnect = true → c.isPrimary = false
  | .library .onCommandSubscribeFailure =>
    registers c.kind .onCommandSubscribeFailure = true → c.isPrimary = false
  | .library (.onSubscribeResult token reasonCodes) =>
    registers c.kind (.onSubscribeResult token reasonCodes) = true →
      c.subscriptionToken = token → refusal reasonCodes = true → c.isPrimary = false
  | _ => True

lemma onDisconnect_subscribed {c : Client} (h : Subscribed c) : Subscribed c.onDisconnect := by
  intro hp
  rw [onDisconnect_isPrimary] at hp
  simp only [Bool.and_eq_true, decide_eq_true_eq] at hp
  exact absurd hp.2 (h hp.1).1

lemma subscribed_kept : Kept Subscribed where
  frame hf h hp := by
    obtain ⟨hs, hc⟩ := h (hf.isPrimary ▸ hp)
    exact ⟨hf.state hs, hf.commands.trans hc⟩
  lost := onDisconnect_subscribed

lemma notPrimary_kept : Kept fun c => c.isPrimary = false where
  frame hf h := hf.isPrimary.trans h
  lost h := by rw [onDisconnect_isPrimary, h, Bool.false_and]

lemma subscribed_of_notPrimary {c : Client} (h : c.isPrimary = false) : Subscribed c :=
  fun hp => absurd (h.symm.trans hp) (by simp)

lemma execute_subscribed {c : Client} (h : Subscribed c) : Subscribed c.execute := by
  unfold execute
  split
  · next hs =>
    have hc : c.isPrimary = false := by
      by_contra hp
      exact (h (by simpa using hp)).1 hs
    have hconn : c.connect.2.isPrimary = false := by
      rcases connect_cases c with ⟨hp, -⟩ | ⟨hp, -⟩
      · exact hp.trans hc
      · exact hp
    exact subscribed_of_notPrimary (sync_kept notPrimary_kept hconn)
  · exact sync_kept subscribed_kept h

lemma activate_subscribed_iff {c : Client} (h : Subscribed c) :
    Subscribed c.activate.2 ↔ KeepsSubscription c .activate := by
  cases hc : c.isPrimary with
  | true =>
    rw [activate_of_isPrimary hc]
    exact iff_of_true h (.inl hc)
  | false =>
    obtain ⟨-, hs, hp, hcom⟩ := activate_cases hc
    by_cases hr : RefusalSeen c
    · exact iff_of_true (subscribed_of_notPrimary (hp.mpr hr)) (.inr (.inl hr))
    · have hprim : c.activate.2.isPrimary = true := by
        by_contra hne
        exact hr (hp.mp (by simpa using hne))
      simp only [Subscribed, KeepsSubscription, hprim, hs, hcom, hc, hr, AcceptsCommands,
        forall_const, Bool.false_eq_true, false_or]

lemma connected_commands (c : Client) : c.connected.commands = none := by
  have h : ∀ d : Client, d.commands = none →
      ((d.setState .connected).emit (.onEvent .connected)).commands = none :=
    fun d hd => (setState_commands d _).trans hd
  simp only [connected]
  split
  · simp [subscribeToPrimaryHost, h]
  · exact h _ rfl

lemma handle_subscribed_iff {c : Client} (h : Subscribed c) {l : LibraryCall}
    (hl : registers c.kind l = true) :
    Subscribed (c.handle l) ↔ KeepsSubscription c (.library l) := by
  have frame : ∀ {d : Client}, Frame c d → Subscribed d := fun hf => subscribed_kept.frame hf h
  cases l with
  | answers l => exact iff_of_true h trivial
  | link up => exact iff_of_true h trivial
  | onDelivery token => exact iff_of_true (frame (onDelivery_frame c token)) trivial
  | onDeliveryFailure token =>
    have hf := (calledBack_frame c token).trans (onDeliveryFailure_publishes_all _ token).frame
    exact iff_of_true (frame hf) trivial
  | onMessage topic payload => exact iff_of_true (frame (emit_frame c _)) trivial
  | onDisconnect => exact iff_of_true (onDisconnect_subscribed h) trivial
  | onConnect =>
    cases hc : c.isPrimary <;>
      simp [Subscribed, handle, KeepsSubscription, connected_commands, hc, hl]
  | onConnectFailure =>
    refine iff_of_true (fun hp => ?_) trivial
    simp only [handle, setState_disconnected_isPrimary, Bool.and_eq_true, decide_eq_true_eq] at hp
    exact absurd hp.2 (h hp.1).1
  | onCommandSubscription => exact iff_of_true (frame (activated_frame c)) trivial
  | onCommandSubscribeFailure =>
    cases hc : c.isPrimary <;> simp [Subscribed, handle, KeepsSubscription, hc, hl]
  | onSubscribeResult token reasonCodes =>
    obtain ⟨hp, -, hs, hcom⟩ := onSubscribeResult_cases c token reasonCodes
    by_cases hr : c.subscriptionToken = token ∧ refusal reasonCodes = true
    · cases hc : c.isPrimary <;>
        simp [Subscribed, handle, KeepsSubscription, hp, hs, hcom, hr, hc, hl]
    · refine iff_of_true ?_ fun _ ht hrc => absurd ⟨ht, hrc⟩ hr
      simpa [Subscribed, handle, hp, hs, hcom, hr] using h

lemma callback_subscribed_iff {c : Client} (h : Subscribed c) (l : LibraryCall) :
    Subscribed (c.callback l) ↔ KeepsSubscription c (.library l) := by
  unfold callback
  split
  · next hl => exact handle_subscribed_iff h hl
  · next hl =>
    refine iff_of_true h ?_
    cases l <;> first | trivial | exact fun hr => absurd hr hl

/-- When an operation leaves a primary client without a subscription. -/
lemma subscribed_step_iff {c : Client} (h : Subscribed c) (a : ClientCall) :
    Subscribed (c.step a) ↔ KeepsSubscription c a := by
  cases a with
  | configure topics =>
    exact iff_of_true (subscribed_kept.frame (configure_frame c topics) h) trivial
  | activate => exact activate_subscribed_iff h
  | deactivate => exact iff_of_true (subscribed_of_notPrimary (deactivate_isPrimary c)) trivial
  | request r =>
    have hq : Subscribed (c.enqueue r) := h
    exact iff_of_true (subscribed_kept.frame (request_frame c r) hq) trivial
  | disconnect =>
    refine iff_of_true ?_ trivial
    by_cases hc : ClosesNow c
    · exact subscribed_of_notPrimary (disconnect_of_closesNow hc).1
    · obtain ⟨hp, hcom, hs⟩ := disconnect_of_not_closesNow hc
      intro hprim
      obtain ⟨h1, h2⟩ := h (hp ▸ hprim)
      exact ⟨hs h1, hcom.trans h2⟩
  | execute => exact iff_of_true (execute_subscribed h) trivial
  | library l => exact callback_subscribed_iff h l

/-- A run keeps primary clients subscribed exactly when each of its operations does. -/
theorem along_subscribed_iff {c : Client} (h : Subscribed c) (calls : List ClientCall) :
    Along step Subscribed c calls ↔ Each step KeepsSubscription c calls :=
  along_iff_each (fun _ a hc => subscribed_step_iff hc a) h

end Sparkplug.Client
