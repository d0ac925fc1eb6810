import Sparkplug.Primary

/-!
Connection attempts.

The outcome of an attempt reaches the client in one of three ways: the library call fails,
or its report is processed before `connect` has returned, or afterwards. The last write of
`connect` is `CONNECTING`, so only a report that comes afterwards is seen in the state.
-/

namespace Sparkplug.Client

open Machine

/-- `clientConnect` with the callbacks that the library makes before it returns. Only the
`PahoAsyncClient` can get any: `PahoSyncClient` registers none, and `CppMqttClient` is called
back when it is synchronized. -/
def clientConnectDuring (c : Client) (callbacks : List LibraryCall) : ℤ × Client :=
  match c.kind with
  | .pahoAsync =>
    if c.state ≠ .disconnected then (0, c)
    else
      let d := callbacks.foldl callback ((c.setState .connecting).asked .code)
      if c.returnCode ≠ mqttSuccess then (exitFailure, d) else (0, d)
  | .pahoSync | .cppMqtt => c.clientConnect

def connectDuring (c : Client) (callbacks : List LibraryCall) : ℤ × Client :=
  if c.state ≠ .disconnected then (0, c)
  else if c.configured = false then (-1, c)
  else
    let (code, c) := c.clientConnectDuring callbacks
    if code < 0 then (code, c.setState .disconnected) else (0, c.setState .connecting)

/-- Without callbacks it is `connect`. -/
theorem connectDuring_nil (c : Client) : c.connectDuring [] = c.connect := by
  have h : c.clientConnectDuring [] = c.clientConnect := by
    unfold clientConnectDuring
    split
    · next hk => simp only [clientConnect, hk, List.foldl_nil]
    · rfl
    · rfl
  simp only [connectDuring, connect, h]

/-- How the library reports that an accepted attempt succeeded or failed: among other
callbacks before `connect` has returned, or after that and whatever else has happened. -/
inductive ConnectReport
  | during (before after : List LibraryCall) (success : Bool)
  | afterwards (between : List ClientCall) (success : Bool)

def report (success : Bool) : LibraryCall := if success then .onConnect else .onConnectFailure

def ConnectReport.success : ConnectReport → Bool
  | during _ _ success => success
  | afterwards _ success => success

/-- The client when the outcome of the attempt has been reported and `connect` has returned.
The library of a `PahoSyncClient`, and one that refuses the attempt, has nothing to report. -/
def attemptConnect (c : Client) (r : ConnectReport) : Client :=
  if c.kind = .pahoAsync ∧ c.returnCode = mqttSuccess then
    match r with
    | .during before after success => (c.connectDuring (before ++ report success :: after)).2
    | .afterwards between success => (run step c.connect.2 between).callback (report success)
  else c.connect.2

/-- The connection attempt succeeds. -/
def connects (c : Client) (r : ConnectReport) : Bool :=
  c.returnCode = mqttSuccess && (c.kind = .pahoSync || r.success)

/-- The state says what came of the attempt. -/
def StateReflects (c : Client) (r : ConnectReport) : Prop :=
  (c.attemptConnect r).state = if c.connects r then .connected else .disconnected

instance (c : Client) (r : ConnectReport) : Decidable (StateReflects c r) :=
  inferInstanceAs (Decidable (_ = _))

variable {c : Client}

/-- When the library of a Paho client has been asked, `connect` leaves `CONNECTING`. -/
lemma connectDuring_state (hk : c.kind ≠ .cppMqtt) (hs : c.state = .disconnected)
    (hc : c.configured = true) (callbacks : List LibraryCall) :
    (c.connectDuring callbacks).2.state = .connecting := by
  have hcode : ¬(c.clientConnectDuring callbacks).1 < 0 := by
    cases hkind : c.kind with
    | cppMqtt => exact absurd hkind hk
    | pahoSync | pahoAsync =>
      by_cases hcode : c.returnCode = mqttSuccess <;>
        simp [clientConnectDuring, clientConnect, hkind, hs, hcode, exitFailure]
  simp [connectDuring, hs, hc, hcode]

lemma connected_state (c : Client) : c.connected.state = .connected := by
  simp only [connected]
  split <;> simp [subscribeToPrimaryHost, emit]

lemma connect_kind (c : Client) : c.connect.2.kind = c.kind :=
  (connect_steps (A := {}) c).rel (R := fun c d => d.kind = c.kind) (fun _ => rfl)
    (fun h k => k.trans h) clientStep_kind

/-- A report is seen in the state. -/
lemma report_state {d : Client} (hk : d.kind = .pahoAsync) (success : Bool) :
    (d.callback (report success)).state = if success then .connected else .disconnected := by
  cases success with
  | true =>
    simp only [callback, report, hk, registers, if_true]
    exact connected_state d
  | false =>
    simp only [callback, report, hk, registers, Bool.false_eq_true, if_false, if_true]
    exact setState_state d _

/-- **The state reflects the outcome** of an attempt exactly when the library of a
`PahoAsyncClient` accepts it and reports after `connect` has returned. -/
theorem stateReflects_iff (hk : c.kind ≠ .cppMqtt) (hs : c.state = .disconnected)
    (hc : c.configured = true) (r : ConnectReport) :
    StateReflects c r ↔ c.kind = .pahoAsync ∧ c.returnCode = mqttSuccess ∧
      ∃ between success, r = .afterwards between success := by
  have hne : ∀ b : Bool, ClientState.connecting ≠ if b then .connected else .disconnected := by
    intro b
    cases b <;> simp
  unfold StateReflects attemptConnect
  by_cases h : c.kind = .pahoAsync ∧ c.returnCode = mqttSuccess
  · rw [if_pos h]
    cases r with
    | during before after success =>
      rw [connectDuring_state hk hs hc]
      exact iff_of_false (hne _) (by simp)
    | afterwards between success =>
      have hkind : (run step c.connect.2 between).kind = .pahoAsync :=
        (run_kind _ _).trans ((connect_kind c).trans h.1)
      rw [report_state hkind]
      simp [connects, h, ConnectReport.success]
  · rw [if_neg h, ← connectDuring_nil, connectDuring_state hk hs hc]
    exact iff_of_false (hne _) fun hr => h ⟨hr.1, hr.2.1⟩

/-- A new client that has been configured. -/
def configuredClient (kind : ClientKind) : Client := { kind, configured := true }

theorem afterwards_reflects : StateReflects (configuredClient .pahoAsync) (.afterwards [] true) :=
  (stateReflects_iff (by decide) rfl rfl _).mpr ⟨rfl, rfl, [], true, rfl⟩

/-- A `PahoSyncClient` that has connected stays `CONNECTING`. -/
theorem sync_not_reflects :
    ¬StateReflects (configuredClient .pahoSync) (.afterwards [] true) := by
  decide

end Sparkplug.Client
