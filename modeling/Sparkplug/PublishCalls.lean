import Sparkplug.Execute

/-!
Who calls `publish`, and with which active client.

A call is looked at with the node as it is when the call is made. The births follow the
activation of a client or the command of an active one, and the turns of `execute` follow
`isActive`, so there is an active client; a request can come at any time.
-/

namespace Sparkplug

open Machine

/-- A call of `publish`, with the node as it is then. -/
structure PublishCall where
  node : Node
  publisher : PubId
  isBirth : Bool

/-- There is something to publish, so a method of the active client is called. -/
def PublishCall.Dereferences (x : PublishCall) : Prop :=
  x.isBirth = true ∨ (x.node.pub x.publisher).cur.canPublish = true

/-- What is called from outside, with the whole of `execute` taken as one. -/
inductive Entry
  | call (a : NodeCall)
  | execute (elapsed : ℤ) (connected : Bool)

namespace Node

def enter (n : Node) : Entry → Node
  | .call a => n.step a
  | .execute elapsed connected => if n.faulted then n else (n.execute elapsed connected).2

/-! ### The calls of each operation, with those that a fault on the way would leave out -/

def deviceBirthCalls (n : Node) : List ℕ → List PublishCall
  | [] => []
  | d :: ds => ⟨n, .device d, true⟩ :: (n.publish (.device d) true).deviceBirthCalls ds

def publishBirthCalls (n : Node) : List PublishCall :=
  ⟨n, .node, true⟩ :: (n.publish .node true).deviceBirthCalls n.devices

def setActiveClientCalls (n : Node) (c : Option ClientId) : List PublishCall :=
  let n :=
    match n.activeClient with
    | some old => if c ≠ some old then n.callClient old .deactivate else n
    | none => n
  let n := { n with activeClient := c }
  if c.isSome then n.publishBirthCalls else []

def deactivateClientCalls (n : Node) (i : ClientId) : List PublishCall :=
  if n.activeClient = some i then n.setActiveClientCalls none else []

def onCommandCalls (n : Node) (m : Metric) (c : CommandMetric) : List PublishCall :=
  if m.callback = some .rebirth ∧ c.booleanValue then n.publishBirthCalls else []

def commandMetricCalls (n : Node) (p : PubId) (c : CommandMetric) : List PublishCall :=
  match c.name with
  | none => []
  | some name =>
    match (n.pub p).cur.metrics.find? (fun m => m.name = name) with
    | some m => n.onCommandCalls m c
    | none => []

def commandMetricsCalls (n : Node) (p : PubId) : List CommandMetric → List PublishCall
  | [] => []
  | c :: cs => n.commandMetricCalls p c ++ (n.commandMetric p c).commandMetricsCalls p cs

def handleCommandCalls (n : Node) (p : PubId) (payload : Str) : List PublishCall :=
  match n.decodePayload payload with
  | none => []
  | some cs => n.commandMetricsCalls p cs.reverse

def onCommandMessageCalls (n : Node) (i : ClientId) (topic payload : Str) : List PublishCall :=
  if n.activeClient = some i then
    (n.recipient topic).elim [] fun p => n.handleCommandCalls p payload
  else []

/-- A client is activated without a call. -/
def onHostStateCalls (n : Node) (i : ClientId) (topic payload : Str) : List PublishCall :=
  if n.findsOffline topic payload then n.deactivateClientCalls i else []

def onMessageCalls (n : Node) (i : ClientId) (topic payload : Str) : List PublishCall :=
  let n := n.noteHost i topic payload
  if n.leavesAtOnce i topic then []
  else n.onCommandMessageCalls i topic payload ++
    (n.onCommandMessage i topic payload).onHostStateCalls i topic payload

def handleEventCalls (n : Node) (i : ClientId) : ClientEvent → List PublishCall
  | .message topic payload => n.onMessageCalls i topic payload
  | .disconnected => (n.forgetHost i).deactivateClientCalls i
  | .active => n.setActiveClientCalls (some i)
  | .delivered _ | .undelivered _ | .connected | .deactive => []

def processEventCalls (n : Node) : List PublishCall :=
  match n.eventQueue with
  | [] => []
  | (i, e) :: rest => { n with eventQueue := rest }.handleEventCalls i e

def processEventsCalls (n : Node) : List PublishCall :=
  if _h : n.faulted = true ∨ n.eventQueue = [] then []
  else n.processEventCalls ++ n.processEvent.processEventsCalls
termination_by n.toHandle
decreasing_by exact processEvent_less fun hq => _h (.inr hq)

def takeTurnCalls (n : Node) (p : PubId) (elapsed : ℤ) : List PublishCall :=
  let n := n.callPub p (.update elapsed)
  if (n.pub p).cur.canPublish then [⟨n, p, false⟩] else []

def takeTurnsCalls (elapsed : ℤ) : Node → List PubId → List PublishCall
  | _, [] => []
  | n, p :: ps => n.takeTurnCalls p elapsed ++ takeTurnsCalls elapsed (n.takeTurn p elapsed).2 ps

def executeCalls (n : Node) (elapsed : ℤ) (connected : Bool) : List PublishCall :=
  if n.enabled = false then []
  else
    let (active, m) := n.isActive connected
    n.executeClients.processEventsCalls ++
      if active = false ∨ m.faulted = true then [] else takeTurnsCalls elapsed m m.publishables

/-- All calls of `publish` on the way from an entry. -/
def publishCalls (n : Node) : Entry → List PublishCall
  | .call .processEvent => n.processEventCalls
  | .call (.poll p elapsed) =>
    if n.enabled && n.activeClient.isSome && n.owns p then n.takeTurnCalls p elapsed else []
  | .call (.requestPublish p b) => if n.owns p then [⟨n, p, b⟩] else []
  | .call _ => []
  | .execute elapsed connected => n.executeCalls elapsed connected

/-! ### The calls with an active client -/

/-- There is an active client at each of the calls. -/
def AllServed (l : List PublishCall) : Prop := ∀ x ∈ l, x.node.activeClient ≠ none

lemma allServed_nil : AllServed [] := by simp [AllServed]

lemma AllServed.append {l m : List PublishCall} (hl : AllServed l) (hm : AllServed m) :
    AllServed (l ++ m) := List.forall_mem_append.mpr ⟨hl, hm⟩

section Served

variable {n : Node}

lemma deviceBirthCalls_served (ds : List ℕ) (h : n.activeClient ≠ none) :
    AllServed (n.deviceBirthCalls ds) := by
  induction ds generalizing n with
  | nil => exact allServed_nil
  | cons d ds ih => exact List.forall_mem_cons.mpr ⟨h, ih (publish_active h _ _)⟩

lemma publishBirthCalls_served (h : n.activeClient ≠ none) : AllServed n.publishBirthCalls :=
  List.forall_mem_cons.mpr ⟨h, deviceBirthCalls_served n.devices (publish_active h _ _)⟩

/-- The births come after the new client, if there is one. -/
lemma setActiveClientCalls_served (n : Node) (c : Option ClientId) :
    AllServed (n.setActiveClientCalls c) := by
  simp only [setActiveClientCalls]
  split
  · next hc => exact publishBirthCalls_served (Option.isSome_iff_ne_none.mp hc)
  · exact allServed_nil

lemma deactivateClientCalls_served (n : Node) (i : ClientId) :
    AllServed (n.deactivateClientCalls i) := by
  unfold deactivateClientCalls
  split
  · exact setActiveClientCalls_served n none
  · exact allServed_nil

lemma commandMetricCalls_served (h : n.activeClient ≠ none) (p : PubId) (c : CommandMetric) :
    AllServed (n.commandMetricCalls p c) := by
  unfold commandMetricCalls
  split
  · exact allServed_nil
  split
  · unfold onCommandCalls
    split
    · exact publishBirthCalls_served h
    · exact allServed_nil
  · exact allServed_nil

/-- A rebirth leaves the active client as it is. -/
lemma commandMetricsCalls_served (p : PubId) (cs : List CommandMetric)
    (h : n.activeClient ≠ none) : AllServed (n.commandMetricsCalls p cs) := by
  induction cs generalizing n with
  | nil => exact allServed_nil
  | cons c cs ih =>
    have hnext : (n.commandMetric p c).activeClient ≠ none :=
      commandMetric_kept (P := fun n => n.activeClient ≠ none)
        (fun _ q h => publish_active h q true) (fun _ h => h) h p c
    exact (commandMetricCalls_served h p c).append (ih hnext)

lemma onCommandMessageCalls_served (n : Node) (i : ClientId) (topic payload : Str) :
    AllServed (n.onCommandMessageCalls i topic payload) := by
  unfold onCommandMessageCalls
  split
  · next ha =>
    have hactive : n.activeClient ≠ none := by simp [ha]
    cases n.recipient topic with
    | none => exact allServed_nil
    | some p =>
      rw [Option.elim_some, handleCommandCalls]
      split
      · exact allServed_nil
      · exact commandMetricsCalls_served p _ hactive
  · exact allServed_nil

lemma onMessageCalls_served (n : Node) (i : ClientId) (topic payload : Str) :
    AllServed (n.onMessageCalls i topic payload) := by
  have hhost : ∀ m : Node, AllServed (m.onHostStateCalls i topic payload) := by
    intro m
    unfold onHostStateCalls
    split
    · exact deactivateClientCalls_served m i
    · exact allServed_nil
  simp only [onMessageCalls]
  split
  · exact allServed_nil
  · exact (onCommandMessageCalls_served _ i topic payload).append (hhost _)

/-- **Handling an event publishes with an active client.** -/
theorem handleEventCalls_served (n : Node) (i : ClientId) (e : ClientEvent) :
    AllServed (n.handleEventCalls i e) := by
  cases e with
  | message topic payload => exact onMessageCalls_served n i topic payload
  | disconnected => exact deactivateClientCalls_served _ i
  | active => exact setActiveClientCalls_served n (some i)
  | delivered | undelivered | connected | deactive => exact allServed_nil

lemma processEventCalls_served (n : Node) : AllServed n.processEventCalls := by
  unfold processEventCalls
  split
  · exact allServed_nil
  · exact handleEventCalls_served _ _ _

lemma processEventsCalls_served (n : Node) : AllServed n.processEventsCalls := by
  fun_induction processEventsCalls n with
  | case1 => exact allServed_nil
  | case2 n h ih => exact n.processEventCalls_served.append ih

lemma takeTurnCalls_served (h : n.activeClient ≠ none) (p : PubId) (elapsed : ℤ) :
    AllServed (n.takeTurnCalls p elapsed) := by
  simp only [takeTurnCalls]
  split
  · exact List.forall_mem_singleton.mpr h
  · exact allServed_nil

lemma takeTurnsCalls_served (elapsed : ℤ) (ps : List PubId) {ds : List ℕ} (h : n.Executing ds) :
    AllServed (takeTurnsCalls elapsed n ps) := by
  induction ps generalizing n with
  | nil => exact allServed_nil
  | cons p ps ih =>
    exact (takeTurnCalls_served h.active p elapsed).append (ih (takeTurn_executing h p elapsed))

/-- The events can take the active client away, and `isActive` asks for it after them. -/
lemma executeCalls_served (n : Node) (elapsed : ℤ) (connected : Bool) :
    AllServed (n.executeCalls elapsed connected) := by
  by_cases he : n.enabled = false
  · rw [executeCalls, if_pos he]
    exact allServed_nil
  simp only [executeCalls, isActive, if_neg he]
  refine (processEventsCalls_served _).append ?_
  split
  · exact allServed_nil
  · next hgo => exact takeTurnsCalls_served elapsed _ (sync_executing he hgo)

end Served

/-! ### Requests -/

/-- No call goes on without an active client, and a request leaves the publishable as it is
if there is none. -/
def PublishesSafely (n : Node) (e : Entry) : Prop :=
  (∀ x ∈ n.publishCalls e, x.Dereferences → x.node.activeClient ≠ none) ∧
    ∀ p b, e = .call (.requestPublish p b) → n.activeClient = none →
      ((n.enter e).pub p).cur = (n.pub p).cur

/-- If there is no active client, a request of the node or of one of its devices is not for a
birth, and has nothing to publish. -/
def RequestsInTime (n : Node) (e : Entry) : Prop :=
  ∀ p b, e = .call (.requestPublish p b) → n.owns p = true → n.activeClient = none →
    b = false ∧ (n.pub p).cur.canPublish = false

section Requests

variable {n : Node}

/-- All calls but those for requests have an active client. -/
lemma publishCalls_served {e : Entry} (he : ∀ p b, e ≠ .call (.requestPublish p b)) :
    AllServed (n.publishCalls e) := by
  cases e with
  | execute elapsed connected => exact executeCalls_served n elapsed connected
  | call a =>
    cases a with
    | processEvent => exact n.processEventCalls_served
    | poll p elapsed =>
      simp only [publishCalls]
      split
      · next hgo =>
        simp only [Bool.and_eq_true] at hgo
        exact takeTurnCalls_served (Option.isSome_iff_ne_none.mp hgo.1.2) p elapsed
      · exact allServed_nil
    | requestPublish p b => exact absurd rfl (he p b)
    | _ => exact allServed_nil

/-- A request is the one call that can come without an active client. -/
lemma served_iff_requestsInTime (e : Entry) :
    (∀ x ∈ n.publishCalls e, x.Dereferences → x.node.activeClient ≠ none) ↔
      n.RequestsInTime e := by
  by_cases he : ∃ p b, e = .call (.requestPublish p b)
  swap
  · simp only [not_exists] at he
    refine iff_of_true (fun x hx _ => publishCalls_served he x hx) fun p b hreq => ?_
    exact absurd hreq (he p b)
  obtain ⟨p, b, rfl⟩ := he
  constructor
  · intro hcalls q c he howns hnone
    cases he
    have hcall : (⟨n, p, b⟩ : PublishCall) ∈ n.publishCalls (.call (.requestPublish p b)) := by
      simp [publishCalls, howns]
    have hidle : ¬(b = true ∨ (n.pub p).cur.canPublish = true) := fun hd => hcalls _ hcall hd hnone
    simpa using hidle
  · intro htime x hx hd hnone
    simp only [publishCalls] at hx
    split at hx
    · next howns =>
      rw [List.mem_singleton] at hx
      subst hx
      obtain ⟨hb, hc⟩ := htime p b rfl howns hnone
      exact hd.elim (by simp [hb]) (by simp [hc])
    · cases hx

/-- Such a request is left at the first test of `publish`. -/
lemma RequestsInTime.unchanged {p : PubId} {b : Bool}
    (h : n.RequestsInTime (.call (.requestPublish p b))) (hnone : n.activeClient = none) :
    n.enter (.call (.requestPublish p b)) = n := by
  rw [enter, step]
  split
  · rfl
  rw [handle, requestPublish]
  split
  · next howns =>
    obtain ⟨hb, hc⟩ := h p b rfl howns hnone
    exact publish_of_not_due (by simp [hb, hc])
  · rfl

/-- An entry publishes safely just if it is no request that comes too early. -/
lemma publishesSafely_entry (e : Entry) : n.PublishesSafely e ↔ n.RequestsInTime e := by
  rw [PublishesSafely, served_iff_requestsInTime, and_iff_left_iff_imp]
  rintro h p b rfl hnone
  rw [h.unchanged hnone]

end Requests

/-- **Nothing is published without an active client** in a run just if no request of it comes
without one, unless it has nothing to publish. -/
theorem publishesSafely_iff (s : NodeSetup) (es : List Entry) :
    Each enter (fun n e => n.faulted = false → n.PublishesSafely e) (create s) es ↔
      Each enter (fun n e => n.faulted = false → n.RequestsInTime e) (create s) es := by
  refine ⟨Each.mono fun n e h hf => ?_, Each.mono fun n e h hf => ?_⟩
  · exact (publishesSafely_entry e).mp (h hf)
  · exact (publishesSafely_entry e).mpr (h hf)

/-- A birth is requested before there is an active client. -/
theorem earlyRequest_not_publishesSafely :
    ¬Each enter (fun n e => n.faulted = false → n.PublishesSafely e)
      (create (.plain .pahoSync)) [.call (.requestPublish .node true)] := by
  intro h
  obtain ⟨hcalls, -⟩ := h.1 rfl
  exact hcalls ⟨create (.plain .pahoSync), .node, true⟩ (.head _) (.inl rfl) rfl

end Node

end Sparkplug
