import Sparkplug.Pipeline
import Sparkplug.Schedule
import Sparkplug.Commands
import Sparkplug.Routing

/-!
Which requests a node makes, and of which client.

A client that becomes the active one is asked for the births of the node and all its devices, and
again for every rebirth in a command that it passes on. Data is asked for when it is due, and
anything else by the application. The requests a client has been passed in a run are those that
the actions ask for, in order, and there are no others.
-/

namespace Sparkplug

open Machine Client Channels

namespace Node

/-! ### What is asked for -/

/-- The births of the node and its devices. -/
def births (n : Node) : List (PubId × Bool) := n.publishables.map fun p => (p, true)

/-- A metric in a command that asks for a rebirth, for a publishable with the given metrics. -/
def asksRebirth (ms : List Metric) (c : CommandMetric) : Bool :=
  c.booleanValue && (c.name.bind fun name => ms.find? fun m => m.name = name).any
    fun m => m.callback = some .rebirth

/-- How many rebirths a message asks for. -/
def rebirths (n : Node) (topic payload : Str) : ℕ :=
  (n.recipient topic).elim 0 fun p =>
    (n.decodePayload payload).elim 0 (·.countP (asksRebirth (n.pub p).cur.metrics))

/-- What an event of client `i` asks for. -/
def eventAsks (n : Node) (i : ClientId) : ClientEvent → List (ClientId × PubId × Bool)
  | .active => n.births.map (i, ·)
  | .message topic payload =>
    if n.activeClient = some i then
      (List.replicate (n.rebirths topic payload) n.births).flatten.map (i, ·)
    else []
  | _ => []

/-- What an action asks for, and of whom. -/
def asks (n : Node) (a : NodeCall) : List (ClientId × PubId × Bool) :=
  if n.faulted then []
  else match a with
    | .processEvent => n.eventQueue.head?.elim [] fun x => n.eventAsks x.1 x.2
    | .poll p elapsed =>
      if n.enabled && n.owns p && n.isDue elapsed p then n.activeClient.toList.map (·, p, false)
      else []
    | .requestPublish p b =>
      if n.owns p && (b || (n.pub p).cur.canPublish) then n.activeClient.toList.map (·, p, b)
      else []
    | _ => []

/-- The requests passed to client `j`. -/
def requestsOf (n : Node) (j : ClientId) : List (PubId × Bool) :=
  ((n.client j).hist.filterMap ClientCall.passed).map fun r => (r.publisher, r.isBirth)

/-! ### What is requested -/

section Requests

variable {n : Node} (j : ClientId)

lemma callClient_requestsOf (n : Node) (i : ClientId) (a : ClientCall) :
    (n.callClient i a).requestsOf j = n.requestsOf j ++
      if j = i then a.passed.toList.map fun r => (r.publisher, r.isBirth) else [] :=
  callClient_passed (fun r => (r.publisher, r.isBirth)) n i a j

/-- A call that passes nothing. -/
lemma callClient_requestsOf_none (n : Node) (i : ClientId) {a : ClientCall} (ha : a.passed = none) :
    (n.callClient i a).requestsOf j = n.requestsOf j := by
  rw [callClient_requestsOf, ha]
  simp

lemma prepared_requestsOf (n : Node) (p : PubId) (b : Bool) :
    (n.prepared p b).requestsOf j = n.requestsOf j := by
  rw [requestsOf, prepared_client]
  rfl

/-- **A publish asks the active client**, when there is something to publish. -/
lemma publish_requestsOf (n : Node) (p : PubId) (b : Bool) : (n.publish p b).requestsOf j =
    n.requestsOf j ++ ofSender j (if b || (n.pub p).cur.canPublish then
      n.activeClient.toList.map (·, p, b) else []) := by
  by_cases hdue : (b || (n.pub p).cur.canPublish) = true
  swap
  · rw [publish_of_not_due (by simpa using hdue), if_neg hdue]
    simp
  rw [if_pos hdue]
  rcases publish_cases n p b with ⟨-, hb, hc⟩ | ⟨e, hnone⟩ | ⟨i, hi, e⟩
  · simp [hb, hc] at hdue
  · rw [e, hnone]
    simp [requestsOf]
  · rw [e, requested, callClient_requestsOf, prepared_requestsOf, hi]
    by_cases hj : j = i
    · simp [hj, ofSender_cons, ClientCall.passed, requestFor]
    · simp [hj, ofSender_cons, Ne.symm hj]

/-! ### Births -/

/-- Client `i` is active, and the node has the devices and metrics it had. -/
structure Asking (i : ClientId) (ds : List ℕ) (faces : PubId → List (Str × Option Callback))
    (n : Node) : Prop where
  active : n.activeClient = some i
  devices : n.devices = ds
  faces : ∀ p, (n.pub p).cur.metrics.map Metric.face = faces p

variable {i : ClientId} {ds : List ℕ} {faces : PubId → List (Str × Option Callback)}

lemma Asking.publish (h : Asking i ds faces n) (p : PubId) (b : Bool) :
    Asking i ds faces (n.publish p b) where
  active := (publish_same (.refl n) p b).activeClient.trans h.active
  devices := (devices_unmoved ds).publish h.devices p b
  faces := (faces_stable faces).eventKept.publish n p b h.faces

lemma Asking.publishBirth (h : Asking i ds faces n) : Asking i ds faces n.publishBirth :=
  publishBirth_kept (P := Asking i ds faces) (fun _ p h => h.publish p true) h

/-- Birth after birth is asked for. -/
lemma foldl_publish_requestsOf (h : Asking i ds faces n) (ps : List PubId) :
    (ps.foldl (fun n p => n.publish p true) n).requestsOf j =
      n.requestsOf j ++ if j = i then ps.map fun p => (p, true) else [] := by
  induction ps generalizing n with
  | nil => simp
  | cons p ps ih =>
    rw [List.foldl_cons, ih (h.publish p true), publish_requestsOf, h.active]
    by_cases hj : j = i
    · simp [hj, ofSender_cons]
    · simp [hj, ofSender_cons, Ne.symm hj]

lemma publishBirth_requestsOf (h : n.activeClient = some i) :
    n.publishBirth.requestsOf j = n.requestsOf j ++ if j = i then n.births else [] := by
  have hfold : n.publishBirth = n.publishables.foldl (fun n p => n.publish p true) n := by
    rw [publishables, List.foldl_cons, List.foldl_map]
    rfl
  rw [hfold, foldl_publish_requestsOf j ⟨h, rfl, fun _ => rfl⟩]
  rfl

/-! ### Commands -/

lemma asksRebirth_faces {ms ms' : List Metric} (h : ms.map Metric.face = ms'.map Metric.face)
    (c : CommandMetric) : asksRebirth ms c = asksRebirth ms' c := by
  have hfind : ∀ (l : List Metric) (name : Str),
      (l.find? fun m => m.name = name).any (fun m => m.callback = some .rebirth) =
        ((l.map Metric.face).find? fun f => f.1 = name).any (fun f => f.2 = some .rebirth) := by
    intro l name
    rw [List.find?_map, Option.any_map]
    rfl
  cases hc : c.name with
  | none => simp [asksRebirth, hc]
  | some name => simp [asksRebirth, hc, hfind, h]

/-- One metric of a command is a rebirth, or asks for nothing. -/
lemma commandMetric_requestsOf (h : n.activeClient = some i) (p : PubId) (c : CommandMetric) :
    (n.commandMetric p c).requestsOf j = n.requestsOf j ++
      if j = i ∧ asksRebirth (n.pub p).cur.metrics c = true then n.births else [] := by
  unfold commandMetric
  cases hc : c.name with
  | none =>
    simp only
    split <;> simp [asksRebirth, hc, requestsOf]
  | some name =>
    simp only
    split
    · next m hm =>
      unfold onCommand
      split
      · next hrebirth =>
        rw [publishBirth_requestsOf j h]
        simp [asksRebirth, hc, hm, hrebirth.1, hrebirth.2]
      · next hrebirth =>
        have hnot : asksRebirth (n.pub p).cur.metrics c = false := by
          simp only [asksRebirth, hc, hm, Option.bind_some, Option.any_some]
          simpa [and_comm] using hrebirth
        simp [hnot]
    · next hm => simp [asksRebirth, hc, hm]

lemma Asking.commandMetric (h : Asking i ds faces n) (p : PubId) (c : CommandMetric) :
    Asking i ds faces (n.commandMetric p c) :=
  commandMetric_kept (P := Asking i ds faces) (fun _ q h => h.publish q true)
    (fun _ h => ⟨h.active, h.devices, h.faces⟩) h p c

/-- A command asks for the births as often as a rebirth is among its metrics. -/
lemma foldl_commandMetric_requestsOf (h : Asking i ds faces n) (p : PubId)
    (cs : List CommandMetric) : (cs.foldl (commandMetric · p ·) n).requestsOf j =
      n.requestsOf j ++ if j = i then (List.replicate
        (cs.countP (asksRebirth (n.pub p).cur.metrics)) n.births).flatten else [] := by
  induction cs generalizing n with
  | nil => simp
  | cons c cs ih =>
    have hnext := h.commandMetric p c
    have hasks : asksRebirth ((n.commandMetric p c).pub p).cur.metrics =
        asksRebirth (n.pub p).cur.metrics :=
      funext fun c' => asksRebirth_faces ((hnext.faces p).trans (h.faces p).symm) c'
    have hbirths : (n.commandMetric p c).births = n.births := by
      rw [births, publishables, hnext.devices, births, publishables, h.devices]
    rw [List.foldl_cons, ih hnext, commandMetric_requestsOf j h.active, hasks, hbirths,
      List.countP_cons]
    by_cases hj : j = i
    · cases asksRebirth (n.pub p).cur.metrics c <;>
        simp [hj, List.replicate_succ, List.append_assoc]
    · simp [hj]

lemma handleCommand_requestsOf (h : n.activeClient = some i) (p : PubId) (payload : Str) :
    (n.handleCommand p payload).requestsOf j = n.requestsOf j ++ if j = i then
      (List.replicate ((n.decodePayload payload).elim 0
        (·.countP (asksRebirth (n.pub p).cur.metrics))) n.births).flatten else [] := by
  unfold handleCommand
  cases n.decodePayload payload with
  | none => simp
  | some cs =>
    simp only [Option.elim_some]
    rw [foldl_commandMetric_requestsOf j ⟨h, rfl, fun _ => rfl⟩, List.countP_reverse]

/-! ### Events -/

/-- The old client is asked for nothing, and the new one for the births. -/
lemma setActiveClient_requestsOf (n : Node) (c : Option ClientId) :
    (n.setActiveClient c).requestsOf j =
      n.requestsOf j ++ if c = some j then n.births else [] := by
  have hbase : ∀ m : Node, m.requestsOf j = n.requestsOf j → m.devices = n.devices →
      (if c.isSome then { m with activeClient := c }.publishBirth
        else { m with activeClient := c }).requestsOf j =
      n.requestsOf j ++ if c = some j then n.births else [] := by
    intro m hm hd
    cases c with
    | none => simpa [requestsOf] using hm
    | some i =>
      rw [if_pos (by rfl), publishBirth_requestsOf j rfl]
      have hbirths : ({ m with activeClient := some i } : Node).births = n.births := by
        rw [births, publishables, births, publishables, hd]
      have hsame : ({ m with activeClient := some i } : Node).requestsOf j = n.requestsOf j := hm
      rw [hbirths, hsame]
      simp [eq_comm]
  cases ha : n.activeClient with
  | none => simpa only [setActiveClient, ha] using hbase n rfl rfl
  | some old =>
    by_cases hold : c = some old
    · simpa only [setActiveClient, ha, hold, ne_eq, not_true, if_false] using hbase n rfl rfl
    · have hdevices : (n.callClient old .deactivate).devices = n.devices :=
        (devices_unmoved n.devices).callClient rfl old _
      have hd := hbase _ (callClient_requestsOf_none j n old rfl) hdevices
      simpa only [setActiveClient, ha, hold, ne_eq, not_false_eq_true, if_true] using hd

lemma deactivateClient_requestsOf (n : Node) (i : ClientId) :
    (n.deactivateClient i).requestsOf j = n.requestsOf j := by
  unfold deactivateClient
  split
  · rw [setActiveClient_requestsOf]
    simp
  · rfl

lemma onHostState_requestsOf (n : Node) (i : ClientId) (topic payload : Str) :
    (n.onHostState i topic payload).requestsOf j = n.requestsOf j := by
  unfold onHostState
  repeat' split
  · exact callClient_requestsOf_none j n i rfl
  · rfl
  · exact deactivateClient_requestsOf j n i
  all_goals rfl

lemma onMessage_requestsOf (n : Node) (i : ClientId) (topic payload : Str) :
    (n.onMessage i topic payload).requestsOf j = n.requestsOf j ++
      if n.activeClient = some i ∧ j = i then
        (List.replicate (n.rebirths topic payload) n.births).flatten else [] := by
  obtain ⟨hactive, hleaves, hrecipient⟩ := noteHost_recipient n i topic payload
  have hnote : (n.noteHost i topic payload).requestsOf j = n.requestsOf j ∧
      (n.noteHost i topic payload).births = n.births ∧
      (n.noteHost i topic payload).rebirths topic payload = n.rebirths topic payload := by
    unfold noteHost
    split
    all_goals exact ⟨rfl, rfl, rfl⟩
  have hcommand : ((n.noteHost i topic payload).onCommandMessage i topic payload).requestsOf j =
      n.requestsOf j ++ if n.activeClient = some i ∧ j = i then
        (List.replicate (n.rebirths topic payload) n.births).flatten else [] := by
    rw [← hactive, ← hnote.1, ← hnote.2.1, ← hnote.2.2]
    generalize n.noteHost i topic payload = m
    by_cases ha : m.activeClient = some i
    · rw [onCommandMessage_eq ha, rebirths]
      cases m.recipient topic with
      | none => simp
      | some p => simpa [ha] using handleCommand_requestsOf j ha p payload
    · simp [onCommandMessage, ha]
  simp only [onMessage, hleaves]
  split
  · next hl =>
    rw [hnote.1, rebirths, recipient_of_leavesAtOnce hl]
    simp
  · rw [onHostState_requestsOf, hcommand]

/-- **An event asks for what it is to ask for.** -/
lemma handleEvent_requestsOf (n : Node) (i : ClientId) (e : ClientEvent) :
    (n.handleEvent i e).requestsOf j = n.requestsOf j ++ ofSender j (n.eventAsks i e) := by
  cases e with
  | message topic payload =>
    rw [handleEvent, onMessage_requestsOf, eventAsks]
    by_cases ha : n.activeClient = some i
    · simp only [ha, if_true, ofSender_map, true_and]
    · simp [ha]
  | active =>
    rw [handleEvent, setActiveClient_requestsOf, eventAsks, ofSender_map]
    simp [eq_comm]
  | disconnected =>
    simp only [handleEvent, eventAsks, ofSender_nil, List.append_nil]
    exact deactivateClient_requestsOf j (n.forgetHost i) i
  | connected =>
    simp only [handleEvent, eventAsks, ofSender_nil, List.append_nil]
    split
    · exact callClient_requestsOf_none j (n.forgetHost i) i rfl
    · rfl
  | delivered | undelivered | deactive => simp [handleEvent, eventAsks, requestsOf]

/-! ### Actions -/

/-- A routine action asks for nothing. -/
lemma requestsOf_quiet (x : List (PubId × Bool)) : Quiet fun n => n.requestsOf j = x where
  client n i a ha h := by
    refine (callClient_requestsOf_none j n i ?_).trans h
    cases a <;> first | rfl | cases ha
  pub _ _ _ _ _ h := h
  free _ _ _ _ _ h := h

lemma step_requestsOf (n : Node) (a : NodeCall) :
    (n.step a).requestsOf j = n.requestsOf j ++ ofSender j (n.asks a) := by
  by_cases hf : n.faulted = true
  · simp [step, asks, hf]
  unfold asks
  rw [step, if_neg hf, if_neg hf]
  have hroutine : ∀ b : NodeCall, b.isRoutine = true →
      (n.handle b).requestsOf j = n.requestsOf j ++ ofSender j [] := by
    intro b hb
    rw [ofSender_nil, List.append_nil]
    exact handle_quiet (requestsOf_quiet j (n.requestsOf j)) rfl hb
  cases a with
  | processEvent =>
    cases hq : n.eventQueue with
    | nil => simp [handle, processEvent, hq]
    | cons x rest =>
      simp only [handle, processEvent, hq, List.head?_cons, Option.elim_some]
      exact handleEvent_requestsOf j { n with eventQueue := rest } x.1 x.2
  | poll p elapsed =>
    have htold : (n.callPub p (.update elapsed)).requestsOf j = n.requestsOf j := rfl
    have hdue : ((n.callPub p (.update elapsed)).pub p).cur.canPublish = n.isDue elapsed p := by
      rw [callPub_pub, if_pos rfl]
      rfl
    simp only [handle, poll, hdue]
    by_cases hturn : (n.enabled && n.owns p) = true
    swap
    · have hidle : ¬(n.enabled && n.activeClient.isSome && n.owns p) = true := by
        simp only [Bool.and_eq_true] at hturn ⊢
        exact fun h => hturn ⟨h.1.1, h.2⟩
      rw [if_neg hidle]
      simp [hturn]
    cases hactive : n.activeClient with
    | none => simp
    | some i =>
      simp only [Bool.and_eq_true] at hturn
      by_cases hd : n.isDue elapsed p = true
      · simp only [hturn.1, hturn.2, hd, Option.isSome_some, Bool.and_self, if_true]
        rw [publish_requestsOf, htold, hdue, hd, callPub_activeClient, hactive]
        rfl
      · simp [hturn.1, hturn.2, hd, htold]
  | requestPublish p b =>
    simp only [handle, requestPublish]
    by_cases howns : n.owns p = true
    · rw [if_pos howns, publish_requestsOf, howns, Bool.true_and]
    · simp [howns]
  | library i l =>
    simp only [handle, ofSender_nil, List.append_nil]
    split
    · exact callClient_requestsOf_none j n i rfl
    · rfl
  | _ => exact hroutine _ rfl

/-- **The requests passed to a client** in a run are those that the actions ask it for, in
order. -/
theorem requests_exact (s : NodeSetup) (calls : List NodeCall) (j : ClientId) :
    (run step (create s) calls).requestsOf j =
      ofSender j (outputs step asks (create s) calls) := by
  let Q : Node → List (ClientId × PubId × Bool) → Prop := fun n l =>
    n.requestsOf j = ofSender j l
  have hstep : ∀ n l a, Q n l → Q (step n a) (l ++ asks n a) := fun n l a h => by
    simp only [Q] at h ⊢
    rw [step_requestsOf, h, ofSender_append]
  have hstart : Q (create s) [] := rfl
  simpa only [List.nil_append] using outputs_invariant hstep hstart calls

end Requests

end Node

end Sparkplug
