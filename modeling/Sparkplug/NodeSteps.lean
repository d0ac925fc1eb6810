import Sparkplug.Node
import Sparkplug.Ledger

/-!
What the operations of a node do, field by field, and the rules by which a property that
the elementary operations keep is kept by the others.
-/

namespace Sparkplug

open Machine

/-- What the node has a client do, but for activating it and passing it a request. -/
def ClientCall.isRoutine : ClientCall → Bool
  | .configure _ | .deactivate | .disconnect | .execute => true
  | .activate | .request _ | .library _ => false

/-- What the application and the timer do to a publishable. -/
def PublishableCall.isOutside : PublishableCall → Bool
  | .setValue .. | .setProperty .. | .update _ => true
  | .publishing | .published | .addToPayload .. => false

/-- The actions that neither publish nor process an event nor are a library's. -/
def NodeCall.isRoutine : NodeCall → Bool
  | .processEvent | .poll .. | .requestPublish .. | .library .. => false
  | _ => true

namespace Node

/-! ### Calls to publishables -/

section CallPub

variable (n : Node) (p : PubId) (a : PublishableCall)

@[simp] lemma callPub_pub (q : PubId) :
    (n.callPub p a).pub q = if q = p then (n.pub p).act a else n.pub q := rfl

@[simp] lemma callPub_client : (n.callPub p a).client = n.client := rfl

@[simp] lemma callPub_activeClient : (n.callPub p a).activeClient = n.activeClient := rfl

end CallPub

/-! ### Calls to clients -/

/-- What an operation of client `i` logs. -/
def clientEffects (n : Node) (i : ClientId) (a : ClientCall) : List Effect :=
  Ledger.effects (n.client i).cur ((n.client i).cur.step a)

/-- The calls of `addToPayload` for `p` among some effects. -/
def payloadCalls (time : ℕ) (p : PubId) (l : List Effect) : List PublishableCall :=
  l.filterMap fun
    | .addToPayload q isBirth => if q = p then some (.addToPayload isBirth time) else none
    | _ => none

/-- A node with a client's effects absorbed, in one piece. -/
def absorbed (n : Node) (i : ClientId) (l : List Effect) : Node :=
  { n with
    eventQueue := n.eventQueue ++ (l.filterMap Effect.raised).map fun e => (i, e)
    pub := fun p => (payloadCalls n.time p l).foldl Traced.act (n.pub p) }

lemma absorb_foldl (n : Node) (i : ClientId) (l : List Effect) :
    l.foldl (absorb · i ·) n = n.absorbed i l := by
  induction l generalizing n with
  | nil => simp [absorbed, payloadCalls]
  | cons e l ih =>
    rw [List.foldl_cons, ih]
    cases e with
    | addToPayload p isBirth =>
      simp only [absorb, absorbed, callPub]
      congr 1
      funext q
      by_cases hq : q = p <;> simp [payloadCalls, hq, eq_comm]
    | _ => simp [absorb, absorbed, payloadCalls, Effect.raised, List.filterMap_cons]

lemma callClient_eq (n : Node) (i : ClientId) (a : ClientCall) : n.callClient i a =
    { n with client := fun j => if j = i then (n.client i).act a else n.client j }.absorbed i
      (n.clientEffects i a) := by
  unfold callClient
  rw [absorb_foldl]
  rfl

section CallClient

variable (n : Node) (i : ClientId) (a : ClientCall)

@[simp] lemma callClient_client (j : ClientId) :
    (n.callClient i a).client j = if j = i then (n.client i).act a else n.client j := by
  rw [callClient_eq]; rfl

lemma callClient_eventQueue : (n.callClient i a).eventQueue =
    n.eventQueue ++ ((n.clientEffects i a).filterMap Effect.raised).map fun e => (i, e) := by
  rw [callClient_eq]; rfl

lemma callClient_pub (p : PubId) : (n.callClient i a).pub p =
    (payloadCalls n.time p (n.clientEffects i a)).foldl Traced.act (n.pub p) := by
  rw [callClient_eq]; rfl

@[simp] lemma callClient_activeClient : (n.callClient i a).activeClient = n.activeClient := by
  rw [callClient_eq]; rfl

@[simp] lemma callClient_faulted : (n.callClient i a).faulted = n.faulted := by
  rw [callClient_eq]; rfl

@[simp] lemma callClient_hostStates : (n.callClient i a).hostStates = n.hostStates := by
  rw [callClient_eq]; rfl

@[simp] lemma callClient_hostMode : (n.callClient i a).hostMode = n.hostMode := by
  rw [callClient_eq]; rfl

@[simp] lemma callClient_clientTopics : (n.callClient i a).clientTopics = n.clientTopics := by
  rw [callClient_eq]; rfl

@[simp] lemma callClient_born : (n.callClient i a).born = n.born := by
  rw [callClient_eq]; rfl

end CallClient

/-! ### Publishing -/

@[simp] lemma noteBirth_pub (n : Node) (p : PubId) (b : Bool) : (n.noteBirth p b).pub = n.pub := by
  cases p <;> cases b <;> rfl

/-- Everything is ready for a request of `p`. -/
def prepared (n : Node) (p : PubId) (b : Bool) : Node :=
  { n.callPub p .publishing with nextRequest := n.nextRequest + 1 }.noteBirth p b

def requestFor (n : Node) (p : PubId) (b : Bool) : PublishRequest where
  id := n.nextRequest
  isBirth := b
  publisher := p
  topic := (n.callPub p .publishing).topic p b

section Prepared

variable (n : Node) (p : PubId) (b : Bool)

@[simp] lemma prepared_pub : (n.prepared p b).pub = (n.callPub p .publishing).pub :=
  noteBirth_pub _ p b

@[simp] lemma prepared_client : (n.prepared p b).client = n.client := by
  cases p <;> cases b <;> rfl

@[simp] lemma prepared_eventQueue : (n.prepared p b).eventQueue = n.eventQueue := by
  cases p <;> cases b <;> rfl

@[simp] lemma prepared_faulted : (n.prepared p b).faulted = n.faulted := by
  cases p <;> cases b <;> rfl

@[simp] lemma prepared_activeClient : (n.prepared p b).activeClient = n.activeClient := by
  cases p <;> cases b <;> rfl

@[simp] lemma prepared_hostStates : (n.prepared p b).hostStates = n.hostStates := by
  cases p <;> cases b <;> rfl

@[simp] lemma prepared_hostMode : (n.prepared p b).hostMode = n.hostMode := by
  cases p <;> cases b <;> rfl

@[simp] lemma prepared_clientTopics : (n.prepared p b).clientTopics = n.clientTopics := by
  cases p <;> cases b <;> rfl

end Prepared

/-- A request of `p` has been passed to client `i`. -/
def requested (n : Node) (p : PubId) (b : Bool) (i : ClientId) : Node :=
  (n.prepared p b).callClient i (.request (n.requestFor p b))

/-- There is nothing to publish, or nobody to publish it, or a request is passed on. -/
lemma publish_cases (n : Node) (p : PubId) (b : Bool) :
    (n.publish p b = n ∧ b = false ∧ (n.pub p).cur.canPublish = false) ∨
    (n.publish p b = { n.callPub p .publishing with faulted := true } ∧ n.activeClient = none) ∨
    ∃ i, n.activeClient = some i ∧ n.publish p b = n.requested p b i := by
  unfold publish
  split
  · next hc =>
    simp only [Bool.and_eq_true, Bool.not_eq_true'] at hc
    exact .inl ⟨rfl, hc.2, hc.1⟩
  · cases ha : n.activeClient with
    | none => exact .inr (.inl ⟨by simp [ha], rfl⟩)
    | some i =>
      refine .inr (.inr ⟨i, rfl, ?_⟩)
      simp only [callPub_activeClient, ha, requested, prepared]
      rfl

lemma publish_of_not_due {n : Node} {p : PubId} {b : Bool}
    (h : ¬(b = true ∨ (n.pub p).cur.canPublish = true)) : n.publish p b = n := by
  unfold publish
  rw [if_pos (by simpa [and_comm] using h)]

section Rules

variable {P : Node → Prop}

/-- The births of the devices, after the birth of the node. -/
lemma deviceBirths_kept (h : ∀ n p, P n → P (n.publish p true)) {n : Node}
    (hn : P (n.publish .node true)) : P n.publishBirth := by
  have hfold : ∀ (ds : List ℕ) (m : Node), P m →
      P (ds.foldl (fun n d => n.publish (.device d) true) m) := by
    intro ds
    induction ds with
    | nil => exact fun m hm => hm
    | cons d ds ih => exact fun m hm => ih _ (h m _ hm)
  exact hfold _ _ hn

lemma publishBirth_kept (h : ∀ n p, P n → P (n.publish p true)) {n : Node} (hn : P n) :
    P n.publishBirth :=
  deviceBirths_kept h (h n _ hn)

lemma onCommand_kept (h : ∀ n p, P n → P (n.publish p true)) {n : Node} (hn : P n)
    (m : Metric) (c : CommandMetric) : P (n.onCommand m c) := by
  unfold onCommand
  split
  · exact publishBirth_kept h hn
  · exact hn

lemma commandMetric_kept (h : ∀ n p, P n → P (n.publish p true))
    (hfault : ∀ n : Node, P n → P { n with faulted := true }) {n : Node} (hn : P n)
    (p : PubId) (c : CommandMetric) : P (n.commandMetric p c) := by
  unfold commandMetric
  split
  · split
    · exact hn
    · exact hfault n hn
  · split
    · exact onCommand_kept h hn _ c
    · exact hn

lemma commandMetrics_kept (h : ∀ n p, P n → P (n.publish p true))
    (hfault : ∀ n : Node, P n → P { n with faulted := true }) (p : PubId)
    (cs : List CommandMetric) {n : Node} (hn : P n) : P (cs.foldl (commandMetric · p ·) n) := by
  induction cs generalizing n with
  | nil => exact hn
  | cons c cs ih => exact ih (commandMetric_kept h hfault hn p c)

lemma handleCommand_kept (h : ∀ n p, P n → P (n.publish p true))
    (hfault : ∀ n : Node, P n → P { n with faulted := true }) {n : Node} (hn : P n)
    (p : PubId) (payload : Str) : P (n.handleCommand p payload) := by
  unfold handleCommand
  split
  · exact hn
  · exact commandMetrics_kept h hfault p _ hn

lemma onCommandMessage_kept (h : ∀ n p, P n → P (n.publish p true))
    (hfault : ∀ n : Node, P n → P { n with faulted := true }) {n : Node} (hn : P n)
    (i : ClientId) (topic payload : Str) : P (n.onCommandMessage i topic payload) := by
  unfold onCommandMessage
  repeat' split
  all_goals first | exact hn | exact handleCommand_kept h hfault hn _ _

/-- A property that what happens outside the clients keeps, and their configuration. -/
structure Base (P : Node → Prop) : Prop where
  configure : ∀ n i topics, P n → P (n.callClient i (.configure topics))
  pub : ∀ n p a, a.isOutside = true → P n → P (n.callPub p a)
  free : ∀ (n : Node) clients devices enabled time,
    P n → P { n with clients, devices, enabled, time }

/-- A property that the operations keep that neither publish nor activate a client. -/
structure Quiet (P : Node → Prop) : Prop where
  client : ∀ n i a, a.isRoutine = true → P n → P (n.callClient i a)
  pub : ∀ n p a, a ≠ .publishing → a ≠ .published → P n → P (n.callPub p a)
  free : ∀ (n : Node) clients devices enabled time,
    P n → P { n with clients, devices, enabled, time }

lemma Quiet.base (h : Quiet P) : Base P where
  configure n i _ := h.client n i _ rfl
  pub n p a ha := h.pub n p a (by rintro rfl; cases ha) (by rintro rfl; cases ha)
  free := h.free

/-- A property that the elementary operations keep. -/
structure Kept (P : Node → Prop) : Prop where
  publish : ∀ n p b, P n → P (n.publish p b)
  client : ∀ n i a, a ≠ .activate → (∀ r, a ≠ .request r) → P n → P (n.callClient i a)
  pub : ∀ n p a, a ≠ .publishing → a ≠ .published → P n → P (n.callPub p a)
  free : ∀ (n : Node) clients devices enabled time,
    P n → P { n with clients, devices, enabled, time }

lemma Kept.quiet (h : Kept P) : Quiet P where
  client n i a ha := by
    refine h.client n i a ?_ fun r => ?_ <;> rintro rfl <;> cases ha
  pub := h.pub
  free := h.free

/-- A property that what the node does of its own accord keeps, but for the reports. -/
structure OwnKept (P : Node → Prop) : Prop extends Base P where
  publish : ∀ n p b, P n → P (n.publish p b)
  deactivate : ∀ n i, P n → P (n.callClient i .deactivate)
  disconnect : ∀ n i, P n → P (n.callClient i .disconnect)
  pop : ∀ (n : Node) i e rest, n.eventQueue = (i, e) :: rest → e.isReport = false →
    P n → P { n with eventQueue := rest }
  activate : ∀ n i, P n → P (n.callClient i .activate)
  hostStates : ∀ (n : Node) h, P n → P { n with hostStates := h }
  activeClient : ∀ (n : Node) c, P n → P { n with activeClient := c }
  fault : ∀ n : Node, P n → P { n with faulted := true }

/-- A property that the handling of an event keeps, but for the reports. -/
structure HandleKept (P : Node → Prop) : Prop where
  publish : ∀ n p b, P n → P (n.publish p b)
  deactivate : ∀ n i, P n → P (n.callClient i .deactivate)
  activate : ∀ n i, P n → P (n.callClient i .activate)
  hostStates : ∀ (n : Node) h, P n → P { n with hostStates := h }
  activeClient : ∀ (n : Node) c, P n → P { n with activeClient := c }
  fault : ∀ n : Node, P n → P { n with faulted := true }

lemma OwnKept.handled (h : OwnKept P) : HandleKept P where
  publish := h.publish
  deactivate := h.deactivate
  activate := h.activate
  hostStates := h.hostStates
  activeClient := h.activeClient
  fault := h.fault

/-- A property that is kept by the other operations on events as well, but for the reports. -/
structure EventKept (P : Node → Prop) : Prop extends Kept P where
  pop : ∀ (n : Node) i e rest, n.eventQueue = (i, e) :: rest → e.isReport = false →
    P n → P { n with eventQueue := rest }
  activate : ∀ n i, P n → P (n.callClient i .activate)
  hostStates : ∀ (n : Node) h, P n → P { n with hostStates := h }
  activeClient : ∀ (n : Node) c, P n → P { n with activeClient := c }
  fault : ∀ n : Node, P n → P { n with faulted := true }

lemma EventKept.own (h : EventKept P) : OwnKept P where
  toBase := h.quiet.base
  publish := h.publish
  deactivate n i := h.quiet.client n i _ rfl
  disconnect n i := h.quiet.client n i _ rfl
  pop := h.pop
  activate := h.activate
  hostStates := h.hostStates
  activeClient := h.activeClient
  fault := h.fault

lemma poll_kept (h : ∀ n p b, P n → P (n.publish p b))
    (hbase : Base P) {n : Node} (hn : P n) (p : PubId) (elapsed : ℤ) : P (n.poll p elapsed) := by
  have hu := hbase.pub n p (.update elapsed) rfl hn
  simp only [poll]
  repeat' split
  · exact h _ _ _ hu
  · exact hu
  · exact hn

lemma requestPublish_kept (h : ∀ n p b, P n → P (n.publish p b)) {n : Node} (hn : P n)
    (p : PubId) (b : Bool) : P (n.requestPublish p b) := by
  unfold requestPublish
  split
  · exact h n p b hn
  · exact hn

/-- What the configuration of each of these clients keeps, the loop of `enable` keeps. -/
lemma configureClients_kept {is : List ClientId}
    (h : ∀ n, ∀ i ∈ is, P n → P (n.callClient i (.configure n.clientTopics))) {n : Node}
    (hn : P n) : P (n.configureClients is).2 := by
  induction is generalizing n with
  | nil => exact hn
  | cons i is ih =>
    have hi := h n i List.mem_cons_self hn
    unfold configureClients
    split
    · exact ih (fun m j hj => h m j (List.mem_cons_of_mem i hj)) hi
    · exact hi

/-- The rule for the actions that neither publish nor process an event nor are a library's,
with the execution and the end of a client apart. -/
lemma handle_base (h : Base P) {n : Node} (hn : P n) {a : NodeCall} (ha : a.isRoutine = true)
    (hexec : ∀ i, a = .executeClient i → P (n.callClient i .execute))
    (hstop : ∀ i, a = .stopClient i → i ∈ n.clients → P (n.stopClient i)) : P (n.handle a) := by
  cases a with
  | addClient => exact h.free n _ _ _ _ hn
  | addDevice d => exact h.free n _ _ _ _ hn
  | enable =>
    simp only [handle, enable]
    have hc : P (n.configureClients n.clients).2 :=
      configureClients_kept (fun m i _ => h.configure m i _) hn
    repeat' split
    · exact hn
    · exact hn
    · exact h.free _ _ _ _ _ hc
    · exact hc
  | executeClient i =>
    simp only [handle]
    split
    · exact hexec i rfl
    · exact hn
  | setValue p k value => exact h.pub n p _ rfl hn
  | setProperty p k path value => exact h.pub n p _ rfl hn
  | update p elapsed => exact h.pub n p _ rfl hn
  | stopClient i =>
    simp only [handle]
    split
    · next hi => exact hstop i rfl hi
    · exact hn
  | setTime t => exact h.free n _ _ _ _ hn
  | processEvent | poll | requestPublish | library => cases ha

/-- The same for a property that the other operations of clients keep. -/
lemma handle_quiet (h : Quiet P) {n : Node} (hn : P n) {a : NodeCall} (ha : a.isRoutine = true) :
    P (n.handle a) :=
  handle_base h.base hn ha (fun i _ => h.client n i _ rfl hn)
    fun i _ _ => h.client _ i _ rfl (h.client n i _ rfl hn)

/-- The rule for every action but the processing of an event. -/
lemma handle_kept (h : Kept P) {n : Node} (hn : P n) {a : NodeCall} (ha : a ≠ .processEvent) :
    P (n.handle a) := by
  cases a with
  | processEvent => exact absurd rfl ha
  | poll p elapsed => exact poll_kept h.publish h.quiet.base hn p elapsed
  | requestPublish p b => exact requestPublish_kept h.publish hn p b
  | library i l =>
    simp only [handle]
    split
    · exact h.client n i _ (by simp) (by simp) hn
    · exact hn
  | _ => exact handle_quiet h.quiet hn rfl

lemma setActiveClient_kept (h : HandleKept P) {n : Node} (hn : P n) (c : Option ClientId) :
    P (n.setActiveClient c) := by
  have hactive : ∀ m, P m → P (if c.isSome then { m with activeClient := c }.publishBirth
      else { m with activeClient := c }) := by
    intro m hm
    have hc : P { m with activeClient := c } := h.activeClient _ _ hm
    split
    · exact publishBirth_kept (fun n p => h.publish n p true) hc
    · exact hc
  cases ha : n.activeClient with
  | none => simpa only [setActiveClient, ha] using hactive n hn
  | some old =>
    by_cases hold : c = some old
    · simpa only [setActiveClient, ha, hold, ne_eq, not_true, if_false] using hactive n hn
    · have hd := hactive _ (h.deactivate n old hn)
      simpa only [setActiveClient, ha, hold, ne_eq, not_false_eq_true, if_true] using hd

lemma deactivateClient_kept (h : HandleKept P) {n : Node} (hn : P n) (i : ClientId) :
    P (n.deactivateClient i) := by
  unfold deactivateClient
  split
  · exact setActiveClient_kept h hn _
  · exact hn

lemma noteHost_kept (h : HandleKept P) {n : Node} (hn : P n) (i : ClientId)
    (topic payload : Str) : P (n.noteHost i topic payload) := by
  unfold noteHost
  split
  · exact h.hostStates _ _ hn
  · exact hn

lemma onHostState_kept (h : HandleKept P) {n : Node} (hn : P n) (i : ClientId)
    (topic payload : Str) : P (n.onHostState i topic payload) := by
  unfold onHostState
  repeat' split
  · exact h.activate _ _ hn
  · exact hn
  · exact deactivateClient_kept h hn i
  all_goals exact hn

lemma onMessage_kept (h : HandleKept P) {n : Node} (hn : P n) (i : ClientId)
    (topic payload : Str) : P (n.onMessage i topic payload) := by
  have hnote := noteHost_kept h hn i topic payload
  simp only [onMessage]
  split
  · exact hnote
  · have hcmd := onCommandMessage_kept (fun n p => h.publish n p true) h.fault hnote i topic payload
    exact onHostState_kept h hcmd i _ _

/-- The rule for the processing of an event that is not a report. -/
lemma handleEvent_kept (h : HandleKept P) {n : Node} (hn : P n) (i : ClientId) {e : ClientEvent}
    (he : e.isReport = false) : P (n.handleEvent i e) := by
  cases e with
  | message topic payload => exact onMessage_kept h hn i topic payload
  | connected =>
    simp only [handleEvent]
    split
    · exact h.activate _ _ (h.hostStates _ _ hn)
    · exact h.hostStates _ _ hn
  | disconnected => exact deactivateClient_kept h (h.hostStates _ _ hn) i
  | active => exact setActiveClient_kept h hn (some i)
  | deactive => exact hn
  | delivered p => cases he
  | undelivered p => cases he

/-- A property of what a node is built from: what changes while an event is handled has no
part in it. -/
structure Unmoved (P : Node → Prop) : Prop where
  free : ∀ (n : Node) client pub eventQueue nextRequest activeClient hostStates born faulted, P n →
    P { n with client, pub, eventQueue, nextRequest, activeClient, hostStates, born, faulted }

lemma Unmoved.callClient (h : Unmoved P) {n : Node} (hn : P n) (i : ClientId) (a : ClientCall) :
    P (n.callClient i a) := by
  rw [callClient_eq]
  exact h.free n _ _ _ _ _ _ _ _ hn

lemma Unmoved.publish (h : Unmoved P) {n : Node} (hn : P n) (p : PubId) (b : Bool) :
    P (n.publish p b) := by
  have hprepared : P (n.prepared p b) := by
    cases p <;> cases b <;> exact h.free n _ _ _ _ _ _ _ _ hn
  rcases publish_cases n p b with ⟨e, -⟩ | ⟨e, -⟩ | ⟨i, -, e⟩
  · rwa [e]
  · rw [e]
    exact h.free n _ _ _ _ _ _ _ _ hn
  · rw [e, requested]
    exact h.callClient hprepared i _

lemma Unmoved.handled (h : Unmoved P) : HandleKept P where
  publish _ p b hn := h.publish hn p b
  deactivate _ i hn := h.callClient hn i _
  activate _ i hn := h.callClient hn i _
  hostStates n _ hn := h.free n _ _ _ _ _ _ _ _ hn
  activeClient n _ hn := h.free n _ _ _ _ _ _ _ _ hn
  fault n hn := h.free n _ _ _ _ _ _ _ _ hn

/-- Whatever event is processed keeps such a property. -/
lemma Unmoved.processEvent (h : Unmoved P) {n : Node} (hn : P n) : P n.processEvent := by
  unfold Node.processEvent
  split
  · exact hn
  next i e rest hq =>
  have hpop : P { n with eventQueue := rest } := h.free n _ _ _ _ _ _ _ _ hn
  cases e with
  | delivered p | undelivered p => exact h.free _ _ _ _ _ _ _ _ _ hpop
  | _ => exact handleEvent_kept h.handled hpop i rfl

/-- The publishable a report is for. -/
def reportOf : ClientEvent → Option PubId
  | .delivered p | .undelivered p => some p
  | _ => none

/-- **The rule for the actions of a node**: publishing and what happens outside the clients
keep the property, and for this action so do the execution and the end of a client, a
library's call and the processing of an event. -/
theorem step_of (h : Base P) (hpublish : ∀ n p b, P n → P (n.publish p b)) {n : Node} (hn : P n)
    (a : NodeCall) (hexec : ∀ i, a = .executeClient i → P (n.callClient i .execute))
    (hstop : ∀ i, a = .stopClient i → i ∈ n.clients → P (n.stopClient i))
    (hlib : ∀ i l, a = .library i l → i ∈ n.clients → P (n.callClient i (.library l)))
    (hevent : ∀ i e rest, a = .processEvent → n.eventQueue = (i, e) :: rest →
      P ({ n with eventQueue := rest }.handleEvent i e)) : P (n.step a) := by
  unfold step
  split
  · exact hn
  cases a with
  | poll p elapsed => exact poll_kept hpublish h hn p elapsed
  | requestPublish p b => exact requestPublish_kept hpublish hn p b
  | library i l =>
    simp only [handle]
    split
    · next hi => exact hlib i l rfl hi
    · exact hn
  | processEvent =>
    simp only [handle, processEvent]
    split
    · exact hn
    · next i e rest hq => exact hevent i e rest rfl hq
  | _ => exact handle_base h hn rfl hexec hstop

/-- The rule when what the node does of its own accord keeps the property, and the processing
of a report is apart. -/
theorem step_own (h : OwnKept P) {n : Node} (hn : P n) (a : NodeCall)
    (hexec : ∀ i, a = .executeClient i → P (n.callClient i .execute))
    (hlib : ∀ i l, a = .library i l → P (n.callClient i (.library l)))
    (hrep : ∀ i e rest p, a = .processEvent → n.eventQueue = (i, e) :: rest → reportOf e = some p →
      P ({ n with eventQueue := rest }.callPub p .published)) : P (n.step a) := by
  refine step_of h.toBase h.publish hn a hexec
    (fun i _ _ => h.disconnect _ i (h.deactivate n i hn)) (fun i l ha _ => hlib i l ha)
    fun i e rest ha hq => ?_
  cases hr : reportOf e with
  | some p =>
    have := hrep i e rest p ha hq hr
    cases e <;> simp_all [reportOf, handleEvent]
  | none =>
    have he : e.isReport = false := by cases e <;> simp_all [reportOf, ClientEvent.isReport]
    exact handleEvent_kept h.handled (h.pop n i e rest hq he hn) i he

/-- The rule when only the processing of a report is apart. -/
theorem step_kept (h : EventKept P) {n : Node} (hn : P n) (a : NodeCall)
    (hrep : ∀ i e rest p, a = .processEvent → n.eventQueue = (i, e) :: rest → reportOf e = some p →
      P ({ n with eventQueue := rest }.callPub p .published)) : P (n.step a) :=
  step_own h.own hn a (fun i _ => h.client n i _ (by simp) (by simp) hn)
    (fun i l _ => h.client n i _ (by simp) (by simp) hn) hrep

/-! ### Properties of the clients and publishables alone -/

/-- A property of the clients and the publishables that any call to one of them keeps. -/
structure Stable (P : Node → Prop) : Prop where
  client : ∀ n i a, P n → P (n.callClient i a)
  pub : ∀ n p a, P n → P (n.callPub p a)
  free : ∀ {n m : Node}, P n → m.client = n.client → m.pub = n.pub → P m

lemma Stable.eventKept (h : Stable P) : EventKept P where
  publish n p b hn := by
    have hp := h.pub n p .publishing hn
    rcases publish_cases n p b with ⟨e, -⟩ | ⟨e, -⟩ | ⟨i, -, e⟩
    · rwa [e]
    · rw [e]
      exact h.free hp rfl rfl
    · rw [e, requested]
      exact h.client _ _ _ (h.free hp (by simp) (by simp))
  client n i a _ _ := h.client n i a
  pub n p a _ _ := h.pub n p a
  free _ _ _ _ _ hn := h.free hn rfl rfl
  pop _ _ _ _ _ _ hn := h.free hn rfl rfl
  activate n i := h.client n i _
  hostStates _ _ hn := h.free hn rfl rfl
  activeClient _ _ hn := h.free hn rfl rfl
  fault _ hn := h.free hn rfl rfl

/-- Such a property holds in every run that starts with it. -/
theorem Stable.reached (h : Stable P) {n : Node} (hn : P n) (calls : List NodeCall) :
    P (run step n calls) := by
  refine run_invariant (P := P) (fun n a hn => step_kept h.eventKept hn a ?_) hn calls
  exact fun _ _ _ _ _ _ _ => h.pub _ _ _ (h.free hn rfl rfl)

end Rules

lemma clientInit_stable (x : ClientId → Client) :
    Stable fun n => ∀ i, (n.client i).init = x i where
  client n i a hn j := by
    rw [callClient_client]
    split
    · next h => rw [Traced.act_init, hn i, h]
    · exact hn j
  pub n p a hn := hn
  free hn hc _ i := hc ▸ hn i

/-- What was done to a client began with a new client. -/
lemma client_init (n : Node) (calls : List NodeCall) (i : ClientId) :
    ((run step n calls).client i).init = (n.client i).init :=
  (clientInit_stable fun i => (n.client i).init).reached (fun _ => rfl) calls i

lemma foldl_act_init (t : Traced Publishable.step) (as : List PublishableCall) :
    (as.foldl Traced.act t).init = t.init := by
  induction as generalizing t with
  | nil => rfl
  | cons a as ih => rw [List.foldl_cons, ih, Traced.act_init]

lemma foldl_act_cur (t : Traced Publishable.step) (as : List PublishableCall) :
    (as.foldl Traced.act t).cur = run Publishable.step t.cur as := by
  induction as generalizing t with
  | nil => rfl
  | cons a as ih => rw [List.foldl_cons, ih, Traced.act_cur, run_cons]

lemma pubInit_stable (x : PubId → Publishable) : Stable fun n => ∀ p, (n.pub p).init = x p where
  client n i a hn p := by rw [callClient_pub, foldl_act_init, hn p]
  pub n p a hn q := by
    rw [callPub_pub]
    split
    · next h => rw [Traced.act_init, hn p, h]
    · exact hn q
  free hn _ hp p := hp ▸ hn p

/-- What was done to a publishable began with a new publishable. -/
lemma pub_init (n : Node) (calls : List NodeCall) (p : PubId) :
    ((run step n calls).pub p).init = (n.pub p).init :=
  (pubInit_stable fun p => (n.pub p).init).reached (fun _ => rfl) calls p

lemma pubExtends_stable (x : PubId → Publishable) :
    Stable fun n => ∀ p, ∃ as, (n.pub p).cur = run Publishable.step (x p) as where
  client n i a hn p := by
    obtain ⟨as, has⟩ := hn p
    exact ⟨as ++ _, by rw [callClient_pub, foldl_act_cur, has, run_append]⟩
  pub n p a hn q := by
    obtain ⟨as, has⟩ := hn q
    rw [callPub_pub]
    split
    · next h => exact ⟨as ++ [a], by rw [Traced.act_cur, run_snoc, ← has, h]⟩
    · exact ⟨as, has⟩
  free hn _ hp p := hp ▸ hn p

/-- What happens to a publishable in a run of the node is a run of the publishable. -/
lemma pub_extends (n : Node) (calls : List NodeCall) (p : PubId) :
    ∃ as, ((run step n calls).pub p).cur = run Publishable.step (n.pub p).cur as :=
  (pubExtends_stable fun p => (n.pub p).cur).reached (fun _ => ⟨[], rfl⟩) calls p

end Node

end Sparkplug
