import Sparkplug.Pipeline
import Sparkplug.Settling
import Sparkplug.Connecting

/-!
The end of a node.

`stop` ends the sessions of all clients, of which it asks the libraries only. An asynchronous
client learns the end of its session from its library, and the node from the client. If nothing
new is asked of the node in the meantime, it comes to rest: in whatever order the clients learn
it, it has no active client in the end, and it knows what has become of every request.
-/

namespace Sparkplug

open Machine

/-- What may still be done to a client that has stopped. -/
def ClientCall.isClosing : ClientCall → Bool
  | .activate | .request _ | .library .onConnect | .library (.onMessage ..) => false
  | _ => true

/-- What may still happen to a node that has stopped: it gets no new client, nothing is published,
no session begins and no message is received. -/
def NodeCall.isClosing : NodeCall → Bool
  | .addClient | .poll .. | .requestPublish .. => false
  | .library _ l => (ClientCall.library l).isClosing
  | _ => true

namespace Client

/-! ### A client that closes -/

/-- From `c` to `d` no event has been raised that makes the node do something new. -/
def RaisesLight (c d : Client) : Prop :=
  ∃ l, d.log = c.log ++ l ∧ ∀ e, .onEvent e ∈ l → e.weight = 0

/-- From `c` to `d` the client has closed, or still does. -/
structure Closes (c d : Client) : Prop where
  isPrimary : d.isPrimary = false
  queue : c.publishQueue = [] → d.publishQueue = []
  raises : RaisesLight c d

section Closes

variable {c d : Client}

lemma raisesLight_of_log (h : d.log = c.log) : RaisesLight c d := ⟨[], by simp [h], by simp⟩

lemma OnlyReports.light (h : OnlyReports c d) : RaisesLight c d := by
  obtain ⟨l, hl, hev⟩ := h
  exact ⟨l, hl, fun e he => absurd he (hev e)⟩

/-- An operation that raises nothing. -/
lemma Closes.of_log (hp : d.isPrimary = false) (hq : d.publishQueue = c.publishQueue)
    (hl : d.log = c.log) : Closes c d :=
  ⟨hp, hq.trans, raisesLight_of_log hl⟩

lemma Closes.of_frame (hp : c.isPrimary = false) (h : Frame c d) (hl : OnlyReports c d) :
    Closes c d :=
  ⟨h.isPrimary.trans hp, h.queue, hl.light⟩

lemma deactivate_closes (c : Client) : Closes c c.deactivate.2 :=
  .of_log (deactivate_isPrimary c) (deactivate_publishQueue c) (deactivate_log c)

lemma disconnect_closes (hk : c.kind ≠ .pahoSync) (hp : c.isPrimary = false) :
    Closes c c.disconnect := by
  have hnot : ¬ClosesNow c := fun h => hk h.1
  exact .of_log ((disconnect_of_not_closesNow hnot).1.trans hp) (disconnect_publishQueue c)
    (disconnect_log c)

/-- The asynchronous clients learn from their library that they are connected. -/
lemma clientConnect_of_async (hk : c.kind ≠ .pahoSync) :
    c.clientConnect.2.isPrimary = c.isPrimary ∧
      c.clientConnect.2.publishQueue = c.publishQueue ∧ c.clientConnect.2.log = c.log := by
  have hp : (c.setState .connecting).isPrimary = c.isPrimary := setState_isPrimary (by simp) c
  cases hkind : c.kind with
  | pahoSync => exact absurd hkind hk
  | pahoAsync =>
    simp only [clientConnect, hkind]
    repeat' split
    all_goals simp [hp]
  | cppMqtt =>
    simp only [clientConnect, hkind]
    split <;> simp

lemma execute_closes (hk : c.kind ≠ .pahoSync) (hp : c.isPrimary = false) :
    Closes c c.execute := by
  unfold execute
  split
  · rw [sync_of_ne (connect_kind c ▸ hk)]
    obtain ⟨hprimary, hqueue, hlog⟩ := connect_of
      (P := fun d => d.isPrimary = false ∧ d.publishQueue = c.publishQueue ∧ d.log = c.log)
      ⟨hp, rfl, rfl⟩
      (fun _ => by
        obtain ⟨hprimary, hqueue, hlog⟩ := clientConnect_of_async hk
        exact ⟨hprimary.trans hp, hqueue, hlog⟩)
      (fun d hd => by simpa [setState_isPrimary] using hd)
    exact .of_log hprimary hqueue hlog
  · rw [sync_of_ne hk]
    exact .of_log hp rfl rfl

lemma onDisconnect_closes (hp : c.isPrimary = false) : Closes c c.onDisconnect := by
  refine ⟨by simp [onDisconnect_isPrimary, hp], fun _ => onDisconnect_publishQueue c, _,
    onDisconnect_log c, ?_⟩
  intro e he
  obtain rfl : e = .disconnected := by simpa using he
  rfl

lemma activated_of_not_primary (hp : c.isPrimary = false) : c.activated = c := by
  simp [activated, hp]

/-- The callbacks of a client that has stopped, but for a new session and a message. -/
lemma handle_closes (hp : c.isPrimary = false) {l : LibraryCall}
    (ha : (ClientCall.library l).isClosing = true) : Closes c (c.handle l) := by
  cases l with
  | answers l | link up | onCommandSubscribeFailure => exact .of_log hp rfl rfl
  | onDelivery token =>
    exact .of_frame hp (onDelivery_frame c token) (onDelivery_onlyReports c token)
  | onDeliveryFailure token =>
    have hfail := onDeliveryFailure_publishes_all (c.calledBack token) token
    exact .of_frame hp ((calledBack_frame c token).trans hfail.frame) hfail.quiet.2
  | onMessage | onConnect => cases ha
  | onDisconnect => exact onDisconnect_closes hp
  | onConnectFailure =>
    have hprimary : (c.setState .disconnected).isPrimary = false := by
      simp [setState_disconnected_isPrimary, hp]
    exact .of_log hprimary (setState_publishQueue c _) (setState_log c _)
  | onCommandSubscription =>
    rw [handle, activated_of_not_primary hp]
    exact .of_log hp rfl rfl
  | onSubscribeResult token reasonCodes =>
    simp only [handle, onSubscribeResult]
    repeat' split
    · rw [activated_of_not_primary (c := { c with commands := some false }) hp]
      exact .of_log hp rfl rfl
    · rw [activated_of_not_primary hp]
      exact .of_log hp rfl rfl
    · exact .of_log hp rfl rfl

/-- **A client that has stopped** stays so, and asks nothing new of the node. -/
lemma step_closes (hk : c.kind ≠ .pahoSync) (hp : c.isPrimary = false) {a : ClientCall}
    (ha : a.isClosing = true) : Closes c (c.step a) := by
  cases a with
  | configure topics =>
    have hframe := configure_frame c topics
    exact ⟨hframe.isPrimary.trans hp, hframe.queue, raisesLight_of_log (configure_log c topics)⟩
  | activate | request => cases ha
  | deactivate => exact deactivate_closes c
  | disconnect => exact disconnect_closes hk hp
  | execute => exact execute_closes hk hp
  | library l =>
    simp only [step, callback]
    split
    · exact handle_closes hp ha
    · exact .of_log hp rfl rfl

end Closes

end Client

namespace Node

/-! ### Stopping -/

/-- `Node::stop`. -/
def stop (n : Node) : Node := n.clients.foldl stopClient n

/-- A node without a fault of whose clients `cs` all have stopped but those in `is`, with nothing
to handle that leads to anything new. -/
structure Stopping (cs is : List ClientId) (n : Node) : Prop where
  faulted : n.faulted = false
  clients : n.clients = cs
  active : ∀ i ∈ n.activeClient, i ∈ cs
  async : ∀ i ∈ cs, (n.client i).cur.kind ≠ .pahoSync
  stopped : ∀ i ∈ cs, i ∉ is → (n.client i).cur.isPrimary = false
  light : ∀ x ∈ n.eventQueue, x.2.weight = 0

/-- The session of client `i` is over: it holds no requests, and is not the active client or is
about to be removed. -/
structure SessionOver (i : ClientId) (n : Node) : Prop where
  empty : (n.client i).cur.publishQueue = []
  unseated : n.activeClient = some i → (i, .disconnected) ∈ n.eventQueue

section Stopping

variable {cs is : List ClientId} {n : Node} {i j : ClientId} {a : ClientCall}

lemma raisedBy_light (h : Client.RaisesLight (n.client i).cur ((n.client i).cur.step a)) :
    ∀ x ∈ n.raisedBy i a, x.2.weight = 0 := by
  obtain ⟨l, hlog, hl⟩ := h
  have heff : n.clientEffects i a = l := Ledger.effects_eq hlog
  rintro ⟨j, e⟩ hx
  obtain ⟨-, f, hf, hr⟩ := mem_raisedBy.mp hx
  rw [heff] at hf
  cases f with
  | onEvent e' =>
    obtain rfl : e' = e := Option.some.inj hr
    exact hl e' hf
  | delivered r | undelivered r =>
    obtain rfl := Option.some.inj hr
    rfl
  | _ => cases hr

/-- A call that closes a client takes it from those that are still to be stopped. -/
lemma callClient_stopping (h : Stopping cs (i :: is) n)
    (hcloses : Client.Closes (n.client i).cur ((n.client i).cur.step a)) :
    Stopping cs is (n.callClient i a) where
  faulted := by rw [callClient_faulted, h.faulted]
  clients := by rw [callClient_clients, h.clients]
  active := by simpa using h.active
  async k hk := by
    rw [callClient_client]
    split
    · next hki =>
      subst hki
      rw [Traced.act_cur, Client.step_kind]
      exact h.async k hk
    · exact h.async k hk
  stopped k hk hkis := by
    rw [callClient_client]
    split
    · exact hcloses.isPrimary
    · next hki => exact h.stopped k hk (by simp [hki, hkis])
  light x hx := by
    rw [queue_callClient] at hx
    rcases List.mem_append.mp hx with hx | hx
    · exact h.light x hx
    · exact raisedBy_light hcloses.raises x hx

lemma callClient_sessionOver (h : SessionOver j n)
    (hcloses : Client.Closes (n.client i).cur ((n.client i).cur.step a)) :
    SessionOver j (n.callClient i a) where
  empty := by
    rw [callClient_client]
    split
    · next hji =>
      subst hji
      exact hcloses.queue h.empty
    · exact h.empty
  unseated hj := by
    rw [callClient_activeClient] at hj
    rw [queue_callClient]
    exact List.mem_append_left _ (h.unseated hj)

/-- A client that stopped before is one still to be stopped, too. -/
lemma Stopping.weaken (h : Stopping cs is n) (i : ClientId) : Stopping cs (i :: is) n :=
  ⟨h.faulted, h.clients, h.active, h.async,
    fun k hk hkis => h.stopped k hk fun hk' => hkis (.tail _ hk'), h.light⟩

lemma stopClient_stopping (h : Stopping cs (i :: is) n) (hi : i ∈ cs) :
    Stopping cs is (n.stopClient i) := by
  have hdeactivated : Stopping cs is (n.callClient i .deactivate) :=
    callClient_stopping h (Client.deactivate_closes _)
  have hcur : ((n.callClient i .deactivate).client i).cur = (n.client i).cur.deactivate.2 := by
    simp [Client.step]
  refine callClient_stopping (hdeactivated.weaken i) ?_
  rw [hcur]
  refine Client.disconnect_closes ?_ (Client.deactivate_isPrimary _)
  rw [← hcur]
  exact hdeactivated.async i hi

/-- The loop of `stop` stops one client after the other. -/
lemma stopClients_stopping (h : Stopping cs is n) (his : ∀ i ∈ is, i ∈ cs) :
    Stopping cs [] (is.foldl stopClient n) := by
  induction is generalizing n with
  | nil => exact h
  | cons i is ih =>
    rw [List.forall_mem_cons] at his
    exact ih (stopClient_stopping h his.1) his.2

/-- Stopping is some of the node's actions. -/
lemma stop_eq_run (h : n.faulted = false) :
    n.stop = run step n (n.clients.map .stopClient) := by
  have hall : ∀ (is : List ClientId) (m : Node), m.faulted = false → (∀ i ∈ is, i ∈ m.clients) →
      is.foldl stopClient m = run step m (is.map .stopClient) := by
    intro is
    induction is with
    | nil => exact fun _ _ _ => rfl
    | cons i is ih =>
      intro m hm his
      rw [List.forall_mem_cons] at his
      have hstep : m.step (.stopClient i) = m.stopClient i := by
        rw [step, if_neg (by simp [hm]), handle, if_pos his.1]
      rw [List.map_cons, run_cons, hstep, List.foldl_cons]
      refine ih _ (by simpa [stopClient] using hm) ?_
      simpa [stopClient] using his.2
  exact hall n.clients n h fun _ hi => hi

end Stopping

/-! ### After stopping -/

/-- All clients have stopped, and the sessions of those in `js` are over. -/
structure Closing (cs js : List ClientId) (n : Node) : Prop where
  stopping : Stopping cs [] n
  sessions : ∀ j ∈ js, SessionOver j n

section Closing

variable {cs js : List ClientId} {n m : Node} {i : ClientId} {a : ClientCall}

/-- What changes the publishables, the devices or the time alone. -/
lemma Closing.of_same (h : Closing cs js n) (hclient : m.client = n.client)
    (hclients : m.clients = n.clients) (hactive : m.activeClient = n.activeClient)
    (hqueue : m.eventQueue = n.eventQueue) (hf : m.faulted = n.faulted) : Closing cs js m := by
  obtain ⟨⟨hfaulted, hcs, hact, hasync, hstopped, hlight⟩, hover⟩ := h
  refine ⟨⟨hf.trans hfaulted, hclients.trans hcs, ?_, ?_, ?_, ?_⟩, fun j hj => ⟨?_, ?_⟩⟩
  · rwa [hactive]
  · rwa [hclient]
  · rwa [hclient]
  · rwa [hqueue]
  · rw [hclient]
    exact (hover j hj).empty
  · rw [hactive, hqueue]
    exact (hover j hj).unseated

lemma Closing.closes (h : Closing cs js n) (hi : i ∈ cs) (ha : a.isClosing = true) :
    Client.Closes (n.client i).cur ((n.client i).cur.step a) :=
  Client.step_closes (h.stopping.async i hi) (h.stopping.stopped i hi (by simp)) ha

lemma callClient_closing (h : Closing cs js n) (hi : i ∈ cs) (ha : a.isClosing = true) :
    Closing cs js (n.callClient i a) :=
  ⟨callClient_stopping (h.stopping.weaken i) (h.closes hi ha),
    fun j hj => callClient_sessionOver (h.sessions j hj) (h.closes hi ha)⟩

/-- The library reports the end of the session. -/
lemma onDisconnect_closing (h : Closing cs js n) (hi : i ∈ cs) :
    Closing cs (i :: js) (n.callClient i (.library .onDisconnect)) := by
  have hclosing := callClient_closing h hi (a := .library .onDisconnect) rfl
  have hstep : (n.client i).cur.step (.library .onDisconnect) = (n.client i).cur.onDisconnect := by
    have hregisters : Client.registers (n.client i).cur.kind .onDisconnect = true := by
      cases hk : (n.client i).cur.kind <;> first | rfl | exact absurd hk (h.stopping.async i hi)
    simp [Client.step, Client.callback, hregisters, Client.handle]
  refine ⟨hclosing.stopping, fun j hj => ?_⟩
  rcases List.mem_cons.mp hj with rfl | hj
  · refine ⟨?_, fun _ => ?_⟩
    · rw [callClient_client, if_pos rfl, Traced.act_cur, hstep, Client.onDisconnect_publishQueue]
    · have heff : n.clientEffects j (.library .onDisconnect) = _ :=
        Ledger.effects_eq ((congrArg Client.log hstep).trans (Client.onDisconnect_log _))
      rw [queue_callClient]
      refine List.mem_append_right _ (mem_raisedBy.mpr ⟨rfl, .onEvent .disconnected, ?_, rfl⟩)
      rw [heff]
      simp
  · exact hclosing.sessions j hj

lemma deactivateClient_stopping (h : Stopping cs [] n) (i : ClientId) :
    Stopping cs [] (n.deactivateClient i) := by
  by_cases hactive : n.activeClient = some i
  · obtain ⟨hfaulted, hcs, -, hasync, hstopped, hlight⟩ := callClient_stopping (a := .deactivate)
      (h.weaken i) (Client.deactivate_closes _)
    rw [deactivateClient_of_eq hactive]
    exact ⟨hfaulted, hcs, nofun, hasync, hstopped, hlight⟩
  · rwa [deactivateClient_of_ne hactive]

/-- The end of the session of `i` is handled: of the others it may be handled later. -/
lemma deactivateClient_sessionOver {j : ClientId} (hempty : (n.client j).cur.publishQueue = [])
    (hunseated : j ≠ i → n.activeClient = some j → (j, .disconnected) ∈ n.eventQueue) :
    SessionOver j (n.deactivateClient i) := by
  by_cases hactive : n.activeClient = some i
  · rw [deactivateClient_of_eq hactive]
    refine ⟨?_, nofun⟩
    rw [callClient_client]
    split
    · next hji =>
      subst hji
      exact (Client.deactivate_publishQueue _).trans hempty
    · exact hempty
  · rw [deactivateClient_of_ne hactive]
    refine ⟨hempty, fun hj => hunseated ?_ hj⟩
    rintro rfl
    exact hactive hj

/-- The events that are handled then are reports and ends of sessions. -/
lemma processEvent_closing (h : Closing cs js n) : Closing cs js n.processEvent := by
  unfold processEvent
  split
  · exact h
  next i e rest hq =>
  obtain ⟨⟨hfaulted, hcs, hact, hasync, hstopped, hlight⟩, hover⟩ := h
  rw [hq, List.forall_mem_cons] at hlight
  have hpop : Stopping cs [] { n with eventQueue := rest } :=
    ⟨hfaulted, hcs, hact, hasync, hstopped, hlight.2⟩
  have hrest : ∀ j ∈ js, (i, e) ≠ (j, .disconnected) → n.activeClient = some j →
      (j, .disconnected) ∈ rest := by
    intro j hj hne hjact
    have hmem := (hover j hj).unseated hjact
    rw [hq] at hmem
    exact (List.mem_cons.mp hmem).resolve_left hne.symm
  have hother : e ≠ .disconnected → Closing cs js { n with eventQueue := rest } := fun he =>
    ⟨hpop, fun j hj => ⟨(hover j hj).empty, hrest j hj fun heq => he (Prod.mk.inj heq).2⟩⟩
  cases e with
  | message | connected | active => cases hlight.1
  | delivered p | undelivered p => exact (hother (by simp)).of_same rfl rfl rfl rfl rfl
  | deactive => exact hother (by simp)
  | disconnected =>
    have hforget : Stopping cs [] ({ n with eventQueue := rest }.forgetHost i) :=
      ⟨hpop.faulted, hpop.clients, hpop.active, hpop.async, hpop.stopped, hpop.light⟩
    refine ⟨deactivateClient_stopping hforget i, fun j hj => ?_⟩
    exact deactivateClient_sessionOver (hover j hj).empty fun hne =>
      hrest j hj fun heq => hne (Prod.mk.inj heq).1.symm

/-- **A stopped node** stays so, whatever else happens to it. -/
lemma step_closing (h : Closing cs js n) {a : NodeCall} (ha : a.isClosing = true) :
    Closing cs js (n.step a) := by
  rw [step, if_neg (by simp [h.stopping.faulted])]
  cases a with
  | addClient | poll | requestPublish => cases ha
  | addDevice | setTime => exact h.of_same rfl rfl rfl rfl rfl
  | enable =>
    have hconfigured : Closing cs js (n.configureClients n.clients).2 :=
      configureClients_kept (P := Closing cs js)
        (fun _ i hi hm => callClient_closing hm (h.stopping.clients ▸ hi) rfl) h
    simp only [handle, enable]
    repeat' split
    · exact h
    · exact h
    · exact hconfigured.of_same rfl rfl rfl rfl rfl
    · exact hconfigured
  | setValue | setProperty | update => exact h.of_same rfl rfl rfl rfl rfl
  | processEvent => exact processEvent_closing h
  | executeClient i | library i l =>
    simp only [handle]
    split
    · next hi => exact callClient_closing h (h.stopping.clients ▸ hi) ha
    · exact h
  | stopClient i =>
    simp only [handle]
    split
    · next hi =>
      rw [h.stopping.clients] at hi
      exact callClient_closing (callClient_closing h hi (a := .deactivate) rfl) hi rfl
    · exact h

lemma run_closing (h : Closing cs js n) {as : List NodeCall} (has : ∀ a ∈ as, a.isClosing = true) :
    Closing cs js (run step n as) := by
  have halong : Along step (Closing cs js) n as :=
    along_of_each (C := fun _ a => NodeCall.isClosing a = true)
      (fun _ _ h ha => step_closing h ha) h (each_iff_forall.mpr has)
  exact halong.last

/-- The session of a client is over once its library has said so. -/
lemma run_sessionOver (h : Closing cs [] n) {as : List NodeCall}
    (has : ∀ a ∈ as, a.isClosing = true) (hi : i ∈ cs) (hmem : .library i .onDisconnect ∈ as) :
    SessionOver i (run step n as) := by
  obtain ⟨before, later, rfl⟩ := List.append_of_mem hmem
  rw [List.forall_mem_append, List.forall_mem_cons] at has
  have hbefore := run_closing h has.1
  have hdisconnect : (run step n before).step (.library i .onDisconnect) =
      (run step n before).callClient i (.library .onDisconnect) := by
    rw [step, if_neg (by simp [hbefore.stopping.faulted]), handle,
      if_pos (hbefore.stopping.clients ▸ hi)]
  rw [run_append, run_cons, hdisconnect]
  exact (run_closing (onDisconnect_closing hbefore hi) has.2.2).sessions i (by simp)

end Closing

/-! ### What is on its way -/

/-- A publishable that is publishing has a request in a queue or a report to come. -/
def PublishingWaits (n : Node) : Prop := ∀ p, (n.pub p).cur.state = .publishing →
  n.faulted = true ∨ Queued n p ∨ ReportWaits n p

lemma callClient_publishingWaits {n : Node} (h : PublishingWaits n) (i : ClientId) {a : ClientCall}
    (ha : ∀ r, a ≠ .request r) : PublishingWaits (n.callClient i a) := by
  intro p hs
  rw [callClient_state] at hs
  rw [callClient_faulted]
  rcases h p hs with hf | hq | hw
  · exact .inl hf
  · exact .inr ((callClient_queued ha p).1 hq)
  · exact .inr (.inr (hw.callClient i a))

lemma publish_publishingWaits {n : Node} (h : PublishingWaits n) (p : PubId) (b : Bool) :
    PublishingWaits (n.publish p b) := by
  rcases publish_cases n p b with ⟨e, -⟩ | ⟨e, -⟩ | ⟨i, -, e⟩
  · rwa [e]
  · rw [e]
    exact fun _ _ => .inl rfl
  · rw [e]
    intro q hs
    have hto := (requested_queued n p b i q).1
    rw [requested, callClient_state, prepared_pub, callPub_pub] at hs
    split at hs
    · next hqp => exact .inr (hto (.inl hqp))
    · rcases h q hs with hf | hq | hw
      · exact .inl (by simpa [requested] using hf)
      · exact .inr (hto (.inr hq))
      · exact .inr (.inr (hw.requested p b i))

lemma callPub_publishingWaits {n : Node} (h : PublishingWaits n) (p : PubId) {a : PublishableCall}
    (ha : a ≠ .publishing) : PublishingWaits (n.callPub p a) := by
  intro q hs
  rw [callPub_pub] at hs
  split at hs
  · next hqp =>
    subst hqp
    refine h q ?_
    by_contra hne
    cases a with
    | publishing => exact ha rfl
    | published => cases hs
    | update elapsed => exact Publishable.update_ne_publishing hne elapsed hs
    | _ => exact hne hs
  · exact h q hs

lemma publishingWaits_eventKept : EventKept PublishingWaits where
  publish _ p b h := publish_publishingWaits h p b
  client _ i _ _ hr h := callClient_publishingWaits h i hr
  pub _ p _ ha _ h := callPub_publishingWaits h p ha
  free _ _ _ _ _ h := h
  pop n i e rest hq he h p hs := by
    refine (h p hs).imp_right (Or.imp_right ?_)
    rintro ⟨x, hx, hp⟩
    rw [hq] at hx
    rcases List.mem_cons.mp hx with rfl | hx
    · cases e <;> simp_all [reportOf, ClientEvent.isReport]
    · exact ⟨x, hx, hp⟩
  activate _ i h := callClient_publishingWaits h i (by simp)
  hostStates _ _ h := h
  activeClient _ _ h := h
  fault _ _ _ _ := .inl rfl

lemma run_publishingWaits (s : NodeSetup) (calls : List NodeCall) :
    PublishingWaits (run step (create s) calls) := by
  refine run_invariant (P := PublishingWaits) (fun n a h => ?_) (fun p hs => ?_) calls
  · refine step_kept publishingWaits_eventKept h a fun i e rest p _ hq hp q hs => ?_
    -- the report of `p` is gone, and `p` is idle
    rw [callPub_pub] at hs
    split at hs
    · cases hs
    next hqp =>
    refine (h q hs).imp_right (Or.imp_right ?_)
    rintro ⟨x, hx, hxq⟩
    rw [hq] at hx
    rcases List.mem_cons.mp hx with rfl | hx
    · exact absurd (Option.some.inj (hxq.symm.trans hp)) hqp
    · exact ⟨x, hx, hxq⟩
  · cases p <;> cases hs

/-- Clients that the node does not have hold no requests. -/
lemma stranger_empty (s : NodeSetup) (calls : List NodeCall) {i : ClientId}
    (hi : i ∉ (run step (create s) calls).clients) :
    ((run step (create s) calls).client i).cur.publishQueue = [] := by
  have hpassed := (run_tallied s calls).strangers i hi
  rw [passedTo_eq (run_allBalanced s calls) i, List.append_eq_nil_iff] at hpassed
  exact List.map_eq_nil_iff.mp hpassed.2

/-! ### At rest -/

/-- Nothing goes on: there is no active client, and no request waits, neither at a client nor for
its publishable. -/
structure AtRest (n : Node) : Prop where
  active : n.activeClient = none
  primary : ∀ i ∈ n.clients, (n.client i).cur.isPrimary = false
  empty : ∀ i, (n.client i).cur.publishQueue = []
  idle : ∀ p, (n.pub p).cur.state ≠ .publishing

/-- Before it stops, a node whose clients are asynchronous. -/
lemma stop_closing (s : NodeSetup) (calls : List NodeCall)
    (hf : (run step (create s) calls).faulted = false)
    (hasync : ∀ i ∈ (run step (create s) calls).clients, s.kind i ≠ .pahoSync)
    (hlight : ∀ x ∈ (run step (create s) calls).eventQueue, x.2.weight = 0) :
    Closing (run step (create s) calls).clients [] (run step (create s) calls).stop := by
  refine ⟨stopClients_stopping ⟨hf, rfl, (run_tallied s calls).active, fun i hi => ?_, ?_, hlight⟩
    fun _ hi => hi, nofun⟩
  · have hkind : ((run step (create s) calls).client i).cur.kind = s.kind i := by
      rw [← ((run step (create s) calls).client i).replay, Client.run_kind, client_init]
      rfl
    rw [hkind]
    exact hasync i hi
  · exact fun i hi hnot => absurd hi hnot

/-- With all sessions over and nothing to handle there is nothing left. -/
lemma Closing.atRest {cs : List ClientId} {n : Node} (h : Closing cs cs n)
    (hwaits : PublishingWaits n) (hstrangers : ∀ i ∉ cs, (n.client i).cur.publishQueue = [])
    (hq : n.eventQueue = []) : AtRest n := by
  have hempty : ∀ i, (n.client i).cur.publishQueue = [] := by
    intro i
    by_cases hi : i ∈ cs
    · exact (h.sessions i hi).empty
    · exact hstrangers i hi
  refine ⟨?_, fun i hi => ?_, hempty, fun p hp => ?_⟩
  · by_contra hactive
    obtain ⟨i, hi⟩ := Option.ne_none_iff_exists'.mp hactive
    have hmem := (h.sessions i (h.stopping.active i hi)).unseated hi
    rw [hq] at hmem
    cases hmem
  · exact h.stopping.stopped i (h.stopping.clients ▸ hi) (by simp)
  · rcases hwaits p hp with hfault | ⟨i, r, hr, -⟩ | ⟨x, hx, -⟩
    · exact absurd (h.stopping.faulted.symm.trans hfault) (by simp)
    · rw [hempty i] at hr
      cases hr
    · rw [hq] at hx
      cases hx

/-- **Stopping a node brings it to rest**: in whatever order the libraries of its clients report
the ends of their sessions, and whatever else there is to be done that is nothing new, it is at
rest when all have done so and the events are handled. -/
theorem stop_atRest (s : NodeSetup) (calls after : List NodeCall)
    (hf : (run step (create s) calls).faulted = false)
    (hasync : ∀ i ∈ (run step (create s) calls).clients, s.kind i ≠ .pahoSync)
    (hlight : ∀ x ∈ (run step (create s) calls).eventQueue, x.2.weight = 0)
    (hclosing : ∀ a ∈ after, a.isClosing = true)
    (hover : ∀ i ∈ (run step (create s) calls).clients, .library i .onDisconnect ∈ after)
    (hhandled : (run step (run step (create s) calls).stop after).eventQueue = []) :
    AtRest (run step (run step (create s) calls).stop after) := by
  have hstopped := stop_closing s calls hf hasync hlight
  have hclosed : Closing (run step (create s) calls).clients (run step (create s) calls).clients
      (run step (run step (create s) calls).stop after) :=
    ⟨(run_closing hstopped hclosing).stopping,
      fun i hi => run_sessionOver hstopped hclosing hi (hover i hi)⟩
  -- the end is reached in a run as well
  have hall : run step (run step (create s) calls).stop after =
      run step (create s)
        (calls ++ (run step (create s) calls).clients.map .stopClient ++ after) := by
    rw [run_append, run_append, stop_eq_run hf]
  refine hclosed.atRest ?_ (fun i hi => ?_) hhandled
  · rw [hall]
    exact run_publishingWaits s _
  · rw [← hclosed.stopping.clients, hall] at hi
    rw [hall]
    exact stranger_empty s _ hi

/-- One client has the births of the node and a device to send, and another one is subscribing,
when the node stops. -/
def stoppedInFlight : List NodeCall :=
  [.addClient, .addClient, .addDevice 0, .enable, .executeClient 0, .executeClient 1,
    .library 0 .onConnect, .processEvent, .library 0 .onCommandSubscription, .processEvent,
    .library 1 .onConnect, .processEvent]

/-- The subscription succeeds, and the first client connects again, before the last session is
over. -/
def sessionsOver : List NodeCall :=
  [.library 1 .onCommandSubscription, .library 0 .onDisconnect, .executeClient 0, .processEvent,
    .library 1 .onDisconnect, .processEvent, .processEvent, .processEvent]

theorem stoppedInFlight_atRest :
    AtRest (run step (run step (create .oneMetric) stoppedInFlight).stop sessionsOver) := by
  have hclients : (run step (create .oneMetric) stoppedInFlight).clients = [0, 1] := by decide
  refine stop_atRest .oneMetric stoppedInFlight sessionsOver (by decide) (by decide) (by decide)
    (by decide) (fun i hi => ?_) (by decide)
  rw [hclients, List.mem_pair] at hi
  rcases hi with rfl | rfl <;> simp [sessionsOver]

/-- An activation that is in the queue when the node stops leaves a birth that nobody sends. -/
example : ((run step (run step (create .oneMetric) [.addClient, .enable, .executeClient 0,
    .library 0 .onConnect, .processEvent, .library 0 .onCommandSubscription]).stop
      [.library 0 .onDisconnect, .processEvent, .processEvent]).pub .node).cur.state =
    .publishing := by decide

end Node

end Sparkplug
