import Sparkplug.ActiveClient
import Sparkplug.Routing

/-!
A node without a primary host.

Its clients are activated when they connect, and only then. So a client in session is of
use to the node as long as there is an active client, or one whose activation is under way:
its connection or its activation is in the queue, or its subscription is awaited. It is
said which steps end the last of these and leave a client in session behind.
-/

namespace Sparkplug

open Machine

/-- The client has said that it is connected, and not since that it is disconnected. -/
def Effect.session (inSession : Bool) : Effect → Bool
  | .onEvent .connected => true
  | .onEvent .disconnected => false
  | _ => inSession

namespace Client

def inSession (c : Client) : Bool := c.log.foldl Effect.session false

lemma session_foldl {b : Bool} {l : List Effect} (h : l.foldl Effect.session b = true) :
    b = true ∨ .onEvent .connected ∈ l := by
  have hnext : ∀ b e, Effect.session b e = true → b = true ∨ e = .onEvent .connected := by
    intro b e
    unfold Effect.session
    split
    · exact fun _ => .inr rfl
    · exact fun h => by cases h
    · exact .inl
  induction l generalizing b with
  | nil => exact .inl h
  | cons e l ih =>
    rcases ih h with hb | hmem
    · exact (hnext b e hb).imp_right fun he => by simp [he]
    · exact .inr (List.mem_cons_of_mem _ hmem)

/-- A session begins with an event. -/
lemma inSession_before {c d : Client} {l : List Effect} (hl : d.log = c.log ++ l)
    (h : d.inSession = true) : c.inSession = true ∨ .onEvent .connected ∈ l := by
  rw [inSession, hl, List.foldl_append] at h
  exact session_foldl h

lemma onDisconnect_inSession (c : Client) : c.onDisconnect.inSession = false := by
  simp [onDisconnect, disconnected, inSession, emit, Effect.session]

/-! ### Waiting clients -/

/-- A client that waits for an acknowledgement does so no longer after the callback. -/
def endsWait (c : Client) (l : LibraryCall) : Bool :=
  registers c.kind l && match l with
    | .onDisconnect | .onCommandSubscribeFailure => true
    | .onConnectFailure => c.state ≠ .disconnected
    | _ => false

lemma connect_isPrimary {c : Client} (hk : c.kind ≠ .pahoSync) :
    c.connect.2.isPrimary = c.isPrimary := by
  refine connect_of (P := fun d => d.isPrimary = c.isPrimary) rfl (fun _ => ?_) fun d hd => ?_
  · simp only [clientConnect]
    cases hk' : c.kind with
    | pahoSync => exact absurd hk' hk
    | pahoAsync =>
      simp only
      repeat' split
      all_goals simp [setState_isPrimary]
    | cppMqtt =>
      simp only
      split <;> simp
  · rw [setState_isPrimary (by simp), hd]

/-- The clients that are called back go on waiting while they execute. -/
lemma execute_awaits {c : Client} (h : Awaits c) : Awaits c.execute := by
  refine (execute_keeps c).awaits ?_ h
  have hk : c.connect.2.kind ≠ .pahoSync := (connect_keeps c).kind ▸ h.1
  unfold execute
  split
  · rw [sync_of_ne hk, connect_isPrimary h.1]
    exact h.2.1
  · rw [sync_of_ne h.1]
    exact h.2.1

lemma request_awaits {c : Client} (h : Awaits c) (r : PublishRequest) : Awaits (c.request r) :=
  (request_keeps c r).awaits ((request_frame c r).isPrimary.trans h.2.1) h

lemma configure_awaits {c : Client} (h : Awaits c) (topics : ClientTopicOptions) :
    Awaits (c.configure topics).2 :=
  (configure_keeps c topics).awaits ((configure_frame c topics).isPrimary.trans h.2.1) h

lemma Awaits.registers_onDisconnect {c : Client} (h : Awaits c) :
    registers c.kind .onDisconnect = true := by
  obtain ⟨hk, -⟩ := h
  cases hc : c.kind <;> first | rfl | exact absurd hc hk

/-- A wait ends with the acknowledgement, with a new connection, or with one of the callbacks
named. -/
lemma callback_awaits {c : Client} (h : Awaits c) (l : LibraryCall) :
    Awaits (c.callback l) ∨ .onEvent .active ∈ Ledger.effects c (c.callback l) ∨
      .onEvent .connected ∈ Ledger.effects c (c.callback l) ∨ c.endsWait l = true := by
  rcases callback_cases c l with ⟨hk, hp⟩ | ⟨-, hact | hf⟩ | ⟨-, -, hd⟩
  · by_cases hl : l = .onDisconnect
    · subst hl
      exact .inr (.inr (.inr (by simp [endsWait, h.registers_onDisconnect])))
    · exact .inl (hk.awaits ((hp hl).trans h.2.1) h)
  · exact .inr (.inl hact)
  · by_cases hl : l = .onConnect
    · subst hl
      have hr : registers c.kind .onConnect = true := by
        simp only [forgets, Bool.and_eq_true] at hf
        exact hf.1.1
      have hlog : (c.callback .onConnect).log = c.log ++ [.onEvent .connected] := by
        rw [callback, if_pos hr]
        exact connected_log c
      rw [Ledger.effects_eq hlog]
      simp
    · refine .inr (.inr (.inr ?_))
      cases l <;> first | exact absurd rfl hl | simp_all [forgets, endsWait]
  · refine .inr (.inr (.inr ?_))
    cases l <;> simp_all [drops, endsWait]

end Client

namespace Node

open Client

/-! ### Activations under way -/

/-- The queue holds an event that makes the client active, or begins to. -/
def Announced (n : Node) (i : ClientId) : Prop :=
  (i, .connected) ∈ n.eventQueue ∨ (i, .active) ∈ n.eventQueue

/-- The activation of the client has begun, or is about to. -/
def UnderWay (n : Node) (i : ClientId) : Prop := Announced n i ∨ (n.client i).cur.Awaits

/-- Whenever a client is in session, one is active or becomes so. -/
def Served (n : Node) : Prop :=
  (∃ i, (n.client i).cur.inSession = true) → n.activeClient ≠ none ∨ ∃ i, UnderWay n i

/-- Apart from what client `i` waits for, an activation is under way. -/
def Follows (n : Node) (i : ClientId) : Prop :=
  ∃ k, Announced n k ∨ k ≠ i ∧ (n.client k).cur.Awaits

section CallClient

variable {n : Node} {i k : ClientId} {a : ClientCall}

lemma log_step (n : Node) (i : ClientId) (a : ClientCall) :
    ((n.client i).cur.step a).log = (n.client i).cur.log ++ n.clientEffects i a := by
  obtain ⟨l, hl, -⟩ := Ledger.step_conserves (n.client i).cur a
  rw [taken_log] at hl
  rw [clientEffects, Ledger.effects_eq hl, hl]

lemma announced_of_raised {e : ClientEvent} (he : e = .connected ∨ e = .active)
    (h : .onEvent e ∈ n.clientEffects i a) : Announced (n.callClient i a) i := by
  have hmem : (i, e) ∈ (n.callClient i a).eventQueue := by
    rw [queue_callClient]
    exact List.mem_append_right _ (mem_raisedBy.mpr ⟨rfl, _, h, rfl⟩)
  rcases he with rfl | rfl
  · exact .inl hmem
  · exact .inr hmem

lemma Announced.callClient (h : Announced n k) : Announced (n.callClient i a) k := by
  rw [Announced, queue_callClient]
  exact h.imp (List.mem_append_left _) (List.mem_append_left _)

lemma Follows.callClient (h : Follows n i) : ∃ k, UnderWay (n.callClient i a) k := by
  obtain ⟨k, hk | ⟨hne, hw⟩⟩ := h
  · exact ⟨k, .inl hk.callClient⟩
  · exact ⟨k, .inr (by simpa [hne] using hw)⟩

/-- A client that is in session afterwards was in session, or has just said so. -/
lemma callClient_inSession {j : ClientId} (h : ((n.callClient i a).client j).cur.inSession = true) :
    ((n.client j).cur.inSession = true ∧ (j = i → ((n.client i).cur.step a).inSession = true)) ∨
      UnderWay (n.callClient i a) i := by
  by_cases hj : j = i
  · subst hj
    rw [callClient_cur] at h
    rcases inSession_before (log_step n j a) h with hs | hc
    · exact .inl ⟨hs, fun _ => h⟩
    · exact .inr (.inl (announced_of_raised (.inl rfl) hc))
  · exact .inl ⟨by simpa [hj] using h, fun hji => absurd hji hj⟩

/-- What a client's call has to leave under way. -/
lemma callClient_served (h : Served n)
    (hw : (n.client i).cur.Awaits → ((n.client i).cur.step a).Awaits ∨
      .onEvent .active ∈ n.clientEffects i a ∨ .onEvent .connected ∈ n.clientEffects i a ∨
      (n.activeClient = none → ∀ j, (n.client j).cur.inSession = true →
        (j = i → ((n.client i).cur.step a).inSession = true) → Follows n i)) :
    Served (n.callClient i a) := by
  rintro ⟨j, hj⟩
  rw [callClient_activeClient]
  by_cases hact : n.activeClient = none
  swap
  · exact .inl hact
  refine .inr ?_
  rcases callClient_inSession hj with ⟨hs, hself⟩ | hu
  swap
  · exact ⟨i, hu⟩
  obtain ⟨k, hk | hk⟩ := (h ⟨j, hs⟩).resolve_left (not_not_intro hact)
  · exact ⟨k, .inl hk.callClient⟩
  by_cases hki : k = i
  swap
  · exact ⟨k, .inr (by simpa [hki] using hk)⟩
  rcases hw (hki ▸ hk) with hw | hw | hw | hw
  · exact ⟨i, .inr (callClient_cur ▸ hw)⟩
  · exact ⟨i, .inl (announced_of_raised (.inr rfl) hw)⟩
  · exact ⟨i, .inl (announced_of_raised (.inl rfl) hw)⟩
  · exact (hw hact j hs hself).callClient

end CallClient

/-! ### Operations -/

lemma Served.of_eq {n m : Node} (h : Served n) (hc : m.client = n.client)
    (ha : m.activeClient = n.activeClient) (hq : m.eventQueue = n.eventQueue) : Served m := by
  unfold Served UnderWay Announced
  rw [hc, ha, hq]
  exact h

lemma served_of_active {n : Node} (h : n.activeClient ≠ none) : Served n := fun _ => .inl h

lemma publish_served {n : Node} (h : Served n) (p : PubId) (b : Bool) : Served (n.publish p b) := by
  rcases publish_cases n p b with ⟨e, -⟩ | ⟨e, -⟩ | ⟨i, -, e⟩
  · rwa [e]
  · rw [e]
    exact h.of_eq rfl rfl rfl
  · rw [e, requested]
    have hprep : Served (n.prepared p b) := h.of_eq (by simp) (by simp) (by simp)
    exact callClient_served hprep fun hw => .inl (request_awaits hw _)

lemma served_base : Base Served where
  configure _ _ topics h := callClient_served h fun hw => .inl (configure_awaits hw topics)
  pub _ _ _ _ h := h.of_eq rfl rfl rfl
  free _ _ _ _ _ h := h.of_eq rfl rfl rfl

/-- The activation of a client that waits is over when the client is deactivated. -/
lemma stopClient_served {n : Node} (h : Served n) {i : ClientId}
    (hc : (n.client i).cur.Awaits → n.activeClient = none →
      (∃ j, (n.client j).cur.inSession = true) → Follows n i) : Served (n.stopClient i) := by
  have hdeact : Served (n.callClient i .deactivate) :=
    callClient_served h fun hw => .inr (.inr (.inr fun ha j hj _ => hc hw ha ⟨j, hj⟩))
  refine callClient_served hdeact fun hw => ?_
  rw [callClient_cur] at hw
  have hp : ((n.client i).cur.step .deactivate).isPrimary = false := deactivate_isPrimary _
  exact absurd (hp.symm.trans hw.2.1) (by simp)

lemma library_served {n : Node} (h : Served n) {i : ClientId} {l : LibraryCall}
    (hc : (n.client i).cur.Awaits → n.activeClient = none → (n.client i).cur.endsWait l = true →
      (∃ j, (n.client j).cur.inSession = true ∧ (l = .onDisconnect → j ≠ i)) → Follows n i) :
    Served (n.callClient i (.library l)) := by
  refine callClient_served h fun hw => ?_
  refine (callback_awaits hw l).imp_right (Or.imp_right (Or.imp_right fun hl ha j hj hself => ?_))
  refine hc hw ha hl ⟨j, hj, ?_⟩
  rintro rfl rfl
  have hstep : (n.client j).cur.step (.library .onDisconnect) = (n.client j).cur.onDisconnect := by
    simp [Client.step, callback, hw.registers_onDisconnect, Client.handle]
  have hend := hself rfl
  rw [hstep, onDisconnect_inSession] at hend
  cases hend

/-! ### Events -/

/-- The activation that is over when the event is processed: the active client is gone, or a
client that has connected is not activated. -/
def overAfter (n : Node) (i : ClientId) : ClientEvent → Bool
  | .disconnected => n.activeClient = some i
  | .connected => n.activeClient = none ∧ ¬(n.client i).cur.Awaits ∧
    ((n.client i).cur.isPrimary = true ∨ ¬(n.client i).cur.AcceptsCommands)
  | _ => false

lemma pop_served {n : Node} (h : Served n) {i : ClientId} {e : ClientEvent}
    {rest : List (ClientId × ClientEvent)} (hq : n.eventQueue = (i, e) :: rest)
    (hc : e ≠ .connected) (ha : e ≠ .active) : Served { n with eventQueue := rest } := by
  intro hs
  refine (h hs).imp_right fun ⟨k, hk⟩ => ⟨k, hk.imp_left fun hk => ?_⟩
  rw [Announced, hq] at hk
  refine hk.imp (fun hm => ?_) fun hm => ?_
  · exact (List.mem_cons.mp hm).resolve_left fun he => hc (by simpa using congrArg Prod.snd he.symm)
  · exact (List.mem_cons.mp hm).resolve_left fun he => ha (by simpa using congrArg Prod.snd he.symm)

/-- A client whose connection is processed is activated, or something else follows. -/
lemma activateClient_served {n : Node} {i : ClientId}
    (hc : n.overAfter i .connected = true →
      (∃ j, (n.client j).cur.inSession = true) → Follows n i) : Served (n.activateClient i) := by
  by_cases hact : n.activeClient = none
  swap
  · exact served_of_active (by simpa [activateClient] using hact)
  rintro ⟨j, hj⟩
  refine .inr ?_
  rcases callClient_inSession hj with ⟨hs, -⟩ | hu
  swap
  · exact ⟨i, hu⟩
  by_cases hover : n.overAfter i .connected = true
  · exact (hc hover ⟨j, hs⟩).callClient
  refine ⟨i, ?_⟩
  cases hp : (n.client i).cur.isPrimary with
  | true =>
    have hw : (n.client i).cur.Awaits := by
      by_contra hw
      exact hover (by simp [overAfter, hact, hw, hp])
    refine .inr ?_
    rw [activateClient, callClient_cur, Client.step, activate_of_isPrimary hp]
    exact hw
  | false =>
    have hw : ¬(n.client i).cur.Awaits := fun hw => absurd (hp.symm.trans hw.2.1) (by simp)
    have hacc : (n.client i).cur.AcceptsCommands := by
      by_contra hacc
      exact hover (by simp [overAfter, hact, hw, hacc])
    rcases (activate_accepted hp hacc).2 with h | h
    · exact .inr (by rw [activateClient, callClient_cur]; exact h)
    · exact .inl (announced_of_raised (.inr rfl) h)

/-- The active client is gone. -/
lemma deactivateClient_served {n : Node} {i : ClientId} (h : n.activeClient ≠ some i → Served n)
    (hc : n.activeClient = some i → (∃ j, (n.client j).cur.inSession = true) → Follows n i) :
    Served (n.deactivateClient i) := by
  by_cases ha : n.activeClient = some i
  · rw [deactivateClient_of_eq ha]
    rintro ⟨j, hj⟩
    have hj' : ((n.callClient i .deactivate).client j).cur.inSession = true := hj
    rcases callClient_inSession hj' with ⟨hs, -⟩ | hu
    · exact .inr (hc ha ⟨j, hs⟩).callClient
    · exact .inr ⟨i, hu⟩
  · rw [deactivateClient_of_ne ha]
    exact h ha

lemma setActiveClient_served (n : Node) (i : ClientId) : Served (n.setActiveClient (some i)) := by
  obtain ⟨m, heq, -⟩ := setActiveClient_eq n (some i)
  have hm : Served { m with activeClient := some i } := served_of_active (by simp)
  rw [heq]
  exact publishBirth_kept (P := Served) (fun _ p h => publish_served h p true) hm

/-- Without a primary host no message is a `STATE` message. -/
lemma onMessage_served {n : Node} (h : Served n) (ht : n.clientTopics.primaryHostTopic = [])
    (i : ClientId) (topic payload : Str) : Served (n.onMessage i topic payload) := by
  have hhost : n.isHostTopic topic = false := by simp [isHostTopic, ht]
  have hhost' := ((onCommandMessage_same n i topic payload).isHostTopic topic).trans hhost
  have hcmd : Served (n.onCommandMessage i topic payload) :=
    onCommandMessage_kept (P := Served) (fun _ p h => publish_served h p true) (fun _ h => h) h i
      topic payload
  simp only [onMessage, noteHost, onHostState, hhost, hhost', Bool.false_eq_true, if_false]
  split
  · exact h
  · exact hcmd

lemma handleEvent_served {n : Node} (h : Served n) (hm : n.hostMode = .single)
    (ht : n.clientTopics.primaryHostTopic = []) {i : ClientId} {e : ClientEvent}
    {rest : List (ClientId × ClientEvent)} (hq : n.eventQueue = (i, e) :: rest)
    (hc : { n with eventQueue := rest }.overAfter i e = true →
      (∃ j, (n.client j).cur.inSession = true) → Follows { n with eventQueue := rest } i) :
    Served ({ n with eventQueue := rest }.handleEvent i e) := by
  have hpop := pop_served h hq
  cases e with
  | message topic payload => exact onMessage_served (hpop (by simp) (by simp)) ht i topic payload
  | connected =>
    simp only [handleEvent]
    rw [if_pos (by exact hm)]
    exact activateClient_served hc
  | disconnected =>
    refine deactivateClient_served (fun _ => (hpop (by simp) (by simp)).of_eq rfl rfl rfl) ?_
    intro ha
    have ha' : n.activeClient = some i := ha
    exact hc (by simp [overAfter, ha'])
  | active => exact setActiveClient_served _ i
  | deactive => exact hpop (by simp) (by simp)
  | delivered p => exact (hpop (by simp) (by simp)).of_eq rfl rfl rfl
  | undelivered p => exact (hpop (by simp) (by simp)).of_eq rfl rfl rfl

/-! ### Whole runs -/

/-- The client whose activation is over after the action, with no other active client. -/
def ended (n : Node) : NodeCall → Option ClientId
  | .stopClient i =>
    if i ∈ n.clients ∧ n.activeClient = none ∧ (n.client i).cur.Awaits then some i else none
  | .library i l =>
    if i ∈ n.clients ∧ n.activeClient = none ∧ (n.client i).cur.Awaits ∧
        (n.client i).cur.endsWait l = true then some i
    else none
  | .processEvent => (n.eventQueue.head?.filter fun x => n.overAfter x.1 x.2).map Prod.fst
  | _ => none

/-- The client whose session the action ends. -/
def lost : NodeCall → Option ClientId
  | .library i .onDisconnect => some i
  | _ => none

/-- The event that is processed has left the queue. -/
def remaining (n : Node) : NodeCall → Node
  | .processEvent => { n with eventQueue := n.eventQueue.tail }
  | _ => n

/-- When an activation is over, no client is in session, or another activation is under
way. -/
def PicksUp (n : Node) (a : NodeCall) : Prop :=
  ∀ i ∈ n.ended a, (∃ j, (n.client j).cur.inSession = true ∧ lost a ≠ some j) →
    Follows (n.remaining a) i

lemma step_served {n : Node} (h : Served n) (hm : n.hostMode = .single)
    (ht : n.clientTopics.primaryHostTopic = []) (a : NodeCall)
    (hc : n.faulted = false → PicksUp n a) : Served (n.step a) := by
  by_cases hf : n.faulted = true
  · rw [step, if_pos hf]
    exact h
  have hc := hc (by simpa using hf)
  refine step_of served_base (fun _ p b hn => publish_served hn p b) h a ?_ ?_ ?_ ?_
  · exact fun i _ => callClient_served h fun hw => .inl (execute_awaits hw)
  · rintro i rfl hi
    refine stopClient_served h fun hw ha hs => ?_
    obtain ⟨j, hj⟩ := hs
    exact hc i (by simp [ended, hi, ha, hw]) ⟨j, hj, by simp [lost]⟩
  · rintro i l rfl hi
    refine library_served h fun hw ha hl hs => ?_
    obtain ⟨j, hj, hne⟩ := hs
    refine hc i (by simp [ended, hi, ha, hw, hl]) ⟨j, hj, ?_⟩
    cases l with
    | onDisconnect => exact fun he => hne rfl (Option.some.inj he).symm
    | _ => simp [lost]
  · rintro i e rest rfl hq
    refine handleEvent_served h hm ht hq fun hover hs => ?_
    obtain ⟨j, hj⟩ := hs
    have hover' : n.overAfter i e = true := by cases e <;> exact hover
    have hx := hc i (by simp [ended, hq, hover', Option.filter]) ⟨j, hj, by simp [lost]⟩
    rwa [remaining, hq] at hx

/-- With no events left and no subscription awaited, there is an active client if any is in
session. -/
def InUse (n : Node) : Prop :=
  n.eventQueue = [] → (∀ i, ¬(n.client i).cur.Awaits) →
    (∃ i, (n.client i).cur.inSession = true) → n.activeClient ≠ none

lemma Served.inUse {n : Node} (h : Served n) : InUse n := by
  intro hq hw hs
  refine (h hs).resolve_right ?_
  rintro ⟨k, hk | hk⟩
  · simp [Announced, hq] at hk
  · exact hw k hk

lemma create_single {s : NodeSetup} (h : (create s).hostMode = .single) :
    (create s).clientTopics.primaryHostTopic = [] := by
  by_cases hconf : (!s.options.groupId.isEmpty && !s.options.nodeId.isEmpty) = true
  · have htopics : (create s).clientTopics = (configureTopics s.options).2.1 := if_pos hconf
    have hmode : (create s).hostMode = (configureTopics s.options).2.2 := if_pos hconf
    rw [htopics]
    by_cases hp : s.options.primaryHost = []
    · exact if_pos hp
    · have hhost : (configureTopics s.options).2.2 = .primaryHost := if_neg hp
      cases (hmode.trans hhost).symm.trans h
  · have htopics : (create s).clientTopics = {} := if_neg hconf
    rw [htopics]

/-- **No client in session is left unused** by a node without a primary host, in every run in
which another activation is under way whenever one is over. -/
theorem inUse_of_picksUp (s : NodeSetup) (hm : (create s).hostMode = .single)
    (calls : List NodeCall)
    (h : Each step (fun n a => n.faulted = false → PicksUp n a) (create s) calls) :
    Along step InUse (create s) calls := by
  have h0 : Served (create s) := by
    rintro ⟨i, hi⟩
    cases hi
  have halong : Along step (fun n => Served n ∧ n.hostMode = .single ∧
      n.clientTopics = (create s).clientTopics) (create s) calls := by
    refine along_of_each (fun n a hn hc => ⟨?_, ?_, ?_⟩) ⟨h0, hm, rfl⟩ h
    · exact step_served hn.1 hn.2.1 (hn.2.2 ▸ create_single hm) a hc
    · exact step_kept (hostMode_kept _) hn.2.1 a fun _ _ _ _ _ _ _ => hn.2.1
    · exact step_kept (topics_kept _) hn.2.2 a fun _ _ _ _ _ _ _ => hn.2.2
  exact halong.mono fun _ hn => hn.1.inUse

/-- The queue holds the next activation when one is over. -/
def nextQueued (n : Node) (a : NodeCall) : Bool :=
  (n.ended a).isNone || (n.remaining a).eventQueue.any fun x => x.2 = .connected || x.2 = .active

lemma picksUp_of_nextQueued {n : Node} {a : NodeCall} (h : n.nextQueued a = true) :
    PicksUp n a := by
  intro i hi _
  simp only [nextQueued, Bool.or_eq_true, Option.isNone_iff_eq_none] at h
  have hany := h.resolve_left fun hnone => by simp [hnone] at hi
  obtain ⟨⟨k, e⟩, hmem, he⟩ := List.any_eq_true.mp hany
  simp only [Bool.or_eq_true, decide_eq_true_eq] at he
  rcases he with rfl | rfl
  · exact ⟨k, .inl (.inl hmem)⟩
  · exact ⟨k, .inl (.inr hmem)⟩

/-- The active client loses its connection and connects again before the node has processed
either event. -/
def reconnected : List NodeCall :=
  .addClient :: activated ++ [.library 0 (.onDelivery 1), .processEvent,
    .library 0 .onDisconnect, .executeClient 0, .library 0 .onConnect, .processEvent,
    .processEvent, .library 0 .onCommandSubscription, .processEvent]

theorem reconnected_inUse : Along step InUse (create (.plain .pahoAsync)) reconnected := by
  have hnext : Each step (fun n a => n.nextQueued a = true) (create (.plain .pahoAsync))
      reconnected := by decide
  exact inUse_of_picksUp (.plain .pahoAsync) (by decide) reconnected
    (hnext.mono fun _ _ h _ => picksUp_of_nextQueued h)

/-- A second client takes over from the first, and loses its connection. -/
def takenOverLost : List NodeCall :=
  takenOver ++ [.library 1 .onDisconnect, .processEvent, .processEvent]

/-- The first client is still connected, and no client is active. -/
theorem takenOverLost_not_inUse :
    ¬Along step InUse (create (.plain .pahoAsync)) takenOverLost := by
  intro h
  have hw : ∀ i, ¬((run step (create (.plain .pahoAsync)) takenOverLost).client i).cur.Awaits := by
    intro i
    match i with
    | 0 => decide
    | 1 => decide
    | i + 2 => exact fun hw => by cases hw.2.1
  exact absurd (h.last (by decide) hw ⟨0, by decide⟩) (by decide)

end Node

end Sparkplug
