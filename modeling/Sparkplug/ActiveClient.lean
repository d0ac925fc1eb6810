import Sparkplug.Standing
import Sparkplug.BirthOrder

/-!
The node and its clients on who is active.

A primary client is the active one, or it has said that it is active and the event is in
the queue, or it waits for an acknowledgement. A client that is not primary is not the
active one, or the event that it is disconnected is in the queue, and the same goes for
each time the queue says that it is active. It is said which steps leave things so.
-/

namespace Sparkplug.Node

open Machine Client

/-- Each time the queue says that the client is active, it says later that the client is
disconnected. -/
def Settled (i : ClientId) : List (ClientId × ClientEvent) → Prop
  | [] => True
  | x :: q => (x = (i, .active) → (i, .disconnected) ∈ q) ∧ Settled i q

instance Settled.decidable (i : ClientId) : ∀ q, Decidable (Settled i q)
  | [] => inferInstanceAs (Decidable True)
  | x :: q =>
    haveI := Settled.decidable i q
    inferInstanceAs (Decidable ((x = (i, .active) → (i, .disconnected) ∈ q) ∧ Settled i q))

/-- The client is the active one, or the queue says that it is active. -/
def Backed (n : Node) (i : ClientId) : Prop :=
  n.activeClient = some i ∨ (i, .active) ∈ n.eventQueue

/-- Once the queue is processed the client is not the active one. -/
def Resting (n : Node) (i : ClientId) : Prop :=
  (n.activeClient = some i → (i, .disconnected) ∈ n.eventQueue) ∧ Settled i n.eventQueue

instance (n : Node) (i : ClientId) : Decidable (Backed n i) :=
  inferInstanceAs (Decidable (_ ∨ _))

instance (n : Node) (i : ClientId) : Decidable (Resting n i) :=
  inferInstanceAs (Decidable (_ ∧ _))

/-- The node has, or will have, the client's own view of whether it is active. -/
structure Stands (n : Node) (i : ClientId) : Prop where
  primary : (n.client i).cur.isPrimary = true → Backed n i ∨ (n.client i).cur.Awaits
  resting : (n.client i).cur.isPrimary = false → Resting n i

/-! ### The queue -/

lemma Settled.append {i : ClientId} {q : List (ClientId × ClientEvent)} (h : Settled i q)
    {l : List (ClientId × ClientEvent)} (hl : (i, .active) ∉ l) : Settled i (q ++ l) := by
  induction q with
  | nil =>
    clear h
    induction l with
    | nil => trivial
    | cons x l ih =>
      rw [List.mem_cons, not_or] at hl
      exact ⟨fun hx => absurd hx.symm hl.1, ih hl.2⟩
  | cons x q ih => exact ⟨fun hx => List.mem_append_left _ (h.1 hx), ih h.2⟩

lemma settled_append_disconnected {i : ClientId} (q : List (ClientId × ClientEvent))
    {l : List (ClientId × ClientEvent)} (hact : (i, .active) ∉ l)
    (hdisc : (i, .disconnected) ∈ l) : Settled i (q ++ l) := by
  induction q with
  | nil => exact Settled.append (q := []) trivial hact
  | cons x q ih => exact ⟨fun _ => List.mem_append_right _ hdisc, ih⟩

/-- What a client's call adds to the queue. -/
def raisedBy (n : Node) (i : ClientId) (a : ClientCall) : List (ClientId × ClientEvent) :=
  ((n.clientEffects i a).filterMap Effect.raised).map fun e => (i, e)

lemma mem_raisedBy {n : Node} {i j : ClientId} {a : ClientCall} {e : ClientEvent} :
    (j, e) ∈ n.raisedBy i a ↔ j = i ∧ ∃ f ∈ n.clientEffects i a, f.raised = some e := by
  simp [raisedBy, eq_comm, and_comm]

lemma active_mem_raisedBy {n : Node} {i : ClientId} {a : ClientCall} :
    (i, .active) ∈ n.raisedBy i a ↔ .onEvent .active ∈ n.clientEffects i a := by
  rw [mem_raisedBy]
  refine ⟨?_, fun h => ⟨rfl, _, h, rfl⟩⟩
  rintro ⟨-, f, hf, hr⟩
  exact raised_active hr ▸ hf

/-! ### Calls to clients -/

section CallClient

variable {n : Node} {i j : ClientId} {a : ClientCall}

lemma queue_callClient : (n.callClient i a).eventQueue = n.eventQueue ++ n.raisedBy i a :=
  callClient_eventQueue n i a

lemma Backed.callClient (h : Backed n j) : Backed (n.callClient i a) j := by
  refine h.imp (fun h => by rw [callClient_activeClient, h]) fun h => ?_
  rw [queue_callClient]
  exact List.mem_append_left _ h

lemma Resting.callClient (h : Resting n j) (hact : (j, .active) ∉ n.raisedBy i a) :
    Resting (n.callClient i a) j := by
  rw [Resting, callClient_activeClient, queue_callClient]
  exact ⟨fun hj => List.mem_append_left _ (h.1 hj), h.2.append hact⟩

lemma callClient_stands_of_ne (h : Stands n j) (hj : j ≠ i) : Stands (n.callClient i a) j := by
  have hclient : (n.callClient i a).client j = n.client j := by simp [hj]
  refine ⟨fun hp => ?_, fun hp => ?_⟩
  · rw [hclient] at hp ⊢
    exact (h.primary hp).imp_left Backed.callClient
  · rw [hclient] at hp
    exact (h.resting hp).callClient fun hmem => hj (mem_raisedBy.mp hmem).1

lemma callClient_cur : ((n.callClient i a).client i).cur = (n.client i).cur.step a := by simp

/-- A client that is primary afterwards. -/
lemma callClient_stands_primary (hp : ((n.client i).cur.step a).isPrimary = true)
    (h : Backed n i ∨ .onEvent .active ∈ n.clientEffects i a ∨
      ((n.client i).cur.step a).Awaits) : Stands (n.callClient i a) i := by
  refine ⟨fun _ => ?_, fun hn => ?_⟩
  · rcases h with h | h | h
    · exact .inl h.callClient
    · refine .inl (.inr ?_)
      rw [queue_callClient]
      exact List.mem_append_right _ (active_mem_raisedBy.mpr h)
    · exact .inr (callClient_cur ▸ h)
  · rw [callClient_cur, hp] at hn
    cases hn

/-- A client that is not primary afterwards. -/
lemma callClient_stands_resting (hp : ((n.client i).cur.step a).isPrimary = false)
    (hact : .onEvent .active ∉ n.clientEffects i a)
    (h : Resting n i ∨ .onEvent .disconnected ∈ n.clientEffects i a) :
    Stands (n.callClient i a) i := by
  have hno : (i, .active) ∉ n.raisedBy i a := mt active_mem_raisedBy.mp hact
  refine ⟨fun hn => ?_, fun _ => ?_⟩
  · rw [callClient_cur, hp] at hn
    cases hn
  · rcases h with h | h
    · exact h.callClient hno
    · have hdisc : (i, .disconnected) ∈ n.raisedBy i a := mem_raisedBy.mpr ⟨rfl, _, h, rfl⟩
      rw [Resting, queue_callClient]
      exact ⟨fun _ => List.mem_append_right _ hdisc, settled_append_disconnected _ hno hdisc⟩

lemma callClient_stands_keeps (h : Stands n i)
    (hk : Keeps (n.client i).cur ((n.client i).cur.step a)) : Stands (n.callClient i a) i := by
  obtain ⟨l, hl, hq, hdisc⟩ := hk.log
  have heff : n.clientEffects i a = l := Ledger.effects_eq hl
  cases hd : ((n.client i).cur.step a).isPrimary with
  | true =>
    refine callClient_stands_primary hd ?_
    exact (h.primary (hk.isPrimary hd)).imp_right fun hw => .inr (hk.awaits hd hw)
  | false =>
    refine callClient_stands_resting hd (fun hact => ?_) ?_
    · exact absurd (hq _ (heff ▸ hact)) (by simp [Effect.isStanding])
    · rw [heff]
      cases hc : (n.client i).cur.isPrimary with
      | true => exact .inr (hdisc hc hd)
      | false => exact .inl (h.resting hc)

end CallClient

/-! ### Operations -/

/-- The node and its clients agree, or will. -/
def AllStand (n : Node) : Prop := ∀ i, Stands n i

lemma Stands.of_eq {n m : Node} {i : ClientId} (h : Stands n i) (hc : m.client = n.client)
    (ha : m.activeClient = n.activeClient) (hq : m.eventQueue = n.eventQueue) : Stands m i := by
  refine ⟨?_, ?_⟩
  · rw [Backed, hc, ha, hq]
    exact h.primary
  · rw [Resting, hc, ha, hq]
    exact h.resting

lemma callClient_allStand {n : Node} {i : ClientId} {a : ClientCall} (h : ∀ j ≠ i, Stands n j)
    (hi : Stands (n.callClient i a) i) : AllStand (n.callClient i a) := by
  intro j
  by_cases hj : j = i
  · exact hj ▸ hi
  · exact callClient_stands_of_ne (h j hj) hj

lemma keeps_allStand {n : Node} (h : AllStand n) {i : ClientId} {a : ClientCall}
    (hk : Keeps (n.client i).cur ((n.client i).cur.step a)) : AllStand (n.callClient i a) :=
  callClient_allStand (fun j _ => h j) (callClient_stands_keeps (h i) hk)

/-- Publishing says of no client that it is active. -/
lemma publish_settled {n : Node} {i : ClientId} (h : Settled i n.eventQueue) (p : PubId)
    (b : Bool) : Settled i (n.publish p b).eventQueue := by
  obtain ⟨l, hl, hrep⟩ := publish_eventQueue n p b
  rw [hl]
  exact h.append fun hmem => absurd (hrep _ hmem) (by simp [ClientEvent.isReport])

lemma publish_allStand {n : Node} (h : AllStand n) (p : PubId) (b : Bool) :
    AllStand (n.publish p b) := by
  rcases publish_cases n p b with ⟨e, -⟩ | ⟨e, -⟩ | ⟨k, -, e⟩
  · rwa [e]
  · rw [e]
    exact fun i => (h i).of_eq rfl rfl rfl
  · rw [e, requested]
    have hprep : AllStand (n.prepared p b) := fun i => (h i).of_eq (by simp) (by simp) (by simp)
    exact keeps_allStand hprep (request_keeps _ _)

lemma allStand_base : Base AllStand where
  configure _ _ topics h := keeps_allStand h (configure_keeps _ topics)
  pub _ _ _ _ h i := (h i).of_eq rfl rfl rfl
  free _ _ _ _ _ h i := (h i).of_eq rfl rfl rfl

/-- A client that is not primary any more. -/
lemma deactivate_stands {n : Node} {i : ClientId} (h : Resting n i) :
    Stands (n.callClient i .deactivate) i := by
  refine callClient_stands_resting (deactivate_isPrimary _) ?_ (.inl h)
  have heff : n.clientEffects i .deactivate = [] :=
    Ledger.effects_eq (by rw [List.append_nil]; exact deactivate_log _)
  simp [heff]

/-- Before there is another active client, the old one is deactivated. -/
lemma setActiveClient_eq (n : Node) (c : Option ClientId) : ∃ m : Node,
    n.setActiveClient c = (if c.isSome then { m with activeClient := c }.publishBirth
      else { m with activeClient := c }) ∧
    m.eventQueue = n.eventQueue ∧
    (∀ j, n.activeClient = some j → c ≠ some j → (m.client j).cur.isPrimary = false) ∧
    ∀ j, n.activeClient ≠ some j ∨ c = some j → m.client j = n.client j := by
  cases ha : n.activeClient with
  | none => exact ⟨n, by simp [setActiveClient, ha], rfl, by simp, fun _ _ => rfl⟩
  | some old =>
    by_cases hc : c = some old
    · refine ⟨n, by simp [setActiveClient, ha, hc], rfl, fun j hj hcj => ?_, fun _ _ => rfl⟩
      exact absurd (hc.trans hj) hcj
    · refine ⟨n.callClient old .deactivate, by simp [setActiveClient, ha, hc],
        deactivate_eventQueue n old, fun j hj _ => ?_, fun j hj => ?_⟩
      · obtain rfl := Option.some.inj hj
        rw [callClient_cur]
        exact deactivate_isPrimary _
      · have hne : j ≠ old := by
          rintro rfl
          exact hj.elim (absurd rfl) hc
        simp [hne]

/-- There is another active client, or none: the old one is deactivated for good, and the
new one is primary or about to leave. -/
lemma setActiveClient_allStand {n : Node} {c : Option ClientId}
    (hothers : ∀ j, c ≠ some j → n.activeClient ≠ some j → Stands n j)
    (hold : ∀ j, n.activeClient = some j → c ≠ some j → Settled j n.eventQueue)
    (hnew : ∀ j, c = some j → (n.client j).cur.isPrimary = false →
      (j, .disconnected) ∈ n.eventQueue ∧ Settled j n.eventQueue) :
    AllStand (n.setActiveClient c) := by
  obtain ⟨m, heq, hqueue, hidle, hsame⟩ := setActiveClient_eq n c
  have hm : AllStand { m with activeClient := c } := by
    intro j
    by_cases hc : c = some j
    · have hcur : m.client j = n.client j := hsame j (.inr hc)
      refine ⟨fun _ => .inl (.inl hc), fun hp => ?_⟩
      obtain ⟨hdisc, hset⟩ := hnew j hc (by rwa [← hcur])
      exact ⟨fun _ => by rwa [← hqueue] at hdisc, by rwa [← hqueue] at hset⟩
    by_cases ha : n.activeClient = some j
    · refine ⟨fun hp => ?_, fun _ => ⟨fun h => absurd h hc, ?_⟩⟩
      · exact absurd (hp.symm.trans (hidle j ha hc)) (by simp)
      · have hset := hold j ha hc
        rwa [← hqueue] at hset
    · have hj := hothers j hc ha
      have hcur : m.client j = n.client j := hsame j (.inl ha)
      refine ⟨fun hp => ?_, fun hp => ⟨fun h => absurd h hc, ?_⟩⟩
      · rw [show ({ m with activeClient := c } : Node).client j = n.client j from hcur] at hp ⊢
        refine (hj.primary hp).imp_left fun hb => .inr ?_
        exact hqueue ▸ hb.resolve_left ha
      · have hset := (hj.resting (hcur ▸ hp)).2
        rwa [← hqueue] at hset
  rw [heq]
  split
  · exact publishBirth_kept (P := AllStand) (fun _ p h => publish_allStand h p true) hm
  · exact hm

lemma activateClient_allStand {n : Node} (h : AllStand n) {i : ClientId}
    (hc : (n.client i).cur.isPrimary = false → (n.client i).cur.RefusalUnseen → Backed n i) :
    AllStand (n.activateClient i) := by
  cases hp : (n.client i).cur.isPrimary with
  | true => exact keeps_allStand h (activate_keeps hp)
  | false =>
    refine callClient_allStand (fun j _ => h j) ?_
    rcases accepts_or_refuses (n.client i).cur with ha | hr | hr
    · obtain ⟨hprim, hw⟩ := activate_accepted hp ha
      exact callClient_stands_primary hprim (.inr hw.symm)
    · have hseen : ¬RefusalSeen (n.client i).cur := fun h => hr.1 h.1
      exact callClient_stands_primary (activate_isPrimary hp hseen) (.inl (hc hp hr))
    · obtain ⟨hprim, hlog⟩ := activate_refused hp hr
      have heff : n.clientEffects i .activate = [.subscribed false] := Ledger.effects_eq hlog
      exact callClient_stands_resting hprim (by simp [heff]) (.inl ((h i).resting hp))

lemma deactivateClient_allStand {n : Node} {i : ClientId}
    (h : ∀ j, n.activeClient ≠ some j ∨ j ≠ i → Stands n j)
    (hi : n.activeClient = some i → Settled i n.eventQueue) : AllStand (n.deactivateClient i) := by
  by_cases ha : n.activeClient = some i
  · rw [deactivateClient, if_pos ha]
    refine setActiveClient_allStand (fun j _ hj => h j (.inl hj)) (fun j hj _ => ?_) (by simp)
    obtain rfl : i = j := Option.some.inj (ha.symm.trans hj)
    exact hi ha
  · rw [deactivateClient_of_ne ha]
    intro j
    by_cases hj : j = i
    · exact h j (.inl (hj ▸ ha))
    · exact h j (.inr hj)

/-! ### Events -/

/-- The client that is the active one until the event is processed. -/
def unseated (n : Node) (i : ClientId) : ClientEvent → Option ClientId
  | .message topic payload =>
    if n.findsOffline topic payload && !n.leavesAtOnce i topic then n.activeClient.filter (· = i)
    else none
  | .disconnected => n.activeClient.filter (· = i)
  | .active => n.activeClient.filter (· ≠ i)
  | _ => none

/-- Processing the event leaves the node and its clients in agreement: the queue does not say
of a client that is deactivated that it is active, and a refused subscription is seen, or the
client is active anyway. -/
def AgreesAfter (n : Node) (i : ClientId) (e : ClientEvent) : Prop :=
  (∀ k ∈ n.unseated i e, Settled k n.eventQueue) ∧
    (n.activates i e = true → (n.client i).cur.isPrimary = false →
      (n.client i).cur.RefusalUnseen → Backed n i)

instance (n : Node) (i : ClientId) (e : ClientEvent) : Decidable (AgreesAfter n i e) :=
  inferInstanceAs (Decidable (_ ∧ _))

lemma pop_stands {n : Node} {i j : ClientId} {e : ClientEvent}
    {rest : List (ClientId × ClientEvent)} (hq : n.eventQueue = (i, e) :: rest) (h : Stands n j)
    (hact : (i, e) ≠ (j, .active))
    (hdisc : (i, e) = (j, .disconnected) → n.activeClient ≠ some j) :
    Stands { n with eventQueue := rest } j := by
  refine ⟨fun hp => (h.primary hp).imp_left (Or.imp_right fun hmem => ?_), fun hp => ?_⟩
  · rw [hq] at hmem
    exact (List.mem_cons.mp hmem).resolve_left hact.symm
  · obtain ⟨h1, h2⟩ := h.resting hp
    rw [hq] at h1 h2
    exact ⟨fun ha => (List.mem_cons.mp (h1 ha)).resolve_left fun he => hdisc he.symm ha, h2.2⟩

lemma onMessage_allStand {n : Node} (h : AllStand n) (i : ClientId) (topic payload : Str)
    (hc : AgreesAfter n i (.message topic payload)) : AllStand (n.onMessage i topic payload) := by
  obtain ⟨hset, hact⟩ := hc
  have hnote : ∀ m : Node, m = n.noteHost i topic payload → m.client = n.client ∧
      m.activeClient = n.activeClient ∧ m.eventQueue = n.eventQueue ∧
      m.isHostTopic topic = n.isHostTopic topic ∧
      m.leavesAtOnce i topic = n.leavesAtOnce i topic := by
    rintro m rfl
    unfold noteHost
    split
    all_goals exact ⟨rfl, rfl, rfl, rfl, rfl⟩
  simp only [onMessage]
  generalize hm : n.noteHost i topic payload = m
  obtain ⟨hclient, hactive, hqueue, htopic, hleaves⟩ := hnote m hm.symm
  have hall : AllStand m := fun j => (h j).of_eq hclient hactive hqueue
  split
  · exact hall
  next hstay =>
  have hsame := onCommandMessage_same m i topic payload
  have hcmd : AllStand (m.onCommandMessage i topic payload) :=
    onCommandMessage_kept (P := AllStand) (fun _ p h => publish_allStand h p true)
      (fun _ h j => (h j).of_eq rfl rfl rfl) hall i topic payload
  simp only [onHostState]
  split
  swap
  · exact hcmd
  next ht =>
  have ht' : n.isHostTopic topic = true := by rwa [hsame.isHostTopic, htopic] at ht
  split
  · next hon =>
    split
    · next hne =>
      rw [hsame.activeClient] at hne
      rw [onCommandMessage_of_ne hne]
      refine activateClient_allStand hall ?_
      rw [hclient, Backed, hactive, hqueue]
      exact hact (by simp [activates, ht', hon, hactive ▸ hne])
    · exact hcmd
  · next hon =>
    split
    · next hoff =>
      split
      · next ha =>
        rw [hsame.activeClient, hactive] at ha
        refine deactivateClient_allStand (fun j _ => hcmd j) fun _ => ?_
        refine onCommandMessage_kept (P := fun n => Settled i n.eventQueue)
          (fun _ p h => publish_settled h p true) (fun _ h => h) ?_ i topic payload
        have hsays : n.findsOffline topic payload = true := by simp [findsOffline, ht', hon, hoff]
        have hstay' : n.leavesAtOnce i topic = false := by simpa [hleaves] using hstay
        rw [hqueue]
        exact hset i (by simp [unseated, hsays, hstay', ha])
      · exact hcmd
    · exact hcmd

lemma handleEvent_allStand {n : Node} (h : AllStand n) {i : ClientId} {e : ClientEvent}
    {rest : List (ClientId × ClientEvent)} (hq : n.eventQueue = (i, e) :: rest)
    (hc : AgreesAfter { n with eventQueue := rest } i e) :
    AllStand ({ n with eventQueue := rest }.handleEvent i e) := by
  have hpop : e ≠ .active → e ≠ .disconnected → AllStand { n with eventQueue := rest } := by
    intro hact hdisc j
    exact pop_stands hq (h j) (by simp [hact]) (by simp [hdisc])
  cases e with
  | message topic payload => exact onMessage_allStand (hpop (by simp) (by simp)) i topic payload hc
  | connected =>
    have hforget : AllStand ({ n with eventQueue := rest }.forgetHost i) :=
      fun j => (hpop (by simp) (by simp) j).of_eq rfl rfl rfl
    simp only [handleEvent]
    split
    · next hm =>
      have hmode : n.hostMode = .single := hm
      exact activateClient_allStand hforget (hc.2 (by simp [activates, hmode]))
    · exact hforget
  | disconnected =>
    refine deactivateClient_allStand (fun j hj => ?_) fun ha => ?_
    · refine (pop_stands hq (h j) (by simp) fun he => ?_).of_eq rfl rfl rfl
      exact hj.resolve_right fun hne => hne (by simpa using he.symm)
    · have ha' : n.activeClient = some i := ha
      exact hc.1 i (by simp [unseated, ha'])
  | active =>
    refine setActiveClient_allStand (n := { n with eventQueue := rest }) (c := some i)
      (fun j hj _ => ?_) (fun j ha hj => ?_) fun j hj hp => ?_
    · exact pop_stands hq (h j) (fun he => hj (by simpa using congrArg Prod.fst he)) (by simp)
    · have hne : j ≠ i := fun he => hj (he ▸ rfl)
      have ha' : n.activeClient = some j := ha
      exact hc.1 j (by simp [unseated, ha', hne])
    · obtain rfl := Option.some.inj hj
      have hset := ((h i).resting hp).2
      rw [hq] at hset
      exact ⟨hset.1 rfl, hset.2⟩
  | deactive => exact hpop (by simp) (by simp)
  | delivered p => exact fun j => (hpop (by simp) (by simp) j).of_eq rfl rfl rfl
  | undelivered p => exact fun j => (hpop (by simp) (by simp) j).of_eq rfl rfl rfl

/-! ### Whole runs -/

/-- The action leaves the node and its clients in agreement. A client that is stopped, or
ceases to be primary without an event, is not the active one once the queue is processed;
one that stops waiting and stays primary is the active one or has said so. -/
def KeepsAgreement (n : Node) : NodeCall → Prop
  | .stopClient i => i ∈ n.clients → (n.client i).cur.isPrimary = true → Resting n i
  | .library i l => i ∈ n.clients →
    ((n.client i).cur.forgets l = true → Backed n i) ∧
      ((n.client i).cur.drops l = true → Resting n i)
  | .processEvent => ∀ x ∈ n.eventQueue.head?,
    AgreesAfter { n with eventQueue := n.eventQueue.tail } x.1 x.2
  | _ => True

instance KeepsAgreement.decidable (n : Node) : ∀ a, Decidable (KeepsAgreement n a)
  | .stopClient i =>
    inferInstanceAs (Decidable (i ∈ n.clients → (n.client i).cur.isPrimary = true → Resting n i))
  | .library i _ => inferInstanceAs (Decidable (i ∈ n.clients → _ ∧ _))
  | .processEvent => inferInstanceAs (Decidable (∀ x ∈ n.eventQueue.head?, AgreesAfter _ _ _))
  | .addClient | .addDevice _ | .enable | .executeClient _ | .poll .. | .requestPublish ..
  | .setValue .. | .setProperty .. | .update .. | .setTime _ => inferInstanceAs (Decidable True)

lemma library_allStand {n : Node} (h : AllStand n) (i : ClientId) (l : LibraryCall)
    (hforgets : (n.client i).cur.forgets l = true → Backed n i)
    (hdrops : (n.client i).cur.drops l = true → Resting n i) :
    AllStand (n.callClient i (.library l)) := by
  rcases callback_cases (n.client i).cur l with ⟨hk, -⟩ | ⟨hp, hact⟩ | ⟨hp, hlog, hd⟩
  · exact keeps_allStand h hk
  · refine callClient_allStand (fun j _ => h j) (callClient_stands_primary hp ?_)
    exact hact.elim (fun ha => .inr (.inl ha)) fun hf => .inl (hforgets hf)
  · have heff : n.clientEffects i (.library l) = [] :=
      Ledger.effects_eq (hlog.trans (List.append_nil _).symm)
    exact callClient_allStand (fun j _ => h j)
      (callClient_stands_resting hp (by simp [heff]) (.inl (hdrops hd)))

lemma stopClient_allStand {n : Node} (h : AllStand n) (i : ClientId)
    (hc : (n.client i).cur.isPrimary = true → Resting n i) : AllStand (n.stopClient i) := by
  have hdeact : AllStand (n.callClient i .deactivate) := by
    cases hp : (n.client i).cur.isPrimary with
    | true => exact callClient_allStand (fun j _ => h j) (deactivate_stands (hc hp))
    | false => exact keeps_allStand h (deactivate_keeps hp)
  refine keeps_allStand hdeact (disconnect_keeps fun _ => ?_)
  rw [callClient_cur]
  exact deactivate_isPrimary _

lemma step_allStand {n : Node} (h : AllStand n) (a : NodeCall)
    (hc : n.faulted = false → KeepsAgreement n a) : AllStand (n.step a) := by
  by_cases hf : n.faulted = true
  · rw [step, if_pos hf]
    exact h
  have hc := hc (by simpa using hf)
  refine step_of allStand_base (fun _ p b hn => publish_allStand hn p b) h a ?_ ?_ ?_ ?_
  · exact fun i _ => keeps_allStand h (execute_keeps _)
  · rintro i rfl hi
    exact stopClient_allStand h i (hc hi)
  · rintro i l rfl hi
    exact library_allStand h i l (hc hi).1 (hc hi).2
  · rintro i e rest rfl hq
    refine handleEvent_allStand h hq ?_
    have hx := hc (i, e) (by simp [hq])
    rwa [hq] at hx

/-- With no events left and no subscription awaited, the primary client is the active one. -/
def Agrees (n : Node) : Prop :=
  n.eventQueue = [] → (∀ i, ¬(n.client i).cur.Awaits) →
    ∀ i, (n.client i).cur.isPrimary = true ↔ n.activeClient = some i

lemma AllStand.agrees {n : Node} (h : AllStand n) : Agrees n := by
  intro hq hw i
  refine ⟨fun hp => ?_, fun ha => ?_⟩
  · have hb := ((h i).primary hp).resolve_right (hw i)
    exact hb.resolve_right (by simp [hq])
  · by_contra hp
    have hdisc := ((h i).resting (by simpa using hp)).1 ha
    simp [hq] at hdisc

/-- **The node and its clients agree on who is active** in every run whose steps keep the
agreement. -/
theorem agrees_of_keepsAgreement (s : NodeSetup) (calls : List NodeCall)
    (h : Each step (fun n a => n.faulted = false → KeepsAgreement n a) (create s) calls) :
    Along step Agrees (create s) calls := by
  have h0 : AllStand (create s) := by
    refine fun i => ⟨fun hp => ?_, fun _ => ⟨fun ha => ?_, trivial⟩⟩
    · cases hp
    · cases ha
  have halong : Along step AllStand (create s) calls :=
    along_of_each (fun _ a hn hc => step_allStand hn a hc) h0 h
  exact halong.mono fun _ => AllStand.agrees

/-- A client is activated, and then a second one. -/
def takenOver : List NodeCall :=
  [.addClient, .addClient, .enable, .executeClient 0, .library 0 .onConnect, .processEvent,
    .library 0 .onCommandSubscription, .processEvent, .executeClient 1, .library 1 .onConnect,
    .processEvent, .library 1 .onCommandSubscription, .processEvent]

theorem takenOver_agrees : Along step Agrees (create (.plain .pahoAsync)) takenOver :=
  agrees_of_keepsAgreement (.plain .pahoAsync) takenOver (by decide)

/-- A client is activated, and the node is stopped. -/
def stoppedActive : List NodeCall :=
  [.addClient, .enable, .executeClient 0, .library 0 .onConnect, .processEvent,
    .library 0 .onCommandSubscription, .processEvent, .stopClient 0]

/-- The client is still the active one, and is not primary. -/
theorem stoppedActive_not_agrees :
    ¬Along step Agrees (create (.plain .pahoAsync)) stoppedActive := by
  intro h
  have hw : ∀ i, ¬((run step (create (.plain .pahoAsync)) stoppedActive).client i).cur.Awaits := by
    intro i
    cases i with
    | zero => decide
    | succ i => exact fun hw => by cases hw.2.1
  have hp := (h.last (by decide) hw 0).mpr (by decide)
  exact absurd hp (by decide)

end Sparkplug.Node
