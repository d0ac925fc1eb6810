import Sparkplug.NodeClients
import Sparkplug.Births

/-!
Births before data, on the wires of a node.

The node keeps no record of which births a client has been asked for. So the stream of the
active client is in order as long as no data is published of a device whose birth was not
requested, no client is activated with requests left over, and no birth is lost.
-/

namespace Sparkplug.Node

open Machine Client Announcements

/-- No client had a message accepted after it had lost a birth. -/
def NothingLate (n : Node) : Prop := ∀ i, (sent (n.client i).cur.log).late = false

/-- All these names are known. -/
def Knows (k : Known ℕ) (ds : List ℕ) : Prop := ∃ K, k = some K ∧ ∀ d ∈ ds, d ∈ K

/-- The clients are in order, and what was born the active client knows. -/
structure Sound (n : Node) : Prop where
  orderly : ∀ i, Orderly (n.client i).cur
  promised : ∀ i, n.activeClient = some i → (n.client i).cur.isPrimary = true →
    (sent (n.client i).cur.log).lost = false → Knows (n.client i).cur.promised n.born

/-- The invariant: a node is sound unless something was late. -/
def InTime (n : Node) : Prop := NothingLate n → Sound n

/-! ### Calls to clients -/

lemma callClient_nothingLate {n : Node} {i : ClientId} {a : ClientCall}
    (h : NothingLate (n.callClient i a)) : NothingLate n := by
  intro j
  have hj := h j
  rw [callClient_client] at hj
  split at hj
  · next hji =>
    subst hji
    refine late_of_grown ?_ hj
    rw [Traced.act_cur, ← taken_log (n.client j).cur a]
    exact Ledger.Steps.log (step_steps _ a)
  · exact hj

lemma callClient_inTime {n : Node} (h : InTime n) (i : ClientId) {a : ClientCall}
    (ha : a ≠ .activate) (hr : ∀ r, a ≠ .request r) (hg : GivenOut a) :
    InTime (n.callClient i a) := by
  intro hlate
  have hn := h (callClient_nothingLate hlate)
  have htaken : (n.client i).cur.taken a = (n.client i).cur := by
    cases a <;> first | rfl | exact absurd rfl ha | exact absurd rfl (hr _)
  have hi := hlate i
  rw [callClient_client, if_pos rfl, Traced.act_cur] at hi
  obtain ⟨ho, hp⟩ := step_orderly ha hg (htaken.symm ▸ hn.orderly i) hi
  rw [htaken] at hp
  refine ⟨?_, ?_⟩
  · intro j
    rw [callClient_client]
    split
    · exact ho
    · exact hn.orderly j
  · intro j hj hprim hlost
    rw [callClient_activeClient] at hj
    rw [callClient_born]
    rw [callClient_client] at hprim hlost ⊢
    split at hprim
    · next hji =>
      subst hji
      rw [if_pos rfl] at hlost ⊢
      rw [Traced.act_cur, (hp.2 hlost).2]
      exact hn.promised j hj (hp.1 hprim) (hp.2 hlost).1
    · next hji =>
      rw [if_neg hji] at hlost ⊢
      exact hn.promised j hj hprim hlost

/-- A client that is activated is primary already, or has nothing left over and is not the
active one. -/
def CleanStart (n : Node) (i : ClientId) : Prop :=
  (n.client i).cur.isPrimary = true ∨
    (n.client i).cur.publishQueue = [] ∧ n.activeClient ≠ some i

instance (n : Node) (i : ClientId) : Decidable (CleanStart n i) :=
  inferInstanceAs (Decidable (_ ∨ _ ∧ _))

lemma activateClient_inTime {n : Node} (h : InTime n) {i : ClientId} (hc : CleanStart n i) :
    InTime (n.activateClient i) := by
  intro hlate
  have hn := h (callClient_nothingLate hlate)
  cases hp : (n.client i).cur.isPrimary with
  | true =>
    have hsame : ∀ j, ((n.activateClient i).client j).cur = (n.client j).cur := by
      intro j
      rw [activateClient, callClient_client]
      split
      · next hj => rw [hj]; exact activate_of_isPrimary hp
      · rfl
    refine ⟨?_, ?_⟩
    · exact fun j => hsame j ▸ hn.orderly j
    · intro j hj
      rw [hsame, activateClient, callClient_born]
      rw [activateClient, callClient_activeClient] at hj
      exact hn.promised j hj
  | false =>
    obtain ⟨hq, hactive⟩ := hc.resolve_left (by simp [hp])
    refine ⟨?_, ?_⟩
    · intro j
      rw [activateClient, callClient_client]
      split
      · exact (hn.orderly i).activate hp hq
      · exact hn.orderly j
    · intro j hj
      rw [activateClient, callClient_activeClient] at hj
      have hji : j ≠ i := fun e => hactive (e ▸ hj)
      rw [activateClient, callClient_client, if_neg hji, callClient_born]
      exact hn.promised j hj

/-! ### Publishing -/

lemma requested_nothingLate {n : Node} {p : PubId} {b : Bool} {i : ClientId}
    (h : NothingLate (n.requested p b i)) : NothingLate n := by
  have := callClient_nothingLate h
  rwa [NothingLate, prepared_client] at this

/-- A request that the active client can go on with. -/
lemma requested_sound {n : Node} {p : PubId} {b : Bool} {i : ClientId}
    (ho : ∀ j, Orderly (n.client j).cur) (hactive : n.activeClient = some i)
    (hnext : (sent (n.client i).cur.log).lost = false → (n.client i).cur.isPrimary = true →
      (n.client i).cur.promised.Allows (n.requestFor p b).entry ∧
        Knows ((n.client i).cur.promised.next (n.requestFor p b).entry) (n.prepared p b).born)
    (hlate : NothingLate (n.requested p b i)) : Sound (n.requested p b i) := by
  have hclient : ∀ j, (n.requested p b i).client j =
      if j = i then (n.client i).act (.request (n.requestFor p b)) else n.client j := by
    simp [requested]
  obtain ⟨hq, hpromised⟩ := (ho i).enqueue (r := n.requestFor p b) rfl (by simp [requestFor])
    fun hlost hprim => (hnext hlost hprim).1
  have hi := hlate i
  rw [hclient, if_pos rfl] at hi
  obtain ⟨hd, hp⟩ := step_orderly (a := .request (n.requestFor p b)) (by simp) trivial hq hi
  refine ⟨?_, ?_⟩
  · intro j
    rw [hclient]
    split
    · exact hd
    · exact ho j
  · intro j hj hprim hlost
    rw [requested, callClient_activeClient, prepared_activeClient, hactive] at hj
    obtain rfl : i = j := Option.some.inj hj
    have hborn : (n.requested p b i).born = (n.prepared p b).born := callClient_born ..
    rw [hborn, hclient, if_pos rfl]
    rw [hclient, if_pos rfl] at hprim hlost
    have hbefore := hp.2 hlost
    rw [Traced.act_cur, hbefore.2]
    exact hpromised ▸ (hnext hbefore.1 (hp.1 hprim)).2

/-- A birth of the node begins a new epoch, whatever was before. -/
lemma nodeBirth_inTime {n : Node} (h : NothingLate n → ∀ i, Orderly (n.client i).cur) :
    InTime (n.publish .node true) := by
  rcases publish_cases n .node true with ⟨-, h, -⟩ | ⟨e, ha⟩ | ⟨i, hactive, e⟩
  · cases h
  · rw [e]
    intro hlate
    exact ⟨h hlate, fun i hi => by simp [ha] at hi⟩
  · rw [e]
    intro hlate
    exact requested_sound (h (requested_nothingLate hlate)) hactive
      (fun _ _ => ⟨trivial, ∅, rfl, fun d hd => by cases hd⟩) hlate

lemma publish_inTime {n : Node} (h : InTime n) {p : PubId} {b : Bool}
    (hb : b = false → ∀ d, p = .device d → d ∈ n.born) : InTime (n.publish p b) := by
  rcases publish_cases n p b with ⟨e, -⟩ | ⟨e, ha⟩ | ⟨i, hactive, e⟩
  · rwa [e]
  · rw [e]
    intro hlate
    exact ⟨(h hlate).orderly, fun i hi => by simp [ha] at hi⟩
  · rw [e]
    intro hlate
    have hn := h (requested_nothingLate hlate)
    refine requested_sound hn.orderly hactive (fun hlost hprim => ?_) hlate
    obtain ⟨K, hK, hborn⟩ := hn.promised i hactive hprim hlost
    rw [hK]
    cases p with
    | node =>
      cases b with
      | true => exact ⟨trivial, ∅, rfl, fun d hd => by cases hd⟩
      | false => exact ⟨trivial, K, rfl, hborn⟩
    | device d =>
      cases b with
      | true =>
        refine ⟨trivial, insert d K, rfl, fun x hx => ?_⟩
        rcases List.mem_cons.mp hx with rfl | hx
        · exact Set.mem_insert _ K
        · exact Set.mem_insert_of_mem _ (hborn x hx)
      | false => exact ⟨hborn d (hb rfl d rfl), K, rfl, hborn⟩

lemma publishBirth_inTime {n : Node} (h : NothingLate n → ∀ i, Orderly (n.client i).cur) :
    InTime n.publishBirth :=
  deviceBirths_kept (P := InTime) (fun _ _ hn => publish_inTime hn (by simp)) (nodeBirth_inTime h)

/-! ### Actions -/

lemma inTime_quiet : Quiet InTime where
  client n i a ha h := by
    refine callClient_inTime h i ?_ (fun r => ?_) ?_
    · rintro rfl
      cases ha
    · rintro rfl
      cases ha
    · cases a <;> trivial
  pub _ _ _ _ _ h := fun hlate => ⟨(h hlate).orderly, (h hlate).promised⟩
  free _ _ _ _ _ h := fun hlate => ⟨(h hlate).orderly, (h hlate).promised⟩

lemma deactivateClient_inTime {n : Node} (h : InTime n) (i : ClientId) :
    InTime (n.deactivateClient i) := by
  by_cases hi : n.activeClient = some i
  · rw [deactivateClient_of_eq hi]
    intro hlate
    have hn := callClient_inTime h i (a := .deactivate) (by simp) (by simp) trivial hlate
    exact ⟨hn.orderly, fun j hj => by cases hj⟩
  · rwa [deactivateClient_of_ne hi]

lemma setActiveClient_inTime {n : Node} (h : InTime n) (i : ClientId) :
    InTime (n.setActiveClient (some i)) := by
  have hbirth : ∀ m : Node, InTime m → InTime { m with activeClient := some i }.publishBirth :=
    fun m hm => publishBirth_inTime fun hlate => (hm hlate).orderly
  simp only [setActiveClient, Option.isSome_some, if_true]
  split
  · next old _ =>
    split
    · exact hbirth _ (callClient_inTime h old (by simp) (by simp) trivial)
    · exact hbirth _ h
  · exact hbirth _ h

lemma setHostStates_inTime {n : Node} (h : InTime n) (i : ClientId) (l : List Str) :
    InTime (n.setHostStates i l) :=
  fun hlate => ⟨(h hlate).orderly, (h hlate).promised⟩

lemma onCommandMessage_inTime {n : Node} (h : InTime n) (i : ClientId) (topic payload : Str) :
    InTime (n.onCommandMessage i topic payload) :=
  onCommandMessage_kept (P := InTime) (fun _ _ hn => publish_inTime hn (by simp))
    (fun _ hn hlate => ⟨(hn hlate).orderly, (hn hlate).promised⟩) h i topic payload

/-- The event makes the node activate the client. -/
def activates (n : Node) (i : ClientId) : ClientEvent → Bool
  | .message topic payload =>
    n.isHostTopic topic && contains payload online && n.activeClient ≠ some i
  | .connected => n.hostMode = .single
  | _ => false

lemma onCommandMessage_of_ne {n : Node} {i : ClientId} (h : n.activeClient ≠ some i)
    (topic payload : Str) : n.onCommandMessage i topic payload = n := if_neg h

lemma onHostState_inTime {n : Node} (h : InTime n) (i : ClientId) (topic payload : Str)
    (hc : n.activates i (.message topic payload) = true → CleanStart n i) :
    InTime (n.onHostState i topic payload) := by
  unfold onHostState
  split
  · next ht =>
    split
    · next hon =>
      split
      · next ha => exact activateClient_inTime h (hc (by simp [activates, ht, hon, ha]))
      · exact h
    · split
      · split
        · exact deactivateClient_inTime h i
        · exact h
      · exact h
  · exact h

lemma onMessage_inTime {n : Node} (h : InTime n) (i : ClientId) (topic payload : Str)
    (hc : n.activates i (.message topic payload) = true → CleanStart n i) :
    InTime (n.onMessage i topic payload) := by
  have hnote : ∀ m : Node, m = n.noteHost i topic payload → InTime m ∧ m.client = n.client ∧
      m.activeClient = n.activeClient ∧ m.clientTopics = n.clientTopics := by
    rintro m rfl
    unfold noteHost
    split
    · exact ⟨setHostStates_inTime h i _, rfl, rfl, rfl⟩
    · exact ⟨h, rfl, rfl, rfl⟩
  simp only [onMessage]
  generalize hm : n.noteHost i topic payload = m
  obtain ⟨hin, hclient, hactive, htopics⟩ := hnote m hm.symm
  split
  · exact hin
  · have hsame := onCommandMessage_same m i topic payload
    refine onHostState_inTime (onCommandMessage_inTime hin i topic payload) i topic payload ?_
    intro hact
    rw [activates, isHostTopic, hsame.topics, hsame.activeClient, htopics, hactive] at hact
    -- a client that is not the active one is not listened to
    have hne : n.activeClient ≠ some i := by simp at hact; exact hact.2
    rw [onCommandMessage_of_ne (hactive ▸ hne), CleanStart, hclient, hactive]
    exact hc hact

lemma handleEvent_inTime {n : Node} (h : InTime n) (i : ClientId) (e : ClientEvent)
    (hc : n.activates i e = true → CleanStart n i) : InTime (n.handleEvent i e) := by
  cases e with
  | message topic payload => exact onMessage_inTime h i topic payload hc
  | connected =>
    simp only [handleEvent]
    split
    · next hm =>
      have hmode : n.hostMode = .single := hm
      exact activateClient_inTime (setHostStates_inTime h i []) (hc (by simp [activates, hmode]))
    · exact setHostStates_inTime h i []
  | disconnected => exact deactivateClient_inTime (setHostStates_inTime h i []) i
  | active => exact setActiveClient_inTime h i
  | deactive => exact h
  | delivered p => exact fun hlate => ⟨(h hlate).orderly, (h hlate).promised⟩
  | undelivered p => exact fun hlate => ⟨(h hlate).orderly, (h hlate).promised⟩

/-! ### Whole runs -/

/-- The device whose data an action publishes. -/
def publishedDevice (n : Node) : NodeCall → Option ℕ
  | .poll (.device d) elapsed =>
    if n.enabled && n.activeClient.isSome && n.owns (.device d) &&
        ((n.pub (.device d)).cur.step (.update elapsed)).canPublish then some d else none
  | .requestPublish (.device d) false =>
    if n.owns (.device d) && (n.pub (.device d)).cur.canPublish then some d else none
  | _ => none

/-- The client an action activates. -/
def activatedClient (n : Node) : NodeCall → Option ClientId
  | .processEvent => (n.eventQueue.head?.filter fun e => n.activates e.1 e.2).map Prod.fst
  | _ => none

/-- The token whose failure a library reports. -/
def failedToken : NodeCall → Option ℤ
  | .library _ (.onDeliveryFailure token) => some token
  | _ => none

/-- The birth of a device whose data is published was requested since the last birth of the
node, a client that is activated starts clean, and a library reports the failure of no token
that it cannot have given out. -/
def KeepsOrder (n : Node) (a : NodeCall) : Prop :=
  (∀ d ∈ n.publishedDevice a, d ∈ n.born) ∧ (∀ i ∈ n.activatedClient a, CleanStart n i) ∧
    ∀ token ∈ failedToken a, 0 ≤ token

instance (n : Node) (a : NodeCall) : Decidable (KeepsOrder n a) :=
  inferInstanceAs (Decidable (_ ∧ _ ∧ _))

lemma poll_inTime {n : Node} (h : InTime n) (p : PubId) (elapsed : ℤ)
    (hc : ∀ d ∈ n.publishedDevice (.poll p elapsed), d ∈ n.born) : InTime (n.poll p elapsed) := by
  have hupdate : InTime (n.callPub p (.update elapsed)) :=
    fun hlate => ⟨(h hlate).orderly, (h hlate).promised⟩
  simp only [poll]
  split
  · next ht =>
    split
    · next hcan =>
      refine publish_inTime hupdate ?_
      rintro - d rfl
      rw [callPub_pub, if_pos rfl, Traced.act_cur] at hcan
      exact hc d (by simp [publishedDevice, ht, hcan])
    · exact hupdate
  · exact h

lemma requestPublish_inTime {n : Node} (h : InTime n) (p : PubId) (b : Bool)
    (hc : ∀ d ∈ n.publishedDevice (.requestPublish p b), d ∈ n.born) :
    InTime (n.requestPublish p b) := by
  unfold requestPublish
  split
  · next ht =>
    by_cases hpub : b = false ∧ (n.pub p).cur.canPublish = false
    · have hsame : n.publish p b = n := by simp [publish, hpub]
      rwa [hsame]
    · refine publish_inTime h ?_
      rintro rfl d rfl
      have hcan : (n.pub (.device d)).cur.canPublish = true := by simpa using hpub
      exact hc d (by simp [publishedDevice, ht, hcan])
  · exact h

lemma step_inTime {n : Node} (h : InTime n) (a : NodeCall) (hc : KeepsOrder n a) :
    InTime (n.step a) := by
  obtain ⟨hborn, hclean, htoken⟩ := hc
  unfold step
  split
  · exact h
  · cases a with
    | processEvent =>
      simp only [handle, processEvent]
      split
      · exact h
      · next i e rest hq =>
        have hpop : InTime { n with eventQueue := rest } :=
          fun hlate => ⟨(h hlate).orderly, (h hlate).promised⟩
        refine handleEvent_inTime hpop i e fun ha => ?_
        have hi : n.activates i e = true := ha
        exact hclean i (by simp [activatedClient, hq, Option.filter, hi])
    | poll p elapsed => exact poll_inTime h p elapsed hborn
    | requestPublish p b => exact requestPublish_inTime h p b hborn
    | library i l =>
      simp only [handle]
      split
      · refine callClient_inTime h i (by simp) (by simp) ?_
        cases l with
        | onDeliveryFailure token => exact htoken token rfl
        | _ => trivial
      · exact h
    | _ => exact handle_quiet inTime_quiet h rfl

lemma create_sound (s : NodeSetup) : Sound (create s) where
  orderly i := by
    refine ⟨?_, ?_, ?_, inOrder_nil, ?_⟩ <;> intro r hr <;> cases hr
  promised i hi := by cases hi

/-- **Births come before data** on every wire, in every run whose actions keep the order and
in which no client had a message accepted after it had lost a birth. -/
theorem inOrder_of_keepsOrder (s : NodeSetup) (calls : List NodeCall)
    (h : Each step KeepsOrder (create s) calls)
    (hlate : NothingLate (run step (create s) calls)) (i : ClientId) :
    InOrder (clientRun s calls i).cur.wire := by
  have h0 : InTime (create s) := fun _ => create_sound s
  have hin := (along_of_each (P := InTime) (C := KeepsOrder)
    (fun _ a hn hc => step_inTime hn a hc) h0 h).last
  exact ((hin hlate).orderly i).wire

/-- An asynchronous client connects and is activated. -/
def activated : List NodeCall :=
  [.enable, .executeClient 0, .library 0 .onConnect, .processEvent,
    .library 0 .onCommandSubscription, .processEvent]

/-- The metric of the device is set and becomes due, and is published. -/
def deviceData : List NodeCall :=
  [.setValue (.device 0) 0 [1], .update (.device 0) 30, .requestPublish (.device 0) false]

/-- The births of the node and its device are delivered, then the device publishes data. -/
def bornThenData : List NodeCall :=
  .addClient :: .addDevice 0 :: activated ++
    [.library 0 (.onDelivery 1), .library 0 (.onDelivery 1), .processEvent, .processEvent] ++
    deviceData

theorem bornThenData_inOrder : InOrder (clientRun .oneMetric bornThenData 0).cur.wire := by
  have hlate : NothingLate (run step (create .oneMetric) bornThenData) := by
    intro i
    cases i with
    | zero => decide
    | succ i => rfl
  exact inOrder_of_keepsOrder .oneMetric bornThenData (by decide) hlate 0

/-- A device is added after the birth of the node was delivered, and publishes data. -/
def dataUnborn : List NodeCall :=
  .addClient :: activated ++ [.library 0 (.onDelivery 1), .processEvent, .addDevice 0] ++
    deviceData

/-- The data of the device is on the wire, and no birth of it. -/
theorem dataUnborn_not_inOrder : ¬InOrder (clientRun .oneMetric dataUnborn 0).cur.wire := by
  have hwire : (clientRun .oneMetric dataUnborn 0).cur.wire = [.root] ++ [.use (some 0)] := by
    decide
  rw [hwire, inOrder_snoc]
  rintro ⟨-, hallows⟩
  exact hallows

end Sparkplug.Node
