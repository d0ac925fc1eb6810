import Sparkplug.Channels
import Sparkplug.Publishing

/-!
From the request to the report.

A request goes to the queue of the active client, its report to the queue of events, and
the node takes the events from there. Nothing is lost, doubled or overtaken on the way, so
every publishable is published as often as it is reported, but for what is on the way.
-/

namespace Sparkplug

open Machine Channels

def PublishableCall.isPublishing : PublishableCall → Bool
  | .publishing => true
  | _ => false

def PublishableCall.isPublished : PublishableCall → Bool
  | .published => true
  | _ => false

namespace Node

/-! ### The queue of events -/

/-- The events client `i` has raised. -/
def raised (n : Node) (i : ClientId) : List ClientEvent :=
  (n.client i).cur.log.filterMap Effect.raised

/-- The event an action takes from the queue. -/
def takes (n : Node) : NodeCall → List (ClientId × ClientEvent)
  | .processEvent => if n.faulted then [] else n.eventQueue.head?.toList
  | _ => []

/-- The events processed in a run of a new node. -/
def processed (s : NodeSetup) (calls : List NodeCall) : List (ClientId × ClientEvent) :=
  outputs step takes (create s) calls

/-- The events in `l` were processed, those in the queue are still to come. -/
def Relayed (l : List (ClientId × ClientEvent)) (n : Node) : Prop :=
  Delivers n.raised l n.eventQueue

section Relayed

variable {l : List (ClientId × ClientEvent)} {n : Node}

lemma callClient_raised (n : Node) (i : ClientId) (a : ClientCall) : (n.callClient i a).raised =
    fun j => if j = i then n.raised i ++ (n.clientEffects i a).filterMap Effect.raised
      else n.raised j := by
  obtain ⟨m, hlog, -⟩ := Ledger.step_conserves (n.client i).cur a
  rw [Client.taken_log] at hlog
  have heff : n.clientEffects i a = m := Ledger.effects_eq hlog
  funext j
  by_cases hj : j = i
  · simp [raised, hj, hlog, heff]
  · simp [raised, hj]

lemma Relayed.callClient (h : Relayed l n) (i : ClientId) (a : ClientCall) :
    Relayed l (n.callClient i a) := by
  rw [Relayed, callClient_raised, callClient_eventQueue]
  exact Delivers.send h i _

lemma Relayed.publish (h : Relayed l n) (p : PubId) (b : Bool) : Relayed l (n.publish p b) := by
  rcases publish_cases n p b with ⟨e, -⟩ | ⟨e, -⟩ | ⟨i, -, e⟩
  · rwa [e]
  · rw [e]
    exact h
  · rw [e, requested]
    refine Relayed.callClient ?_ i _
    have hraised : (n.prepared p b).raised = n.raised := by
      funext j
      simp [raised]
    rw [Relayed, hraised, prepared_eventQueue]
    exact h

lemma relayed_base (l : List (ClientId × ClientEvent)) : Base (Relayed l) where
  configure _ i _ h := h.callClient i _
  pub _ _ _ _ h := h
  free _ _ _ _ _ h := h

lemma relayed_handled (l : List (ClientId × ClientEvent)) : HandleKept (Relayed l) where
  publish _ p b h := h.publish p b
  deactivate _ i h := h.callClient i _
  activate _ i h := h.callClient i _
  hostStates _ _ h := h
  activeClient _ _ h := h
  fault _ h := h

lemma handleEvent_relayed (h : Relayed l n) (i : ClientId) (e : ClientEvent) :
    Relayed l (n.handleEvent i e) := by
  cases e with
  | delivered p | undelivered p => exact h
  | _ => exact handleEvent_kept (relayed_handled l) h i rfl

lemma step_relayed (n : Node) (l : List (ClientId × ClientEvent)) (a : NodeCall) (h : Relayed l n) :
    Relayed (l ++ n.takes a) (n.step a) := by
  cases hf : n.faulted with
  | true =>
    have htakes : n.takes a = [] := by cases a <;> simp [takes, hf]
    rw [step, if_pos hf, htakes, List.append_nil]
    exact h
  | false =>
    by_cases ha : a = .processEvent
    · subst ha
      have hstep : n.step .processEvent = n.processEvent := by simp [step, handle, hf]
      rw [hstep, processEvent, takes, if_neg (by simp [hf])]
      cases hq : n.eventQueue with
      | nil => simpa using h
      | cons x rest =>
        rw [Relayed, hq] at h
        exact handleEvent_relayed (n := { n with eventQueue := rest }) h.receive x.1 x.2
    · have htakes : n.takes a = [] := by cases a <;> first | rfl | exact absurd rfl ha
      rw [htakes, List.append_nil]
      exact step_of (relayed_base l) (fun _ p b h => h.publish p b) h a
        (fun i _ => h.callClient i _) (fun i _ _ => (h.callClient i _).callClient i _)
        (fun i _ _ _ => h.callClient i _) fun _ _ _ he => absurd he ha

end Relayed

lemma run_relayed (s : NodeSetup) (calls : List NodeCall) :
    Relayed (processed s calls) (run step (create s) calls) := by
  have h0 : Relayed [] (create s) := delivers_nil
  exact outputs_invariant (fun n l a h => step_relayed n l a h) h0 calls

/-- **Every event is processed once and in order.** Whatever the clients, the application and
the node do, what a client has raised is what was processed of it, and then what is queued of
it. -/
theorem events_in_order (s : NodeSetup) (calls : List NodeCall) :
    Delivers (run step (create s) calls).raised (processed s calls)
      (run step (create s) calls).eventQueue :=
  run_relayed s calls

/-! ### Requests on their way -/

/-- The publishables of the requests passed to client `i`, and of those in its queue. -/
def passedTo (n : Node) (i : ClientId) : List PubId :=
  ((n.client i).hist.filterMap ClientCall.passed).map (·.publisher)

def waitingAt (n : Node) (i : ClientId) : List PubId :=
  (n.client i).cur.publishQueue.map (·.publisher)

lemma filterMap_reportOf (l : List ClientEvent) :
    (l.filter ClientEvent.isReport).filterMap reportOf = l.filterMap reportOf := by
  induction l with
  | nil => rfl
  | cons e l ih =>
    cases e <;> simp [ClientEvent.isReport, reportOf, List.filterMap_cons, List.filter_cons, ih]

/-- By the books, the requests passed to a client are those it has told of and its queue. -/
lemma passedTo_eq {n : Node} (h : AllBalanced n) (i : ClientId) :
    n.passedTo i = (n.raised i).filterMap reportOf ++ n.waitingAt i := by
  have htold : (n.raised i).filterMap reportOf =
      (Ledger.reports (n.client i).cur.log).map (·.1.publisher) := by
    rw [← filterMap_reportOf, raised, ← Ledger.announced, (h i).told, List.filterMap_map,
      ← List.filterMap_eq_map]
    exact List.filterMap_congr fun r _ => reportOf_event r
  have hkeys := congrArg (List.map fun k : Ledger.Key => k.2.1) (h i).resolved
  rw [List.map_append, Ledger.reported, Ledger.keys, Ledger.keys, List.map_map, List.map_map,
    List.map_map] at hkeys
  rw [htold]
  exact hkeys

lemma run_allBalanced (s : NodeSetup) (calls : List NodeCall) :
    AllBalanced (run step (create s) calls) :=
  allBalanced_stable.reached (create_allBalanced s) calls

/-- **Every request is answered once and in order.** The requests passed to a client are those
whose report was processed, then those whose report is queued, and then those in the queue of
the client. -/
theorem requests_in_order (s : NodeSetup) (calls : List NodeCall) (i : ClientId) :
    (run step (create s) calls).passedTo i =
      (ofSender i (processed s calls)).filterMap reportOf ++
        (ofSender i (run step (create s) calls).eventQueue).filterMap reportOf ++
        (run step (create s) calls).waitingAt i :=
  (run_relayed s calls).pipeline reportOf (passedTo_eq (run_allBalanced s calls) i)

/-! ### Publishing and published -/

/-- How often a publishable began to be published, and how often a report settled that. -/
def begun (n : Node) (p : PubId) : ℕ := (n.pub p).hist.countP PublishableCall.isPublishing

def settled (n : Node) (p : PubId) : ℕ := (n.pub p).hist.countP PublishableCall.isPublished

/-- How many of the events are reports about `p`. -/
def reportsOn (p : PubId) (l : List (ClientId × ClientEvent)) : ℕ :=
  l.countP fun x => reportOf x.2 = some p

/-- The node deals with its own clients only, and each of them was passed as many requests for
`p` as `p` began to be published, if one counts all clients. -/
structure Tallied (l : List (ClientId × ClientEvent)) (n : Node) : Prop where
  nodup : n.clients.Nodup
  below : ∀ i ∈ n.clients, i < n.clients.length
  active : ∀ i ∈ n.activeClient, i ∈ n.clients
  senders : ∀ x ∈ l ++ n.eventQueue, x.1 ∈ n.clients
  strangers : ∀ i ∉ n.clients, n.passedTo i = []
  begun : n.faulted = false → ∀ p, n.begun p = total (fun i => (n.passedTo i).count p) n.clients
  settled : ∀ p, n.settled p = reportsOn p l

section Tallied

variable {l : List (ClientId × ClientEvent)} {n : Node}

@[simp] lemma callClient_clients (n : Node) (i : ClientId) (a : ClientCall) :
    (n.callClient i a).clients = n.clients := by
  rw [callClient_eq]; rfl

/-- Building payloads is no publishing. -/
lemma callClient_countP (f : PublishableCall → Bool)
    (hf : ∀ b time, f (.addToPayload b time) = false) (n : Node) (i : ClientId) (a : ClientCall)
    (p : PubId) :
    ((n.callClient i a).pub p).hist.countP f = (n.pub p).hist.countP f := by
  rw [callClient_pub]
  have hall : ∀ b ∈ payloadCalls n.time p (n.clientEffects i a), f b = false := by
    intro b hb
    obtain ⟨e, -, he⟩ := List.mem_filterMap.mp hb
    cases e <;> simp at he
    rw [← he.2]
    exact hf _ _
  generalize payloadCalls n.time p (n.clientEffects i a) = as at hall
  generalize n.pub p = t
  induction as generalizing t with
  | nil => rfl
  | cons b as ih =>
    rw [List.forall_mem_cons] at hall
    rw [List.foldl_cons, ih hall.2, Traced.act_hist, List.countP_append,
      List.countP_singleton, hall.1]
    rfl

lemma callClient_begun (n : Node) (i : ClientId) (a : ClientCall) (p : PubId) :
    (n.callClient i a).begun p = n.begun p :=
  callClient_countP _ (fun _ _ => rfl) n i a p

lemma callClient_settled (n : Node) (i : ClientId) (a : ClientCall) (p : PubId) :
    (n.callClient i a).settled p = n.settled p :=
  callClient_countP _ (fun _ _ => rfl) n i a p

/-- A call passes its client the request it carries, if any. -/
lemma callClient_passed {α : Type*} (f : PublishRequest → α) (n : Node) (i : ClientId)
    (a : ClientCall) (j : ClientId) :
    (((n.callClient i a).client j).hist.filterMap ClientCall.passed).map f =
      ((n.client j).hist.filterMap ClientCall.passed).map f ++
        if j = i then a.passed.toList.map f else [] := by
  by_cases hj : j = i
  · subst hj
    rw [callClient_client, if_pos rfl, Traced.act_hist, List.filterMap_append, List.map_append,
      if_pos rfl]
    cases h : a.passed <;> simp [h]
  · simp [hj]

lemma callClient_passedTo (n : Node) (i : ClientId) (a : ClientCall) (j : ClientId) :
    (n.callClient i a).passedTo j =
      n.passedTo j ++ if j = i then a.passed.toList.map (·.publisher) else [] :=
  callClient_passed (·.publisher) n i a j

lemma callClient_senders (h : ∀ x ∈ l ++ n.eventQueue, x.1 ∈ n.clients) {i : ClientId}
    (hi : i ∈ n.clients) (a : ClientCall) :
    ∀ x ∈ l ++ (n.callClient i a).eventQueue, x.1 ∈ n.clients := by
  rw [callClient_eventQueue, ← List.append_assoc]
  intro x hx
  rcases List.mem_append.mp hx with hx | hx
  · exact h x hx
  · obtain ⟨e, -, rfl⟩ := List.mem_map.mp hx
    exact hi

/-- A call that is no request. -/
lemma Tallied.callClient (h : Tallied l n) {i : ClientId} (hi : i ∈ n.clients) {a : ClientCall}
    (ha : a.passed = none) : Tallied l (n.callClient i a) := by
  have hpassed : (n.callClient i a).passedTo = n.passedTo := by
    funext j
    rw [callClient_passedTo, ha]
    simp
  refine ⟨?_, ?_, ?_, ?_, ?_, ?_, ?_⟩
  · simpa using h.nodup
  · simpa using h.below
  · simpa using h.active
  · simpa using callClient_senders h.senders hi a
  · simpa [hpassed] using h.strangers
  · intro hf p
    rw [callClient_begun, hpassed, callClient_clients]
    exact h.begun ((callClient_faulted n i a).symm.trans hf) p
  · intro p
    rw [callClient_settled]
    exact h.settled p

/-- A call that is neither `publishing` nor `published`. -/
lemma Tallied.callPub (h : Tallied l n) (p : PubId) {a : PublishableCall}
    (hbegun : a.isPublishing = false) (hsettled : a.isPublished = false) :
    Tallied l (n.callPub p a) := by
  have hcount : ∀ f : PublishableCall → Bool, f a = false → ∀ q,
      ((n.callPub p a).pub q).hist.countP f = (n.pub q).hist.countP f := by
    intro f hf q
    rw [callPub_pub]
    split
    · next hq => rw [Traced.act_hist, List.countP_append, List.countP_singleton, hf, hq]; rfl
    · rfl
  refine ⟨h.nodup, h.below, h.active, h.senders, h.strangers, fun hf q => ?_, fun q => ?_⟩
  · exact (hcount _ hbegun q).trans (h.begun hf q)
  · exact (hcount _ hsettled q).trans (h.settled q)

lemma prepared_begun (n : Node) (p : PubId) (b : Bool) (q : PubId) :
    (n.prepared p b).begun q = n.begun q + if q = p then 1 else 0 := by
  rw [begun, prepared_pub, callPub_pub]
  split
  · next hq =>
    rw [Traced.act_hist, List.countP_append, hq]
    rfl
  · rfl

lemma prepared_settled (n : Node) (p : PubId) (b : Bool) (q : PubId) :
    (n.prepared p b).settled q = n.settled q := by
  rw [settled, prepared_pub, callPub_pub]
  split
  · next hq =>
    rw [Traced.act_hist, List.countP_append, hq]
    rfl
  · rfl

lemma prepared_clients (n : Node) (p : PubId) (b : Bool) :
    (n.prepared p b).clients = n.clients := by
  cases p <;> cases b <;> rfl

/-- A request counts once with its publishable and once with its client. -/
lemma Tallied.requested (h : Tallied l n) (p : PubId) (b : Bool) {i : ClientId}
    (hi : i ∈ n.clients) : Tallied l (n.requested p b i) := by
  have hclients : (n.requested p b i).clients = n.clients := by
    rw [Node.requested, callClient_clients, prepared_clients]
  have hsame : (n.prepared p b).passedTo = n.passedTo := by
    funext j
    rw [passedTo, prepared_client, passedTo]
  have hpassed : ∀ j, (n.requested p b i).passedTo j =
      n.passedTo j ++ if j = i then [p] else [] := by
    intro j
    rw [Node.requested, callClient_passedTo, hsame]
    rfl
  refine ⟨?_, ?_, ?_, ?_, ?_, ?_, ?_⟩
  · exact hclients ▸ h.nodup
  · exact hclients ▸ h.below
  · rw [hclients, Node.requested, callClient_activeClient, prepared_activeClient]
    exact h.active
  · rw [hclients]
    have hprep : ∀ x ∈ l ++ (n.prepared p b).eventQueue, x.1 ∈ (n.prepared p b).clients := by
      rw [prepared_eventQueue, prepared_clients]
      exact h.senders
    rw [← prepared_clients n p b] at hi ⊢
    exact callClient_senders hprep hi _
  · intro j hj
    rw [hclients] at hj
    rw [hpassed, h.strangers j hj, if_neg (fun hji : j = i => hj (hji ▸ hi))]
    rfl
  · intro hf q
    have hbegun : (n.requested p b i).begun q = n.begun q + if q = p then 1 else 0 := by
      rw [Node.requested, callClient_begun, prepared_begun]
    have hother : ∀ j ≠ i, ((n.requested p b i).passedTo j).count q = (n.passedTo j).count q := by
      intro j hj
      rw [hpassed, if_neg hj, List.append_nil]
    have hself : ((n.requested p b i).passedTo i).count q =
        (n.passedTo i).count q + if q = p then 1 else 0 := by
      rw [hpassed, if_pos rfl, List.count_append]
      by_cases hq : q = p
      · simp [hq]
      · simp [hq, Ne.symm hq]
    have hold := h.begun (by simpa [Node.requested] using hf) q
    have hchange := total_change h.nodup hi hother
    rw [hclients]
    omega
  · intro q
    rw [Node.requested, callClient_settled, prepared_settled]
    exact h.settled q

lemma Tallied.publish (h : Tallied l n) (p : PubId) (b : Bool) : Tallied l (n.publish p b) := by
  rcases publish_cases n p b with ⟨e, -⟩ | ⟨e, -⟩ | ⟨i, hi, e⟩
  · rwa [e]
  · rw [e]
    have hsettled : ∀ q, (n.callPub p .publishing).settled q = n.settled q := by
      intro q
      rw [← prepared_settled n p b q, Node.settled, Node.settled, prepared_pub]
    refine ⟨h.nodup, h.below, h.active, h.senders, h.strangers, ?_, ?_⟩
    · intro hf
      cases hf
    · exact fun q => (hsettled q).trans (h.settled q)
  · rw [e]
    exact h.requested p b (h.active i hi)

/-! The handling of an event of one of the node's clients. -/

lemma Tallied.setActiveClient (h : Tallied l n) {c : Option ClientId}
    (hc : ∀ i ∈ c, i ∈ n.clients) : Tallied l (n.setActiveClient c) := by
  have hnext : ∀ m, Tallied l m → m.clients = n.clients →
      Tallied l (if c.isSome then { m with activeClient := c }.publishBirth
        else { m with activeClient := c }) := by
    intro m hm hclients
    have hactive : Tallied l { m with activeClient := c } :=
      ⟨hm.nodup, hm.below, fun i hi => hclients ▸ hc i hi, hm.senders, hm.strangers, hm.begun,
        hm.settled⟩
    split
    · exact publishBirth_kept (fun _ p hm => hm.publish p true) hactive
    · exact hactive
  cases ha : n.activeClient with
  | none => simpa only [Node.setActiveClient, ha] using hnext n h rfl
  | some old =>
    by_cases hold : c = some old
    · simpa only [Node.setActiveClient, ha, hold, ne_eq, not_true, if_false] using hnext n h rfl
    · have hd := hnext _ (h.callClient (a := .deactivate) (h.active old ha) rfl)
        (callClient_clients ..)
      simpa only [Node.setActiveClient, ha, hold, ne_eq, not_false_eq_true, if_true] using hd

lemma Tallied.deactivateClient (h : Tallied l n) (i : ClientId) :
    Tallied l (n.deactivateClient i) := by
  unfold Node.deactivateClient
  split
  · exact h.setActiveClient (by simp)
  · exact h

lemma Tallied.noteHost (h : Tallied l n) (i : ClientId) (topic payload : Str) :
    Tallied l (n.noteHost i topic payload) ∧
      (n.noteHost i topic payload).clients = n.clients := by
  have hset : ∀ states, Tallied l (n.setHostStates i states) := fun _ =>
    ⟨h.nodup, h.below, h.active, h.senders, h.strangers, h.begun, h.settled⟩
  unfold Node.noteHost
  split
  · exact ⟨hset _, rfl⟩
  · exact ⟨h, rfl⟩

lemma Tallied.onMessage (h : Tallied l n) {i : ClientId} (hi : i ∈ n.clients)
    (topic payload : Str) : Tallied l (n.onMessage i topic payload) := by
  obtain ⟨hnote, hclients⟩ := h.noteHost i topic payload
  have hfault : ∀ m : Node, Tallied l m ∧ m.clients = n.clients →
      Tallied l { m with faulted := true } ∧ m.clients = n.clients := by
    rintro m ⟨hm, hc⟩
    exact ⟨⟨hm.nodup, hm.below, hm.active, hm.senders, hm.strangers, nofun, hm.settled⟩, hc⟩
  have hunmoved : Unmoved fun m => m.clients = n.clients := ⟨fun _ _ _ _ _ _ _ _ _ hm => hm⟩
  obtain ⟨hcmd, hclients'⟩ := onCommandMessage_kept
    (P := fun m => Tallied l m ∧ m.clients = n.clients)
    (fun m p hm => ⟨hm.1.publish p true, hunmoved.publish hm.2 p true⟩) hfault
    ⟨hnote, hclients⟩ i topic payload
  simp only [Node.onMessage]
  split
  · exact hnote
  unfold onHostState
  repeat' split
  · exact hcmd.callClient (hclients' ▸ hi) rfl
  · exact hcmd
  · exact hcmd.deactivateClient i
  all_goals exact hcmd

lemma Tallied.forgetHost (h : Tallied l n) (i : ClientId) : Tallied l (n.forgetHost i) :=
  ⟨h.nodup, h.below, h.active, h.senders, h.strangers, h.begun, h.settled⟩

/-- Every event but a report. -/
lemma Tallied.handleEvent (h : Tallied l n) {i : ClientId} (hi : i ∈ n.clients) {e : ClientEvent}
    (he : e.isReport = false) : Tallied l (n.handleEvent i e) := by
  cases e with
  | message topic payload => exact h.onMessage hi topic payload
  | connected =>
    simp only [Node.handleEvent]
    split
    · exact (h.forgetHost i).callClient hi rfl
    · exact h.forgetHost i
  | disconnected => exact (h.forgetHost i).deactivateClient i
  | active => exact h.setActiveClient fun j hj => Option.some.inj hj ▸ hi
  | deactive => exact h
  | delivered p | undelivered p => cases he

lemma reportsOn_append (p : PubId) (l : List (ClientId × ClientEvent))
    (x : ClientId × ClientEvent) :
    reportsOn p (l ++ [x]) = reportsOn p l + if reportOf x.2 = some p then 1 else 0 := by
  simp [reportsOn, List.countP_append, List.countP_singleton]

/-- A report counts with the publishable it is about. -/
lemma Tallied.report (h : Tallied l n) {x : ClientId × ClientEvent} {p : PubId}
    {rest : List (ClientId × ClientEvent)} (hq : n.eventQueue = x :: rest)
    (hr : reportOf x.2 = some p) :
    Tallied (l ++ [x]) ({ n with eventQueue := rest }.callPub p .published) := by
  refine ⟨h.nodup, h.below, h.active, ?_, h.strangers, fun hf q => ?_, fun q => ?_⟩
  · intro y hy
    have hmem : y ∈ (l ++ [x]) ++ rest := hy
    exact h.senders y (by simpa [hq] using hmem)
  · refine Eq.trans ?_ (h.begun hf q)
    rw [Node.begun, callPub_pub]
    split
    · next hq => rw [Traced.act_hist, List.countP_append, hq]; rfl
    · rfl
  · rw [reportsOn_append, hr, ← h.settled q, Node.settled, callPub_pub]
    by_cases hqp : q = p
    · rw [if_pos hqp, if_pos (by rw [hqp]), Traced.act_hist, List.countP_append, hqp]
      rfl
    · rw [if_neg hqp, if_neg (by simpa using Ne.symm hqp)]
      rfl

/-- Any other event does not. -/
lemma Tallied.pop (h : Tallied l n) {x : ClientId × ClientEvent}
    {rest : List (ClientId × ClientEvent)} (hq : n.eventQueue = x :: rest)
    (hr : reportOf x.2 = none) : Tallied (l ++ [x]) { n with eventQueue := rest } := by
  refine ⟨h.nodup, h.below, h.active, ?_, h.strangers, h.begun, fun q => ?_⟩
  · intro y hy
    exact h.senders y (by simpa [hq] using hy)
  · rw [reportsOn_append, hr, if_neg (by simp), ← h.settled q]
    rfl

/-! The other actions. -/

lemma Tallied.enable (h : Tallied l n) : Tallied l n.enable.2 := by
  obtain ⟨hc, -⟩ : Tallied l (n.configureClients n.clients).2 ∧
      (n.configureClients n.clients).2.clients = n.clients := by
    refine configureClients_kept (P := fun m => Tallied l m ∧ m.clients = n.clients)
      (fun m i hi hm => ?_) ⟨h, rfl⟩
    exact ⟨hm.1.callClient (hm.2 ▸ hi) rfl, (callClient_clients ..).trans hm.2⟩
  simp only [Node.enable]
  repeat' split
  · exact h
  · exact h
  · exact ⟨hc.nodup, hc.below, hc.active, hc.senders, hc.strangers, hc.begun, hc.settled⟩
  · exact hc

/-- The new client has not been passed anything. -/
lemma Tallied.addClient (h : Tallied l n) :
    Tallied l { n with clients := n.clients ++ [n.clients.length] } := by
  have hnew : n.clients.length ∉ n.clients := fun hmem => absurd (h.below _ hmem) (lt_irrefl _)
  refine ⟨?_, ?_, ?_, ?_, ?_, ?_, h.settled⟩
  · exact List.nodup_append.mpr ⟨h.nodup, by simp, fun i hi j hj hij =>
      hnew (List.mem_singleton.mp hj ▸ hij ▸ hi)⟩
  · intro i hi
    rw [List.length_append, List.length_singleton]
    rcases List.mem_append.mp hi with hi | hi
    · exact Nat.lt_succ_of_lt (h.below i hi)
    · rw [List.mem_singleton.mp hi]
      exact Nat.lt_succ_self _
  · exact fun i hi => List.mem_append_left _ (h.active i hi)
  · exact fun x hx => List.mem_append_left _ (h.senders x hx)
  · exact fun i hi => h.strangers i fun hmem => hi (List.mem_append_left _ hmem)
  · intro hf p
    have hstranger : total (fun i => (n.passedTo i).count p) [n.clients.length] = 0 := by
      rw [total, h.strangers _ hnew]
      rfl
    calc n.begun p
        = total (fun i => (n.passedTo i).count p) n.clients := h.begun hf p
      _ = total (fun i => (n.passedTo i).count p) n.clients +
          total (fun i => (n.passedTo i).count p) [n.clients.length] := by
          rw [hstranger, Nat.add_zero]
      _ = total (fun i => (n.passedTo i).count p) (n.clients ++ [n.clients.length]) :=
          (total_append _ _ _).symm

/-- Every action but the processing of an event. -/
lemma Tallied.handle (h : Tallied l n) {a : NodeCall} (ha : a ≠ .processEvent) :
    Tallied l (n.handle a) := by
  cases a with
  | addClient => exact h.addClient
  | addDevice d => exact ⟨h.nodup, h.below, h.active, h.senders, h.strangers, h.begun, h.settled⟩
  | enable => exact h.enable
  | executeClient i =>
    simp only [Node.handle]
    split
    · next hi => exact h.callClient hi rfl
    · exact h
  | processEvent => exact absurd rfl ha
  | poll p elapsed =>
    have hupdate : Tallied l (n.callPub p (.update elapsed)) := h.callPub p rfl rfl
    simp only [Node.handle, poll]
    repeat' split
    · exact hupdate.publish p false
    · exact hupdate
    · exact h
  | requestPublish p b =>
    simp only [Node.handle, requestPublish]
    split
    · exact h.publish p b
    · exact h
  | setValue p k value => exact h.callPub p rfl rfl
  | setProperty p k path value => exact h.callPub p rfl rfl
  | update p elapsed => exact h.callPub p rfl rfl
  | stopClient i =>
    simp only [Node.handle]
    split
    · next hi =>
      exact (h.callClient (a := .deactivate) hi rfl).callClient (by simpa using hi) rfl
    · exact h
  | setTime t => exact ⟨h.nodup, h.below, h.active, h.senders, h.strangers, h.begun, h.settled⟩
  | library i lib =>
    simp only [Node.handle]
    split
    · next hi => exact h.callClient hi rfl
    · exact h

lemma step_tallied (n : Node) (l : List (ClientId × ClientEvent)) (a : NodeCall)
    (h : Tallied l n) : Tallied (l ++ n.takes a) (n.step a) := by
  cases hf : n.faulted with
  | true =>
    have htakes : n.takes a = [] := by cases a <;> simp [takes, hf]
    rw [step, if_pos hf, htakes, List.append_nil]
    exact h
  | false =>
    rw [step, if_neg (by simp [hf])]
    by_cases ha : a = .processEvent
    · subst ha
      rw [Node.handle, processEvent, takes, if_neg (by simp [hf])]
      rcases hq : n.eventQueue with _ | ⟨⟨i, e⟩, rest⟩
      · simpa using h
      · have hi : i ∈ n.clients := h.senders (i, e) (by simp [hq])
        cases hr : reportOf e with
        | some p =>
          have hreport := h.report (x := (i, e)) hq hr
          cases e <;> simp_all [reportOf, Node.handleEvent]
        | none =>
          have he : e.isReport = false := by cases e <;> simp_all [reportOf, ClientEvent.isReport]
          exact (h.pop (x := (i, e)) hq hr).handleEvent hi he
    · have htakes : n.takes a = [] := by cases a <;> first | rfl | exact absurd rfl ha
      rw [htakes, List.append_nil]
      exact h.handle ha

end Tallied

lemma create_tallied (s : NodeSetup) : Tallied [] (create s) := by
  refine ⟨List.nodup_nil, nofun, nofun, nofun, fun _ _ => rfl, fun _ p => ?_, fun p => ?_⟩
  · cases p <;> rfl
  · cases p <;> rfl

lemma run_tallied (s : NodeSetup) (calls : List NodeCall) :
    Tallied (processed s calls) (run step (create s) calls) :=
  outputs_invariant (fun n l a h => step_tallied n l a h) (create_tallied s) calls

/-- **A publishable is published as often as it is reported**, but for the reports in the queue
of events and the requests in the queues of the clients, in every run without a fault. -/
theorem begun_eq_settled (s : NodeSetup) (calls : List NodeCall) (p : PubId)
    (hf : (run step (create s) calls).faulted = false) :
    (run step (create s) calls).begun p = (run step (create s) calls).settled p +
      reportsOn p (run step (create s) calls).eventQueue +
      total (fun i => ((run step (create s) calls).waitingAt i).count p)
        (run step (create s) calls).clients := by
  have htally := run_tallied s calls
  have hrelayed := run_relayed s calls
  have hbalanced := run_allBalanced s calls
  generalize run step (create s) calls = n at *
  -- the requests passed to a client, client by client
  have hone : ∀ i, (n.passedTo i).count p =
      ((ofSender i (processed s calls)).countP fun e => reportOf e = some p) +
        ((ofSender i n.eventQueue).countP fun e => reportOf e = some p) +
        (n.waitingAt i).count p := by
    intro i
    rw [hrelayed.pipeline reportOf (passedTo_eq hbalanced i), List.count_append, List.count_append,
      List.count_filterMap, List.count_filterMap]
    simp only [beq_eq_decide]
  rw [htally.begun hf p, total_congr fun i _ => hone i, total_add, total_add, htally.settled p,
    total_countP_ofSender _ htally.nodup fun x hx => htally.senders x (List.mem_append_left _ hx),
    total_countP_ofSender _ htally.nodup fun x hx => htally.senders x (List.mem_append_right _ hx)]
  rfl

/-- Two births are requested, one of them is reported, and the other one is in the queue. -/
theorem rebornInFlight_begun :
    (run step (create (.plain .pahoAsync)) rebornInFlight).begun .node =
      (run step (create (.plain .pahoAsync)) rebornInFlight).settled .node +
        reportsOn .node (run step (create (.plain .pahoAsync)) rebornInFlight).eventQueue +
        total (fun i => ((run step (create (.plain .pahoAsync)) rebornInFlight).waitingAt i).count
          .node) (run step (create (.plain .pahoAsync)) rebornInFlight).clients :=
  begun_eq_settled (.plain .pahoAsync) rebornInFlight .node (by decide)

end Node

end Sparkplug
