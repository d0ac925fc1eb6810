import Sparkplug.NodeSteps
import Sparkplug.Primary
import Sparkplug.Json

/-!
The primary host.

What a payload says of the host is defined by reading it as JSON; the node looks for two texts
in it instead. A client is activated in two steps: the node asks it to subscribe, and later the
client says that it is active. In between the client is not yet the active one, so what would
deactivate it is not seen. It is said exactly which events leave the node in agreement with
what the host has said.
-/

namespace Sparkplug

open Machine

/-! ### What a payload says -/

/-- The name of the member that is asked for. -/
def onlineName : List ℕ := "online".toList.flatMap Json.units

/-- The payload is an object, and its member `online`, the last one if there are several, is
this boolean. -/
def Says (payload : Str) (b : Bool) : Prop :=
  ∃ ms r, Json.Reads .value payload (.object ms) r ∧ Json.skip r = [] ∧
    ms.reverse.lookup onlineName = some (.bool b)

/-- What the payload says, if it says anything. -/
def Told (payload : Str) : Option Bool → Prop
  | some b => Says payload b
  | none => ∀ b, ¬Says payload b

/-- Of these payloads, the last one first, the last that says anything says this. -/
def LastSaid : List Str → Bool → Prop
  | [], _ => False
  | payload :: before, b => Says payload b ∨ Told payload none ∧ LastSaid before b

lemma Says.unique {payload : Str} {b c : Bool} (hb : Says payload b) (hc : Says payload c) :
    b = c := by
  obtain ⟨ms, r, hread, -, hlast⟩ := hb
  obtain ⟨ms', r', hread', -, hlast'⟩ := hc
  obtain ⟨hobject, -⟩ := hread.unique hread'
  obtain rfl := Json.Value.object.inj hobject
  cases hlast.symm.trans hlast'
  rfl

lemma Told.unique {payload : Str} {v w : Option Bool} (hv : Told payload v)
    (hw : Told payload w) : v = w := by
  cases v with
  | none =>
    cases w with
    | none => rfl
    | some c => exact absurd hw (hv c)
  | some b =>
    cases w with
    | none => exact absurd hv (hw b)
    | some c => rw [Says.unique hv hw]

lemma exists_told (payload : Str) : ∃ v, Told payload v := by
  by_cases h : ∃ b, Says payload b
  · exact h.imp' some fun _ hb => hb
  · exact ⟨none, not_exists.mp h⟩

/-- A payload counts just by what it says. -/
lemma lastSaid_cons {payload : Str} {v : Option Bool} (hv : Told payload v) (before : List Str)
    (b : Bool) : LastSaid (payload :: before) b ↔ v.elim (LastSaid before b) (· = b) := by
  cases v with
  | none => simp [LastSaid, hv b, show Told payload none from hv]
  | some c =>
    have hsays : Says payload b ↔ c = b := ⟨Says.unique hv, fun h => h ▸ hv⟩
    have hnone : ¬Told payload none := fun h => h c hv
    simp [LastSaid, hsays, hnone]

namespace Client

/-! ### Becoming primary -/

/-- From `c` to `d` the client has not become primary, and it has said that it is active only
if it was primary. -/
def Calm (c d : Client) : Prop :=
  (d.isPrimary = true → c.isPrimary = true) ∧
    ∃ l, d.log = c.log ++ l ∧ (.onEvent .active ∈ l → c.isPrimary = true)

lemma Calm.refl (c : Client) : Calm c c := ⟨id, [], by simp, by simp⟩

lemma Calm.trans {b c d : Client} (h : Calm b c) (k : Calm c d) : Calm b d := by
  obtain ⟨hp, l, hl, hact⟩ := h
  obtain ⟨kp, m, hm, kact⟩ := k
  refine ⟨hp ∘ kp, l ++ m, by rw [hm, hl, List.append_assoc], fun h => ?_⟩
  exact (List.mem_append.mp h).elim hact (hp ∘ kact)

lemma Calm.of_quiet {c d : Client} (l : List Effect) (hl : d.log = c.log ++ l)
    (hp : d.isPrimary = true → c.isPrimary = true) (hact : .onEvent .active ∉ l) : Calm c d :=
  ⟨hp, l, hl, fun h => absurd h hact⟩

/-- Publishing raises no event without a request. -/
lemma publishStep_quiet {A : Scope} {c d : Client} (h : PublishStep A c d) :
    d.isPrimary = c.isPrimary ∧ ∃ l, d.log = c.log ++ l ∧ ∀ e, .onEvent e ∉ l := by
  cases h with
  | asked q => exact ⟨by cases q <;> rfl, [], by simp, by simp⟩
  | access id => exact ⟨rfl, [.access id], rfl, by simp⟩
  | skipped r hs => exact ⟨rfl, [.skipped r], rfl, by simp⟩
  | idle hs => exact ⟨by rw [setState_eq (by simp)], [], by simp, by simp⟩
  | tried hq hs hg hf => exact ⟨rfl, _, rfl, by simp [attemptLog]⟩
  | @giveUp r _ hq => exact ⟨rfl, [.undelivered r], rfl, by simp⟩
  | retry => exact ⟨rfl, [], by simp [modifyFront], by simp⟩

lemma Publishes.quiet {A : Scope} {c d : Client} (h : Publishes A c d) :
    d.isPrimary = c.isPrimary ∧ ∃ l, d.log = c.log ++ l ∧ ∀ e, .onEvent e ∉ l := by
  induction h with
  | refl => exact ⟨rfl, [], by simp, by simp⟩
  | tail _ hstep ih =>
    obtain ⟨hp, l, hl, hev⟩ := ih
    obtain ⟨kp, m, hm, kev⟩ := publishStep_quiet hstep
    refine ⟨kp.trans hp, l ++ m, by rw [hm, hl, List.append_assoc], fun e he => ?_⟩
    exact (List.mem_append.mp he).elim (hev e) (kev e)

lemma request_quiet (c : Client) (r : PublishRequest) :
    (c.request r).isPrimary = c.isPrimary ∧
      ∃ l, (c.request r).log = c.log ++ l ∧ ∀ e, .onEvent e ∉ l := by
  have h : Publishes {} (c.enqueue r) (c.request r) := by
    simp only [request]
    repeat' split
    · exact .head (.asked _ _) (publishFromQueue_publishes _)
    · exact .single (.asked _ _)
    · exact .refl
  exact h.quiet

lemma clientStep_calm {A : Scope} {c d : Client} (h : ClientStep A c d) : Calm c d := by
  cases h with
  | publish h =>
    obtain ⟨hp, l, hl, hev⟩ := publishStep_quiet h
    exact .of_quiet l hl (fun k => hp ▸ k) (hev .active)
  | @deliver r _ hb hq => exact .of_quiet [.delivered r] rfl id (by simp)
  | @event e h =>
    refine ⟨id, [.onEvent e], rfl, fun hact => ?_⟩
    obtain rfl : ClientEvent.active = e := by simpa using hact
    exact h
  | emptyFront => exact .of_quiet [.emptyFront] rfl id (by simp)
  | commandsResult accepted => exact .of_quiet [.subscribed accepted] rfl id (by simp)
  | setState s =>
    refine .of_quiet [] (by simp) (fun hp => ?_) (by simp)
    unfold setState at hp
    split at hp
    · exact hp
    · cases s <;> first | exact hp | cases hp
  | resign => exact .of_quiet [] (by simp [setPrimary]) (by simp [setPrimary]) (by simp)
  | surroundings => exact .of_quiet [] (by simp) id (by simp)
  | settings => exact .of_quiet [] (by simp) id (by simp)

/-- Only `activate` makes a client primary. -/
lemma step_calm (c : Client) {a : ClientCall} (ha : a ≠ .activate) : Calm c (c.step a) := by
  have hs : Calm (c.taken a) (c.step a) :=
    (step_steps c a).rel Calm.refl Calm.trans clientStep_calm
  cases a with
  | activate => exact absurd rfl ha
  | request r => exact hs
  | _ => exact hs

lemma deactivate_log (c : Client) : c.deactivate.2.log = c.log := by
  have h : c.unsubscribeToCommands.2.log = c.log := by
    unfold unsubscribeToCommands
    split <;> try split
    all_goals simp
  unfold deactivate
  split
  · rfl
  · simp only
    split <;> exact h

end Client

namespace Node

/-! ### Clients that are active or may become active -/

/-- The client is active, or what is under way may make it so. -/
def Held (n : Node) (i : ClientId) : Prop :=
  (n.client i).cur.isPrimary = true ∨ (i, .active) ∈ n.eventQueue ∨ n.activeClient = some i

/-- Something of an activation of the client is left when it is deactivated. -/
def Lingers (n : Node) (i : ClientId) : Prop :=
  (i, .active) ∈ n.eventQueue ∨ (n.client i).cur.isPrimary = true ∧ n.activeClient ≠ some i

instance (n : Node) (i : ClientId) : Decidable (Held n i) := inferInstanceAs (Decidable (_ ∨ _))

instance (n : Node) (i : ClientId) : Decidable (Lingers n i) :=
  inferInstanceAs (Decidable (_ ∨ _))

/-- The last that the host of every such client has said is that it is online. -/
def Agreed (n : Node) : Prop := ∀ i, Held n i → LastSaid (n.hostStates i) true

lemma mem_callClient_eventQueue {n : Node} {i j : ClientId} {a : ClientCall} {e : ClientEvent} :
    (j, e) ∈ (n.callClient i a).eventQueue ↔ (j, e) ∈ n.eventQueue ∨
      j = i ∧ ∃ f ∈ n.clientEffects i a, f.raised = some e := by
  rw [callClient_eventQueue]
  simp [eq_comm, and_comm]

lemma raised_active {f : Effect} (h : f.raised = some .active) : f = .onEvent .active := by
  cases f <;> simp_all [Effect.raised]

lemma callClient_held {n : Node} {i : ClientId} {a : ClientCall} (ha : a ≠ .activate)
    {j : ClientId} (h : Held (n.callClient i a) j) : Held n j := by
  obtain ⟨hp, l, hl, hact⟩ := Client.step_calm (n.client i).cur ha
  have heff : n.clientEffects i a = l := Ledger.effects_eq hl
  rcases h with h | h | h
  · rw [callClient_client] at h
    split at h
    · next hj => exact .inl (hj ▸ hp h)
    · exact .inl h
  · rcases mem_callClient_eventQueue.mp h with h | ⟨rfl, f, hf, hr⟩
    · exact .inr (.inl h)
    · rw [heff] at hf
      exact .inl (hact (raised_active hr ▸ hf))
  · rw [callClient_activeClient] at h
    exact .inr (.inr h)

lemma activateClient_held {n : Node} {i j : ClientId} (h : Held (n.activateClient i) j) :
    Held n j ∨ j = i := by
  by_cases hj : j = i
  · exact .inr hj
  · refine .inl ?_
    rcases h with h | h | h
    · exact .inl (by simpa [activateClient, hj] using h)
    · refine .inr (.inl ?_)
      exact (mem_callClient_eventQueue.mp h).resolve_right fun h => hj h.1
    · exact .inr (.inr (by simpa [activateClient] using h))

/-- What publishing leaves alone. -/
structure Same (n m : Node) : Prop where
  topics : m.clientTopics = n.clientTopics
  hostMode : m.hostMode = n.hostMode
  hostStates : m.hostStates = n.hostStates
  activeClient : m.activeClient = n.activeClient
  isPrimary : ∀ i, (m.client i).cur.isPrimary = (n.client i).cur.isPrimary
  queued : ∀ i, (i, .active) ∈ m.eventQueue ↔ (i, .active) ∈ n.eventQueue

lemma Same.refl (n : Node) : Same n n := ⟨rfl, rfl, rfl, rfl, fun _ => rfl, fun _ => .rfl⟩

lemma Same.held {n m : Node} (h : Same n m) (i : ClientId) : Held m i ↔ Held n i := by
  rw [Held, Held, h.isPrimary, h.queued, h.activeClient]

lemma Same.lingers {n m : Node} (h : Same n m) (i : ClientId) : Lingers m i ↔ Lingers n i := by
  rw [Lingers, Lingers, h.isPrimary, h.queued, h.activeClient]

lemma Same.agreed {n m : Node} (h : Same n m) : Agreed m ↔ Agreed n := by
  simp only [Agreed, h.held, h.hostStates]

lemma Same.isHostTopic {n m : Node} (h : Same n m) (topic : Str) :
    m.isHostTopic topic = n.isHostTopic topic := by
  rw [Node.isHostTopic, Node.isHostTopic, h.topics]

lemma isReport_of_raised {f : Effect} {e : ClientEvent} (h : f.raised = some e)
    (hf : ∀ e, f ≠ .onEvent e) : e.isReport = true := by
  cases f with
  | onEvent e => exact absurd rfl (hf e)
  | delivered r | undelivered r => obtain rfl := Option.some.inj h; rfl
  | _ => cases h

/-- Publishing raises nothing but reports. -/
lemma publish_eventQueue (n : Node) (p : PubId) (b : Bool) :
    ∃ l, (n.publish p b).eventQueue = n.eventQueue ++ l ∧ ∀ x ∈ l, x.2.isReport = true := by
  rcases publish_cases n p b with ⟨e, -⟩ | ⟨e, -⟩ | ⟨i, -, e⟩
  · exact ⟨[], by simp [e], by simp⟩
  · exact ⟨[], by rw [e, List.append_nil]; rfl, by simp⟩
  · obtain ⟨-, l, hl, hev⟩ := Client.request_quiet (n.client i).cur (n.requestFor p b)
    have heff : (n.prepared p b).clientEffects i (.request (n.requestFor p b)) = l :=
      Ledger.effects_eq (by rw [prepared_client]; exact hl)
    refine ⟨_, by rw [e, requested, callClient_eventQueue, prepared_eventQueue, heff], ?_⟩
    intro x hx
    obtain ⟨e', he', rfl⟩ := List.mem_map.mp hx
    obtain ⟨f, hf, hr⟩ := List.mem_filterMap.mp he'
    refine isReport_of_raised hr ?_
    rintro e rfl
    exact hev e hf

lemma publish_same {n m : Node} (h : Same n m) (p : PubId) (b : Bool) :
    Same n (m.publish p b) := by
  have hqueued : ∀ i, (i, .active) ∈ (m.publish p b).eventQueue ↔ (i, .active) ∈ n.eventQueue := by
    intro i
    obtain ⟨l, hl, hrep⟩ := publish_eventQueue m p b
    rw [← h.queued, hl, List.mem_append]
    exact or_iff_left fun hmem => absurd (hrep _ hmem) (by simp [ClientEvent.isReport])
  rcases publish_cases m p b with ⟨e, -⟩ | ⟨e, -⟩ | ⟨i, -, e⟩
  · rwa [e]
  · rw [e]
    exact ⟨h.topics, h.hostMode, h.hostStates, h.activeClient, h.isPrimary, h.queued⟩
  · obtain ⟨hp, -⟩ := Client.request_quiet (m.client i).cur (m.requestFor p b)
    rw [e] at hqueued ⊢
    refine ⟨?_, ?_, ?_, ?_, fun j => ?_, hqueued⟩
    · rw [← h.topics]; simp [requested]
    · rw [← h.hostMode]; simp [requested]
    · rw [← h.hostStates]; simp [requested]
    · rw [← h.activeClient]; simp [requested]
    · rw [← h.isPrimary, requested, callClient_client, prepared_client]
      split
      · next hj => rw [hj]; exact hp
      · rfl

/-! ### Deactivation -/

lemma deactivateClient_of_ne {n : Node} {i : ClientId} (h : n.activeClient ≠ some i) :
    n.deactivateClient i = n := if_neg h

lemma deactivateClient_of_eq {n : Node} {i : ClientId} (h : n.activeClient = some i) :
    n.deactivateClient i = { n.callClient i .deactivate with activeClient := none } := by
  simp [deactivateClient, setActiveClient, h]

lemma deactivate_eventQueue (n : Node) (i : ClientId) :
    (n.callClient i .deactivate).eventQueue = n.eventQueue := by
  have heff : n.clientEffects i .deactivate = [] :=
    Ledger.effects_eq (by rw [List.append_nil]; exact Client.deactivate_log _)
  rw [callClient_eventQueue, heff]
  simp

lemma deactivateClient_hostStates (n : Node) (i : ClientId) :
    (n.deactivateClient i).hostStates = n.hostStates := by
  by_cases h : n.activeClient = some i
  · rw [deactivateClient_of_eq h]
    exact callClient_hostStates ..
  · rw [deactivateClient_of_ne h]

lemma deactivateClient_held_self (n : Node) (i : ClientId) :
    Held (n.deactivateClient i) i ↔ Lingers n i := by
  by_cases h : n.activeClient = some i
  · rw [deactivateClient_of_eq h]
    have hp : ((n.client i).cur.step .deactivate).isPrimary = false :=
      Client.deactivate_isPrimary _
    simp [Held, Lingers, h, hp, deactivate_eventQueue]
  · rw [deactivateClient_of_ne h]
    simp [Held, Lingers, h, or_comm]

lemma deactivateClient_held {n : Node} {i j : ClientId} (h : Held (n.deactivateClient i) j) :
    Held n j := by
  by_cases hi : n.activeClient = some i
  · rw [deactivateClient_of_eq hi] at h
    have h' : Held (n.callClient i .deactivate) j := h.imp id (Or.imp id fun hj => by cases hj)
    exact callClient_held (by simp) h'
  · rwa [deactivateClient_of_ne hi] at h

/-! ### What the node hears -/

/-- What the node finds in a payload. -/
def found (payload : Str) : Option Bool :=
  if contains payload online then some true
  else if contains payload offline then some false
  else none

/-- The node finds in the message that the host is offline. -/
def findsOffline (n : Node) (topic payload : Str) : Bool :=
  n.isHostTopic topic && !contains payload online && contains payload offline

/-- What comes of it, unless the message is left before. -/
def heard (n : Node) (i : ClientId) (topic payload : Str) : Option Bool :=
  if n.leavesAtOnce i topic then none else found payload

/-- What the client is to do. -/
def follow (n : Node) (i : ClientId) : Option Bool → Node
  | some true => if n.activeClient = some i then n else n.activateClient i
  | some false => n.deactivateClient i
  | none => n

lemma onHostState_eq {n : Node} {topic : Str} (ht : n.isHostTopic topic = true) (i : ClientId)
    (payload : Str) : n.onHostState i topic payload = n.follow i (found payload) := by
  rw [onHostState, if_pos ht, found]
  split
  · rw [follow, ite_not]
  · split
    · next h => rw [follow, deactivateClient]; split <;> rfl
    · rfl

/-- After this was heard the client is active, or may become so. -/
def Remains (n : Node) (i : ClientId) : Option Bool → Prop
  | some true => Held n i ∨ ¬(n.client i).cur.RefusalSeen
  | some false => Lingers n i
  | none => Held n i

instance Remains.decidable (n : Node) (i : ClientId) : ∀ v, Decidable (Remains n i v)
  | some true => inferInstanceAs (Decidable (Held n i ∨ ¬(n.client i).cur.RefusalSeen))
  | some false => inferInstanceAs (Decidable (Lingers n i))
  | none => inferInstanceAs (Decidable (Held n i))

lemma activateClient_held_self (n : Node) (i : ClientId) :
    Held (n.activateClient i) i ↔ Held n i ∨ ¬(n.client i).cur.RefusalSeen := by
  by_cases hp : (n.client i).cur.isPrimary = true
  · have heq : (n.client i).cur.step .activate = (n.client i).cur := Client.activate_of_isPrimary hp
    exact iff_of_true (.inl (by simpa [activateClient, heq] using hp)) (.inl (.inl hp))
  · rw [Bool.not_eq_true] at hp
    by_cases hr : (n.client i).cur.RefusalSeen
    · obtain ⟨hprim, hlog⟩ := Client.activate_refused hp hr
      have heff : n.clientEffects i .activate = [.subscribed false] := Ledger.effects_eq hlog
      have hqueue : (n.activateClient i).eventQueue = n.eventQueue := by
        rw [activateClient, callClient_eventQueue, heff]
        simp [Effect.raised]
      have hcur : ((n.activateClient i).client i).cur.isPrimary = false := by
        rw [activateClient, callClient_client, if_pos rfl]
        exact hprim
      have hactive : (n.activateClient i).activeClient = n.activeClient :=
        callClient_activeClient ..
      simp [Held, hqueue, hcur, hactive, hp, hr]
    · refine iff_of_true (.inl ?_) (.inr hr)
      rw [activateClient, callClient_client, if_pos rfl]
      exact Client.activate_isPrimary hp hr

lemma follow_held_self (n : Node) (i : ClientId) (v : Option Bool) :
    Held (n.follow i v) i ↔ Remains n i v := by
  rcases v with _ | _ | _
  · exact .rfl
  · exact deactivateClient_held_self n i
  · rw [follow]
    split
    · next h => exact iff_of_true (.inr (.inr h)) (.inl (.inr (.inr h)))
    · exact activateClient_held_self n i

/-- Nothing is heard of the other clients. -/
lemma follow_held {n : Node} {i j : ClientId} {v : Option Bool} (hj : j ≠ i)
    (h : Held (n.follow i v) j) : Held n j := by
  rcases v with _ | _ | _
  · exact h
  · exact deactivateClient_held h
  · rw [follow] at h
    split at h
    · exact h
    · exact (activateClient_held h).resolve_right hj

lemma follow_hostStates (n : Node) (i : ClientId) (v : Option Bool) :
    (n.follow i v).hostStates = n.hostStates := by
  rcases v with _ | _ | _
  · rfl
  · exact deactivateClient_hostStates n i
  · rw [follow]
    split
    · rfl
    · exact callClient_hostStates ..

/-! ### One event -/

/-- With what one client has heard, the agreement is about this client. -/
lemma agreed_iff_self {n m : Node} {i : ClientId} {l : List Str} (h : Agreed n)
    (hstates : m.hostStates = (n.setHostStates i l).hostStates)
    (hothers : ∀ j, j ≠ i → Held m j → Held n j) :
    Agreed m ↔ (Held m i → LastSaid l true) := by
  rw [Agreed, hstates]
  refine ⟨fun ha hi => ?_, fun hi j hj => ?_⟩
  · simpa [setHostStates] using ha i hi
  · by_cases hji : j = i
    · subst hji
      simpa [setHostStates] using hi hj
    · simpa [setHostStates, hji] using h j (hothers j hji hj)

lemma setActiveClient_agreed {n : Node} {i : ClientId} (h : Agreed n)
    (hi : LastSaid (n.hostStates i) true) : Agreed (n.setActiveClient (some i)) := by
  have hd : ∀ m : Node, Agreed m → LastSaid (m.hostStates i) true →
      Agreed { m with activeClient := some i }.publishBirth := by
    intro m hm hmi
    have hsame := publishBirth_kept (P := Same { m with activeClient := some i })
      (fun _ p h => publish_same h p true) (.refl _)
    refine hsame.agreed.mpr fun j hj => ?_
    rcases hj with hj | hj | hj
    · exact hm j (.inl hj)
    · exact hm j (.inr (.inl hj))
    · obtain rfl : i = j := Option.some.inj hj
      exact hmi
  simp only [setActiveClient, Option.isSome_some, if_true]
  split
  · next old _ =>
    split
    · refine hd _ (fun j hj => ?_) (by simpa using hi)
      rw [callClient_hostStates]
      exact h j (callClient_held (by simp) hj)
    · exact hd _ h hi
  · exact hd _ h hi

lemma onCommandMessage_same (n : Node) (i : ClientId) (topic payload : Str) :
    Same n (n.onCommandMessage i topic payload) :=
  onCommandMessage_kept (P := Same n) (fun _ p h => publish_same h p true) (fun _ h => { h with })
    (.refl n) i topic payload

lemma onMessage_of_not_hostTopic {n : Node} {i : ClientId} {topic : Str} (payload : Str)
    (h : n.isHostTopic topic = false) : Same n (n.onMessage i topic payload) := by
  have hsame := onCommandMessage_same n i topic payload
  have hhost := (hsame.isHostTopic topic).trans h
  simp only [onMessage, noteHost, onHostState, h, hhost, Bool.false_eq_true, if_false]
  split
  · exact .refl n
  · exact hsame

/-- A message that is left at once is no command. -/
lemma onCommandMessage_of_leavesAtOnce {n : Node} {i : ClientId} {topic : Str}
    (h : n.leavesAtOnce i topic = true) (payload : Str) :
    n.onCommandMessage i topic payload = n := by
  simp only [leavesAtOnce, Bool.and_eq_true, decide_eq_true_eq, Bool.not_eq_true',
    List.isEmpty_iff] at h
  obtain ⟨⟨⟨ha, hncmd⟩, hdcmd⟩, hdevices⟩ := h
  simp [onCommandMessage, commandDevice, ha, hncmd, hdcmd, hdevices]

/-- An active client may have something done to it by a command. -/
lemma onCommandMessage_client (n : Node) (i : ClientId) (topic payload : Str) :
    (n.onCommandMessage i topic payload).client i = n.client i ∨ n.activeClient = some i := by
  by_cases ha : n.activeClient = some i
  · exact .inr ha
  · exact .inl (by rw [onCommandMessage, if_neg ha])

lemma noteHost_eq {n : Node} {topic : Str} (ht : n.isHostTopic topic = true) (i : ClientId)
    (payload : Str) :
    n.noteHost i topic payload = n.setHostStates i (payload :: n.hostStates i) := if_pos ht

/-- On the topic of the host the client does what is heard, after what a command does. -/
lemma onMessage_eq {n : Node} {i : ClientId} {topic : Str} (ht : n.isHostTopic topic = true)
    (payload : Str) : n.onMessage i topic payload =
      ((n.noteHost i topic payload).onCommandMessage i topic payload).follow i
        (n.heard i topic payload) := by
  have hleaves : (n.noteHost i topic payload).leavesAtOnce i topic = n.leavesAtOnce i topic := by
    rw [noteHost_eq ht]
    rfl
  have hhost : (n.noteHost i topic payload).isHostTopic topic = true := by
    rw [noteHost_eq ht]
    exact ht
  have hsame := onCommandMessage_same (n.noteHost i topic payload) i topic payload
  simp only [onMessage, hleaves, heard]
  split
  · next hl => exact (onCommandMessage_of_leavesAtOnce (hleaves.trans hl) payload).symm
  · exact onHostState_eq ((hsame.isHostTopic topic).trans hhost) i payload

lemma Same.remains {n m : Node} (h : Same n m) {i : ClientId}
    (hc : m.client i = n.client i ∨ n.activeClient = some i) (v : Option Bool) :
    Remains m i v ↔ Remains n i v := by
  rcases v with _ | _ | _
  · exact h.held i
  · exact h.lingers i
  · rcases hc with hc | ha
    · rw [Remains, Remains, h.held, hc]
    · -- a command may have used an answer of the library, but an active client stays
      have hheld : Held n i := .inr (.inr ha)
      exact iff_of_true (.inl ((h.held i).mpr hheld)) (.inl hheld)

lemma setHostStates_remains (n : Node) (i j : ClientId) (l : List Str) (v : Option Bool) :
    Remains (n.setHostStates i l) j v ↔ Remains n j v := by
  rcases v with _ | _ | _ <;> exact .rfl

lemma onMessage_held_self {n : Node} {topic : Str} (ht : n.isHostTopic topic = true)
    (i : ClientId) (payload : Str) :
    Held (n.onMessage i topic payload) i ↔ Remains n i (n.heard i topic payload) := by
  rw [onMessage_eq ht, noteHost_eq ht, follow_held_self,
    (onCommandMessage_same ..).remains (onCommandMessage_client ..), setHostStates_remains]

lemma onMessage_held {n : Node} {topic payload : Str} (ht : n.isHostTopic topic = true)
    {i j : ClientId} (hj : j ≠ i) (h : Held (n.onMessage i topic payload) j) : Held n j := by
  rw [onMessage_eq ht, noteHost_eq ht] at h
  have hnoted : Held (n.setHostStates i (payload :: n.hostStates i)) j :=
    ((onCommandMessage_same ..).held j).mp (follow_held hj h)
  exact hnoted

lemma onMessage_hostStates {n : Node} {topic : Str} (ht : n.isHostTopic topic = true)
    (i : ClientId) (payload : Str) : (n.onMessage i topic payload).hostStates =
      (n.setHostStates i (payload :: n.hostStates i)).hostStates := by
  rw [onMessage_eq ht, noteHost_eq ht, follow_hostStates, (onCommandMessage_same ..).hostStates]

lemma Lingers.held {n : Node} {i : ClientId} (h : Lingers n i) : Held n i :=
  h.elim (fun hq => .inr (.inl hq)) fun hp => .inl hp.1

/-- What is heard is enough for what was said: of a host that is offline nothing is left, and
one that has said nothing is not taken for online. -/
def Heeds (n : Node) (i : ClientId) (heard : Option Bool) : Option Bool → Prop
  | some true => True
  | some false => ¬Remains n i heard
  | none => heard = some true → Remains n i heard → LastSaid (n.hostStates i) true

lemma heeds_iff {n : Node} (h : Agreed n) (i : ClientId) (heard : Option Bool) {payload : Str}
    {v : Option Bool} (hv : Told payload v) :
    n.Heeds i heard v ↔ (Remains n i heard → LastSaid (payload :: n.hostStates i) true) := by
  rw [lastSaid_cons hv]
  rcases v with _ | _ | _
  · -- only hearing that the host is online can make a client one that remains
    refine ⟨fun hheard hr => ?_, fun hr _ => hr⟩
    rcases heard with _ | _ | _
    · exact h i hr
    · exact h i (Lingers.held hr)
    · exact hheard rfl hr
  · simp [Heeds]
  · simp [Heeds]

/-- When a message leaves the node in agreement with the host. -/
lemma onMessage_agreed_iff {n : Node} (h : Agreed n) (i : ClientId) (topic payload : Str) :
    Agreed (n.onMessage i topic payload) ↔
      (n.isHostTopic topic = true → ∀ v, Told payload v →
        n.Heeds i (n.heard i topic payload) v) := by
  cases ht : n.isHostTopic topic with
  | false =>
    refine iff_of_true ?_ (by simp)
    exact (onMessage_of_not_hostTopic payload ht).agreed.mpr h
  | true =>
    have hagreed := agreed_iff_self h (onMessage_hostStates ht i payload)
      fun _ hj => onMessage_held ht hj
    obtain ⟨v, hv⟩ := exists_told payload
    rw [hagreed, onMessage_held_self ht, ← heeds_iff h i _ hv]
    exact ⟨fun hh _ w hw => hv.unique hw ▸ hh, fun hh => hh rfl v hv⟩

/-- Processing the event leaves the node in agreement with the host. A new session of a
client, the end of one and a host that goes offline must find nothing of an activation that
outlives them. -/
def EndsActivation (n : Node) (i : ClientId) : ClientEvent → Prop
  | .message topic payload =>
    n.isHostTopic topic = true → ∀ v, Told payload v → n.Heeds i (n.heard i topic payload) v
  | .disconnected => ¬Lingers n i
  | .connected => ¬Held n i
  | _ => True

lemma handleEvent_agreed_iff {n : Node} (hm : n.hostMode = .primaryHost) (h : Agreed n)
    (i : ClientId) {e : ClientEvent} (he : e = .active → LastSaid (n.hostStates i) true) :
    Agreed (n.handleEvent i e) ↔ EndsActivation n i e := by
  cases e with
  | message topic payload => exact onMessage_agreed_iff h i topic payload
  | connected =>
    have hmode : (n.forgetHost i).hostMode ≠ .single := by
      rw [show (n.forgetHost i).hostMode = n.hostMode from rfl, hm]
      simp
    simp only [handleEvent, if_neg hmode]
    exact agreed_iff_self h rfl fun _ _ hj => hj
  | disconnected =>
    have hheld : ∀ j, Held ((n.forgetHost i).deactivateClient i) j → Held n j := fun j hj =>
      show Held (n.forgetHost i) j from deactivateClient_held hj
    have hagreed := agreed_iff_self h (deactivateClient_hostStates (n.forgetHost i) i)
      fun j _ => hheld j
    exact hagreed.trans (not_congr (deactivateClient_held_self (n.forgetHost i) i))
  | active => exact iff_of_true (setActiveClient_agreed h (he rfl)) trivial
  | deactive => exact iff_of_true h trivial
  | delivered p => exact iff_of_true h trivial
  | undelivered p => exact iff_of_true h trivial

/-! ### Whole runs -/

/-- The action leaves the node in agreement with the host. -/
def HoldsHost (n : Node) : NodeCall → Prop
  | .processEvent =>
    match n.eventQueue with
    | [] => True
    | (i, e) :: rest => n.faulted = false → EndsActivation { n with eventQueue := rest } i e
  | _ => True

/-- Among the actions only the processing of an event can end the agreement. -/
lemma agreed_kept : Kept fun n => n.hostMode = .primaryHost ∧ Agreed n where
  publish n p b h := by
    have hsame := publish_same (.refl n) p b
    exact ⟨hsame.hostMode.trans h.1, hsame.agreed.mpr h.2⟩
  client n i a ha _ h := by
    refine ⟨(callClient_hostMode n i a).trans h.1, fun j hj => ?_⟩
    rw [callClient_hostStates]
    exact h.2 j (callClient_held ha hj)
  pub _ _ _ _ _ h := h
  free _ _ _ _ _ h := h

lemma agreed_pop {n : Node} (h : Agreed n) {i : ClientId} {e : ClientEvent}
    {rest : List (ClientId × ClientEvent)} (hq : n.eventQueue = (i, e) :: rest) :
    Agreed { n with eventQueue := rest } := by
  refine fun j hj => h j (hj.imp id (Or.imp_left fun hmem => ?_))
  rw [hq]
  exact List.mem_cons_of_mem _ hmem

/-- When an action leaves the node in agreement with the host. -/
lemma agreed_step_iff {n : Node} (hm : n.hostMode = .primaryHost) (h : Agreed n) (a : NodeCall) :
    Agreed (n.step a) ↔ HoldsHost n a := by
  unfold step
  split
  · next hf =>
    refine iff_of_true h ?_
    unfold HoldsHost
    repeat' split
    all_goals simp [hf]
  · next hf =>
    by_cases ha : a = .processEvent
    · subst ha
      cases hq : n.eventQueue with
      | nil => exact iff_of_true (by simpa [handle, processEvent, hq] using h) (by simp [HoldsHost, hq])
      | cons ie rest =>
        obtain ⟨i, e⟩ := ie
        have hact : e = .active → LastSaid (n.hostStates i) true := fun he =>
          h i (.inr (.inl (by rw [hq, he]; simp)))
        have hone := handleEvent_agreed_iff (n := { n with eventQueue := rest }) hm
          (agreed_pop h hq) i hact
        simpa only [handle, processEvent, HoldsHost, hq, hf, forall_const] using hone
    · have hkept := (handle_kept agreed_kept ⟨hm, h⟩ ha).2
      refine iff_of_true hkept ?_
      cases a <;> first | exact absurd rfl ha | trivial

lemma hostMode_kept (mode : SparkplugClientMode) : EventKept fun n => n.hostMode = mode where
  publish n p b h := (publish_same (.refl n) p b).hostMode.trans h
  client n i a _ _ h := (callClient_hostMode n i a).trans h
  pub _ _ _ _ _ h := h
  free _ _ _ _ _ h := h
  pop _ _ _ _ _ _ h := h
  activate n i h := (callClient_hostMode n i _).trans h
  hostStates _ _ h := h
  activeClient _ _ h := h
  fault _ h := h

/-- **The node agrees with the primary host**, of active clients and of those that may become
active, exactly in those runs in which what ends a session or takes the host offline finds
nothing of an activation that outlives it, and no message that says nothing is taken for one
that says online. -/
theorem agreed_iff_holdsHost (s : NodeSetup) (hm : (create s).hostMode = .primaryHost)
    (calls : List NodeCall) :
    Along step Agreed (create s) calls ↔ Each step HoldsHost (create s) calls := by
  have h0 : Agreed (create s) := by
    rintro i (h | h | h) <;> cases h
  generalize create s = n at hm h0
  induction calls generalizing n with
  | nil => exact iff_of_true h0 trivial
  | cons a calls ih =>
    have hmode : (n.step a).hostMode = .primaryHost :=
      step_kept (hostMode_kept _) hm a fun _ _ _ _ _ _ _ => hm
    refine ⟨fun h => ?_, fun h => ?_⟩
    · exact ⟨(agreed_step_iff hm h0 a).mp h.2.head, (ih _ hmode h.2.head).mp h.2⟩
    · have h1 := (agreed_step_iff hm h0 a).mpr h.1
      exact ⟨h0, (ih _ hmode h1).mpr h.2⟩

/-- With no events left, the host of the active client has said last that it is online. -/
def HostOnline (n : Node) : Prop :=
  n.eventQueue = [] → ∀ i, n.activeClient = some i → LastSaid (n.hostStates i) true

/-- A node with a primary host whose clients are all of one class. -/
def hosted (kind : ClientKind) : NodeSetup where
  options := { groupId := ['g'], nodeId := ['n'], primaryHost := ['h'], rebirth := false }
  kind := fun _ => kind

def stateTopic : Str := "spBv1.0/STATE/h".toList

/-- A payload that says this of the host. -/
def saying (b : Bool) : Str :=
  "\x7b\"online\": ".toList ++ ((if b then "true" else "false").toList ++ "\x7d".toList)

lemma says_saying (b : Bool) : Says (saying b) b := by
  cases b
  · exact ⟨[(onlineName, .bool false)], [], .object rfl (.lastMember rfl rfl rfl (.false rfl) rfl),
      rfl, rfl⟩
  · exact ⟨[(onlineName, .bool true)], [], .object rfl (.lastMember rfl rfl rfl (.true rfl) rfl),
      rfl, rfl⟩

lemma endsActivation_saying {n : Node} {i : ClientId} {topic : Str} {b : Bool}
    (h : n.Heeds i (n.heard i topic (saying b)) (some b)) :
    EndsActivation n i (.message topic (saying b)) := by
  intro _ v hv
  rwa [hv.unique (w := some b) (says_saying b)]

/-- The host is online, and goes offline after the client has become active. -/
def onlineThenOffline : List NodeCall :=
  [.addClient, .enable, .executeClient 0, .library 0 .onConnect, .processEvent,
    .library 0 (.onMessage stateTopic (saying true)), .processEvent,
    .library 0 .onCommandSubscription, .processEvent,
    .library 0 (.onMessage stateTopic (saying false)), .processEvent]

lemma onlineThenOffline_holdsHost :
    Each step HoldsHost (create (hosted .pahoAsync)) onlineThenOffline := by
  refine ⟨trivial, trivial, trivial, trivial, fun _ => ?_, trivial,
    fun _ => endsActivation_saying trivial, trivial, fun _ => trivial, trivial,
    fun _ => endsActivation_saying ?_, trivial⟩
  · change ¬Held _ _
    decide
  · change ¬Remains _ _ _
    decide

/-- The host goes offline while the client waits for its subscription. -/
def offlineThenActive : List NodeCall :=
  [.addClient, .enable, .executeClient 0, .library 0 .onConnect, .processEvent,
    .library 0 (.onMessage stateTopic (saying true)), .processEvent,
    .library 0 (.onMessage stateTopic (saying false)), .processEvent,
    .library 0 .onCommandSubscription, .processEvent]

end Node

end Sparkplug
