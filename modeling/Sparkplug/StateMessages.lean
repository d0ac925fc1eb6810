import Sparkplug.Commands
import Sparkplug.Routing

/-!
The messages of the primary host.

The node looks for two texts in a payload instead of reading it, and on the way there it may
take the message for a command. Said here is for which payloads it does what they say.
-/

namespace Sparkplug

open Machine

namespace Node

/-! ### What the node does -/

/-- The node does what the payload says, and nothing else. -/
def HandlesState (n : Node) (i : ClientId) (topic payload : Str) : Prop :=
  ∀ v, Told payload v → n.onMessage i topic payload = (n.noteHost i topic payload).follow i v

/-- The same comes of both: an active client can only be deactivated, another one only
activated. -/
def Alike (n : Node) (i : ClientId) (v w : Option Bool) : Prop :=
  if n.activeClient = some i then (v = some false ↔ w = some false)
  else (v = some true ↔ w = some true)

lemma follow_active {n : Node} {i : ClientId} (h : n.activeClient = some i) (v : Option Bool) :
    n.follow i v = if v = some false then n.deactivateClient i else n := by
  rcases v with _ | _ | _
  · rfl
  · rfl
  · exact if_pos h

lemma follow_inactive {n : Node} {i : ClientId} (h : n.activeClient ≠ some i)
    (v : Option Bool) : n.follow i v = if v = some true then n.activateClient i else n := by
  rcases v with _ | _ | _
  · rfl
  · exact deactivateClient_of_ne h
  · exact if_neg h

lemma activateClient_ne (n : Node) (i : ClientId) : n.activateClient i ≠ n := by
  intro h
  have hlen := congrArg (fun m : Node => (m.client i).hist.length) h
  simp [activateClient] at hlen

lemma deactivateClient_ne {n : Node} {i : ClientId} (h : n.activeClient = some i) :
    n.deactivateClient i ≠ n := by
  rw [deactivateClient_of_eq h]
  intro e
  cases h.symm.trans (congrArg Node.activeClient e.symm)

lemma follow_eq_iff {n : Node} {i : ClientId} {v w : Option Bool} :
    n.follow i v = n.follow i w ↔ n.Alike i v w := by
  unfold Alike
  by_cases h : n.activeClient = some i
  · have hne := deactivateClient_ne h
    rw [if_pos h, follow_active h, follow_active h]
    by_cases hv : v = some false <;> by_cases hw : w = some false <;> simp [hv, hw, hne, hne.symm]
  · have hne := n.activateClient_ne i
    rw [if_neg h, follow_inactive h, follow_inactive h]
    by_cases hv : v = some true <;> by_cases hw : w = some true <;> simp [hv, hw, hne, hne.symm]

/-- Neither a payload nor a fault comes of a deactivation. -/
lemma follow_pub {n : Node} {i : ClientId} (h : n.activeClient = some i) (v : Option Bool) :
    (n.follow i v).pub = n.pub ∧ (n.follow i v).faulted = n.faulted := by
  rw [follow_active h]
  split
  · rw [deactivateClient_of_eq h]
    have heff : n.clientEffects i .deactivate = [] :=
      Ledger.effects_eq (by rw [List.append_nil]; exact Client.deactivate_log _)
    refine ⟨funext fun p => ?_, callClient_faulted n i _⟩
    change (n.callClient i .deactivate).pub p = n.pub p
    rw [callClient_pub, heff]
    rfl
  · exact ⟨rfl, rfl⟩

/-! ### Messages that are commands -/

/-- The metric of a command is for no metric that does anything. -/
def Idle (ms : List Metric) (c : CommandMetric) : Prop :=
  match c.lookup ms with
  | .absent => False
  | .unknown => True
  | .found k => ∀ m ∈ ms[k]?, ¬(m.callback = some .rebirth ∧ c.booleanValue)

/-- The message is no command that does anything. -/
def CommandsNothing (n : Node) (i : ClientId) (topic payload : Str) : Prop :=
  n.activeClient = some i → ∀ p ∈ n.recipient topic, ∀ cs ∈ n.decodePayload payload,
    ∀ c ∈ cs, Idle (n.pub p).cur.metrics c

/-- There was a fault, or more than `k` things have happened to the node's own metrics. -/
def Moved (k : ℕ) (n : Node) : Prop := n.faulted = true ∨ k < (n.pub .node).hist.length

lemma foldl_act_hist (t : Traced Publishable.step) (as : List PublishableCall) :
    (as.foldl Traced.act t).hist = t.hist ++ as := by
  induction as generalizing t with
  | nil => simp
  | cons a as ih => rw [List.foldl_cons, ih, Traced.act_hist, List.append_assoc]; rfl

lemma hist_stable (k : ℕ) : Stable fun n => k < (n.pub .node).hist.length where
  client n i a h := by
    rw [callClient_pub, foldl_act_hist, List.length_append]
    exact Nat.lt_add_right _ h
  pub n p a h := by
    rw [callPub_pub]
    split
    · next hp =>
      rw [Traced.act_hist, List.length_append, ← hp]
      exact Nat.lt_add_right _ h
    · exact h
  free h _ hp := hp ▸ h

lemma publish_moved {k : ℕ} {n : Node} (h : Moved k n) (p : PubId) (b : Bool) :
    Moved k (n.publish p b) := by
  rcases h with h | h
  · rcases publish_cases n p b with ⟨e, -⟩ | ⟨e, -⟩ | ⟨i, -, e⟩
    · exact .inl (by rw [e, h])
    · exact .inl (e ▸ rfl)
    · exact .inl (by rw [e, requested, callClient_faulted, prepared_faulted, h])
  · exact .inr ((hist_stable k).eventKept.publish n p b h)

/-- A birth of the node is something that happens to its metrics. -/
lemma publishBirth_moved (n : Node) : Moved (n.pub .node).hist.length n.publishBirth := by
  refine deviceBirths_kept (P := Moved _) (fun n p h => publish_moved h p true) ?_
  rcases publish_cases n .node true with ⟨-, hb, -⟩ | ⟨e, -⟩ | ⟨i, -, e⟩
  · cases hb
  · exact .inl (e ▸ rfl)
  · refine .inr ?_
    rw [e, requested]
    refine (hist_stable _).client _ i _ ?_
    simp

lemma commandMetric_of_idle {n : Node} {p : PubId} {c : CommandMetric}
    (h : Idle (n.pub p).cur.metrics c) : n.commandMetric p c = n := by
  rw [commandMetric_eq rfl]
  unfold Idle at h
  cases hk : c.lookup (n.pub p).cur.metrics with
  | absent => simp [hk] at h
  | unknown => rfl
  | found k =>
    simp only [hk] at h
    change (n.pub p).cur.metrics[k]?.elim n (n.onCommand · c) = n
    cases hm : (n.pub p).cur.metrics[k]? with
    | none => rfl
    | some m => exact if_neg (h m hm)

lemma commandMetric_moved {n : Node} {p : PubId} {c : CommandMetric}
    (h : ¬Idle (n.pub p).cur.metrics c) :
    Moved (n.pub .node).hist.length (n.commandMetric p c) := by
  rw [commandMetric_eq rfl]
  unfold Idle at h
  cases hk : c.lookup (n.pub p).cur.metrics with
  | absent => exact .inl rfl
  | unknown => simp [hk] at h
  | found k =>
    simp only [hk, not_forall, not_not] at h
    obtain ⟨m, hm, hrebirth⟩ := h
    change Moved _ ((n.pub p).cur.metrics[k]?.elim n (n.onCommand · c))
    rw [Option.mem_def.mp hm, Option.elim_some, onCommand, if_pos hrebirth]
    exact publishBirth_moved n

/-- The loop of `handleCommand` does nothing, or what it does can be seen. -/
lemma foldl_commandMetric_moved {p : PubId} (cs : List CommandMetric) (n : Node) :
    ((∀ c ∈ cs, Idle (n.pub p).cur.metrics c) → cs.foldl (commandMetric · p ·) n = n) ∧
      (¬(∀ c ∈ cs, Idle (n.pub p).cur.metrics c) →
        Moved (n.pub .node).hist.length (cs.foldl (commandMetric · p ·) n)) := by
  induction cs with
  | nil => simp
  | cons c cs ih =>
    rw [List.foldl_cons, List.forall_mem_cons]
    by_cases hc : Idle (n.pub p).cur.metrics c
    · simpa [commandMetric_of_idle hc, hc] using ih
    · refine ⟨fun h => absurd h.1 hc, fun _ => ?_⟩
      exact commandMetrics_kept (P := Moved _) (fun n p h => publish_moved h p true)
        (fun _ _ => .inl rfl) p cs (commandMetric_moved hc)

/-- A message is no command, or what comes of the command can be seen. -/
lemma onCommandMessage_moved (n : Node) (i : ClientId) (topic payload : Str) :
    (n.CommandsNothing i topic payload → n.onCommandMessage i topic payload = n) ∧
      (¬n.CommandsNothing i topic payload →
        Moved (n.pub .node).hist.length (n.onCommandMessage i topic payload)) := by
  by_cases ha : n.activeClient = some i
  · rw [onCommandMessage_eq ha]
    cases hp : n.recipient topic with
    | none => exact ⟨fun _ => rfl, fun h => absurd (fun _ p hp' => by simp [hp] at hp') h⟩
    | some p =>
      rw [Option.elim_some, handleCommand]
      cases hcs : n.decodePayload payload with
      | none => exact ⟨fun _ => rfl, fun h => absurd (fun _ _ _ cs hcs' => by simp [hcs] at hcs') h⟩
      | some cs =>
        have hnothing : n.CommandsNothing i topic payload ↔
            ∀ c ∈ cs.reverse, Idle (n.pub p).cur.metrics c := by
          simp [CommandsNothing, ha, hp, hcs]
        rw [hnothing]
        exact foldl_commandMetric_moved cs.reverse n
  · exact ⟨fun _ => if_neg ha, fun h => absurd (fun ha' => absurd ha' ha) h⟩

lemma noteHost_pub (n : Node) (i : ClientId) (topic payload : Str) :
    (n.noteHost i topic payload).pub = n.pub ∧
      (n.noteHost i topic payload).faulted = n.faulted ∧
      ((n.noteHost i topic payload).CommandsNothing i topic payload ↔
        n.CommandsNothing i topic payload) := by
  unfold noteHost
  split
  all_goals exact ⟨rfl, rfl, .rfl⟩

/-- **The node follows the primary host** just if the message is no command that does
anything, and the texts it looks for in the payload are there exactly when they are to be. -/
theorem handlesState_iff {n : Node} (hf : n.faulted = false) {i : ClientId} {topic : Str}
    (ht : n.isHostTopic topic = true) (payload : Str) :
    n.HandlesState i topic payload ↔ n.CommandsNothing i topic payload ∧
      ∀ v, Told payload v → n.Alike i (n.heard i topic payload) v := by
  obtain ⟨hactive, -⟩ := noteHost_recipient n i topic payload
  obtain ⟨hpub, hfault, hnothing⟩ := noteHost_pub n i topic payload
  obtain ⟨hidle, hmoved⟩ := onCommandMessage_moved (n.noteHost i topic payload) i topic payload
  rw [HandlesState, onMessage_eq ht]
  by_cases hn : n.CommandsNothing i topic payload
  · have halike : ∀ v w, (n.noteHost i topic payload).Alike i v w ↔ n.Alike i v w := by
      intro v w
      rw [Alike, Alike, hactive]
    simp only [hidle (hnothing.mpr hn), follow_eq_iff, halike, hn, true_and]
  · -- something has happened that does not come of what the payload says
    have ha : n.activeClient = some i := by
      by_contra ha
      exact hn fun ha' => absurd ha' ha
    have hsame := onCommandMessage_same (n.noteHost i topic payload) i topic payload
    have hact := hsame.activeClient.trans (hactive.trans ha)
    refine iff_of_false (fun h => ?_) fun h => hn h.1
    obtain ⟨v, hv⟩ := exists_told payload
    have heq := h v hv
    obtain ⟨hpub', hfault'⟩ := follow_pub hact (n.heard i topic payload)
    obtain ⟨hpub'', hfault''⟩ := follow_pub (hactive.trans ha) v
    rcases hmoved (mt hnothing.mp hn) with hm | hm
    · rw [← hfault', heq, hfault'', hfault, hf] at hm
      cases hm
    · rw [← hpub', heq, hpub''] at hm
      exact lt_irrefl _ hm

/-- A host that is online, with white space before the value. -/
def spelled (space : Str) : Str :=
  "\x7b\"online\":".toList ++ (space ++ "true\x7d".toList)

lemma spelled_online {space : Str} (h : ∀ c ∈ space, Json.isSpace c = true) :
    Says (spelled space) true := by
  have hskip : Json.skip (space ++ "true\x7d".toList) = "true\x7d".toList := by
    rw [Json.skip, List.dropWhile_append_of_pos h]
    decide
  refine ⟨[(onlineName, .bool true)], [], .object rfl (.lastMember rfl rfl rfl (.true hskip) ?_),
    rfl, rfl⟩
  decide

/-- A client is connected. -/
def connectedClient : List NodeCall :=
  [.addClient, .enable, .executeClient 0, .library 0 .onConnect, .processEvent]

theorem spaced_handled : (run step (create (hosted .pahoAsync)) connectedClient).HandlesState 0
    stateTopic (spelled [' ']) := by
  refine (handlesState_iff (by decide) (by decide) (spelled [' '])).mpr
    ⟨fun ha => absurd ha (by decide), fun v hv => ?_⟩
  obtain rfl := hv.unique (w := some true) (spelled_online (by simp [Json.isSpace]))
  rw [Alike, if_neg (by decide)]
  decide

/-- Without the space the host is not heard. -/
theorem unspaced_not_handled : ¬(run step (create (hosted .pahoAsync)) connectedClient).HandlesState
    0 stateTopic (spelled []) := by
  intro h
  have hlen := congrArg (fun m : Node => (m.client 0).hist.length)
    (h (some true) (spelled_online (by simp)))
  exact absurd hlen (by decide)

end Node

end Sparkplug
