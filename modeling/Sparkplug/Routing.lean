import Sparkplug.HostState
import Sparkplug.Levels

/-!
Routing.

The node tells the messages it gets apart by substrings of their topics, so the names the
user chooses take part in it. Said here is who gets a message on each of the topics an
active client subscribes to, and for which names that is who it is addressed to.
-/

namespace Sparkplug

open Machine

namespace Node

lemma contains_iff {s part : Str} : contains s part = true ↔ part <:+: s := by
  simp only [contains, List.any_eq_true, List.mem_tails, List.isPrefixOf_iff_prefix,
    List.infix_iff_prefix_suffix, and_comm]

/-! ### Who gets a message -/

/-- The publishable whose `handleCommand` gets a message of the active client. -/
def recipient (n : Node) (topic : Str) : Option PubId :=
  if contains topic ncmd then
    if topic = n.clientTopics.nodeCommandTopic then some .node else none
  else if contains topic dcmd then (n.commandDevice topic).map .device
  else none

/-- The handling of the messages of the primary host is reached. -/
def reachesHost (n : Node) (i : ClientId) (topic : Str) : Bool :=
  n.isHostTopic topic && !n.leavesAtOnce i topic

lemma onCommandMessage_eq {n : Node} {i : ClientId} (ha : n.activeClient = some i)
    (topic payload : Str) : n.onCommandMessage i topic payload =
      (n.recipient topic).elim n fun p => n.handleCommand p payload := by
  unfold onCommandMessage recipient
  rw [if_pos ha]
  split
  · split <;> rfl
  · split
    · cases n.commandDevice topic <;> rfl
    · rfl

/-- Nobody gets a message that is left at once. -/
lemma recipient_of_leavesAtOnce {n : Node} {i : ClientId} {topic : Str}
    (h : n.leavesAtOnce i topic = true) : n.recipient topic = none := by
  simp only [leavesAtOnce, Bool.and_eq_true, Bool.not_eq_true', List.isEmpty_iff] at h
  simp [recipient, h.1.1.2, h.1.2, commandDevice, h.2]

lemma noteHost_recipient (n : Node) (i : ClientId) (topic payload : Str) :
    (n.noteHost i topic payload).activeClient = n.activeClient ∧
      (n.noteHost i topic payload).leavesAtOnce i topic = n.leavesAtOnce i topic ∧
      (n.noteHost i topic payload).recipient topic = n.recipient topic := by
  unfold noteHost
  split
  all_goals exact ⟨rfl, rfl, rfl⟩

/-- **The dispatch** of a message of the active client: its recipient handles it as a
command, and then comes the handling of the primary host, unless the message is left. -/
theorem onMessage_dispatch {n : Node} {i : ClientId} (ha : n.activeClient = some i)
    (topic payload : Str) : n.onMessage i topic payload =
      if n.leavesAtOnce i topic then n.noteHost i topic payload
      else ((n.recipient topic).elim (n.noteHost i topic payload) fun p =>
        (n.noteHost i topic payload).handleCommand p payload).onHostState i topic payload := by
  obtain ⟨hactive, hleaves, hrecipient⟩ := noteHost_recipient n i topic payload
  simp only [onMessage, hleaves]
  rw [onCommandMessage_eq (hactive.trans ha), hrecipient]

/-! ### The topics -/

def sparkplugNamespace : Str := "spBv1.0".toList
def state : Str := "STATE".toList

/-- A topic by its levels. -/
def ofLevels (ls : List Str) : Str := ['/'].intercalate ls

/-- A message an active client gets, by its topic: a command for the node, one for a device
of the given name, or a message about the primary host. -/
inductive SubscribedTopic
  | nodeCommand
  | deviceCommand (name : Str)
  | hostState

def SubscribedTopic.levels (o : NodeOptions) : SubscribedTopic → List Str
  | nodeCommand => [sparkplugNamespace, o.groupId, ncmd, o.nodeId]
  | deviceCommand name => [sparkplugNamespace, o.groupId, dcmd, o.nodeId, name]
  | hostState => [sparkplugNamespace, state, o.primaryHost]

def SubscribedTopic.topic (o : NodeOptions) (m : SubscribedTopic) : Str := ofLevels (m.levels o)

/-- The names are levels of topics. -/
structure Named (o : NodeOptions) : Prop where
  groupId_ne : o.groupId ≠ []
  nodeId_ne : o.nodeId ≠ []
  groupId : '/' ∉ o.groupId
  nodeId : '/' ∉ o.nodeId
  primaryHost : '/' ∉ o.primaryHost

variable {o : NodeOptions}

lemma Named.levels (h : Named o) {m : SubscribedTopic} (hm : ∀ name, m = .deviceCommand name → '/' ∉ name) :
    ∀ l ∈ m.levels o, '/' ∉ l := by
  have h1 := h.groupId
  have h2 := h.nodeId
  have h3 := h.primaryHost
  have hns : '/' ∉ sparkplugNamespace := by decide
  have hncmd : '/' ∉ ncmd := by decide
  have hdcmd : '/' ∉ dcmd := by decide
  have hstate : '/' ∉ state := by decide
  cases m with
  | nodeCommand => simp [SubscribedTopic.levels, h1, h2, hns, hncmd]
  | deviceCommand name => simp [SubscribedTopic.levels, h1, h2, hns, hdcmd, hm name rfl]
  | hostState => simp [SubscribedTopic.levels, h3, hns, hstate]

lemma contains_topic {p : Str} (hp : '/' ∉ p) (m : SubscribedTopic) :
    contains (m.topic o) p = true ↔ ∃ l ∈ m.levels o, contains l p = true := by
  simp only [contains_iff, SubscribedTopic.topic, ofLevels]
  exact Levels.infix_intercalate hp (by cases m <;> simp [SubscribedTopic.levels])

lemma topic_inj (h : Named o) {m m' : SubscribedTopic}
    (hm : ∀ name, m = .deviceCommand name → '/' ∉ name)
    (hm' : ∀ name, m' = .deviceCommand name → '/' ∉ name) (e : m.topic o = m'.topic o) :
    m.levels o = m'.levels o :=
  Levels.intercalate_inj (by cases m <;> simp [SubscribedTopic.levels])
    (by cases m' <;> simp [SubscribedTopic.levels]) (h.levels hm) (h.levels hm') e

/-! ### The topics of a node -/

lemma topics_kept (t : ClientTopicOptions) : EventKept fun n => n.clientTopics = t where
  publish n p b h := (publish_same (.refl n) p b).topics.trans h
  client n i a _ _ h := (callClient_clientTopics n i a).trans h
  pub _ _ _ _ _ h := h
  free _ _ _ _ _ h := h
  pop _ _ _ _ _ _ h := h
  activate n i h := (callClient_clientTopics n i _).trans h
  hostStates _ _ h := h
  activeClient _ _ h := h
  fault _ h := h

/-- The topics that the clients subscribe to. -/
structure TopicsFor (o : NodeOptions) (t : ClientTopicOptions) : Prop where
  node : t.nodeCommandTopic = SubscribedTopic.nodeCommand.topic o
  device : t.deviceCommandTopic = (SubscribedTopic.deviceCommand ['+']).topic o
  host : t.primaryHostTopic =
    if o.primaryHost = [] then [] else SubscribedTopic.hostState.topic o

lemma configureTopics_topicsFor (o : NodeOptions) : TopicsFor o (configureTopics o).2.1 := by
  have hslash : slash = ['/'] := by decide
  have hany : "/+".toList = ['/', '+'] := by decide
  have hstate : "/STATE/".toList = '/' :: (state ++ ['/']) := by decide
  constructor
  · change sparkplugNamespace ++ slash ++ o.groupId ++ slash ++ ncmd ++ slash ++ o.nodeId = _
    simp only [hslash, SubscribedTopic.topic, ofLevels, SubscribedTopic.levels, List.intercalate_cons_cons,
      List.intercalate_singleton, List.append_assoc]
  · change sparkplugNamespace ++ slash ++ o.groupId ++ slash ++ dcmd ++ slash ++ o.nodeId ++
      "/+".toList = _
    simp only [hslash, hany, SubscribedTopic.topic, ofLevels, SubscribedTopic.levels,
      List.intercalate_cons_cons, List.intercalate_singleton, List.append_assoc,
      List.cons_append, List.nil_append]
  · change (if o.primaryHost = [] then [] else
      sparkplugNamespace ++ "/STATE/".toList ++ o.primaryHost) = _
    simp only [hstate, SubscribedTopic.topic, ofLevels, SubscribedTopic.levels,
      List.intercalate_cons_cons, List.intercalate_singleton, List.append_assoc,
      List.cons_append, List.nil_append]

lemma create_topicsFor {s : NodeSetup} (h : Named s.options) :
    TopicsFor s.options (create s).clientTopics := by
  have hconf : (!s.options.groupId.isEmpty && !s.options.nodeId.isEmpty) = true := by
    simp [h.groupId_ne, h.nodeId_ne]
  have htopics : (create s).clientTopics = (configureTopics s.options).2.1 := if_pos hconf
  rw [htopics]
  exact configureTopics_topicsFor s.options

lemma run_topicsFor {s : NodeSetup} (h : Named s.options) (calls : List NodeCall) :
    TopicsFor s.options (run step (create s) calls).clientTopics := by
  have hrun : (run step (create s) calls).clientTopics = (create s).clientTopics :=
    run_invariant (P := fun n : Node => n.clientTopics = (create s).clientTopics)
      (fun n a hn => step_kept (topics_kept _) hn a fun _ _ _ _ _ _ _ => hn) rfl calls
  rw [hrun]
  exact create_topicsFor h

/-! ### The routes -/

def deviceName (n : Node) (d : ℕ) : Str := (n.pub (.device d)).cur.name

/-- The device found for a command is the first of that name, unless the name is empty. -/
lemma commandDevice_eq {n : Node} (ht : TopicsFor o n.clientTopics) (name : Str) :
    n.commandDevice ((SubscribedTopic.deviceCommand name).topic o) =
      if name = [] then none else n.devices.find? fun d => name = n.deviceName d := by
  have htopic : ∀ name, (SubscribedTopic.deviceCommand name).topic o =
      (SubscribedTopic.deviceCommand []).topic o ++ name := by
    intro name
    simp [SubscribedTopic.topic, ofLevels, SubscribedTopic.levels]
  generalize hpre : (SubscribedTopic.deviceCommand []).topic o = pre at htopic
  have hlen : n.clientTopics.deviceCommandTopic.length = pre.length + 1 := by
    rw [ht.device, htopic]
    simp
  have hne : n.clientTopics.deviceCommandTopic ≠ [] := by
    intro h
    simp [h] at hlen
  have hcond : n.clientTopics.deviceCommandTopic ≠ [] ∧
      n.clientTopics.deviceCommandTopic.length ≤ (pre ++ name).length ↔ name ≠ [] := by
    rw [hlen, List.length_append]
    refine ⟨?_, fun h => ⟨hne, ?_⟩⟩
    · rintro ⟨-, hle⟩ rfl
      rw [List.length_nil] at hle
      omega
    · have := List.length_pos_iff.mpr h
      omega
  unfold commandDevice
  rw [htopic name]
  by_cases h : name = []
  · rw [if_neg fun hc => hcond.mp hc h, if_pos h]
  · rw [if_pos (hcond.mpr h), if_neg h, hlen, Nat.add_sub_cancel, List.drop_left]
    rfl

/-- A message gets to whom its topic names: a command for the node to the node, one for a
device to the device of that name and to nothing if there is none, and a message about the
primary host to the handling of the primary host. -/
def Routed (o : NodeOptions) (n : Node) (i : ClientId) : SubscribedTopic → Prop
  | .nodeCommand => n.recipient (SubscribedTopic.nodeCommand.topic o) = some .node
  | .deviceCommand name =>
    (∀ d ∈ n.devices, n.deviceName d = name →
      n.recipient ((SubscribedTopic.deviceCommand name).topic o) = some (.device d)) ∧
    ((∀ d ∈ n.devices, n.deviceName d ≠ name) →
      n.recipient ((SubscribedTopic.deviceCommand name).topic o) = none)
  | .hostState => o.primaryHost ≠ [] → n.reachesHost i (SubscribedTopic.hostState.topic o) = true

/-- No name is taken for a part of the topic it is not: in a command for a device, no name
contains `NCMD` and the device has one; and a node whose primary host has a name with `DCMD`
in it, but not `NCMD`, has devices. -/
def Unmistakable (o : NodeOptions) (n : Node) : SubscribedTopic → Prop
  | .nodeCommand => True
  | .deviceCommand name => (∃ d ∈ n.devices, n.deviceName d = name) → name ≠ [] ∧
      contains o.groupId ncmd = false ∧ contains o.nodeId ncmd = false ∧
      contains name ncmd = false
  | .hostState => contains o.primaryHost dcmd = true → contains o.primaryHost ncmd = false →
      n.devices ≠ []

lemma recipient_nodeCommand {n : Node} (ht : TopicsFor o n.clientTopics) :
    n.recipient (SubscribedTopic.nodeCommand.topic o) = some .node := by
  have hncmd : contains (SubscribedTopic.nodeCommand.topic o) ncmd = true :=
    (contains_topic (by decide) _).mpr ⟨ncmd, by simp [SubscribedTopic.levels], by decide⟩
  rw [recipient, if_pos hncmd, if_pos ht.node.symm]

/-- A command for a device is given to the device that is found, or to nothing when it is
taken for a command for the node. -/
lemma recipient_deviceCommand (h : Named o) {n : Node} (ht : TopicsFor o n.clientTopics)
    {name : Str} (hname : '/' ∉ name) :
    n.recipient ((SubscribedTopic.deviceCommand name).topic o) =
      if contains o.groupId ncmd || contains o.nodeId ncmd || contains name ncmd then none
      else if name = [] then none
      else (n.devices.find? fun d => name = n.deviceName d).map .device := by
  have hnode : (SubscribedTopic.deviceCommand name).topic o ≠ n.clientTopics.nodeCommandTopic := by
    rw [ht.node]
    intro e
    have := topic_inj h (by simpa using hname) (by simp) e
    simp [SubscribedTopic.levels] at this
  have hncmd : contains ((SubscribedTopic.deviceCommand name).topic o) ncmd =
      (contains o.groupId ncmd || contains o.nodeId ncmd || contains name ncmd) := by
    rw [Bool.eq_iff_iff, contains_topic (by decide)]
    have hns : contains sparkplugNamespace ncmd = false := by decide
    have hdcmd : contains dcmd ncmd = false := by decide
    simp [SubscribedTopic.levels, hns, hdcmd, or_assoc]
  have hdcmd : contains ((SubscribedTopic.deviceCommand name).topic o) dcmd = true :=
    (contains_topic (by decide) _).mpr ⟨dcmd, by simp [SubscribedTopic.levels], by decide⟩
  rw [recipient, hncmd, if_neg hnode, if_pos hdcmd, commandDevice_eq ht]
  split
  · rfl
  · split <;> rfl

lemma reachesHost_hostState {n : Node} (ht : TopicsFor o n.clientTopics)
    {i : ClientId} (ha : n.activeClient = some i) (hhost : o.primaryHost ≠ []) :
    n.reachesHost i (SubscribedTopic.hostState.topic o) = true ↔
      ¬(contains o.primaryHost dcmd = true ∧ contains o.primaryHost ncmd = false ∧
        n.devices = []) := by
  have hsub : ∀ p, '/' ∉ p → contains sparkplugNamespace p = false → contains state p = false →
      contains (SubscribedTopic.hostState.topic o) p = contains o.primaryHost p := by
    intro p hp hns hstate
    rw [Bool.eq_iff_iff, contains_topic hp]
    simp [SubscribedTopic.levels, hns, hstate]
  have htopic : n.isHostTopic (SubscribedTopic.hostState.topic o) = true := by
    have hne : SubscribedTopic.hostState.topic o ≠ [] := by
      intro e
      simp [SubscribedTopic.topic, ofLevels, SubscribedTopic.levels] at e
    simp [isHostTopic, ht.host, hhost, hne]
  simp only [reachesHost, htopic, Bool.true_and, leavesAtOnce, ha,
    hsub ncmd (by decide) (by decide) (by decide), hsub dcmd (by decide) (by decide) (by decide)]
  simp only [decide_true, Bool.true_and, Bool.not_eq_true', Bool.and_eq_false_iff,
    Bool.not_eq_false', List.isEmpty_eq_false_iff]
  cases contains o.primaryHost dcmd <;> cases contains o.primaryHost ncmd <;> simp

/-- The devices have names of their own, and the names are levels of topics. -/
structure DevicesNamed (n : Node) : Prop where
  distinct : ∀ d ∈ n.devices, ∀ e ∈ n.devices, n.deviceName d = n.deviceName e → d = e
  level : ∀ d ∈ n.devices, '/' ∉ n.deviceName d

lemma find_device {n : Node} (hd : DevicesNamed n) {d : ℕ} (hmem : d ∈ n.devices) :
    n.devices.find? (fun e => n.deviceName d = n.deviceName e) = some d := by
  obtain ⟨e, he⟩ : ∃ e, n.devices.find? (fun e => n.deviceName d = n.deviceName e) = some e :=
    Option.isSome_iff_exists.mp (List.find?_isSome.mpr ⟨d, hmem, by simp⟩)
  have hname : n.deviceName d = n.deviceName e := by simpa using List.find?_some he
  rw [he, hd.distinct d hmem e (List.mem_of_find?_eq_some he) hname]

lemma deviceCommand_routed_iff (h : Named o) {n : Node} (ht : TopicsFor o n.clientTopics)
    (hd : DevicesNamed n) {i : ClientId} {name : Str} (hname : '/' ∉ name) :
    Routed o n i (.deviceCommand name) ↔ Unmistakable o n (.deviceCommand name) := by
  simp only [Routed, Unmistakable, recipient_deviceCommand h ht hname]
  by_cases hex : ∃ d ∈ n.devices, n.deviceName d = name
  · obtain ⟨d, hmem, rfl⟩ := hex
    have hfind := find_device hd hmem
    refine ⟨fun hr _ => ?_, fun hu => ⟨fun e he hname => ?_, fun hno => ?_⟩⟩
    · have hsome := hr.1 d hmem rfl
      split at hsome
      · cases hsome
      · next hncmd =>
        split at hsome
        · cases hsome
        · next hne =>
          simp only [Bool.or_eq_true, not_or, Bool.not_eq_true] at hncmd
          exact ⟨hne, hncmd.1.1, hncmd.1.2, hncmd.2⟩
    · obtain ⟨hne, hg, hn, hncmd⟩ := hu ⟨d, hmem, rfl⟩
      obtain rfl := hd.distinct e he d hmem hname
      simp [hg, hn, hncmd, hne, hfind]
    · exact absurd rfl (hno d hmem)
  · -- nobody has the name
    have hnone : n.devices.find? (fun d => name = n.deviceName d) = none := by
      rw [List.find?_eq_none]
      intro d hmem hd
      exact hex ⟨d, hmem, (by simpa using hd : name = n.deviceName d).symm⟩
    refine iff_of_true ⟨fun d hmem hn => absurd ⟨d, hmem, hn⟩ hex, fun _ => ?_⟩
      fun hd => absurd hd hex
    rw [hnone]
    repeat' split
    all_goals rfl

lemma hostState_routed_iff {n : Node} (ht : TopicsFor o n.clientTopics) {i : ClientId}
    (ha : n.activeClient = some i) :
    Routed o n i .hostState ↔ Unmistakable o n .hostState := by
  by_cases hhost : o.primaryHost = []
  · have hdcmd : contains o.primaryHost dcmd = false := by rw [hhost]; decide
    exact iff_of_true (fun h => absurd hhost h) fun h => absurd (hdcmd.symm.trans h) (by simp)
  · simp only [Routed, Unmistakable, hhost, ne_eq, not_false_eq_true, forall_const,
      reachesHost_hostState ht ha hhost]
    tauto

/-- **Routing is exact just for names that are not mistaken.** In every run of a node, for
every message the active client gets on a topic it subscribes to. -/
theorem routed_iff_unmistakable (s : NodeSetup) (h : Named s.options) (calls : List NodeCall)
    (hd : DevicesNamed (run step (create s) calls)) {i : ClientId}
    (ha : (run step (create s) calls).activeClient = some i) (m : SubscribedTopic)
    (hm : ∀ name, m = .deviceCommand name → '/' ∉ name) :
    Routed s.options (run step (create s) calls) i m ↔
      Unmistakable s.options (run step (create s) calls) m := by
  have ht := run_topicsFor h calls
  cases m with
  | nodeCommand => exact iff_of_true (recipient_nodeCommand ht) trivial
  | deviceCommand name => exact deviceCommand_routed_iff h ht hd (hm name rfl)
  | hostState => exact hostState_routed_iff ht ha

/-- A node with a primary host whose devices have the names given. -/
def withDevices (name : ℕ → Str) : NodeSetup := { hosted .pahoAsync with name }

/-- A device is added and a client becomes active. -/
def activeWithDevice : List NodeCall :=
  [.addClient, .addDevice 0, .enable, .executeClient 0, .library 0 .onConnect, .processEvent,
    .library 0 (.onMessage stateTopic online), .processEvent, .library 0 .onCommandSubscription,
    .processEvent]

/-- A command for a device with an ordinary name gets to it. -/
theorem command_routed : Routed (hosted .pahoAsync).options
    (run step (create (withDevices fun _ => ['d'])) activeWithDevice) 0 (.deviceCommand ['d']) := by
  have hn : Named (withDevices fun _ => ['d']).options := by
    constructor <;> decide
  have hd : DevicesNamed (run step (create (withDevices fun _ => ['d'])) activeWithDevice) := by
    constructor <;> decide
  refine (routed_iff_unmistakable (withDevices fun _ => ['d']) hn activeWithDevice hd
    (by decide) (.deviceCommand ['d']) (by simp)).mpr ?_
  exact fun _ => ⟨by decide, by decide, by decide, by decide⟩

/-- A command for a device named `NCMD` gets to nobody. -/
theorem ncmd_not_routed : ¬Routed (hosted .pahoAsync).options
    (run step (create (withDevices fun _ => ncmd)) activeWithDevice) 0 (.deviceCommand ncmd) := by
  intro h
  have := h.1 0 (by decide) (by decide)
  exact absurd this (by decide)

end Node

end Sparkplug
