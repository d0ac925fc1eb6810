import Sparkplug.Routing
import Sparkplug.Sequence

/-!
The topics of the messages sent.

A topic is put together when a request is made and is used when a message is sent, perhaps
much later and more than once. It says whose message it is and of what kind, and whoever
splits it into its levels can read that off.
-/

namespace Sparkplug

open Machine Client Sequence

namespace Node

/-- The kind of a message, given whether it is of the node and whether it is a birth. -/
def messageType : Bool → Bool → Str
  | true, true => "NBIRTH".toList
  | true, false => "NDATA".toList
  | false, true => "DBIRTH".toList
  | false, false => "DDATA".toList

/-- The levels of the topic of a message. -/
def messageLevels (s : NodeSetup) : PubId → Bool → List Str
  | .node, b => [sparkplugNamespace, s.options.groupId, messageType true b, s.options.nodeId]
  | .device d, b =>
    [sparkplugNamespace, s.options.groupId, messageType false b, s.options.nodeId, s.name d]

lemma slash_notMem_messageType : ∀ node birth, '/' ∉ messageType node birth := by
  decide

lemma messageType_inj : ∀ node b c, messageType node b = messageType node c → b = c := by
  decide

section Levels

variable {s : NodeSetup}

lemma messageLevels_level (h : Named s.options) (hnames : ∀ d, '/' ∉ s.name d) (p : PubId)
    (b : Bool) : ∀ l ∈ messageLevels s p b, '/' ∉ l := by
  have hns : '/' ∉ sparkplugNamespace := by decide
  have htype := fun node => slash_notMem_messageType node b
  cases p with
  | node => simp [messageLevels, hns, h.groupId, h.nodeId, htype]
  | device d => simp [messageLevels, hns, h.groupId, h.nodeId, htype, hnames d]

lemma messageLevels_inj (hinj : ∀ d e, s.name d = s.name e → d = e) {p q : PubId} {b c : Bool}
    (h : messageLevels s p b = messageLevels s q c) : p = q ∧ b = c := by
  cases p with
  | node =>
    cases q with
    | node =>
      have htype : messageType true b = messageType true c := by simpa [messageLevels] using h
      exact ⟨rfl, messageType_inj _ b c htype⟩
    | device e => simp [messageLevels] at h
  | device d =>
    cases q with
    | node => simp [messageLevels] at h
    | device e =>
      have hboth : messageType false b = messageType false c ∧ s.name d = s.name e := by
        simpa [messageLevels] using h
      exact ⟨by rw [hinj d e hboth.2], messageType_inj _ b c hboth.1⟩

end Levels

/-! ### The topic of a request -/

/-- The topics a node makes are those of the set-up. -/
structure Addresses (s : NodeSetup) (n : Node) : Prop where
  base : n.groupBaseTopic = ofLevels [sparkplugNamespace, s.options.groupId, []]
  nodeId : n.nodeId = s.options.nodeId
  name : ∀ d, (n.pub (.device d)).cur.name = s.name d

lemma Addresses.topic {s : NodeSetup} {n : Node} (h : Addresses s n) (p : PubId) (b : Bool) :
    n.topic p b = ofLevels (messageLevels s p b) := by
  have hslash : slash = ['/'] := by decide
  cases p with
  | node =>
    have htype : (if b then "NBIRTH" else "NDATA").toList = messageType true b := by
      cases b <;> rfl
    rw [Node.topic, h.base, h.nodeId, messageLevels, hslash]
    simp only [htype]
    simp [ofLevels]
  | device d =>
    have htype : (if b then "DBIRTH" else "DDATA").toList = messageType false b := by
      cases b <;> rfl
    rw [Node.topic, h.base, h.nodeId, h.name, messageLevels, hslash]
    simp only [htype]
    simp [ofLevels]

end Node

namespace Client

/-- Every request that waits or was tried has the topic that is to be its own. -/
structure Addressed (T : PubId → Bool → Str) (c : Client) : Prop where
  waiting : ∀ r ∈ c.publishQueue, r.topic = T r.publisher r.isBirth
  tried : ∀ a ∈ attempts c.log, a.request.topic = T a.request.publisher a.request.isBirth

section Addressed

variable {T : PubId → Bool → Str} {c d : Client}

/-- A step that tries nothing and adds no request. -/
lemma Addressed.of_quiet (h : Addressed T c) (l : List Effect) (hl : d.log = c.log ++ l)
    (hatt : attempts l = []) (hq : ∀ r ∈ d.publishQueue, ∃ r' ∈ c.publishQueue,
      r.topic = r'.topic ∧ r.publisher = r'.publisher ∧ r.isBirth = r'.isBirth) :
    Addressed T d := by
  refine ⟨fun r hr => ?_, ?_⟩
  · obtain ⟨r', hr', ht, hp, hb⟩ := hq r hr
    rw [ht, hp, hb]
    exact h.waiting r' hr'
  · rw [hl, attempts_append, hatt, List.append_nil]
    exact h.tried

/-- A change of the front request leaves its address. -/
lemma address_modifyHead (q : List PublishRequest) {f : PublishRequest → PublishRequest}
    (hf : ∀ r, (f r).topic = r.topic ∧ (f r).publisher = r.publisher ∧ (f r).isBirth = r.isBirth) :
    ∀ r ∈ q.modifyHead f, ∃ r' ∈ q,
      r.topic = r'.topic ∧ r.publisher = r'.publisher ∧ r.isBirth = r'.isBirth :=
  Ledger.modifyHead_from (fun _ => ⟨rfl, rfl, rfl⟩) hf q

lemma tried_addressed (h : Addressed T c) {r : PublishRequest} {rest : List PublishRequest}
    {o : Outcome} {f : PublishRequest → PublishRequest} {lib : Answers}
    (hq : c.publishQueue = r :: rest) (hf : FrontUpdate o f) :
    Addressed T (c.tried r o f lib) := by
  have hkeep : ∀ r, (f r).topic = r.topic ∧ (f r).publisher = r.publisher ∧
      (f r).isBirth = r.isBirth := fun r => by cases hf <;> exact ⟨rfl, rfl, rfl⟩
  refine ⟨fun x hx => ?_, fun a ha => ?_⟩
  · obtain ⟨x', hx', ht, hp, hb⟩ := address_modifyHead _ hkeep x hx
    rw [ht, hp, hb]
    exact h.waiting x' hx'
  · rw [Client.tried, attempts_append] at ha
    rcases List.mem_append.mp ha with ha | ha
    · exact h.tried a ha
    · have heq : ⟨r, c.nextSeq r, if r.isNodeBirth then some c.bdSeq else none, o⟩ = a := by
        simpa [attempts, attemptLog, Effect.payload] using ha
      rw [← heq]
      exact h.waiting r (by simp [hq])

lemma clientStep_addressed {A : Scope} (hstep : ClientStep A c d) (h : Addressed T c) :
    Addressed T d := by
  have hsame : ∀ r ∈ c.publishQueue, ∃ r' ∈ c.publishQueue,
      r.topic = r'.topic ∧ r.publisher = r'.publisher ∧ r.isBirth = r'.isBirth :=
    fun r hr => ⟨r, hr, rfl, rfl, rfl⟩
  have htail : ∀ r ∈ c.publishQueue.tail, ∃ r' ∈ c.publishQueue,
      r.topic = r'.topic ∧ r.publisher = r'.publisher ∧ r.isBirth = r'.isBirth :=
    fun r hr => ⟨r, List.mem_of_mem_tail hr, rfl, rfl, rfl⟩
  cases hstep with
  | publish hp =>
    cases hp with
    | asked q => exact h.of_quiet [] (by simp) rfl (by simpa using hsame)
    | access id => exact h.of_quiet [.access id] rfl rfl hsame
    | skipped r hs => exact h.of_quiet [.skipped r] rfl rfl hsame
    | idle hs => exact h.of_quiet [] (by simp) rfl (by simpa using hsame)
    | tried hq hs hg hf => exact tried_addressed h hq hf
    | giveUp hq => exact h.of_quiet [.undelivered _] rfl rfl htail
    | retry =>
      exact h.of_quiet [] (by simp [modifyFront]) rfl
        (address_modifyHead _ fun _ => ⟨rfl, rfl, rfl⟩)
  | deliver _ hq => exact h.of_quiet [.delivered _] rfl rfl htail
  | event => exact h.of_quiet [.onEvent _] rfl rfl hsame
  | emptyFront => exact h.of_quiet [.emptyFront] rfl rfl hsame
  | commandsResult b => exact h.of_quiet [.subscribed b] rfl rfl hsame
  | setState s => exact h.of_quiet [] (by simp) rfl (by simpa using hsame)
  | resign => exact h.of_quiet [] (by simp [setPrimary]) rfl hsame
  | surroundings l up commands inflight => exact h.of_quiet [] (by simp) rfl hsame
  | settings topics configured bdSeq token => exact h.of_quiet [] (by simp) rfl hsame

lemma step_addressed (h : Addressed T c) {a : ClientCall}
    (ha : ∀ r ∈ a.passed, r.topic = T r.publisher r.isBirth) : Addressed T (c.step a) := by
  refine (step_steps c a).invariant clientStep_addressed ⟨fun r hr => ?_, ?_⟩
  · cases a with
    | request q =>
      rcases List.mem_append.mp hr with hr | hr
      · exact h.waiting r hr
      · rw [List.mem_singleton.mp hr]
        exact ha q rfl
    | _ => exact h.waiting r hr
  · rw [taken_log]
    exact h.tried

end Addressed

end Client

namespace Node

/-! ### All runs -/

/-- The topics of the set-up, for every client. -/
structure AllAddressed (s : NodeSetup) (n : Node) : Prop where
  addresses : Addresses s n
  client : ∀ i, Addressed (fun p b => ofLevels (messageLevels s p b)) (n.client i).cur

lemma step_name (p : Publishable) (a : PublishableCall) : (p.step a).name = p.name := by
  cases a with
  | update e =>
    rw [Publishable.step, Publishable.update]
    repeat' split
    all_goals rfl
  | _ => rfl

section AllAddressed

variable {s : NodeSetup} {n : Node}

lemma AllAddressed.callPub (h : AllAddressed s n) (p : PubId) (a : PublishableCall) :
    AllAddressed s (n.callPub p a) := by
  refine ⟨⟨h.addresses.base, h.addresses.nodeId, fun d => ?_⟩, h.client⟩
  rw [callPub_pub]
  split
  · next hd => rw [Traced.act_cur, step_name, ← hd, h.addresses.name]
  · exact h.addresses.name d

lemma AllAddressed.callClient (h : AllAddressed s n) (i : ClientId) {a : ClientCall}
    (ha : ∀ r ∈ a.passed, r.topic = ofLevels (messageLevels s r.publisher r.isBirth)) :
    AllAddressed s (n.callClient i a) := by
  refine ⟨⟨?_, ?_, fun d => ?_⟩, fun j => ?_⟩
  · rw [callClient_eq]
    exact h.addresses.base
  · rw [callClient_eq]
    exact h.addresses.nodeId
  · rw [callClient_pub, foldl_act_cur]
    exact (run_invariant (P := fun p : Publishable => p.name = s.name d)
      (fun p a hp => (step_name p a).trans hp) (h.addresses.name d) _)
  · rw [callClient_client]
    split
    · next hj =>
      subst hj
      exact step_addressed (h.client j) ha
    · exact h.client j

lemma AllAddressed.publish (h : AllAddressed s n) (p : PubId) (b : Bool) :
    AllAddressed s (n.publish p b) := by
  have hpublishing := h.callPub p .publishing
  rcases publish_cases n p b with ⟨e, -⟩ | ⟨e, -⟩ | ⟨i, -, e⟩
  · rwa [e]
  · rw [e]
    exact ⟨⟨hpublishing.addresses.base, hpublishing.addresses.nodeId, hpublishing.addresses.name⟩,
      hpublishing.client⟩
  · rw [e, requested]
    have hprepared : AllAddressed s (n.prepared p b) := by
      refine ⟨⟨?_, ?_, ?_⟩, ?_⟩
      · cases p <;> cases b <;> exact h.addresses.base
      · cases p <;> cases b <;> exact h.addresses.nodeId
      · rw [prepared_pub]
        exact hpublishing.addresses.name
      · rw [prepared_client]
        exact h.client
    refine hprepared.callClient i ?_
    rintro r ⟨⟩
    exact hpublishing.addresses.topic p b

lemma allAddressed_eventKept (s : NodeSetup) : EventKept (AllAddressed s) where
  publish _ p b h := h.publish p b
  client n i a _ hr h := by
    refine h.callClient i fun r hmem => ?_
    cases a with
    | request r' => exact absurd rfl (hr r')
    | _ => cases hmem
  pub _ p a _ _ h := h.callPub p a
  free _ _ _ _ _ h := ⟨⟨h.addresses.base, h.addresses.nodeId, h.addresses.name⟩, h.client⟩
  pop _ _ _ _ _ _ h := ⟨⟨h.addresses.base, h.addresses.nodeId, h.addresses.name⟩, h.client⟩
  activate _ i h := h.callClient i nofun
  hostStates _ _ h := ⟨⟨h.addresses.base, h.addresses.nodeId, h.addresses.name⟩, h.client⟩
  activeClient _ _ h := ⟨⟨h.addresses.base, h.addresses.nodeId, h.addresses.name⟩, h.client⟩
  fault _ h := ⟨⟨h.addresses.base, h.addresses.nodeId, h.addresses.name⟩, h.client⟩

lemma create_allAddressed (h : Named s.options) : AllAddressed s (create s) := by
  have hconf : (!s.options.groupId.isEmpty && !s.options.nodeId.isEmpty) = true := by
    simp [h.groupId_ne, h.nodeId_ne]
  have hslash : slash = ['/'] := by decide
  refine ⟨⟨?_, if_pos hconf, fun _ => rfl⟩, fun _ => ⟨nofun, nofun⟩⟩
  have hbase : (create s).groupBaseTopic = (configureTopics s.options).1 := if_pos hconf
  rw [hbase]
  change sparkplugNamespace ++ slash ++ s.options.groupId ++ slash = _
  simp [ofLevels, hslash]

lemma run_allAddressed (h : Named s.options) (calls : List NodeCall) :
    AllAddressed s (run step (create s) calls) := by
  refine run_invariant (P := AllAddressed s)
    (fun n a hn => step_kept (allAddressed_eventKept s) hn a ?_) (create_allAddressed h) calls
  intro i e rest p _ _ _
  have hpop : AllAddressed s { n with eventQueue := rest } :=
    ⟨⟨hn.addresses.base, hn.addresses.nodeId, hn.addresses.name⟩, hn.client⟩
  exact hpop.callPub p _

end AllAddressed

/-- A message that some client tried to send. -/
def Tried (n : Node) (a : Attempt) : Prop := ∃ i, a ∈ attempts (n.client i).cur.log

/-- Whoever splits the topic of a message finds the group, the kind of the message, the node
and the device, and messages with one topic are of one publishable and of one kind. -/
structure Legible (s : NodeSetup) (n : Node) : Prop where
  levels : ∀ a, n.Tried a →
    a.request.topic.splitOn '/' = messageLevels s a.request.publisher a.request.isBirth
  apart : ∀ a b, n.Tried a → n.Tried b → a.request.topic = b.request.topic →
    a.request.publisher = b.request.publisher ∧ a.request.isBirth = b.request.isBirth

/-- **Topics can be read back**, in every run of a node whose names are levels of topics and
whose devices have names of their own. -/
theorem topics_legible (s : NodeSetup) (h : Named s.options) (hnames : ∀ d, '/' ∉ s.name d)
    (hinj : ∀ d e, s.name d = s.name e → d = e) (calls : List NodeCall) :
    Legible s (run step (create s) calls) := by
  have hall := run_allAddressed h calls
  have hlevels : ∀ a, (run step (create s) calls).Tried a →
      a.request.topic.splitOn '/' = messageLevels s a.request.publisher a.request.isBirth := by
    rintro a ⟨i, ha⟩
    rw [(hall.client i).tried a ha, ofLevels]
    refine List.splitOn_intercalate '/' (messageLevels_level h hnames _ _) ?_
    cases a.request.publisher <;> simp [messageLevels]
  refine ⟨hlevels, fun a b ha hb he => messageLevels_inj hinj ?_⟩
  rw [← hlevels a ha, ← hlevels b hb, he]

/-- Devices with names of their own: a letter as often as the device says. -/
theorem letters_legible : Legible (withDevices fun d => List.replicate (d + 1) 'd')
    (run step (create (withDevices fun d => List.replicate (d + 1) 'd')) activeWithDevice) := by
  refine topics_legible (withDevices fun d => List.replicate (d + 1) 'd')
    (by constructor <;> decide) (fun d hd => ?_) (fun d e h => ?_) activeWithDevice
  · exact absurd (List.eq_of_mem_replicate hd) (by decide)
  · simpa [withDevices] using congrArg List.length h

end Node

end Sparkplug
