import Sparkplug.Copies
import Sparkplug.PubSteps
import Sparkplug.Sequence
import Sparkplug.Payload
import Sparkplug.Updates

/-!
What the host knows of the metrics.

Whoever reads all the messages that the MQTT library accepts, and keeps for every publishable
and every name of a metric the value read last, has a copy of the metrics of the node. The
metrics, with their flags, and this copy are a mirror as in `Copies`.
-/

namespace Sparkplug

open Machine Client Sequence Copies

/-- A metric as an item: its name, its value and whether it is dirty. -/
def Metric.item (m : Metric) : Item Str Bytes := ⟨m.name, m.data, m.dirty⟩

namespace Publishable

def items (p : Publishable) : List (Item Str Bytes) := p.metrics.map Metric.item

def values (p : Publishable) : List Bytes := p.metrics.map Metric.data

end Publishable

/-- The names and values in a payload, but for the `bdSeq` that a client adds to a birth. -/
def said (es : List PayloadMetric) : List (Str × Bytes) := es.map fun e => (e.name, e.value)

/-- **A payload is a message** about the items of its publishable. -/
lemma said_addToPayload (p : Publishable) (b : Bool) (now : ℕ) :
    said (p.addToPayload [] b now).2 = message b p.items := by
  have hpayload : (p.addToPayload [] b now).2 =
      (p.metrics.filter fun m => m.dirty || b).map (·.entry b now) :=
    calc (p.addToPayload [] b now).2
        = [] ++ (p.metrics.filter fun m => m.dirty || b).map (·.entry b now) :=
          addMetrics_snd b now p.metrics []
      _ = (p.metrics.filter fun m => m.dirty || b).map (·.entry b now) := List.nil_append _
  rw [hpayload, said, message, Publishable.items, List.filter_map, List.map_map, List.map_map]
  rfl

/-! ### The items of a publishable -/

/-- A call that sets no value and clears no flag of a metric. -/
def PublishableCall.keepsItems : PublishableCall → Bool
  | .setValue .. | .published => false
  | _ => true

namespace Publishable

variable {p : Publishable}

/-- A change that cannot be seen in one way, if it cannot be seen in another. -/
lemma map_modify_of {α β : Type*} {f : Metric → Metric} {g : Metric → α} {h : Metric → β}
    (hf : ∀ m, h (f m) = h m → g (f m) = g m) (l : List Metric) (k : ℕ)
    (hl : (l.modify k f).map h = l.map h) : (l.modify k f).map g = l.map g := by
  induction l generalizing k with
  | nil => simp
  | cons m l ih =>
    cases k with
    | zero =>
      rw [List.modify_zero_cons, List.map_cons, List.map_cons] at hl ⊢
      rw [hf m (List.cons.inj hl).1]
    | succ k =>
      rw [List.modify_succ_cons, List.map_cons, List.map_cons] at hl ⊢
      rw [ih k (List.cons.inj hl).2]

lemma step_items {a : PublishableCall} (ha : a.keepsItems = true) : (p.step a).items = p.items := by
  cases a with
  | setValue | published => cases ha
  | setProperty k path value =>
    have hsame : ∀ m : Metric, (m.setProperty path value).item = m.item := by
      cases path <;> exact fun _ => rfl
    exact map_modify_of (h := fun _ => ()) (fun m _ => hsame m) p.metrics k (by simp)
  | update elapsed => simp [step, items]
  | publishing => rfl
  | addToPayload b now =>
    rw [step, items, addToPayload_metrics, List.map_map]
    refine List.map_congr_left fun m _ => ?_
    simp only [Function.comp, Metric.addToPayload]
    split <;> rfl

lemma published_items (p : Publishable) : p.published.items = p.items.map Item.cleared := by
  rw [items, published, items, List.map_map, List.map_map]
  rfl

/-- A value that is set is flagged. -/
lemma setValue_unflagged {k now : ℕ} {value : Bytes} :
    ∀ x ∈ (p.setValue k value now).items, x.flag = false → x ∈ p.items := by
  have hall : ∀ m ∈ (p.setValue k value now).metrics, m.item.flag = false → m.item ∈ p.items := by
    refine modify_forall (fun m hm _ => List.mem_map_of_mem hm) k fun m hm => ?_
    unfold Metric.setValue
    split
    · exact fun hf => absurd hf (by simp [Metric.item])
    · exact hm
  intro x hx hf
  obtain ⟨m, hm, rfl⟩ := List.mem_map.mp hx
  exact hall m hm hf

lemma setValue_keys {k now : ℕ} {value : Bytes} :
    (p.setValue k value now).items.map Item.key = p.items.map Item.key := by
  have hsame : ∀ m : Metric, (m.setValue value now).name = m.name := by
    intro m
    unfold Metric.setValue
    split <;> rfl
  rw [items, items, List.map_map, List.map_map]
  exact map_modify_of (h := fun _ => ()) (fun m _ => hsame m) p.metrics k (by simp)

/-- Where no value has changed nothing has. -/
lemma setValue_items {k now : ℕ} {value : Bytes}
    (h : (p.setValue k value now).values = p.values) :
    (p.setValue k value now).items = p.items := by
  refine map_modify_of (fun m hm => ?_) p.metrics k h
  unfold Metric.setValue at hm ⊢
  split
  · next hset =>
    rw [if_pos hset] at hm
    obtain rfl : value = m.data := hm
    have hdirty : m.dirty = true := by simpa using hset
    simp [Metric.item, hdirty]
  · rfl

end Publishable

namespace Node

/-! ### The messages of an action -/

/-- The payload of a message of `p`, built in the state of the node. -/
def payloadOf (n : Node) (p : PubId) (b : Bool) : List PayloadMetric :=
  ((n.pub p).cur.addToPayload [] b n.time).2

/-- The messages of `p` that the library accepts while an action is taken: for each of them
whether it is a birth. -/
def accepts (n : Node) (a : NodeCall) (p : PubId) : List Bool :=
  n.clients.flatMap fun i =>
    ((acceptedMessages (Ledger.effects (n.client i).cur ((n.step a).client i).cur)).filter
      fun x => x.request.publisher = p).map fun x => x.request.isBirth

/-- The action leaves the items of `p`. -/
def KeepsItems (n : Node) (a : NodeCall) (p : PubId) : Prop :=
  ∀ b, (p, b) ∈ n.tells a → b.keepsItems = true

variable {n : Node} {a : NodeCall} {p : PubId}

/-- What an action calls, when it leaves the items. -/
lemma step_quiet (h : n.KeepsItems a p) : ∃ as : List PublishableCall,
    (n.step a).pub p = as.foldl Traced.act (n.pub p) ∧ ∀ b ∈ as, b.keepsItems = true := by
  let C : PubId → PublishableCall → Prop := fun q b => q = p → b.keepsItems = true
  let R : PubId → Traced Publishable.step → Prop := fun q t => q = p →
    ∃ as : List PublishableCall, t = as.foldl Traced.act (n.pub p) ∧ ∀ b ∈ as, b.keepsItems = true
  have hlasts : Lasts C R :=
    { publishing := fun _ _ => rfl
      addToPayload := fun _ _ _ _ => rfl
      act := fun q t b hb ht hq => by
        obtain ⟨as, rfl, has⟩ := ht hq
        refine ⟨as ++ [b], by rw [List.foldl_append]; rfl, fun x hx => ?_⟩
        rcases List.mem_append.mp hx with hx | hx
        · exact has x hx
        · exact List.mem_singleton.mp hx ▸ hb hq }
  have hstart : AllPubs R n := fun q hq => ⟨[], by rw [hq]; rfl, by simp⟩
  refine step_allPubs hlasts hstart ?_ p rfl
  rintro ⟨q, b⟩ hx rfl
  exact h b hx

lemma run_items {q : Publishable} {as : List PublishableCall}
    (has : ∀ b ∈ as, b.keepsItems = true) : (run Publishable.step q as).items = q.items := by
  induction as generalizing q with
  | nil => rfl
  | cons b as ih =>
    rw [List.forall_mem_cons] at has
    rw [run_cons, ih has.2, Publishable.step_items has.1]

lemma step_items (h : n.KeepsItems a p) :
    ((n.step a).pub p).cur.items = (n.pub p).cur.items := by
  obtain ⟨as, heq, has⟩ := step_quiet h
  rw [heq, foldl_act_cur, run_items has]

/-- **Every payload built during the action says the same**, so it does not matter when during
the action it is read. -/
theorem built_said (h : n.KeepsItems a p) : ∃ as : List PublishableCall,
    (n.step a).pub p = as.foldl Traced.act (n.pub p) ∧
      ∀ before b time after, as = before ++ .addToPayload b time :: after →
      said ((run Publishable.step (n.pub p).cur before).addToPayload [] b time).2 =
        said (n.payloadOf p b) := by
  obtain ⟨as, heq, has⟩ := step_quiet h
  refine ⟨as, heq, fun before b time after hsplit => ?_⟩
  rw [payloadOf, said_addToPayload, said_addToPayload, run_items fun x hx => has x ?_]
  rw [hsplit]
  exact List.mem_append_left _ hx

/-- Otherwise a value is set or a report is processed. -/
lemma not_keepsItems (h : ¬n.KeepsItems a p) : (∃ k value, a = .setValue p k value) ∨
    a = .processEvent ∧ ∃ i e rest, n.eventQueue = (i, e) :: rest ∧ reportOf e = some p := by
  simp only [KeepsItems, not_forall, exists_prop] at h
  obtain ⟨b, hb, hkeeps⟩ := h
  cases a with
  | setValue q k value =>
    obtain ⟨rfl, -⟩ := Prod.mk.inj (List.mem_singleton.mp hb)
    exact .inl ⟨k, value, rfl⟩
  | processEvent =>
    obtain ⟨q, hq, hqb⟩ := Option.map_eq_some_iff.mp (Option.mem_toList.mp hb)
    obtain ⟨rfl, -⟩ := Prod.mk.inj hqb
    obtain ⟨x, hx, hrep⟩ := Option.bind_eq_some_iff.mp hq
    obtain ⟨rest, hrest⟩ := List.head?_eq_some_iff.mp hx
    exact .inr ⟨rfl, x.1, x.2, rest, hrest, hrep⟩
  | setProperty | poll | update =>
    obtain ⟨rfl, rfl⟩ := Prod.mk.inj (List.mem_singleton.mp hb)
    exact absurd rfl hkeeps
  | _ => cases hb

lemma step_report {i : ClientId} {e : ClientEvent} {rest : List (ClientId × ClientEvent)}
    (hf : n.faulted = false) (hq : n.eventQueue = (i, e) :: rest) (he : reportOf e = some p) :
    n.step .processEvent = { n with eventQueue := rest }.callPub p .published := by
  rw [step, if_neg (by simp [hf]), handle, processEvent, hq]
  cases e <;> cases he <;> rfl

lemma accepts_eq_nil (h : (n.step a).client = n.client) (p : PubId) : n.accepts a p = [] := by
  simp [accepts, h, Ledger.effects, acceptedMessages, attempts]

/-- The end of a request of `p` is processed. -/
def endsRequest (n : Node) : NodeCall → PubId → Bool
  | .processEvent, p => (n.eventQueue.head?.bind fun x => reportOf x.2) = some p
  | _, _ => false

end Node

/-! ### The host -/

/-- A node and its host. The host knows of `p` what `host p` says; `born` and `fresh` say whether
there has been a birth of `p` among the messages, and whether no value has changed since the
last message of `p`. -/
structure Observed where
  node : Node
  host : PubId → Str → Option Bytes := fun _ _ => none
  born : PubId → Bool := fun _ => false
  fresh : PubId → Bool := fun _ => false

namespace Observed

/-- The node takes an action, and the host reads the messages that the library accepts. -/
def observe (o : Observed) (a : NodeCall) : Observed where
  node := o.node.step a
  host p := (o.node.accepts a p).foldl (fun c b => read c (said (o.node.payloadOf p b))) (o.host p)
  born p := o.born p || (o.node.accepts a p).any id
  fresh p := !(o.node.accepts a p).isEmpty ||
    (o.fresh p && ((o.node.step a).pub p).cur.values = (o.node.pub p).cur.values)

/-- The end of a request finds no value changed since the last message, or nothing dirty. -/
def EndsFresh (p : PubId) (o : Observed) (a : NodeCall) : Prop :=
  o.node.faulted = false → o.node.endsRequest a p = true →
    o.fresh p = true ∨ ∀ m ∈ (o.node.pub p).cur.metrics, m.dirty = false

instance (p : PubId) (o : Observed) (a : NodeCall) : Decidable (EndsFresh p o a) :=
  inferInstanceAs (Decidable (_ → _ → _))

/-- Of every metric that is not dirty the host has the value, if it has any, and after a birth
it has one. -/
def UpToDate (p : PubId) (o : Observed) : Prop :=
  ∀ m ∈ (o.node.pub p).cur.metrics, m.dirty = false →
    (∀ v, o.host p m.name = some v → v = m.data) ∧
      (o.born p = true → o.host p m.name = some m.data)

/-- The metrics of `p` and what the host knows of them. -/
def mirror (o : Observed) (p : PubId) : Mirror Str Bytes :=
  ⟨(o.node.pub p).cur.items, o.host p, o.fresh p, o.born p⟩

variable {o : Observed} {p : PubId} {a : NodeCall}

lemma upToDate_of_right (h : (o.mirror p).Right) : UpToDate p o := by
  intro m hm hd
  have hitem : m.item ∈ (o.mirror p).items := List.mem_map_of_mem hm
  have hagrees := h.unflagged m.item hitem hd
  refine ⟨hagrees, fun hborn => ?_⟩
  obtain ⟨v, hv⟩ := Option.ne_none_iff_exists'.mp (h.complete hborn m.item hitem)
  have hdata : v = m.data := hagrees v hv
  exact hdata ▸ hv

lemma values_eq {q r : Publishable} (h : q.items = r.items) : q.values = r.values := by
  have hvalues : ∀ x : Publishable, x.values = x.items.map Item.value := fun x => by
    rw [Publishable.items, List.map_map]
    rfl
  rw [hvalues, hvalues, h]

/-- An action that leaves the items sends messages. -/
lemma observe_sends (h : o.node.KeepsItems a p) :
    (o.observe a).mirror p = (o.node.accepts a p).foldl Mirror.send (o.mirror p) := by
  have hitems := Node.step_items h
  rw [Mirror.foldl_send]
  simp only [mirror, observe, hitems, values_eq hitems, Node.payloadOf, said_addToPayload,
    decide_true, Bool.and_true]

/-- Nothing is sent and no value has changed. -/
lemma observe_quiet (hclient : (o.node.step a).client = o.node.client)
    (hvalues : ((o.node.step a).pub p).cur.values = (o.node.pub p).cur.values) :
    (o.observe a).mirror p =
      ⟨((o.node.step a).pub p).cur.items, o.host p, o.fresh p, o.born p⟩ := by
  simp [mirror, observe, Node.accepts_eq_nil hclient, hvalues]

/-- **What the mirror does in a step**: it sends, changes, or is cleared. -/
lemma observe_right (h : (o.mirror p).Right) (he : EndsFresh p o a) :
    ((o.observe a).mirror p).Right := by
  by_cases hkeep : o.node.KeepsItems a p
  · rw [observe_sends hkeep]
    exact h.sends _
  by_cases hf : o.node.faulted = true
  · have hstep : o.node.step a = o.node := if_pos hf
    rw [observe_quiet (by rw [hstep]) (by rw [hstep]), hstep]
    exact h
  rw [Bool.not_eq_true] at hf
  rcases Node.not_keepsItems hkeep with ⟨k, value, rfl⟩ | ⟨rfl, i, e, rest, hq, hrep⟩
  · have hstep : o.node.step (.setValue p k value) =
        o.node.callPub p (.setValue k value o.node.time) := if_neg (by simp [hf])
    have hpub : ((o.node.step (.setValue p k value)).pub p).cur =
        (o.node.pub p).cur.setValue k value o.node.time := by
      rw [hstep, Node.callPub_pub, if_pos rfl]
      rfl
    have hclient : (o.node.step (.setValue p k value)).client = o.node.client := by
      rw [hstep]
      rfl
    by_cases hvalues : ((o.node.pub p).cur.setValue k value o.node.time).values =
        (o.node.pub p).cur.values
    · rw [observe_quiet hclient (by rw [hpub, hvalues]), hpub, Publishable.setValue_items hvalues]
      exact h
    · have hchange : (o.observe (.setValue p k value)).mirror p =
          (o.mirror p).change ((o.node.pub p).cur.setValue k value o.node.time).items := by
        simp [mirror, observe, Node.accepts_eq_nil hclient, hpub, hvalues, Mirror.change]
      rw [hchange]
      exact h.change Publishable.setValue_keys Publishable.setValue_unflagged
  · have hstep := Node.step_report hf hq hrep
    have hpub : ((o.node.step .processEvent).pub p).cur = (o.node.pub p).cur.published := by
      rw [hstep, Node.callPub_pub, if_pos rfl]
      rfl
    have hvalues : (o.node.pub p).cur.published.values = (o.node.pub p).cur.values := by
      rw [Publishable.values, Publishable.published, List.map_map]
      rfl
    have hclear : (o.observe .processEvent).mirror p = (o.mirror p).clear := by
      rw [observe_quiet (by rw [hstep]; rfl) (by rw [hpub, hvalues]), hpub,
        Publishable.published_items]
      rfl
    rw [hclear]
    refine h.clear ((he hf ?_).imp_right fun hclean x hx => ?_)
    · simp [Node.endsRequest, hq, hrep]
    · obtain ⟨m, hm, rfl⟩ := List.mem_map.mp hx
      exact hclean m hm

/-- A new node, of which the host knows nothing. -/
def start (s : NodeSetup) : Observed where
  node := Node.create s

lemma start_right (s : NodeSetup)
    (hnames : (((Node.create s).pub p).cur.metrics.map Metric.name).Nodup) :
    ((start s).mirror p).Right where
  keys := by
    rw [mirror, Publishable.items, List.map_map]
    exact hnames
  unflagged _ _ _ _ hv := by cases hv
  fresh hf := by cases hf
  complete hc := by cases hc

/-- **The host is up to date** in every run in which no value of a publishable changes between
its last message and the end of the request: of all its metrics that are not dirty, which have
different names, the host has the values. -/
theorem host_upToDate (s : NodeSetup) (p : PubId)
    (hnames : (((Node.create s).pub p).cur.metrics.map Metric.name).Nodup) (calls : List NodeCall)
    (h : Each observe (EndsFresh p) (start s) calls) :
    Along observe (UpToDate p) (start s) calls := by
  have hright : Along observe (fun o => (o.mirror p).Right) (start s) calls :=
    along_of_each (P := fun o => (o.mirror p).Right) (fun _ _ ho ha => observe_right ho ha)
      (start_right s hnames) h
  exact hright.mono fun o => upToDate_of_right

/-- Data that is due is published, fails once and is delivered. -/
def failedOnce : List NodeCall :=
  Node.setAndDue ++ [.requestPublish .node false, .library 0 (.onDeliveryFailure 1),
    .library 0 (.onDelivery 1), .processEvent, .setValue .node 0 [2]]

theorem failedOnce_upToDate : Along observe (UpToDate .node) (start .oneMetric) failedOnce :=
  host_upToDate .oneMetric .node (by decide) failedOnce (by decide)

end Observed

end Sparkplug
