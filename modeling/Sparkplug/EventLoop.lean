import Sparkplug.ActiveClient
import Sparkplug.Commands
import Sparkplug.Routing
import Mathlib.Data.Prod.Lex

/-!
The loop of `processEvents`.

Handling an event can raise others, which the same loop handles. What an event can raise is
of a lower kind: a connection or a message an activation, these three reports of requests,
and a report nothing.
-/

namespace Sparkplug

open Machine

/-- How many kinds of events an event is above those that raise nothing. -/
def ClientEvent.weight : ClientEvent → ℕ
  | .message .. | .connected => 2
  | .active => 1
  | .delivered _ | .undelivered _ | .disconnected | .deactive => 0

lemma ClientEvent.weight_of_isReport {e : ClientEvent} (h : e.isReport = true) : e.weight = 0 := by
  cases e with
  | delivered | undelivered => rfl
  | _ => cases h

namespace Node

def queueWeight : List (ClientId × ClientEvent) → ℕ
  | [] => 0
  | x :: q => x.2.weight + queueWeight q

@[simp] lemma queueWeight_cons (x : ClientId × ClientEvent) (q : List (ClientId × ClientEvent)) :
    queueWeight (x :: q) = x.2.weight + queueWeight q := rfl

@[simp] lemma queueWeight_append (p q : List (ClientId × ClientEvent)) :
    queueWeight (p ++ q) = queueWeight p + queueWeight q := by
  induction p with
  | nil => simp [queueWeight]
  | cons x p ih => rw [List.cons_append, queueWeight_cons, queueWeight_cons, ih, Nat.add_assoc]

/-- The weight of the events that are to be handled. -/
def weight (n : Node) : ℕ := queueWeight n.eventQueue

/-! ### What handling an event raises -/

section Raised

variable {n : Node}

lemma callClient_weight (n : Node) (i : ClientId) (a : ClientCall) :
    (n.callClient i a).weight = n.weight + queueWeight (n.raisedBy i a) := by
  rw [weight, queue_callClient, queueWeight_append]
  rfl

lemma queueWeight_eq_zero {q : List (ClientId × ClientEvent)} (h : ∀ x ∈ q, x.2.weight = 0) :
    queueWeight q = 0 := by
  induction q with
  | nil => rfl
  | cons x q ih =>
    rw [List.forall_mem_cons] at h
    rw [queueWeight_cons, h.1, ih h.2]

/-- Reports have no weight. -/
lemma publish_weight (n : Node) (p : PubId) (b : Bool) : (n.publish p b).weight = n.weight := by
  obtain ⟨l, hl, hrep⟩ := publish_eventQueue n p b
  rw [weight, hl, queueWeight_append, weight, Nat.add_eq_left]
  exact queueWeight_eq_zero fun x hx => ClientEvent.weight_of_isReport (hrep x hx)

lemma publishBirth_weight (n : Node) : n.publishBirth.weight = n.weight :=
  publishBirth_kept (P := fun m => m.weight = n.weight)
    (fun m p h => (publish_weight m p true).trans h) rfl

/-- An activation raises one event at most. -/
lemma activateClient_weight (n : Node) (i : ClientId) :
    (n.activateClient i).weight ≤ n.weight + 1 := by
  rw [activateClient, callClient_weight]
  refine Nat.add_le_add_left ?_ _
  cases hp : (n.client i).cur.isPrimary with
  | true =>
    have heff : n.clientEffects i .activate = [] := by
      refine Ledger.effects_eq (l := []) ?_
      simp [Client.step, Client.activate, hp]
    simp [raisedBy, heff, queueWeight]
  | false =>
    obtain ⟨b, l, hlog, hl⟩ := Client.activate_log hp
    have heff : n.clientEffects i .activate = .subscribed b :: l := Ledger.effects_eq hlog
    rw [raisedBy, heff]
    rcases hl with rfl | rfl
    · exact Nat.zero_le 1
    · exact Nat.le_refl 1

lemma deactivateClient_eventQueue (n : Node) (i : ClientId) :
    (n.deactivateClient i).eventQueue = n.eventQueue := by
  by_cases h : n.activeClient = some i
  · rw [deactivateClient_of_eq h]
    exact deactivate_eventQueue n i
  · rw [deactivateClient_of_ne h]

lemma setActiveClient_weight (n : Node) (i : ClientId) :
    (n.setActiveClient (some i)).weight = n.weight := by
  obtain ⟨m, heq, hqueue, -⟩ := setActiveClient_eq n (some i)
  rw [heq, if_pos (by rfl), publishBirth_weight, weight, hqueue, weight]

lemma onMessage_weight (n : Node) (i : ClientId) (topic payload : Str) :
    (n.onMessage i topic payload).weight ≤ n.weight + 1 := by
  have hnote : (n.noteHost i topic payload).weight = n.weight := by
    unfold noteHost
    split
    all_goals rfl
  have hcmd : ((n.noteHost i topic payload).onCommandMessage i topic payload).weight = n.weight :=
    onCommandMessage_kept (P := fun m => m.weight = n.weight)
      (fun m p h => (publish_weight m p true).trans h) (fun _ h => h) hnote i topic payload
  simp only [onMessage]
  split
  · omega
  generalize (n.noteHost i topic payload).onCommandMessage i topic payload = m at hcmd ⊢
  rw [← hcmd]
  unfold onHostState
  repeat' split
  · exact m.activateClient_weight i
  · exact Nat.le_succ _
  · rw [weight, deactivateClient_eventQueue]
    exact Nat.le_succ _
  all_goals exact Nat.le_succ _

/-- An event of no weight raises nothing. -/
lemma handleEvent_eventQueue (n : Node) (i : ClientId) {e : ClientEvent} (he : e.weight = 0) :
    (n.handleEvent i e).eventQueue = n.eventQueue := by
  cases e with
  | message | connected | active => cases he
  | delivered | undelivered | deactive => rfl
  | disconnected => exact deactivateClient_eventQueue _ i

/-- What any other event raises has less weight than it. -/
lemma handleEvent_weight (n : Node) (i : ClientId) {e : ClientEvent} (he : e.weight ≠ 0) :
    (n.handleEvent i e).weight < n.weight + e.weight := by
  cases e with
  | message topic payload =>
    have := n.onMessage_weight i topic payload
    change (n.onMessage i topic payload).weight < n.weight + 2
    omega
  | connected =>
    have hforget : (n.forgetHost i).weight = n.weight := rfl
    have := (n.forgetHost i).activateClient_weight i
    simp only [handleEvent, ClientEvent.weight]
    split <;> omega
  | active =>
    have := n.setActiveClient_weight i
    change (n.setActiveClient (some i)).weight < n.weight + 1
    omega
  | delivered | undelivered | disconnected | deactive => exact absurd rfl he

/-- The events that are to be handled, by their weight, and then by their number. -/
def toHandle (n : Node) : ℕ ×ₗ ℕ := toLex (n.weight, n.eventQueue.length)

/-- **Every round of the loop leaves less to handle.** -/
theorem processEvent_less (h : n.eventQueue ≠ []) : n.processEvent.toHandle < n.toHandle := by
  obtain ⟨⟨i, e⟩, rest, hq⟩ := List.exists_cons_of_ne_nil h
  have hround : n.processEvent = { n with eventQueue := rest }.handleEvent i e := by
    simp [processEvent, hq]
  have hweight : n.weight = e.weight + queueWeight rest := by simp [weight, hq]
  rw [hround, toHandle, toHandle, Prod.Lex.toLex_lt_toLex, hweight]
  by_cases he : e.weight = 0
  · have hqueue := handleEvent_eventQueue { n with eventQueue := rest } i he
    refine .inr ⟨?_, ?_⟩
    · rw [weight, hqueue, he, Nat.zero_add]
    · simp [hqueue, hq]
  · have hless := handleEvent_weight { n with eventQueue := rest } i he
    have hrest : ({ n with eventQueue := rest } : Node).weight = queueWeight rest := rfl
    exact .inl (by dsimp only; omega)

end Raised

/-! ### What goes wrong -/

/-- The names in a message that is a command are there, or are not read: of an active client,
for a publishable with metrics. -/
def CommandNamed (n : Node) (i : ClientId) (topic payload : Str) : Prop :=
  n.activeClient = some i → ∀ p ∈ n.recipient topic, ∀ cs ∈ n.decodePayload payload,
    AllNamed (n.pub p).cur.metrics cs

section Faults

variable {n : Node}

/-- Publishing goes wrong without an active client only. -/
lemma publish_faulted (h : n.activeClient ≠ none) (p : PubId) (b : Bool) :
    (n.publish p b).faulted = n.faulted := by
  rcases publish_cases n p b with ⟨e, -⟩ | ⟨-, hnone⟩ | ⟨i, -, e⟩
  · rw [e]
  · exact absurd hnone h
  · rw [e, requested, callClient_faulted, prepared_faulted]

lemma publish_active (h : n.activeClient ≠ none) (p : PubId) (b : Bool) :
    (n.publish p b).activeClient ≠ none := by
  rwa [(publish_same (.refl n) p b).activeClient]

/-- The node has an active client, and there was a fault or not. -/
def Runs (i : ClientId) (faulted : Bool) (n : Node) : Prop :=
  n.activeClient = some i ∧ n.faulted = faulted

lemma publish_runs {i : ClientId} {f : Bool} (h : Runs i f n) (p : PubId) (b : Bool) :
    Runs i f (n.publish p b) := by
  refine ⟨(publish_same (.refl n) p b).activeClient.trans h.1, ?_⟩
  rw [publish_faulted (by simp [h.1]), h.2]

lemma publishBirth_runs {i : ClientId} {f : Bool} (h : Runs i f n) : Runs i f n.publishBirth :=
  publishBirth_kept (P := Runs i f) (fun _ p h => publish_runs h p true) h

/-- An absent name is compared with, or nothing goes wrong. -/
lemma commandMetric_faulted (h : n.activeClient ≠ none) (p : PubId) (c : CommandMetric) :
    (n.commandMetric p c).faulted = true ↔
      n.faulted = true ∨ (n.pub p).cur.metrics ≠ [] ∧ c.name = none := by
  obtain ⟨i, hi⟩ := Option.ne_none_iff_exists'.mp h
  have hsame : ∀ m : Metric, (n.onCommand m c).faulted = n.faulted := fun m =>
    (onCommand_kept (P := Runs i n.faulted) (fun _ p h => publish_runs h p true) ⟨hi, rfl⟩ m c).2
  unfold commandMetric
  cases c.name with
  | none => by_cases hm : (n.pub p).cur.metrics = [] <;> simp [hm]
  | some name =>
    simp only [reduceCtorEq, and_false, or_false]
    split
    · next m _ => rw [hsame m]
    · exact .rfl

/-- What a command leaves as it is: the active client, and whether there are metrics. -/
def Alive (i : ClientId) (p : PubId) (none : Prop) (n : Node) : Prop :=
  n.activeClient = some i ∧ ((n.pub p).cur.metrics = [] ↔ none)

lemma publish_alive {i : ClientId} {p : PubId} {none : Prop} (h : Alive i p none n) (q : PubId)
    (b : Bool) : Alive i p none (n.publish q b) := by
  have hfaces := (faces_stable fun q => (n.pub q).cur.metrics.map Metric.face).eventKept.publish n q
    b (fun _ => rfl) p
  refine ⟨(publish_same (.refl n) q b).activeClient.trans h.1, ?_⟩
  rw [← List.map_eq_nil_iff (f := Metric.face), hfaces, List.map_eq_nil_iff]
  exact h.2

lemma commandMetrics_faulted (p : PubId) (cs : List CommandMetric) (h : n.activeClient ≠ none) :
    (cs.foldl (commandMetric · p ·) n).faulted = true ↔
      n.faulted = true ∨ ∃ c ∈ cs, (n.pub p).cur.metrics ≠ [] ∧ c.name = none := by
  obtain ⟨i, hi⟩ := Option.ne_none_iff_exists'.mp h
  clear h
  induction cs generalizing n with
  | nil => simp
  | cons c cs ih =>
    obtain ⟨hactive, hnil⟩ := commandMetric_kept (P := Alive i p ((n.pub p).cur.metrics = []))
      (fun _ q h => publish_alive h q true) (fun _ h => h) ⟨hi, .rfl⟩ p c
    rw [List.foldl_cons, ih hactive, commandMetric_faulted (by simp [hi])]
    simp only [List.exists_mem_cons_iff, ne_eq, hnil, or_assoc]

lemma onCommandMessage_faulted (i : ClientId) (topic payload : Str) :
    (n.onCommandMessage i topic payload).faulted = true ↔
      n.faulted = true ∨ ¬n.CommandNamed i topic payload := by
  by_cases ha : n.activeClient = some i
  · rw [onCommandMessage_eq ha]
    cases hp : n.recipient topic with
    | none => simp [CommandNamed, hp]
    | some p =>
      rw [Option.elim_some, handleCommand]
      cases hcs : n.decodePayload payload with
      | none => simp [CommandNamed, hcs]
      | some cs =>
        rw [commandMetrics_faulted (n := n) p cs.reverse (by simp [ha])]
        by_cases hm : (n.pub p).cur.metrics = [] <;>
          simp [CommandNamed, AllNamed, ha, hp, hcs, hm]
  · have hsame : n.onCommandMessage i topic payload = n := if_neg ha
    simp [hsame, CommandNamed, ha]

lemma deactivateClient_faulted (n : Node) (i : ClientId) :
    (n.deactivateClient i).faulted = n.faulted := by
  by_cases h : n.activeClient = some i
  · rw [deactivateClient_of_eq h]
    exact callClient_faulted ..
  · rw [deactivateClient_of_ne h]

lemma setActiveClient_faulted (n : Node) (i : ClientId) :
    (n.setActiveClient (some i)).faulted = n.faulted := by
  have hbirth : ∀ m : Node, m.faulted = n.faulted →
      { m with activeClient := some i }.publishBirth.faulted = n.faulted := fun m hm =>
    (publishBirth_runs (n := { m with activeClient := some i }) ⟨rfl, hm⟩).2
  simp only [setActiveClient, Option.isSome_some, if_true]
  split
  · split
    · exact hbirth _ (callClient_faulted ..)
    · exact hbirth n rfl
  · exact hbirth n rfl

lemma onHostState_faulted (n : Node) (i : ClientId) (topic payload : Str) :
    (n.onHostState i topic payload).faulted = n.faulted := by
  unfold onHostState
  repeat' split
  · exact callClient_faulted ..
  · rfl
  · exact deactivateClient_faulted n i
  all_goals rfl

/-- A message goes wrong as a command with an absent name only. -/
lemma onMessage_faulted (i : ClientId) (topic payload : Str) :
    (n.onMessage i topic payload).faulted = true ↔
      n.faulted = true ∨ ¬n.CommandNamed i topic payload := by
  obtain ⟨hactive, hleaves, hrecipient⟩ := noteHost_recipient n i topic payload
  have hsame : (n.noteHost i topic payload).faulted = n.faulted ∧
      ((n.noteHost i topic payload).CommandNamed i topic payload ↔
        n.CommandNamed i topic payload) := by
    unfold noteHost
    split
    all_goals exact ⟨rfl, .rfl⟩
  simp only [onMessage, hleaves]
  split
  · next hl => simp [hsame.1, CommandNamed, recipient_of_leavesAtOnce hl]
  · rw [onHostState_faulted, onCommandMessage_faulted, hsame.1, hsame.2]

/-- **An event goes wrong** as a command with an absent name only. -/
theorem handleEvent_faulted (i : ClientId) (e : ClientEvent) :
    (n.handleEvent i e).faulted = true ↔ n.faulted = true ∨
      ∃ topic payload, e = .message topic payload ∧ ¬n.CommandNamed i topic payload := by
  cases e with
  | message topic payload =>
    refine (onMessage_faulted i topic payload).trans (or_congr_right ?_)
    refine ⟨fun h => ⟨topic, payload, rfl, h⟩, ?_⟩
    rintro ⟨_, _, he, h⟩
    cases he
    exact h
  | connected =>
    have hsame : (n.handleEvent i .connected).faulted = n.faulted := by
      simp only [handleEvent]
      split
      · exact callClient_faulted ..
      · rfl
    simp [hsame]
  | disconnected =>
    have hsame : (n.handleEvent i .disconnected).faulted = n.faulted :=
      deactivateClient_faulted (n.forgetHost i) i
    simp [hsame]
  | active =>
    have hsame : (n.handleEvent i .active).faulted = n.faulted := setActiveClient_faulted n i
    simp [hsame]
  | delivered p | undelivered p | deactive =>
    simp [handleEvent, callPub]

end Faults

/-! ### The loop -/

/-- The loop of `processEvents`, which a fault ends. -/
def processEvents (n : Node) : Node :=
  if _h : n.faulted = true ∨ n.eventQueue = [] then n else n.processEvent.processEvents
termination_by n.toHandle
decreasing_by exact processEvent_less fun hq => _h (.inr hq)

/-- After finitely many rounds the queue is empty. -/
def EmptiesQueue (n : Node) : Prop :=
  ∃ k, (rounds step .processEvent k n).eventQueue = [] ∧
    (rounds step .processEvent k n).faulted = false

/-- The next event is no command that is compared with an absent name. -/
def NamesNext (n : Node) : Prop :=
  ∀ i topic payload, (i, .message topic payload) ∈ n.eventQueue.head? →
    n.CommandNamed i topic payload

section Loop

variable {n : Node}

lemma step_processEvent (h : n.faulted = false) : n.step .processEvent = n.processEvent := by
  rw [step, if_neg (by simp [h])]
  rfl

lemma step_of_faulted (h : n.faulted ≠ false) (a : NodeCall) : n.step a = n :=
  if_pos (Bool.ne_false_iff.mp h)

lemma step_of_empty (h : n.eventQueue = []) : n.step .processEvent = n := by
  by_cases hf : n.faulted = false
  · rw [step_processEvent hf, processEvent, h]
  · exact step_of_faulted hf _

/-- A round goes wrong if an absent name is compared with. -/
lemma round_faulted (hf : n.faulted = false) (hq : n.eventQueue ≠ []) :
    (n.step .processEvent).faulted = false ↔ n.NamesNext := by
  obtain ⟨⟨i, e⟩, rest, hcons⟩ : ∃ x rest, n.eventQueue = x :: rest :=
    List.exists_cons_of_ne_nil hq
  have hround : n.step .processEvent = { n with eventQueue := rest }.handleEvent i e := by
    rw [step_processEvent hf, processEvent, hcons]
  rw [hround, ← Bool.not_eq_true, handleEvent_faulted, NamesNext, hcons]
  simp only [hf, Bool.false_eq_true, false_or, not_exists, not_and, not_not, List.head?_cons,
    Option.mem_some, Prod.mk.injEq]
  refine ⟨fun h j topic payload hj => ?_, fun h topic payload he => ?_⟩
  · exact hj.1 ▸ h topic payload hj.2
  · exact h i topic payload ⟨rfl, he⟩

/-- What empties the queue does not go wrong, in as many rounds as one likes. -/
lemma EmptiesQueue.faulted_eq (h : n.EmptiesQueue) (k : ℕ) :
    (rounds step .processEvent k n).faulted = false := by
  obtain ⟨j, hq, hf⟩ := h
  rcases Nat.le_total j k with hjk | hjk
  · obtain ⟨m, rfl⟩ := Nat.exists_eq_add_of_le hjk
    rwa [rounds_add, rounds_of_fixed (step_of_empty hq)]
  · obtain ⟨m, rfl⟩ := Nat.exists_eq_add_of_le hjk
    by_contra hk
    rw [rounds_add, rounds_of_fixed (step_of_faulted hk _)] at hf
    exact hk hf

/-- The loop as a function is some number of rounds. -/
theorem processEvents_eq_rounds (n : Node) :
    ∃ k, n.processEvents = rounds step .processEvent k n := by
  fun_induction processEvents n with
  | case1 n h => exact ⟨0, rfl⟩
  | case2 n h ih =>
    obtain ⟨k, hk⟩ := ih
    have hf : n.faulted = false := by simpa using fun hf => h (.inl hf)
    exact ⟨k + 1, by rw [rounds_succ, step_processEvent hf, hk]⟩

/-- **The loop empties the queue** after finitely many rounds just if none of them compares
an absent name of a command. -/
theorem emptiesQueue_iff (hf : n.faulted = false) :
    n.EmptiesQueue ↔ ∀ k, (rounds step .processEvent k n).NamesNext := by
  refine loop_iff (fun n => n.eventQueue = []) (fun n => n.faulted = false)
    toHandle (fun m hm hq => ?_) (fun m hq => ?_) (fun m hm => step_of_faulted hm _)
    (fun m hm hq => round_faulted hm hq) hf
  · rw [step_processEvent hm]
    exact processEvent_less hq
  · exact ⟨step_of_empty hq, by simp [NamesNext, hq]⟩

end Loop

/-- What no event changes, no rounds of the loop change. -/
lemma Unmoved.rounds {P : Node → Prop} (h : Unmoved P) {n : Node} (hn : P n) (k : ℕ) :
    P (rounds step .processEvent k n) := by
  refine rounds_invariant (fun m hm => ?_) hn k
  by_cases hf : m.faulted = false
  · rw [step_processEvent hf]
    exact h.processEvent hm
  · rwa [step_of_faulted hf]

lemma decodePayload_unmoved (d : Str → Option (List CommandMetric)) :
    Unmoved fun n => n.decodePayload = d where
  free _ _ _ _ _ _ _ _ _ h := h

/-- Where payloads have names only, none is absent in any round. -/
lemma namesNext_of_decode {n : Node}
    (h : ∀ payload, ∀ cs ∈ n.decodePayload payload, ∀ c ∈ cs, c.name ≠ none) (k : ℕ) :
    (rounds step .processEvent k n).NamesNext := by
  have hdecode : (rounds step .processEvent k n).decodePayload = n.decodePayload :=
    (decodePayload_unmoved n.decodePayload).rounds rfl k
  intro i topic payload _ _ p _ cs hcs
  rw [hdecode] at hcs
  exact .inr (h payload cs hcs)

/-- A node whose payloads are all decoded to `cs`. -/
def commanded (cs : List CommandMetric) : NodeSetup where
  options := { groupId := ['g'], nodeId := ['n'] }
  decodePayload := fun _ => some cs
  kind := fun _ => .pahoSync

/-- An active client receives two commands, and from then on its library refuses every message. -/
def commandsReceived : List NodeCall :=
  let command := ("spBv1.0/g/NCMD/n".toList, [])
  [.addClient, .addDevice 0, .enable, .executeClient 0, .processEvent, .processEvent,
    .library 0 (.answers { received := .const ([command, command], 0), send := .const ⟨1, 0⟩ }),
    .executeClient 0]

/-- Two rebirths in each command, of which nothing is delivered. -/
theorem rebirths_emptiesQueue : (run step (create (commanded
    [⟨some rebirthName, true⟩, ⟨some rebirthName, true⟩])) commandsReceived).EmptiesQueue := by
  refine (emptiesQueue_iff (by decide)).mpr (namesNext_of_decode fun payload cs hcs c hc => ?_)
  obtain rfl : [⟨some rebirthName, true⟩, ⟨some rebirthName, true⟩] = cs := Option.some.inj hcs
  have hname : c.name = some rebirthName := by
    rcases List.mem_cons.mp hc with rfl | hc
    · rfl
    · rw [List.mem_singleton.mp hc]
  simp [hname]

/-- A metric that is given by its alias alone ends the loop at the first command. -/
theorem aliasOnly_not_emptiesQueue :
    ¬(run step (create (commanded [⟨none, true⟩])) commandsReceived).EmptiesQueue :=
  fun h => absurd (h.faulted_eq 3) (by decide)

end Node

end Sparkplug
