import Sparkplug.PubSteps
import Sparkplug.PublishCalls
import Sparkplug.Publishing
import Sparkplug.Timer

/-!
What `execute` publishes, and how long it may sleep afterwards.

The turns of `execute` come one after the other, and a publish in one of them goes as far
as the library. But it builds payloads for its own publishable only, so the turns do not
disturb each other, and what they do can be read off the node before the first of them.
-/

namespace Sparkplug

open Machine Client

/-- The time that passes with a call. -/
def PublishableCall.time : PublishableCall → Option ℤ
  | .update elapsed => some elapsed
  | _ => none

def NodeCall.time : NodeCall → Option ℤ
  | .poll _ elapsed | .update _ elapsed => some elapsed
  | _ => none

namespace Client

/-! ### A request builds payloads for its own publishable only -/

/-- Where all requests are for `p`, they stay so, and so are the payloads built. -/
def Only (p : PubId) (c d : Client) : Prop :=
  (∀ r ∈ c.publishQueue, r.publisher = p) → (∀ r ∈ d.publishQueue, r.publisher = p) ∧
    ∃ l, d.log = c.log ++ l ∧ ∀ q b, .addToPayload q b ∈ l → q = p

section Only

variable {p : PubId} {c d : Client}

lemma Only.refl (c : Client) : Only p c c := fun h => ⟨h, [], by simp, by simp⟩

lemma Only.trans {b : Client} (h : Only p b c) (k : Only p c d) : Only p b d := by
  intro hb
  obtain ⟨hc, l, hl, h⟩ := h hb
  obtain ⟨hd, m, hm, k⟩ := k hc
  refine ⟨hd, l ++ m, by rw [hm, hl, List.append_assoc], fun q b hq => ?_⟩
  rcases List.mem_append.mp hq with hq | hq
  · exact h q b hq
  · exact k q b hq

/-- A step that builds no payload and adds no request. -/
lemma Only.of_quiet (l : List Effect) (hl : d.log = c.log ++ l)
    (hpay : ∀ q b, .addToPayload q b ∉ l)
    (hq : ∀ r ∈ d.publishQueue, ∃ r' ∈ c.publishQueue, r.publisher = r'.publisher) :
    Only p c d := by
  refine fun h => ⟨fun r hr => ?_, l, hl, fun q b hmem => absurd hmem (hpay q b)⟩
  obtain ⟨r', hr', he⟩ := hq r hr
  exact he.trans (h r' hr')

/-- What leaves the publishers of the queue alone. -/
lemma publisher_modifyHead (q : List PublishRequest) {f : PublishRequest → PublishRequest}
    (hf : ∀ r, (f r).publisher = r.publisher) :
    ∀ r ∈ q.modifyHead f, ∃ r' ∈ q, r.publisher = r'.publisher :=
  Ledger.modifyHead_from (R := fun r r' => r.publisher = r'.publisher) (fun _ => rfl) hf q

lemma publishStep_only {A : Scope} (h : PublishStep A c d) : Only p c d := by
  have hsame : ∀ r ∈ c.publishQueue, ∃ r' ∈ c.publishQueue, r.publisher = r'.publisher :=
    fun r hr => ⟨r, hr, rfl⟩
  cases h with
  | asked q => exact .of_quiet [] (by simp) (by simp) (by simpa using hsame)
  | access id => exact .of_quiet [.access id] rfl (by simp) hsame
  | skipped r hs => exact .of_quiet [.skipped r] rfl (by simp) hsame
  | idle hs => exact .of_quiet [] (by simp) (by simp) (by simpa using hsame)
  | @tried r _ o f _ hq hs hg hf =>
    have hkeep : ∀ r, (f r).publisher = r.publisher := fun r => by cases hf <;> rfl
    refine fun h => ⟨fun x hx => ?_, attemptLog c r o, rfl, fun q b hmem => ?_⟩
    · obtain ⟨x', hx', he⟩ := publisher_modifyHead _ hkeep x hx
      exact he.trans (h x' hx')
    · obtain ⟨rfl, -⟩ : q = r.publisher ∧ b = r.isBirth := by simpa [attemptLog] using hmem
      exact h r (by simp [hq])
  | @giveUp r rest hq =>
    refine .of_quiet [.undelivered r] rfl (by simp) fun x hx => ?_
    exact ⟨x, List.mem_of_mem_tail hx, rfl⟩
  | retry =>
    exact .of_quiet [] (by simp [modifyFront]) (by simp) (publisher_modifyHead _ fun _ => rfl)

lemma publishFromQueue_only (c : Client) : Only p c c.publishFromQueue := by
  have h : Publishes {} c c.publishFromQueue := publishFromQueue_publishes c
  generalize c.publishFromQueue = d at h
  induction h with
  | refl => exact .refl c
  | tail _ hstep ih => exact ih.trans (publishStep_only hstep)

/-- **A request builds payloads for its own publishable only.** What waits in front of it is
not tried on its account. -/
theorem request_payloads (c : Client) (r : PublishRequest) :
    ∀ q b, .addToPayload q b ∈ Ledger.effects c (c.request r) → q = r.publisher := by
  have hnothing : ∀ d : Client, d.log = c.log →
      ∀ q b, .addToPayload q b ∈ Ledger.effects c d → q = r.publisher := by
    intro d hd q b hmem
    rw [Ledger.effects_eq (l := []) (by simp [hd])] at hmem
    cases hmem
  simp only [request]
  split
  · next hlength =>
    split
    · have hnil : c.publishQueue = [] := by
        simpa [enqueue] using hlength
      have honly := publishFromQueue_only (p := r.publisher) ((c.enqueue r).asked .connected)
      obtain ⟨-, l, hl, hpay⟩ := honly (by simp [enqueue, hnil])
      rw [Ledger.effects_eq (l := l) (by rw [hl, asked_log]; rfl)]
      exact hpay
    · exact hnothing _ (by simp [enqueue])
  · exact hnothing _ rfl

end Only

end Client

namespace Node

/-! ### The turns -/

/-- The publishable has run out of time and has something to say. -/
def isDue (n : Node) (elapsed : ℤ) (p : PubId) : Bool :=
  ((n.pub p).cur.update elapsed).2.canPublish

/-- The least of the delays that the publishables ask for, and 65535. -/
def delay (n : Node) (elapsed : ℤ) (ps : List PubId) (next : ℤ) : ℤ :=
  ps.foldl (fun next p => min ((n.pub p).cur.update elapsed).1 next) next

section Turns

variable {n : Node} {p q : PubId} (elapsed : ℤ)

lemma payloadCalls_nil {time : ℕ} {l : List Effect}
    (h : ∀ x b, .addToPayload x b ∈ l → x ≠ p) : payloadCalls time p l = [] := by
  refine List.filterMap_eq_nil_iff.mpr fun e he => ?_
  cases e with
  | addToPayload x b => simp [h x b he]
  | _ => rfl

/-- Publishing leaves all other publishables alone. -/
lemma publish_pub_of_ne (hq : q ≠ p) (b : Bool) : (n.publish p b).pub q = n.pub q := by
  rcases publish_cases n p b with ⟨e, -⟩ | ⟨e, -⟩ | ⟨i, -, e⟩
  · rw [e]
  · rw [e]
    exact if_neg hq
  · rw [e, requested, callClient_pub, prepared_pub, callPub_pub, if_neg hq, payloadCalls_nil]
    · rfl
    · intro x b' hx hxq
      have heff := request_payloads ((n.prepared p b).client i).cur (n.requestFor p b) x b' hx
      exact hq (hxq.symm.trans heff)

lemma takeTurn_pub_of_ne (hq : q ≠ p) : (n.takeTurn p elapsed).2.pub q = n.pub q := by
  have hupdate : (n.callPub p (.update elapsed)).pub q = n.pub q := by simp [hq]
  simp only [takeTurn]
  split
  · rw [publish_pub_of_ne hq, hupdate]
  · exact hupdate

/-- After its turn a publishable that was due is being published, and another one has waited. -/
def Turned (n m : Node) (elapsed : ℤ) (p : PubId) : Prop :=
  if n.isDue elapsed p then (m.pub p).cur.state = .publishing
  else (m.pub p).cur = ((n.pub p).cur.update elapsed).2

lemma takeTurn_turned : Turned n (n.takeTurn p elapsed).2 elapsed p := by
  have hupdate : ((n.callPub p (.update elapsed)).pub p).cur =
      ((n.pub p).cur.update elapsed).2 := by
    simp [Publishable.step]
  by_cases hdue : n.isDue elapsed p = true
  · have hcan : ((n.callPub p (.update elapsed)).pub p).cur.canPublish = true := hupdate ▸ hdue
    simp only [Turned, takeTurn, if_pos hdue, if_pos hcan]
    rcases publish_cases (n.callPub p (.update elapsed)) p false with
      ⟨-, -, hc⟩ | ⟨e, -⟩ | ⟨i, -, e⟩
    · rw [hcan] at hc
      cases hc
    · rw [e]
      simp [Publishable.step, Publishable.publishing]
    · rw [e, requested, callClient_state, prepared_pub]
      simp [Publishable.step, Publishable.publishing]
  · have hcan : ¬((n.callPub p (.update elapsed)).pub p).cur.canPublish = true := hupdate ▸ hdue
    simp only [Turned, takeTurn, if_neg hdue, if_neg hcan]
    exact hupdate

lemma takeTurnCalls_eq : (n.takeTurnCalls p elapsed).map (fun x => (x.publisher, x.isBirth)) =
    if n.isDue elapsed p then [(p, false)] else [] := by
  have hupdate : ((n.callPub p (.update elapsed)).pub p).cur =
      ((n.pub p).cur.update elapsed).2 := by
    simp [Publishable.step]
  simp only [takeTurnCalls, hupdate]
  rw [isDue]
  split
  · rfl
  · rfl

variable {ps : List PubId}

lemma takeTurns_pub_of_notMem (hq : q ∉ ps) (next : ℤ) :
    (takeTurns elapsed next n ps).2.pub q = n.pub q := by
  induction ps generalizing n next with
  | nil => rfl
  | cons p ps ih =>
    rw [List.mem_cons, not_or] at hq
    rw [takeTurns, ih hq.2, takeTurn_pub_of_ne elapsed hq.1]

/-- What is read off a node for other publishables is the same after a turn. -/
lemma takeTurn_isDue (hp : p ∉ ps) :
    (∀ q ∈ ps, (n.takeTurn p elapsed).2.isDue elapsed q = n.isDue elapsed q) ∧
      ∀ next, (n.takeTurn p elapsed).2.delay elapsed ps next = n.delay elapsed ps next := by
  have hsame : ∀ q ∈ ps, (n.takeTurn p elapsed).2.pub q = n.pub q := fun q hq =>
    takeTurn_pub_of_ne elapsed fun h => hp (h ▸ hq)
  refine ⟨fun q hq => by rw [isDue, isDue, hsame q hq], fun next => ?_⟩
  clear hp
  unfold delay
  induction ps generalizing next with
  | nil => rfl
  | cons x ps ih =>
    rw [List.forall_mem_cons] at hsame
    rw [List.foldl_cons, List.foldl_cons, hsame.1]
    exact ih hsame.2 _

lemma takeTurnsCalls_eq (hnodup : ps.Nodup) :
    (takeTurnsCalls elapsed n ps).map (fun x => (x.publisher, x.isBirth)) =
      (ps.filter (n.isDue elapsed)).map (·, false) := by
  induction ps generalizing n with
  | nil => rfl
  | cons p ps ih =>
    rw [List.nodup_cons] at hnodup
    have hfilter : ps.filter ((n.takeTurn p elapsed).2.isDue elapsed) =
        ps.filter (n.isDue elapsed) :=
      List.filter_congr (takeTurn_isDue elapsed hnodup.1).1
    rw [takeTurnsCalls, List.map_append, takeTurnCalls_eq, ih hnodup.2, hfilter,
      List.filter_cons]
    split <;> rfl

lemma takeTurns_delay (hnodup : ps.Nodup) (next : ℤ) :
    (takeTurns elapsed next n ps).1 = n.delay elapsed ps next := by
  induction ps generalizing n next with
  | nil => rfl
  | cons p ps ih =>
    rw [List.nodup_cons] at hnodup
    rw [takeTurns, ih hnodup.2, (takeTurn_isDue elapsed hnodup.1).2]
    rfl

lemma takeTurns_turned (hnodup : ps.Nodup) (hp : p ∈ ps) (next : ℤ) :
    Turned n (takeTurns elapsed next n ps).2 elapsed p := by
  induction ps generalizing n next with
  | nil => cases hp
  | cons x ps ih =>
    rw [List.nodup_cons] at hnodup
    rw [takeTurns]
    by_cases hpx : p = x
    · subst hpx
      have hturn := takeTurn_turned (n := n) (p := p) elapsed
      rwa [Turned, ← takeTurns_pub_of_notMem elapsed hnodup.1 _] at hturn
    · have hbefore : (n.takeTurn x elapsed).2.pub p = n.pub p := takeTurn_pub_of_ne elapsed hpx
      have hturn := ih (n := (n.takeTurn x elapsed).2) hnodup.2
        ((List.mem_cons.mp hp).resolve_left hpx) (min (n.takeTurn x elapsed).1 next)
      rwa [Turned, isDue, hbefore] at hturn

end Turns

/-! ### The whole of `execute` -/

/-- The turns of `execute`, read off the node `m` before the first of them: what is published,
the delay, and what becomes of the publishables. -/
structure Executes (m : Node) (elapsed : ℤ) (calls : List PublishCall) (r : ℤ × Node) : Prop where
  published : calls.map (fun x => (x.publisher, x.isBirth)) =
    (m.publishables.filter (m.isDue elapsed)).map (·, false)
  delay : r.1 = m.delay elapsed m.publishables 0xFFFF
  turned : ∀ p ∈ m.publishables, Turned m r.2 elapsed p
  others : ∀ p ∉ m.publishables, r.2.pub p = m.pub p

/-- A device added once is there once. -/
lemma publishables_nodup {n : Node} (h : n.devices.Nodup) : n.publishables.Nodup := by
  rw [publishables, List.nodup_cons]
  exact ⟨by simp, List.Pairwise.map _ (fun d e hde => by simpa using hde) h⟩

lemma devices_unmoved (ds : List ℕ) : Unmoved fun n => n.devices = ds where
  free _ _ _ _ _ _ _ _ _ h := h

lemma sync_devices (n : Node) : n.sync.devices = n.devices :=
  (devices_unmoved n.devices).sync rfl

/-- `execute` is the synchronization and then the turns. -/
lemma execute_of_active {n : Node} (he : n.enabled = true)
    (hactive : n.sync.activeClient.isSome = true) (hf : n.sync.faulted = false) (elapsed : ℤ) :
    n.execute elapsed true = takeTurns elapsed 0xFFFF n.sync n.sync.publishables ∧
      n.executeCalls elapsed true = n.executeClients.processEventsCalls ++
        takeTurnsCalls elapsed n.sync n.sync.publishables := by
  simp [execute, executeCalls, isActive, he, hactive, hf]

/-- **`execute` publishes exactly what is due**: with an active and connected client it asks for
data once for every publishable that has run out of time and has something to say, the node
first, and returns the least of the delays; the order of the turns is of no other account. -/
theorem execute_exact {n : Node} (he : n.enabled = true)
    (hactive : n.sync.activeClient.isSome = true) (hf : n.sync.faulted = false)
    (hdevices : n.devices.Nodup) (elapsed : ℤ) :
    ∃ calls, n.executeCalls elapsed true = n.executeClients.processEventsCalls ++ calls ∧
      Executes n.sync elapsed calls (n.execute elapsed true) := by
  obtain ⟨hexecute, hcalls⟩ := execute_of_active he hactive hf elapsed
  have hnodup : n.sync.publishables.Nodup := publishables_nodup (sync_devices n ▸ hdevices)
  refine ⟨_, hcalls, ?_⟩
  rw [hexecute]
  exact ⟨takeTurnsCalls_eq elapsed hnodup, takeTurns_delay elapsed hnodup _,
    fun p hp => takeTurns_turned elapsed hnodup hp _,
    fun p hp => takeTurns_pub_of_notMem elapsed hp _⟩

lemma sync_of_handled {n : Node} (h : n.executeClients.eventQueue = []) :
    n.sync = n.executeClients := by
  rw [sync, processEvents, dif_pos (.inr h)]

/-- A client is active, its birth and that of a device delivered, and the device has new data. -/
def newData : List NodeCall :=
  [.addClient, .addDevice 0, .enable, .executeClient 0, .library 0 .onConnect, .processEvent,
    .library 0 .onCommandSubscription, .processEvent, .library 0 (.onDelivery 1), .processEvent,
    .library 0 (.onDelivery 1), .processEvent, .setValue (.device 0) 0 [1]]

theorem newData_executes :
    ∃ calls, (run step (create .oneMetric) newData).executeCalls 30 true =
        (run step (create .oneMetric) newData).executeClients.processEventsCalls ++ calls ∧
      Executes (run step (create .oneMetric) newData).sync 30 calls
        ((run step (create .oneMetric) newData).execute 30 true) := by
  have hsync : (run step (create .oneMetric) newData).sync =
      (run step (create .oneMetric) newData).executeClients := sync_of_handled (by decide)
  exact execute_exact (by decide) (by rw [hsync]; decide) (by rw [hsync]; decide) (by decide) 30

/-! ### What becomes of the publishables while time passes -/

/-- A call whose time is allowed. -/
def InTimes (T : ℤ → Prop) (_ : PubId) (a : PublishableCall) : Prop := ∀ e ∈ a.time, T e

section AllPubs

variable {R : PubId → Traced Publishable.step → Prop} {T : ℤ → Prop} {n : Node}

/-- What holds of a publishable whatever is done to it in times that are allowed. -/
lemma lasts_inTimes {S : PubId → Publishable → Prop}
    (h : ∀ q p a, (∀ e ∈ PublishableCall.time a, T e) → S q p → S q (p.step a)) :
    Lasts (InTimes T) fun q t => S q t.cur where
  publishing _ := by simp [InTimes, PublishableCall.time]
  addToPayload _ _ _ := by simp [InTimes, PublishableCall.time]
  act q t a ha ht := h q t.cur a ha ht

lemma tells_inTimes {a : NodeCall} (ha : ∀ e ∈ a.time, T e) :
    ∀ x ∈ n.tells a, InTimes T x.1 x.2 := by
  intro x hx e he
  cases a with
  | poll p elapsed | update p elapsed =>
    obtain rfl := List.mem_singleton.mp hx
    exact ha e he
  | setValue | setProperty =>
    obtain rfl := List.mem_singleton.mp hx
    cases he
  | processEvent =>
    obtain ⟨p, -, rfl⟩ := Option.map_eq_some_iff.mp (Option.mem_toList.mp hx)
    cases he
  | _ => cases hx

lemma run_allPubs (hR : Lasts (InTimes T) R) (h : AllPubs R n) {as : List NodeCall}
    (has : ∀ a ∈ as, ∀ e ∈ a.time, T e) : AllPubs R (run step n as) := by
  induction as generalizing n with
  | nil => exact h
  | cons a as ih =>
    rw [List.forall_mem_cons] at has
    exact ih (step_allPubs hR h (tells_inTimes has.1)) has.2

lemma sync_allPubs (hR : Lasts (InTimes T) R) (h : AllPubs R n) : AllPubs R n.sync :=
  sync_kept (P := AllPubs R) (fun _ i hm => callClient_allPubs hR hm i _)
    (fun _ hm => step_allPubs hR hm (tells_inTimes (by simp [NodeCall.time]))) h

lemma takeTurns_allPubs (hR : Lasts (InTimes T) R) (h : AllPubs R n) {elapsed : ℤ} (he : T elapsed)
    (ps : List PubId) (next : ℤ) : AllPubs R (takeTurns elapsed next n ps).2 := by
  induction ps generalizing n next with
  | nil => exact h
  | cons p ps ih =>
    have hallowed : InTimes T p (.update elapsed) := by
      simpa [InTimes, PublishableCall.time] using he
    have hupdate := callPub_allPubs hR h p hallowed
    refine ih ?_ _
    simp only [takeTurn]
    split
    · exact publish_allPubs hR hupdate p false
    · exact hupdate

end AllPubs

/-! ### The main loop -/

/-- The timer is between one and the period. -/
def Ticking (p : Publishable) : Prop := 1 ≤ p.nextPublish ∧ p.nextPublish ≤ p.publishPeriod

lemma ticking_lasts : Lasts (InTimes (0 ≤ ·)) fun _ t => Ticking t.cur := by
  refine lasts_inTimes (S := fun _ p => Ticking p) fun q p a ha h => ?_
  cases a with
  | setValue | setProperty | publishing | published => exact h
  | addToPayload b now => exact ⟨h.1.trans h.2, le_rfl⟩
  | update e =>
    have he : 0 ≤ e := ha e rfl
    obtain ⟨hlow, hhigh⟩ := h
    rw [Publishable.step]
    rcases Timed.update_cases p e with ⟨-, heq⟩ | ⟨-, -, heq⟩ | ⟨-, hlt, heq⟩
    · rw [heq]
      exact ⟨hlow, hhigh⟩
    · rw [heq]
      exact ⟨hlow.trans hhigh, le_rfl⟩
    · rw [heq, Ticking]
      dsimp only
      omega

/-- The timer of `q` lasts for at least the time `b`. -/
lemma rests_lasts (q : PubId) (b : ℤ) : Lasts (InTimes fun _ => False) fun q' t =>
    q' = q → b ≤ t.cur.nextPublish ∧ b ≤ t.cur.publishPeriod := by
  refine lasts_inTimes (S := fun q' p => q' = q → b ≤ p.nextPublish ∧ b ≤ p.publishPeriod)
    fun q' p a ha h hq => ?_
  cases a with
  | setValue | setProperty | publishing | published => exact h hq
  | addToPayload b' now => exact ⟨(h hq).2, (h hq).2⟩
  | update e => exact (ha e rfl).elim

section Delay

variable {n : Node} {elapsed : ℤ} {ps : List PubId} {p : PubId}

lemma takeTurns_le (next : ℤ) : (takeTurns elapsed next n ps).1 ≤ next := by
  induction ps generalizing n next with
  | nil => exact le_rfl
  | cons p ps ih => exact (ih _).trans (min_le_right _ _)

lemma one_le_takeTurns (h : AllPubs (fun _ t => Ticking t.cur) n) (he : 0 ≤ elapsed) {next : ℤ}
    (hnext : 1 ≤ next) : 1 ≤ (takeTurns elapsed next n ps).1 := by
  induction ps generalizing n next with
  | nil => exact hnext
  | cons p ps ih =>
    have hfirst : 1 ≤ (n.takeTurn p elapsed).1 := by
      obtain ⟨hlow, hhigh⟩ := h p
      change 1 ≤ ((n.pub p).cur.update elapsed).1
      rcases Timed.update_cases (n.pub p).cur elapsed with
        ⟨-, heq⟩ | ⟨-, -, heq⟩ | ⟨-, hlt, heq⟩ <;>
        rw [heq] <;> dsimp only <;> omega
    have hturn := takeTurns_allPubs ticking_lasts h he [p] next
    exact ih hturn (le_min hfirst hnext)

/-- The delay is no longer than what a publishable that waits has left. -/
lemma takeTurns_punctual (hp : p ∈ ps) (next : ℤ)
    (hidle : ((takeTurns elapsed next n ps).2.pub p).cur.state = .idle) :
    (takeTurns elapsed next n ps).1 ≤ ((takeTurns elapsed next n ps).2.pub p).cur.nextPublish := by
  induction ps generalizing n next with
  | nil => cases hp
  | cons x ps ih =>
    rw [takeTurns] at hidle ⊢
    by_cases hmem : p ∈ ps
    · exact ih hmem _ hidle
    obtain rfl := (List.mem_cons.mp hp).resolve_right hmem
    rw [takeTurns_pub_of_notMem elapsed hmem] at hidle ⊢
    have hturn := takeTurn_turned (n := n) (p := p) elapsed
    have hown : (n.takeTurn p elapsed).1 ≤ ((n.takeTurn p elapsed).2.pub p).cur.nextPublish := by
      unfold Turned at hturn
      split at hturn
      · rw [hturn] at hidle
        cases hidle
      rw [hturn] at hidle ⊢
      change ((n.pub p).cur.update elapsed).1 ≤ _
      rcases Timed.update_cases (n.pub p).cur elapsed with ⟨hs, heq⟩ | ⟨-, -, heq⟩ | ⟨-, -, heq⟩
      · rw [heq] at hidle
        exact absurd hidle hs
      · rw [heq] at hidle
        cases hidle
      · rw [heq]
    calc (takeTurns elapsed (min (n.takeTurn p elapsed).1 next) (n.takeTurn p elapsed).2 ps).1
        ≤ min (n.takeTurn p elapsed).1 next := takeTurns_le _
      _ ≤ (n.takeTurn p elapsed).1 := min_le_left _ _
      _ ≤ ((n.takeTurn p elapsed).2.pub p).cur.nextPublish := hown

/-- Between two rounds of the main loop: the node is enabled, the delay is one that can be
slept, and all timers are in their range. -/
structure Rested (x : ℤ × Node) : Prop where
  enabled : x.2.enabled = true
  delay : 0 ≤ x.1
  ticking : AllPubs (fun _ t => Ticking t.cur) x.2

lemma execute_rested {x : ℤ × Node} (h : Rested x) (connected : Bool) :
    Rested (x.2.execute x.1 connected) ∧ 1 ≤ (x.2.execute x.1 connected).1 ∧
      (x.2.execute x.1 connected).1 ≤ 0xFFFF ∧
      ∀ p, (x.2.execute x.1 connected).2.owns p = true →
        ((x.2.execute x.1 connected).2.pub p).cur.state = .idle →
        (x.2.execute x.1 connected).1 ≤ ((x.2.execute x.1 connected).2.pub p).cur.nextPublish := by
  obtain ⟨henabled, hdelay, htime⟩ := h
  have hne : ¬x.2.enabled = false := by simp [henabled]
  have hsync := sync_allPubs ticking_lasts htime
  simp only [execute, isActive, if_neg hne]
  split
  · refine ⟨⟨(sync_enabled x.2).trans henabled, by simp [executeIdleDelay], hsync⟩, ?_, ?_, ?_⟩
    · simp [executeIdleDelay]
    · simp [executeIdleDelay]
    · exact fun p _ _ => (hsync p).1
  · next hgo =>
    have hexec := sync_executing hne hgo
    have hafter := takeTurns_executing x.1 x.2.sync.publishables 0xFFFF hexec
    have hone : 1 ≤ (takeTurns x.1 0xFFFF x.2.sync x.2.sync.publishables).1 :=
      one_le_takeTurns hsync hdelay (by decide)
    refine ⟨⟨hafter.enabled, ?_, takeTurns_allPubs ticking_lasts hsync hdelay _ _⟩, hone,
      takeTurns_le _, fun p hp hidle => takeTurns_punctual ?_ _ hidle⟩
    · exact Int.le_trans (by decide) hone
    · cases p with
      | node => simp [publishables]
      | device d =>
        rw [owns, hafter.devices] at hp
        simpa [publishables] using hp

end Delay

/-- A round of the loop in `begin`: `execute` is told the delay it returned before, and then
the node sleeps for the delay, during which no time is told to a publishable. -/
structure Round where
  connected : Bool
  asleep : List NodeCall
  timeless : ∀ a ∈ asleep, a.time = none

def mainRound (x : ℤ × Node) (r : Round) : ℤ × Node :=
  ((x.2.execute x.1 r.connected).1, run step (x.2.execute x.1 r.connected).2 r.asleep)

/-- What a node is built from changes where clients and devices are added, the node is enabled
or the clock is set, and nowhere else. -/
lemma Unmoved.step {P : Node → Prop} (h : Unmoved P)
    (hclients : ∀ (n : Node) is, P n → P { n with clients := is })
    (hdevice : ∀ (n : Node) d, P n → P { n with devices := d :: n.devices })
    (henabled : ∀ n : Node, P n → P { n with enabled := true })
    (htime : ∀ (n : Node) t, P n → P { n with time := t }) {n : Node} (hn : P n) (a : NodeCall) :
    P (n.step a) := by
  have hpub : ∀ (m : Node) p c, P m → P (m.callPub p c) :=
    fun m _ _ hm => h.free m _ _ _ _ _ _ _ _ hm
  have hconfigure : P (n.configureClients n.clients).2 :=
    configureClients_kept (P := P) (fun _ i _ hm => h.callClient hm i _) hn
  unfold Node.step
  split
  · exact hn
  cases a with
  | addClient => exact hclients n _ hn
  | addDevice d => exact hdevice n d hn
  | setTime t => exact htime n t hn
  | setValue | setProperty | update => exact hpub n _ _ hn
  | enable =>
    simp only [handle, Node.enable]
    repeat' split
    · exact hn
    · exact hn
    · exact henabled _ hconfigure
    · exact hconfigure
  | processEvent => exact h.processEvent hn
  | poll p elapsed =>
    simp only [handle, poll]
    repeat' split
    · exact h.publish (hpub n p _ hn) p false
    · exact hpub n p _ hn
    · exact hn
  | requestPublish p b =>
    simp only [handle, requestPublish]
    split
    · exact h.publish hn p b
    · exact hn
  | executeClient i | library i l =>
    simp only [handle]
    split
    · exact h.callClient hn i _
    · exact hn
  | stopClient i =>
    simp only [handle]
    split
    · exact h.callClient (h.callClient hn i _) i _
    · exact hn

lemma step_enabled {n : Node} (h : n.enabled = true) (a : NodeCall) :
    (n.step a).enabled = true :=
  (enabled_unmoved true).step (fun _ _ hm => hm) (fun _ _ hm => hm) (fun _ _ => rfl)
    (fun _ _ hm => hm) h a

lemma mainRound_rested {x : ℤ × Node} (h : Rested x) (r : Round) : Rested (mainRound x r) := by
  obtain ⟨hr, -⟩ := execute_rested h r.connected
  refine ⟨run_invariant (P := fun n : Node => n.enabled = true) (fun _ a hn => step_enabled hn a)
    hr.enabled _, hr.delay, run_allPubs ticking_lasts hr.ticking fun a ha e he => ?_⟩
  rw [r.timeless a ha] at he
  cases he

/-- `execute` returns a delay that can be slept, and a publishable it leaves waiting has at
least that much time left when the node wakes up. -/
def Punctual (x : ℤ × Node) (r : Round) : Prop :=
  1 ≤ (mainRound x r).1 ∧ (mainRound x r).1 ≤ 0xFFFF ∧
    ∀ p, (x.2.execute x.1 r.connected).2.owns p = true →
      ((x.2.execute x.1 r.connected).2.pub p).cur.state = .idle →
      (mainRound x r).1 ≤ ((mainRound x r).2.sync.pub p).cur.nextPublish

/-- The publishables of a set-up have periods, and the times told before the loop are no
negative ones. -/
structure SetUp (s : NodeSetup) (before : List NodeCall) : Prop where
  node : 1 ≤ s.options.publishPeriod
  device : ∀ d, 1 ≤ s.period d
  times : ∀ a ∈ before, ∀ e ∈ a.time, 0 ≤ e
  enabled : (run step (create s) before).enabled = true

lemma SetUp.rested {s : NodeSetup} {before : List NodeCall} (h : SetUp s before) :
    Rested (0, run step (create s) before) := by
  refine ⟨h.enabled, le_rfl, run_allPubs ticking_lasts (fun p => ?_) h.times⟩
  cases p with
  | node => exact ⟨h.node, le_rfl⟩
  | device d => exact ⟨h.device d, le_rfl⟩

/-- **The main loop never oversleeps**: whatever happens before it, during the rounds and in
between, no publishable that waits runs out of time before the node wakes up. -/
theorem begin_punctual (s : NodeSetup) (before : List NodeCall) (h : SetUp s before)
    (rs : List Round) : Each mainRound Punctual (0, run step (create s) before) rs := by
  have halong : Along mainRound Rested (0, run step (create s) before) rs :=
    along_of_each (C := fun _ _ => True) (fun x r hx _ => mainRound_rested hx r) h.rested
      (each_iff_forall.mpr fun _ _ => trivial)
  refine halong.each.mono fun x r hx => ?_
  obtain ⟨hr, hone, hmax, hwaits⟩ := execute_rested hx r.connected
  refine ⟨hone, hmax, fun p hp hidle => ?_⟩
  have hleft := hwaits p hp hidle
  have hrests : AllPubs (fun q' t => q' = p → (mainRound x r).1 ≤ t.cur.nextPublish ∧
      (mainRound x r).1 ≤ t.cur.publishPeriod) (x.2.execute x.1 r.connected).2 := by
    rintro q rfl
    exact ⟨hleft, hleft.trans (hr.ticking q).2⟩
  have htimeless : ∀ a ∈ r.asleep, ∀ e ∈ a.time, False := by
    intro a ha e he
    rw [r.timeless a ha] at he
    cases he
  have hasleep := run_allPubs (rests_lasts p _) hrests htimeless
  exact (sync_allPubs (rests_lasts p _) hasleep p rfl).1

/-- The client connects while the node sleeps for the first time, and the birth is delivered
while it sleeps for the third. -/
def firstRounds : List Round :=
  [⟨false, [.library 0 .onConnect], by simp [NodeCall.time]⟩,
    ⟨true, [.library 0 .onCommandSubscription], by simp [NodeCall.time]⟩,
    ⟨true, [.library 0 (.onDelivery 1), .setValue .node 0 [1]], by simp [NodeCall.time]⟩,
    ⟨true, [], by simp⟩]

/-- A round in which nothing happens while the node sleeps. -/
def stillRound : Round := ⟨true, [], by simp⟩

theorem firstRounds_punctual : Each mainRound Punctual
    (0, run step (create .oneMetric) [.addClient, .enable]) firstRounds :=
  begin_punctual .oneMetric [.addClient, .enable]
    ⟨by decide, fun _ => (by decide : (1 : ℤ) ≤ 30), by simp [NodeCall.time], by decide⟩ firstRounds

end Node

end Sparkplug
