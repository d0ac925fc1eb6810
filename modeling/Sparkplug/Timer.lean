import Sparkplug.NodeSteps

/-!
The timer of a publishable.

It runs down while the publishable is idle, and data may be published only after it has
run out. So the timer is always between one and the publish period, and two data messages
of a publishable are at least a publish period apart.
-/

namespace Sparkplug

open Machine

def int32Max : ℤ := 2147483647

/-- What is done to a publishable, with the test that `Node::publish` makes. -/
inductive TimerCall
  | setValue (i : ℕ) (value : Bytes) (now : ℕ)
  | setProperty (i : ℕ) (path : List ℕ) (value : Bytes)
  | update (elapsed : ℤ)
  | publish (isBirth : Bool)
  | published
  | addToPayload (isBirth : Bool) (now : ℕ)

/-- The time an `update` says has passed is a non-negative `int32_t`. -/
def TimerCall.InRange : TimerCall → Prop
  | .update elapsed => 0 ≤ elapsed ∧ elapsed ≤ int32Max
  | _ => True

/-- The time that passes with a call. -/
def TimerCall.elapsed : TimerCall → ℤ
  | .update elapsed => elapsed
  | _ => 0

namespace Publishable

/-- The part of `Node::publish` about the publishable: data is published only when it can
be, a birth always. -/
def publish (p : Publishable) (isBirth : Bool) : Publishable :=
  if !p.canPublish && !isBirth then p else p.publishing

def turn (p : Publishable) : TimerCall → Publishable
  | .setValue i value now => p.setValue i value now
  | .setProperty i path value => p.setProperty i path value
  | .update elapsed => (p.update elapsed).2
  | .publish isBirth => p.publish isBirth
  | .published => p.published
  | .addToPayload isBirth now => (p.addToPayload [] isBirth now).1

/-- The call publishes data. -/
def publishesData (p : Publishable) : TimerCall → Bool
  | .publish isBirth => p.canPublish && !isBirth
  | _ => false

@[simp] lemma publish_birth (p : Publishable) : p.publish true = p.publishing := by
  simp [publish]

lemma publish_of_canPublish {p : Publishable} (h : p.canPublish = true) (b : Bool) :
    p.publish b = p.publishing := by
  simp [publish, h]

lemma canPublish_state {p : Publishable} (h : p.canPublish = true) : p.state = .canPublish := by
  simp only [canPublish, Bool.and_eq_true, decide_eq_true_eq] at h
  exact h.1

/-- A publish changes at most the state, and then to publishing. -/
lemma publish_cases (p : Publishable) (b : Bool) :
    p.publish b = p ∨ p.publish b = { p with state := .publishing } := by
  unfold publish
  split
  · exact .inl rfl
  · exact .inr rfl

end Publishable

/-- A publishable with two times nobody reads: that accumulated while idle since the timer
was last reset, and that since the last data publish. -/
structure Timed where
  pub : Publishable
  idle : ℤ := 0
  sinceData : Option ℤ := none

namespace Timed

open Publishable

/-- The time accumulated while idle. The timer is reset when it runs out and when a payload
is built. -/
def idleAfter (t : Timed) : TimerCall → ℤ
  | .update elapsed =>
    if t.pub.state = .idle then
      if (t.pub.update elapsed).2.state = .canPublish then 0 else t.idle + elapsed
    else t.idle
  | .addToPayload .. => 0
  | _ => t.idle

def step (t : Timed) (a : TimerCall) : Timed where
  pub := t.pub.turn a
  idle := t.idleAfter a
  sinceData := if t.pub.publishesData a then some 0 else t.sinceData.map (· + a.elapsed)

/-- The timer holds what is left of the period, and is full when it has run out. Since the
last data publish at least as much time has passed as the timer has lost, and a whole
period if it has run out. -/
structure OnTime (period : ℤ) (t : Timed) : Prop where
  period_eq : t.pub.publishPeriod = period
  idle_nonneg : 0 ≤ t.idle
  left : t.pub.nextPublish = period - t.idle
  lower : 1 ≤ t.pub.nextPublish
  full : t.pub.state = .canPublish → t.idle = 0
  data : ∀ s, t.sinceData = some s → 0 ≤ s ∧ t.idle ≤ s
  due : ∀ s, t.sinceData = some s → t.pub.state = .canPublish → period ≤ s

variable {period : ℤ} {t : Timed}

/-- A call during which no time passes, that does not touch the timer and makes nothing due. -/
lemma OnTime.still (h : OnTime period t) {q : Publishable} (hperiod : q.publishPeriod = period)
    (hnext : q.nextPublish = t.pub.nextPublish)
    (hstate : q.state = .canPublish → t.pub.state = .canPublish) :
    OnTime period { t with pub := q } where
  period_eq := hperiod
  idle_nonneg := h.idle_nonneg
  left := hnext.trans h.left
  lower := hnext ▸ h.lower
  full hc := h.full (hstate hc)
  data := h.data
  due s hs hc := h.due s hs (hstate hc)

/-- Time that passes without the timer running. -/
lemma OnTime.wait (h : OnTime period t) {e : ℤ} (he : 0 ≤ e) :
    OnTime period { t with sinceData := t.sinceData.map (· + e) } where
  period_eq := h.period_eq
  idle_nonneg := h.idle_nonneg
  left := h.left
  lower := h.lower
  full := h.full
  data s hs := by
    obtain ⟨s', hs', rfl⟩ := Option.map_eq_some_iff.mp hs
    have := h.data s' hs'
    show 0 ≤ s' + e ∧ t.idle ≤ s' + e
    omega
  due s hs hc := by
    obtain ⟨s', hs', rfl⟩ := Option.map_eq_some_iff.mp hs
    have := h.due s' hs' hc
    omega

lemma map_add_zero (o : Option ℤ) : o.map (· + 0) = o := by
  cases o <;> simp

/-- The three cases of `update`. -/
lemma update_cases (p : Publishable) (e : ℤ) :
    (p.state ≠ .idle ∧ p.update e = (p.publishPeriod, p)) ∨
    (p.state = .idle ∧ p.nextPublish - e ≤ 0 ∧ p.update e =
      (p.publishPeriod, { p with state := .canPublish, nextPublish := p.publishPeriod })) ∨
    (p.state = .idle ∧ 0 < p.nextPublish - e ∧
      p.update e = (p.nextPublish - e, { p with nextPublish := p.nextPublish - e })) := by
  unfold Publishable.update
  split
  · next h => exact .inl ⟨by rcases h with h | h <;> simp [h], rfl⟩
  · next h =>
    have hidle : p.state = .idle := by cases hs : p.state <;> simp_all
    split
    · next hle => exact .inr (.inl ⟨hidle, hle, rfl⟩)
    · next hlt => exact .inr (.inr ⟨hidle, by omega, rfl⟩)

/-- An idle publishable becomes due exactly when the time accumulated reaches the period. -/
lemma OnTime.fires_iff (h : OnTime period t) (hidle : t.pub.state = .idle) (e : ℤ) :
    (t.pub.update e).2.state = .canPublish ↔ period ≤ t.idle + e := by
  have hleft := h.left
  rcases update_cases t.pub e with ⟨hs, -⟩ | ⟨-, hle, heq⟩ | ⟨-, hlt, heq⟩
  · exact absurd hidle hs
  · rw [heq]
    exact iff_of_true rfl (by omega)
  · rw [heq]
    refine iff_of_false (fun hc => ?_) (by omega)
    cases hidle.symm.trans hc

lemma OnTime.update (h : OnTime period t) {e : ℤ} (he : 0 ≤ e) :
    OnTime period (t.step (.update e)) := by
  have hleft := h.left
  have hlower := h.lower
  have hidle := h.idle_nonneg
  have hwait := h.wait he
  rcases update_cases t.pub e with ⟨hs, heq⟩ | ⟨hs, hle, heq⟩ | ⟨hs, hlt, heq⟩
  · have hstep : t.step (.update e) = { t with sinceData := t.sinceData.map (· + e) } := by
      simp [step, turn, idleAfter, publishesData, TimerCall.elapsed, heq, hs]
    rw [hstep]
    exact hwait
  · -- the timer runs out and is full again
    have hstep : t.step (.update e) =
        { pub := { t.pub with state := .canPublish, nextPublish := t.pub.publishPeriod }
          idle := 0, sinceData := t.sinceData.map (· + e) } := by
      simp [step, turn, idleAfter, publishesData, TimerCall.elapsed, heq, hs]
    rw [hstep]
    constructor
    · exact h.period_eq
    · exact Int.le_refl 0
    · simpa using h.period_eq
    · have := h.period_eq
      show 1 ≤ t.pub.publishPeriod
      omega
    · exact fun _ => rfl
    · intro s hs'
      have := hwait.data s hs'
      exact ⟨this.1, this.1⟩
    · intro s hs' _
      obtain ⟨s', hs'', rfl⟩ := Option.map_eq_some_iff.mp hs'
      have := h.data s' hs''
      omega
  · have hstep : t.step (.update e) =
        { pub := { t.pub with nextPublish := t.pub.nextPublish - e }
          idle := t.idle + e, sinceData := t.sinceData.map (· + e) } := by
      simp [step, turn, idleAfter, publishesData, TimerCall.elapsed, heq, hs]
    rw [hstep]
    constructor
    · exact h.period_eq
    · show 0 ≤ t.idle + e
      omega
    · show t.pub.nextPublish - e = period - (t.idle + e)
      omega
    · show 1 ≤ t.pub.nextPublish - e
      omega
    · intro hc
      cases hs.symm.trans hc
    · intro s hs'
      obtain ⟨s', hs'', rfl⟩ := Option.map_eq_some_iff.mp hs'
      have := h.data s' hs''
      show 0 ≤ s' + e ∧ t.idle + e ≤ s' + e
      omega
    · intro s _ hc
      cases hs.symm.trans hc

lemma OnTime.publish (h : OnTime period t) (b : Bool) : OnTime period (t.step (.publish b)) := by
  have hstill : OnTime period { t with pub := t.pub.publish b } := by
    rcases publish_cases t.pub b with e | e <;> rw [e]
    · exact h
    · exact h.still h.period_eq rfl fun hc => by cases hc
  by_cases hd : t.pub.publishesData (.publish b) = true
  · -- a data publish finds a full timer
    have hd' := hd
    simp only [publishesData, Bool.and_eq_true] at hd'
    have hfull := h.full (canPublish_state hd'.1)
    have hnext : (t.pub.publish b).state = .publishing := by
      rw [publish_of_canPublish hd'.1]
      rfl
    simp only [step, turn, idleAfter, hd, if_true]
    refine ⟨hstill.period_eq, hstill.idle_nonneg, hstill.left, hstill.lower, hstill.full, ?_, ?_⟩
    · rintro s ⟨⟩
      exact ⟨Int.le_refl 0, Int.le_of_eq hfull⟩
    · intro s _ hc
      cases hnext.symm.trans hc
  · simpa [step, turn, idleAfter, hd, TimerCall.elapsed] using hstill

lemma OnTime.addToPayload (h : OnTime period t) (b : Bool) (now : ℕ) :
    OnTime period (t.step (.addToPayload b now)) := by
  have hperiod := h.period_eq
  have hleft := h.left
  have hlower := h.lower
  have hidle := h.idle_nonneg
  simp only [step, turn, idleAfter, publishesData, TimerCall.elapsed, map_add_zero,
    Bool.false_eq_true, if_false]
  refine ⟨hperiod, Int.le_refl 0, ?_, ?_, fun _ => rfl, fun s hs => ?_, h.due⟩
  · show t.pub.publishPeriod = period - 0
    omega
  · show 1 ≤ t.pub.publishPeriod
    omega
  · exact ⟨(h.data s hs).1, (h.data s hs).1⟩

/-- Every call keeps the timer right. -/
lemma OnTime.step (h : OnTime period t) {a : TimerCall} (ha : a.InRange) :
    OnTime period (t.step a) := by
  cases a with
  | setValue i value now =>
    simpa [Timed.step, turn, idleAfter, publishesData, TimerCall.elapsed] using
      h.still (q := t.pub.setValue i value now) h.period_eq rfl id
  | setProperty i path value =>
    simpa [Timed.step, turn, idleAfter, publishesData, TimerCall.elapsed] using
      h.still (q := t.pub.setProperty i path value) h.period_eq rfl id
  | update e => exact h.update ha.1
  | publish b => exact h.publish b
  | published =>
    simpa [Timed.step, turn, idleAfter, publishesData, TimerCall.elapsed] using
      h.still (q := t.pub.published) h.period_eq rfl fun hc => by cases hc
  | addToPayload b now => exact h.addToPayload b now

lemma OnTime.run (h : OnTime period t) {calls : List TimerCall}
    (hr : ∀ a ∈ calls, a.InRange) : OnTime period (run Timed.step t calls) := by
  induction calls generalizing t with
  | nil => exact h
  | cons a calls ih =>
    rw [List.forall_mem_cons] at hr
    exact ih (h.step hr.1) hr.2

/-- A publishable as its constructor leaves it. -/
def start (name : Str) (period : ℤ) (metrics : List Metric) : Timed where
  pub := { name, publishPeriod := period, nextPublish := period, metrics }

lemma start_onTime (name : Str) {period : ℤ} (hp : 1 ≤ period) (metrics : List Metric) :
    OnTime period (start name period metrics) where
  period_eq := rfl
  idle_nonneg := Int.le_refl 0
  left := (Int.sub_zero period).symm
  lower := hp
  full hc := by cases hc
  data s hs := by cases hs
  due s hs := by cases hs

/-- Only an `update` makes an idle publishable due. -/
lemma OnTime.due_iff (h : OnTime period t) (hidle : t.pub.state = .idle) (a : TimerCall) :
    (t.pub.turn a).state = .canPublish ↔ ∃ e, a = .update e ∧ period ≤ t.idle + e := by
  cases a with
  | update e => simpa [turn] using h.fires_iff hidle e
  | publish b =>
    rcases publish_cases t.pub b with e | e <;> simp [turn, e, hidle]
  | setValue | setProperty | published | addToPayload =>
    simp [turn, Publishable.setValue, Publishable.setProperty, Publishable.published,
      Publishable.addToPayload, hidle]

lemma OnTime.update_range (h : OnTime period t) {e : ℤ} (he : 0 ≤ e) :
    1 ≤ (t.pub.update e).1 ∧ (t.pub.update e).1 ≤ period := by
  have hperiod := h.period_eq
  have hleft := h.left
  have hidle := h.idle_nonneg
  have hlower := h.lower
  rcases update_cases t.pub e with ⟨-, heq⟩ | ⟨-, hle, heq⟩ | ⟨-, hlt, heq⟩
  · rw [heq]
    omega
  · rw [heq]
    omega
  · rw [heq]
    dsimp only
    omega

/-- The time that passes in a list of calls. -/
def elapsed (calls : List TimerCall) : ℤ := calls.foldr (fun a s => a.elapsed + s) 0

/-- With a data publish on record, the time recorded since is at most what passes. -/
lemma run_sinceData {calls : List TimerCall} (hr : ∀ a ∈ calls, a.InRange) {s : ℤ}
    (hs : t.sinceData = some s) (h0 : 0 ≤ s) :
    ∃ s', (Machine.run step t calls).sinceData = some s' ∧ s' ≤ s + elapsed calls := by
  induction calls generalizing t s with
  | nil => exact ⟨s, hs, by simp [elapsed]⟩
  | cons a calls ih =>
    rw [List.forall_mem_cons] at hr
    have ha : 0 ≤ a.elapsed := by
      cases a with
      | update e => exact hr.1.1
      | _ => exact Int.le_refl 0
    have helapsed : elapsed (a :: calls) = a.elapsed + elapsed calls := rfl
    by_cases hd : t.pub.publishesData a = true
    · obtain ⟨s', hs', hle⟩ := ih hr.2 (t := t.step a) (s := 0) (by simp [step, hd]) (Int.le_refl 0)
      exact ⟨s', hs', by omega⟩
    · obtain ⟨s', hs', hle⟩ := ih hr.2 (t := t.step a) (s := s + a.elapsed)
        (by simp [step, hd, hs]) (by omega)
      exact ⟨s', hs', by omega⟩

lemma run_pub (t : Timed) (calls : List TimerCall) :
    (Machine.run step t calls).pub = Machine.run turn t.pub calls := by
  induction calls generalizing t with
  | nil => rfl
  | cons a calls ih => exact ih (t.step a)

/-- The timer of a publishable works: its value is in range and no `int32_t` overflows, every
`update` returns a time in range, and an idle publishable becomes due exactly by the update
at which the time accumulated while idle reaches the period. -/
structure Works (period : ℤ) (t : Timed) : Prop where
  range : 1 ≤ t.pub.nextPublish ∧ t.pub.nextPublish ≤ period
  noOverflow : ∀ e, 0 ≤ e → e ≤ int32Max →
    -int32Max - 1 ≤ t.pub.nextPublish - e ∧ t.pub.nextPublish - e ≤ int32Max
  returned : ∀ e, 0 ≤ e → e ≤ int32Max → 1 ≤ (t.pub.update e).1 ∧ (t.pub.update e).1 ≤ period
  due : t.pub.state = .idle → ∀ a : TimerCall,
    (t.pub.turn a).state = .canPublish ↔ ∃ e, a = .update e ∧ period ≤ t.idle + e

lemma OnTime.works (h : OnTime period t) (hp : period ≤ int32Max) : Works period t where
  range := by
    have := h.left
    have := h.idle_nonneg
    exact ⟨h.lower, by omega⟩
  noOverflow e h0 he := by
    have := h.left
    have := h.idle_nonneg
    have := h.lower
    omega
  returned e h0 _ := h.update_range h0
  due hidle a := h.due_iff hidle a

/-- **The timer works and limits the rate of data publishes.** -/
theorem works_and_apart (name : Str) {period : ℤ} (hp : 0 < period) (hmax : period ≤ int32Max)
    (metrics : List Metric) (calls : List TimerCall) (hr : ∀ a ∈ calls, a.InRange) :
    Works period (Machine.run step (start name period metrics) calls) ∧
      ∀ pre mid post, calls = pre ++ .publish false :: mid ++ .publish false :: post →
        (Machine.run turn (start name period metrics).pub pre).canPublish = true →
        (Machine.run turn (start name period metrics).pub
          (pre ++ .publish false :: mid)).canPublish = true →
        period ≤ elapsed mid := by
  have h0 := start_onTime name (show 1 ≤ period by omega) metrics
  refine ⟨(h0.run hr).works hmax, ?_⟩
  rintro pre mid post rfl hpre hmid
  have hrpre : ∀ a ∈ pre, a.InRange := fun a ha => hr a (by simp [ha])
  have hrmid : ∀ a ∈ mid, a.InRange := fun a ha => hr a (by simp [ha])
  have hrboth : ∀ a ∈ pre ++ TimerCall.publish false :: mid, a.InRange :=
    fun a ha => hr a (List.mem_append_left _ ha)
  have h2 := h0.run hrboth
  -- the first data publish starts the count, the second finds a timer that has run out
  obtain ⟨s, hs, hle⟩ := run_sinceData
    (t := (Machine.run step (start name period metrics) pre).step (.publish false)) hrmid (s := 0)
    (by simp [step, publishesData, run_pub, hpre]) (Int.le_refl 0)
  rw [← Machine.run_cons, ← Machine.run_append] at hs
  have hdue := h2.due s hs (canPublish_state (by rwa [run_pub]))
  omega

/-- Data is published when the timer has run out, delivered, and published once more after
ten and twenty units of time. -/
def twice : List TimerCall :=
  [.update 30, .setValue 0 [1] 0, .publish false, .addToPayload false 0, .published, .update 10,
    .setValue 0 [2] 0, .update 20, .publish false]

theorem twice_works : Works 30 (Machine.run step
    (start [] 30 [{ name := ['m'], dataType := 3, data := [0] }]) twice) ∧
    30 ≤ elapsed [.addToPayload false 0, .published, .update 10, .setValue 0 [2] 0, .update 20] := by
  have h := works_and_apart [] (show (0 : ℤ) < 30 by decide) (by decide)
    [{ name := ['m'], dataType := 3, data := [0] }] twice
    (by simp [twice, TimerCall.InRange, int32Max])
  exact ⟨h.1, h.2 [.update 30, .setValue 0 [1] 0] _ [] rfl (by decide) (by decide)⟩

end Timed

namespace Node

open Publishable

/-- A call as the publishable gets it from a node; a publish comes with its test. -/
def timerCall : PublishableCall → TimerCall
  | .setValue i value now => .setValue i value now
  | .setProperty i path value => .setProperty i path value
  | .update elapsed => .update elapsed
  | .publishing => .publish true
  | .published => .published
  | .addToPayload isBirth now => .addToPayload isBirth now

lemma turn_timerCall (p : Publishable) (a : PublishableCall) :
    p.turn (timerCall a) = p.step a := by
  cases a with
  | publishing => exact publish_birth p
  | _ => rfl

lemma foldl_turns (p : Publishable) (as : List PublishableCall) :
    run turn p (as.map timerCall) = run Publishable.step p as := by
  induction as generalizing p with
  | nil => rfl
  | cons a as ih => rw [List.map_cons, run_cons, run_cons, turn_timerCall, ih]

lemma payloadCalls_turns (time : ℕ) (p : PubId) (l : List Effect) :
    ∀ a ∈ (payloadCalls time p l).map timerCall, ∃ b, a = .addToPayload b time := by
  intro a ha
  obtain ⟨c, hc, rfl⟩ := List.mem_map.mp ha
  obtain ⟨e, -, he⟩ := List.mem_filterMap.mp hc
  cases e <;> simp at he
  exact ⟨_, by rw [← he.2]; rfl⟩

/-- To the publishable, a publish of the node is a publish with its test, followed by the
payloads built at once. -/
theorem publish_turn (n : Node) (p : PubId) (b : Bool) :
    ∃ as, (∀ a ∈ as, ∃ b', a = .addToPayload b' n.time) ∧
      ((n.publish p b).pub p).cur = run turn ((n.pub p).cur.publish b) as := by
  by_cases hdue : b = true ∨ (n.pub p).cur.canPublish = true
  · have hpublish : (n.pub p).cur.publish b = ((n.callPub p .publishing).pub p).cur := by
      rw [callPub_pub, if_pos rfl]
      rcases hdue with rfl | hc
      · exact publish_birth _
      · exact publish_of_canPublish hc b
    rcases publish_cases n p b with ⟨-, rfl, hc⟩ | ⟨e, -⟩ | ⟨i, -, e⟩
    · simp [hc] at hdue
    · rw [e, hpublish]
      exact ⟨[], by simp, rfl⟩
    · have htime : (n.prepared p b).time = n.time := by cases p <;> cases b <;> rfl
      refine ⟨_, htime ▸ payloadCalls_turns (n.prepared p b).time p
        ((n.prepared p b).clientEffects i (.request (n.requestFor p b))), ?_⟩
      rw [e, requested, callClient_pub, prepared_pub, foldl_act_cur, hpublish, foldl_turns, htime]
  · have hpublish : (n.pub p).cur.publish b = (n.pub p).cur := by
      unfold Publishable.publish
      rw [if_pos (by simpa [and_comm] using hdue)]
    rw [publish_of_not_due hdue, hpublish]
    exact ⟨[], by simp, rfl⟩

/-- A node does to a publishable only what the timer is proved for. -/
theorem pub_turns (n : Node) (calls : List NodeCall) (p : PubId) :
    ∃ as, ((run step n calls).pub p).cur = run turn (n.pub p).cur as := by
  obtain ⟨as, has⟩ := pub_extends n calls p
  exact ⟨as.map timerCall, by rw [has, foldl_turns]⟩

end Node

end Sparkplug
