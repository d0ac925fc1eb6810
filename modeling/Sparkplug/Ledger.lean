import Sparkplug.ClientSteps

/-!
The books of a client: every request passed to `request()` is in the queue or has been
reported, once and in order.
-/

namespace Sparkplug

open Machine Client

/-- The event an effect raises at the handler. -/
def Effect.raised : Effect → Option ClientEvent
  | .onEvent e => some e
  | .delivered r => some (.delivered r.publisher)
  | .undelivered r => some (.undelivered r.publisher)
  | _ => none

/-- A report: the request and whether it was delivered. -/
abbrev Report := PublishRequest × Bool

def Effect.report : Effect → Option Report
  | .delivered r => some (r, true)
  | .undelivered r => some (r, false)
  | _ => none

/-- The request a call passes to the client. -/
def ClientCall.passed : ClientCall → Option PublishRequest
  | .request r => some r
  | _ => none

/-- The event that carries a report. -/
def Report.event (p : Report) : ClientEvent :=
  if p.2 then .delivered p.1.publisher else .undelivered p.1.publisher

/-- The events that carry a report. -/
def ClientEvent.isReport : ClientEvent → Bool
  | .delivered _ | .undelivered _ => true
  | _ => false

namespace Ledger

abbrev Key := ℕ × PubId × Bool

def reports (l : List Effect) : List Report := l.filterMap Effect.report
def reported (l : List Effect) : List Key := (reports l).map (·.1.key)
def keys (q : List PublishRequest) : List Key := q.map PublishRequest.key

/-- The events that carry reports, among all the events raised. -/
def announced (l : List Effect) : List ClientEvent :=
  (l.filterMap Effect.raised).filter ClientEvent.isReport

@[simp] lemma reports_append (k l : List Effect) :
    reports (k ++ l) = reports k ++ reports l := List.filterMap_append ..

@[simp] lemma reported_append (k l : List Effect) :
    reported (k ++ l) = reported k ++ reported l := by
  simp [reported]

@[simp] lemma announced_append (k l : List Effect) :
    announced (k ++ l) = announced k ++ announced l := by
  simp [announced]

@[simp] lemma keys_append (p q : List PublishRequest) : keys (p ++ q) = keys p ++ keys q :=
  List.map_append ..

/-! ### One small step -/

/-- From `c` to `d` the log has grown; what was queued has been reported or is queued, in
order, and every report has raised its event. -/
def Conserves (c d : Client) : Prop :=
  ∃ l, d.log = c.log ++ l ∧ keys c.publishQueue = reported l ++ keys d.publishQueue ∧
    announced l = (reports l).map Report.event

lemma Conserves.refl (c : Client) : Conserves c c := ⟨[], by simp, rfl, rfl⟩

lemma Conserves.trans {b c d : Client} (h : Conserves b c) (k : Conserves c d) :
    Conserves b d := by
  obtain ⟨l, hl, h, ha⟩ := h
  obtain ⟨m, hm, k, hb⟩ := k
  refine ⟨l ++ m, by rw [hm, hl, List.append_assoc], ?_, by simp [ha, hb]⟩
  rw [h, k, reported_append, List.append_assoc]

/-- A step that leaves the keys of the queue alone, logs no report and raises no event of
one. -/
lemma Conserves.of_quiet {c d : Client} (l : List Effect) (hl : d.log = c.log ++ l)
    (hq : keys d.publishQueue = keys c.publishQueue) (hrep : reports l = [])
    (hann : announced l = []) : Conserves c d :=
  ⟨l, hl, by rw [reported, hrep, hq, List.map_nil, List.nil_append], by rw [hann, hrep]; rfl⟩

lemma keys_modifyHead (q : List PublishRequest) (f : PublishRequest → PublishRequest)
    (hf : ∀ r, (f r).key = r.key) : keys (q.modifyHead f) = keys q := by
  cases q with
  | nil => rfl
  | cons r q => simp [keys, hf]

/-- What a change of the front request leaves alone: every request comes from one before. -/
lemma modifyHead_from {R : PublishRequest → PublishRequest → Prop} (hrefl : ∀ r, R r r)
    {f : PublishRequest → PublishRequest} (hf : ∀ r, R (f r) r) (q : List PublishRequest) :
    ∀ r ∈ q.modifyHead f, ∃ r' ∈ q, R r r' := by
  cases q with
  | nil => simp
  | cons x q =>
    intro r hr
    rcases List.mem_cons.mp hr with rfl | hr
    · exact ⟨x, List.mem_cons_self, hf x⟩
    · exact ⟨r, List.mem_cons_of_mem _ hr, hrefl r⟩

lemma conserves_resolveFront {c : Client} {r : PublishRequest} {rest : List PublishRequest}
    (hq : c.publishQueue = r :: rest) {e : Effect} (he : e = .delivered r ∨ e = .undelivered r) :
    Conserves c (c.resolveFront e) := by
  have hk : keys c.publishQueue = r.key :: keys rest := by rw [hq]; rfl
  have hd : (c.resolveFront e).publishQueue = rest := by simp [resolveFront, hq]
  refine ⟨[e], rfl, ?_, ?_⟩
  · rw [hk, hd]
    rcases he with rfl | rfl <;> rfl
  · rcases he with rfl | rfl <;> rfl

lemma publishStep_conserves {A : Scope} {c d : Client} (h : PublishStep A c d) : Conserves c d := by
  cases h with
  | asked q => exact .of_quiet [] (by simp) (by simp) rfl rfl
  | access id => exact .of_quiet [.access id] rfl rfl rfl rfl
  | skipped r hs => exact .of_quiet [.skipped r] rfl rfl rfl rfl
  | idle hs => exact .of_quiet [] (by simp) (by simp) rfl rfl
  | @tried r _ o f _ hq hs hg hf =>
    have hkey : ∀ q, (f q).key = q.key := fun q => by cases hf <;> rfl
    exact .of_quiet (attemptLog c r o) rfl (keys_modifyHead _ f hkey) rfl rfl
  | giveUp hq => exact conserves_resolveFront hq (.inr rfl)
  | retry => exact .of_quiet [] (by simp [modifyFront]) (keys_modifyHead _ _ fun _ => rfl) rfl rfl

lemma clientStep_conserves {A : Scope} {c d : Client} (h : ClientStep A c d) : Conserves c d := by
  cases h with
  | publish h => exact publishStep_conserves h
  | deliver _ hq => exact conserves_resolveFront hq (.inl rfl)
  | @event e h =>
    have hann : announced [.onEvent e] = [] := by cases e <;> first | rfl | exact h.elim
    exact .of_quiet [.onEvent e] rfl rfl rfl hann
  | emptyFront => exact .of_quiet [.emptyFront] rfl rfl rfl rfl
  | commandsResult b => exact .of_quiet [.subscribed b] rfl rfl rfl rfl
  | setState s => exact .of_quiet [] (by simp) (by simp) rfl rfl
  | resign => exact .of_quiet [] (by simp [setPrimary]) rfl rfl rfl
  | surroundings l up commands inflight => exact .of_quiet [] (by simp) rfl rfl rfl
  | settings topics configured bdSeq token => exact .of_quiet [] (by simp) rfl rfl rfl

/-- **The law of the books**, for every operation of every client. -/
theorem step_conserves (c : Client) (a : ClientCall) : Conserves (c.taken a) (c.step a) :=
  (step_steps c a).rel Conserves.refl Conserves.trans clientStep_conserves

/-- The log only grows. -/
lemma Steps.log {A : Scope} {c d : Client} (h : Steps A c d) : c.log <+: d.log := by
  obtain ⟨l, hl, -⟩ := h.rel Conserves.refl Conserves.trans clientStep_conserves
  exact ⟨l, hl.symm⟩

/-! ### What one operation has done -/

/-- What was logged between `c` and `d`. -/
def effects (c d : Client) : List Effect := d.log.drop c.log.length

lemma effects_eq {c d : Client} {l : List Effect} (h : d.log = c.log ++ l) : effects c d = l := by
  rw [effects, h, List.drop_left]

/-- Without deliveries. -/
def quiet : Scope := { deliveries := false }

/-- From `c` to `d` nothing was reported as delivered. -/
def Undelivers (c d : Client) : Prop :=
  ∃ l, d.log = c.log ++ l ∧ ∀ p ∈ reports l, p.2 = false

lemma Undelivers.refl (c : Client) : Undelivers c c := ⟨[], by simp, by simp [reports]⟩

lemma Undelivers.trans {b c d : Client} (h : Undelivers b c) (k : Undelivers c d) :
    Undelivers b d := by
  obtain ⟨l, hl, h⟩ := h
  obtain ⟨m, hm, k⟩ := k
  refine ⟨l ++ m, by rw [hm, hl, List.append_assoc], fun p hp => ?_⟩
  rw [reports_append, List.mem_append] at hp
  exact hp.elim (h p) (k p)

lemma publishStep_undelivers {A : Scope} {c d : Client} (h : PublishStep A c d) :
    Undelivers c d := by
  cases h with
  | asked q => exact ⟨[], by simp, by simp [reports]⟩
  | access id => exact ⟨[.access id], rfl, by simp [reports, Effect.report]⟩
  | skipped r hs => exact ⟨[.skipped r], rfl, by simp [reports, Effect.report]⟩
  | idle hs => exact ⟨[], by simp, by simp [reports]⟩
  | tried => exact ⟨attemptLog .., rfl, by simp [reports, attemptLog, Effect.report]⟩
  | giveUp hq => exact ⟨[.undelivered _], rfl, by simp [reports, Effect.report]⟩
  | retry => exact ⟨[], by simp [modifyFront], by simp [reports]⟩

lemma clientStep_undelivers {c d : Client} (h : ClientStep quiet c d) : Undelivers c d := by
  cases h with
  | publish h => exact publishStep_undelivers h
  | deliver hA => cases hA
  | event => exact ⟨[.onEvent _], rfl, by simp [reports, Effect.report]⟩
  | emptyFront => exact ⟨[.emptyFront], rfl, by simp [reports, Effect.report]⟩
  | commandsResult accepted =>
    exact ⟨[.subscribed accepted], rfl, by simp [reports, Effect.report]⟩
  | setState s => exact ⟨[], by simp, by simp [reports]⟩
  | resign => exact ⟨[], by simp [setPrimary], by simp [reports]⟩
  | surroundings l up commands inflight => exact ⟨[], by simp, by simp [reports]⟩
  | settings topics configured bdSeq token => exact ⟨[], by simp, by simp [reports]⟩

lemma steps_undelivers {c d : Client} (h : Steps quiet c d) : Undelivers c d :=
  h.rel Undelivers.refl Undelivers.trans clientStep_undelivers

/-- Synchronizing delivers the front request at most. -/
lemma sync_reports (c : Client) : ∃ l, c.sync.log = c.log ++ l ∧
    ∀ p ∈ reports l, p.2 = true → c.publishQueue.head? = some p.1 := by
  rcases sync_split c with h | ⟨r, rest, d, hq, hd, h1, h2⟩
  · obtain ⟨l, hl, hr⟩ := steps_undelivers h
    exact ⟨l, hl, fun p hp ht => absurd (hr p hp) (by simp [ht])⟩
  · obtain ⟨k, hk, hrk⟩ := steps_undelivers h1
    obtain ⟨m, hm, hrm⟩ := steps_undelivers h2
    refine ⟨k ++ .delivered r :: m, by simp [hm, resolveFront, emit, hk], ?_⟩
    intro p hp ht
    have hcons : reports (.delivered r :: m) = (r, true) :: reports m := rfl
    rw [reports_append, hcons, List.mem_append, List.mem_cons] at hp
    rcases hp with hp | rfl | hp
    · exact absurd (hrk p hp) (by simp [ht])
    · simp [hq]
    · exact absurd (hrm p hp) (by simp [ht])

/-! ### A whole run -/

/-- What was passed to the client is what was reported and then what is queued, and the
events raised for requests are the reports. -/
structure Balanced (passed : List PublishRequest) (c : Client) : Prop where
  resolved : keys passed = reported c.log ++ keys c.publishQueue
  told : announced c.log = (reports c.log).map Report.event

lemma Balanced.taken {passed : List PublishRequest} {c : Client} (h : Balanced passed c)
    (a : ClientCall) : Balanced (passed ++ a.passed.toList) (c.taken a) := by
  obtain ⟨hr, ht⟩ := h
  cases a <;> constructor <;> simp [ClientCall.passed, Client.taken, enqueue, setPrimary, hr, ht]

lemma Balanced.conserves {passed : List PublishRequest} {c d : Client} (h : Balanced passed c)
    (k : Conserves c d) : Balanced passed d := by
  obtain ⟨l, hl, k, ha⟩ := k
  refine ⟨?_, ?_⟩
  · rw [h.resolved, hl, k, reported_append, List.append_assoc]
  · rw [hl, announced_append, reports_append, List.map_append, h.told, ha]

lemma run_balanced {passed : List PublishRequest} {c : Client} (h : Balanced passed c)
    (as : List ClientCall) :
    Balanced (passed ++ as.filterMap ClientCall.passed) (run step c as) := by
  induction as generalizing passed c with
  | nil => simpa using h
  | cons a as ih =>
    have hlist : passed ++ (a :: as).filterMap ClientCall.passed =
        (passed ++ a.passed.toList) ++ as.filterMap ClientCall.passed := by
      rw [List.filterMap_cons]
      cases a.passed <;> simp
    rw [hlist]
    exact ih ((h.taken a).conserves (step_conserves c a))

/-- **Every request is resolved once and in order.** Whatever is done to a client, the
requests passed to it are the requests it has reported followed by its queue, and the
reports are the events it has raised for them. -/
theorem resolved_in_order (kind : ClientKind) (calls : List ClientCall) :
    keys (calls.filterMap ClientCall.passed) =
        reported (run step { kind } calls).log ++ keys (run step { kind } calls).publishQueue ∧
      announced (run step { kind } calls).log =
        (reports (run step { kind } calls).log).map Report.event := by
  have h0 : Balanced [] { kind } := ⟨rfl, rfl⟩
  have h := run_balanced h0 calls
  exact ⟨h.resolved, h.told⟩

end Ledger

end Sparkplug
