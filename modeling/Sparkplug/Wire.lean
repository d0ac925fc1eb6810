import Sparkplug.NodeClients
import Sparkplug.Sequence

/-!
What a client sends, and when.

Only the oldest request without a report is ever sent, so the messages of a client leave in
the order of its requests, and those for one request leave one after the other. An
asynchronous client waits for the library before it sends again: it has one message out at
most, and sends it at most once more than its retries.
-/

namespace Sparkplug

open Machine Client Ledger Sequence

namespace Wire

/-! ### The oldest request first -/

/-- Every message is for the request that comes next after those reported. -/
def OldestFirst (ks : List Key) (l : List Effect) : Prop :=
  ∀ k a m, l = k ++ .attempt a :: m → ks[(reports k).length]? = some a.request.key

/-- Reading a log with the requests that are left: each message is for the first of them, and
each report takes it away. -/
def Serves : List Key → List Effect → Prop
  | _, [] => True
  | ks, e :: l => (∀ a ∈ e.payload, ks.head? = some a.request.key) ∧
      Serves (ks.drop (reports [e]).length) l

lemma serves_append {ks : List Key} {l m : List Effect} :
    Serves ks (l ++ m) ↔ Serves ks l ∧ Serves (ks.drop (reports l).length) m := by
  induction l generalizing ks with
  | nil => simp [Serves, reports]
  | cons e l ih =>
    have hlength : (reports (e :: l)).length = (reports [e]).length + (reports l).length := by
      rw [← List.singleton_append, reports_append, List.length_append]
    rw [List.cons_append, Serves, Serves, ih, and_assoc, hlength, List.drop_drop]

/-- More requests do not matter. -/
lemma Serves.mono {ks ks' : List Key} (hks : ks <+: ks') {l : List Effect} (h : Serves ks l) :
    Serves ks' l := by
  induction l generalizing ks ks' with
  | nil => trivial
  | cons e l ih =>
    refine ⟨fun a ha => ?_, ih (hks.drop _) h.2⟩
    obtain ⟨more, rfl⟩ := hks
    rw [List.head?_append, h.1 a ha]
    rfl

lemma Serves.oldestFirst {ks : List Key} {l : List Effect} (h : Serves ks l) :
    OldestFirst ks l := by
  rintro k a m rfl
  have hfirst := (serves_append.mp h).2.1 a rfl
  rwa [List.head?_drop] at hfirst

/-- A stretch without messages. -/
lemma serves_of_quiet {ks : List Key} {l : List Effect} (h : attempts l = []) : Serves ks l := by
  induction l generalizing ks with
  | nil => trivial
  | cons e l ih =>
    obtain ⟨he, hl⟩ : e.payload = none ∧ attempts l = [] := by
      cases hp : e.payload <;> simp_all [attempts]
    exact ⟨by simp [he], ih hl⟩

/-- From `c` to `d` the queue is served from its front. -/
def Serving (c d : Client) : Prop :=
  ∃ l, d.log = c.log ++ l ∧ keys c.publishQueue = reported l ++ keys d.publishQueue ∧
    Serves (keys c.publishQueue) l

lemma Serving.refl (c : Client) : Serving c c := ⟨[], by simp, rfl, trivial⟩

lemma drop_reported (l : List Effect) (ks : List Key) :
    (reported l ++ ks).drop (reports l).length = ks := by
  have hlength : (reported l).length = (reports l).length := List.length_map _
  rw [← hlength, List.drop_left]

lemma Serving.trans {b c d : Client} (h : Serving b c) (k : Serving c d) : Serving b d := by
  obtain ⟨l, hl, hq, hs⟩ := h
  obtain ⟨m, hm, hq', hs'⟩ := k
  refine ⟨l ++ m, by rw [hm, hl, List.append_assoc], ?_, serves_append.mpr ⟨hs, ?_⟩⟩
  · rw [hq, hq', reported_append, List.append_assoc]
  · rw [hq, drop_reported]
    exact hs'

/-- A step that sends nothing. -/
lemma Serving.of_conserves {c d : Client} (h : Conserves c d)
    (hatt : ∀ l, d.log = c.log ++ l → attempts l = []) : Serving c d := by
  obtain ⟨l, hl, hq, -⟩ := h
  exact ⟨l, hl, hq, serves_of_quiet (hatt l hl)⟩

lemma tried_serving {c : Client} {r : PublishRequest} {rest : List PublishRequest} {o : Outcome}
    {f : PublishRequest → PublishRequest} {lib : Answers} (hq : c.publishQueue = r :: rest)
    (hf : FrontUpdate o f) : Serving c (c.tried r o f lib) := by
  have hkey : ∀ q, (f q).key = q.key := fun q => by cases hf <;> rfl
  refine ⟨attemptLog c r o, rfl, (keys_modifyHead _ f hkey).symm, ?_⟩
  rw [hq]
  refine ⟨nofun, nofun, ?_, trivial⟩
  rintro a ⟨⟩
  rfl

lemma clientStep_serving {A : Scope} {c d : Client} (h : ClientStep A c d) : Serving c d := by
  have hquiet : ∀ m, d.log = c.log ++ m → attempts m = [] → Serving c d := by
    intro m hm hatt
    refine .of_conserves (clientStep_conserves h) fun l hl => ?_
    rwa [List.append_cancel_left (hl.symm.trans hm)]
  cases h with
  | publish h =>
    cases h with
    | asked q => exact hquiet [] (by simp) rfl
    | access id => exact hquiet [.access id] rfl rfl
    | skipped r hs => exact hquiet [.skipped r] rfl rfl
    | idle hs => exact hquiet [] (by simp) rfl
    | tried hq hs hg hf => exact tried_serving hq hf
    | giveUp hq => exact hquiet [.undelivered _] rfl rfl
    | retry => exact hquiet [] (by simp [modifyFront]) rfl
  | deliver _ hq => exact hquiet [.delivered _] rfl rfl
  | event => exact hquiet [.onEvent _] rfl rfl
  | emptyFront => exact hquiet [.emptyFront] rfl rfl
  | commandsResult b => exact hquiet [.subscribed b] rfl rfl
  | setState s => exact hquiet [] (by simp) rfl
  | resign => exact hquiet [] (by simp [setPrimary]) rfl
  | surroundings l up commands inflight => exact hquiet [] (by simp) rfl
  | settings topics configured bdSeq token => exact hquiet [] (by simp) rfl

lemma step_serving (c : Client) (a : ClientCall) : Serving (c.taken a) (c.step a) :=
  (step_steps c a).rel Serving.refl Serving.trans clientStep_serving

/-- The log of a client against the requests passed to it. -/
structure InTurn (passed : List PublishRequest) (c : Client) : Prop where
  resolved : keys passed = reported c.log ++ keys c.publishQueue
  serves : Serves (keys passed) c.log

lemma InTurn.step {passed : List PublishRequest} {c : Client} (h : InTurn passed c)
    (a : ClientCall) : InTurn (passed ++ a.passed.toList) (c.step a) := by
  have htaken : keys (passed ++ a.passed.toList) =
      reported c.log ++ keys (c.taken a).publishQueue := by
    cases a <;> simp [ClientCall.passed, Client.taken, enqueue, setPrimary, h.resolved]
  obtain ⟨l, hl, hq, hs⟩ := step_serving c a
  rw [taken_log] at hl
  refine ⟨?_, ?_⟩
  · rw [htaken, hl, hq, reported_append, List.append_assoc]
  · rw [hl, serves_append]
    refine ⟨h.serves.mono ?_, ?_⟩
    · rw [keys_append]
      exact List.prefix_append _ _
    · rw [htaken, drop_reported]
      exact hs

lemma run_inTurn {passed : List PublishRequest} {c : Client} (h : InTurn passed c)
    (as : List ClientCall) :
    InTurn (passed ++ as.filterMap ClientCall.passed) (run Client.step c as) := by
  induction as generalizing passed c with
  | nil => simpa using h
  | cons a as ih =>
    have hlist : passed ++ (a :: as).filterMap ClientCall.passed =
        (passed ++ a.passed.toList) ++ as.filterMap ClientCall.passed := by
      rw [List.filterMap_cons]
      cases a.passed <;> simp
    rw [hlist]
    exact ih (h.step a)

/-! ### How often, and how many at once -/

/-- The number of messages since the last report, counted on by one effect. -/
def tick (k : ℕ) (e : Effect) : ℕ :=
  if e.report.isSome then 0 else if e.payload.isSome then k + 1 else k

def sinceReport (l : List Effect) : ℕ := l.foldl tick 0

@[simp] lemma sinceReport_append (l m : List Effect) :
    sinceReport (l ++ m) = m.foldl tick (sinceReport l) := List.foldl_append ..

lemma foldl_tick_le (m : List Effect) (k : ℕ) : m.foldl tick k ≤ k + (attempts m).length := by
  induction m generalizing k with
  | nil => exact Nat.le_refl _
  | cons e m ih =>
    have hcons : (attempts (e :: m)).length = (attempts [e]).length + (attempts m).length := by
      rw [← List.singleton_append, attempts_append, List.length_append]
    have htick : tick k e ≤ k + (attempts [e]).length := by
      unfold tick
      cases e <;> simp [Effect.report, Effect.payload, attempts]
    have := ih (tick k e)
    rw [List.foldl_cons]
    omega

/-- Without a report the messages add up. -/
lemma foldl_tick_of_noReport {m : List Effect} (h : reports m = []) (k : ℕ) :
    m.foldl tick k = k + (attempts m).length := by
  induction m generalizing k with
  | nil => rfl
  | cons e m ih =>
    obtain ⟨he, hm⟩ : e.report = none ∧ reports m = [] := by
      cases hr : e.report <;> simp_all [reports]
    rw [List.foldl_cons, ih hm, tick, he]
    cases hp : e.payload with
    | none => simp [attempts, hp]
    | some a =>
      have hlength : (attempts (e :: m)).length = (attempts m).length + 1 := by
        simp [attempts, hp]
      rw [hlength]
      simp only [Option.isSome_none, Option.isSome_some, Bool.false_eq_true, if_true, if_false]
      omega

/-- There are never more than `b` messages without a report. -/
def Within (b : ℕ) (l : List Effect) : Prop := ∀ k, k <+: l → sinceReport k ≤ b

lemma Within.append {b : ℕ} {l m : List Effect} (h : Within b l)
    (hm : sinceReport l + (attempts m).length ≤ b) : Within b (l ++ m) := by
  intro k hk
  rcases List.prefix_or_prefix_of_prefix hk (List.prefix_append l m) with hkl | ⟨k, rfl⟩
  · exact h k hkl
  · rw [List.prefix_append_right_inj] at hk
    rw [sinceReport_append]
    have hle := foldl_tick_le k (sinceReport l)
    have hlength : (attempts k).length ≤ (attempts m).length :=
      (hk.filterMap Effect.payload).length_le
    omega

lemma Within.stretch {b : ℕ} {k l m : List Effect} (h : Within b (k ++ l ++ m))
    (hl : reports l = []) : (attempts l).length ≤ b := by
  have hprefix := h (k ++ l) (List.prefix_append _ _)
  rw [sinceReport_append, foldl_tick_of_noReport hl] at hprefix
  omega

/-- What one request can cost: an attempt and its retries. -/
def maxSends : ℕ := publishRetries + 1

/-- The messages without a report are for the front request, which has been sent once more
than it was retried, and the front request is the only one the library owes an answer for. -/
structure Paced (c : Client) : Prop where
  within : Within maxSends c.log
  retries : ∀ r ∈ c.publishQueue, r.retryCount ≤ publishRetries
  fresh : c.publishQueue = [] → sinceReport c.log = 0
  sends : ∀ r ∈ c.publishQueue.head?, sinceReport c.log ≤ r.retryCount + 1
  window : c.inflight = [] ∨ ∃ r ∈ c.publishQueue.head?, r.accepted = true ∧ c.inflight = [r.token]

/-- The front request may be sent, and was sent `b` times more than it was retried. -/
structure Ready (b : ℕ) (c : Client) : Prop where
  within : Within maxSends c.log
  retries : ∀ r ∈ c.publishQueue, r.retryCount ≤ publishRetries
  fresh : c.publishQueue = [] → sinceReport c.log = 0
  sends : ∀ r ∈ c.publishQueue.head?, sinceReport c.log ≤ r.retryCount + b
  window : c.inflight = []

lemma Ready.paced {b : ℕ} (hb : b ≤ 1) {c : Client} (h : Ready b c) : Paced c where
  within := h.within
  retries := h.retries
  fresh := h.fresh
  sends r hr := (h.sends r hr).trans (Nat.add_le_add_left hb _)
  window := .inl h.window

/-- Nothing that matters has changed, but that the library may owe less. -/
structure Idles (c d : Client) : Prop where
  queue : d.publishQueue = c.publishQueue
  inflight : d.inflight = c.inflight ∨ d.inflight = []
  log : ∃ l, d.log = c.log ++ l ∧ attempts l = [] ∧ reports l = []

lemma Idles.refl (c : Client) : Idles c c := ⟨rfl, .inl rfl, [], by simp, rfl, rfl⟩

lemma Idles.trans {b c d : Client} (h : Idles b c) (k : Idles c d) : Idles b d := by
  obtain ⟨l, hl, ha, hr⟩ := h.log
  obtain ⟨m, hm, ha', hr'⟩ := k.log
  refine ⟨k.queue.trans h.queue, ?_, l ++ m, ?_, ?_, ?_⟩
  · rcases k.inflight with hk | hk
    · rw [hk]
      exact h.inflight
    · exact .inr hk
  · rw [hm, hl, List.append_assoc]
  · rw [attempts_append, ha, ha']
    rfl
  · rw [reports_append, hr, hr']
    rfl

lemma Idles.sinceReport {c d : Client} (h : Idles c d) : sinceReport d.log = sinceReport c.log := by
  obtain ⟨l, hl, ha, hr⟩ := h.log
  rw [hl, sinceReport_append, foldl_tick_of_noReport hr, ha]
  rfl

lemma Idles.within {c d : Client} (h : Idles c d) (hc : Paced c) : Within maxSends d.log := by
  obtain ⟨l, hl, ha, -⟩ := h.log
  rw [hl]
  refine hc.within.append ?_
  rw [ha]
  exact hc.within _ List.prefix_rfl

lemma Idles.paced {c d : Client} (h : Idles c d) (hc : Paced c) : Paced d := by
  refine ⟨h.within hc, ?_, ?_, ?_, ?_⟩
  · rw [h.queue]
    exact hc.retries
  · rw [h.queue, h.sinceReport]
    exact hc.fresh
  · rw [h.queue, h.sinceReport]
    exact hc.sends
  · rw [h.queue]
    rcases h.inflight with hi | hi
    · rw [hi]
      exact hc.window
    · exact .inl hi

lemma Idles.ready {b : ℕ} {c d : Client} (h : Idles c d) (hb : b ≤ 1) (hc : Ready b c) :
    Ready b d := by
  refine ⟨h.within (hc.paced hb), ?_, ?_, ?_, ?_⟩
  · rw [h.queue]
    exact hc.retries
  · rw [h.queue, h.sinceReport]
    exact hc.fresh
  · rw [h.queue, h.sinceReport]
    exact hc.sends
  · rcases h.inflight with hi | hi
    · exact hi.trans hc.window
    · exact hi

section Primitives

variable (c : Client)

lemma emit_idles {e : Effect} (hp : e.payload = none) (hr : e.report = none) :
    Idles c (c.emit e) :=
  ⟨rfl, .inl rfl, [e], rfl, by simp [attempts, hp], by simp [reports, hr]⟩

lemma access_idles (id : ℕ) : Idles c (c.emit (.access id)) := emit_idles c rfl rfl

lemma asked_idles (q : Question) : Idles c (c.asked q) :=
  ⟨by simp, .inl (by cases q <;> rfl), [], by simp, rfl, rfl⟩

lemma setState_idles (s : ClientState) : Idles c (c.setState s) := by
  refine ⟨by simp, .inl ?_, [], by simp, rfl, rfl⟩
  unfold setState
  split
  · rfl
  · cases s <;> rfl

end Primitives

/-! ### Publishing -/

/-- The front request has left with a report. -/
lemma resolveFront_ready {b : ℕ} {c : Client} (h : Ready b c) {e : Effect}
    (he : e.report.isSome = true) : Ready 0 (c.resolveFront e) := by
  have hp : e.payload = none := by cases e <;> first | rfl | cases he
  have hsince : sinceReport (c.resolveFront e).log = 0 := by
    rw [resolveFront, Client.emit, sinceReport_append]
    simp [tick, he]
  refine ⟨?_, fun r hr => h.retries r (List.mem_of_mem_tail hr), fun _ => hsince, ?_, h.window⟩
  · refine h.within.append ?_
    have : (attempts [e]).length = 0 := by simp [attempts, hp]
    rw [this]
    exact h.within _ List.prefix_rfl
  · intro r _
    rw [hsince]
    exact Nat.zero_le _

section Tried

variable {c : Client} {r : PublishRequest} {rest : List PublishRequest} {o : Outcome}
  {f : PublishRequest → PublishRequest} (lib : Answers)

lemma tried_since : sinceReport (c.tried r o f lib).log = sinceReport c.log + 1 := by
  rw [tried, sinceReport_append]
  rfl

lemma tried_within (h : Ready 0 c) (hq : c.publishQueue = r :: rest) :
    Within maxSends (c.tried r o f lib).log := by
  refine h.within.append ?_
  have hsends := h.sends r (by simp [hq])
  have hretries := h.retries r (by simp [hq])
  have hone : (attempts (attemptLog c r o)).length = 1 := rfl
  rw [hone, maxSends]
  omega

lemma tried_retries (h : Ready 0 c) (hq : c.publishQueue = r :: rest) (hf : FrontUpdate o f) :
    ∀ q ∈ (c.tried r o f lib).publishQueue, q.retryCount ≤ publishRetries := by
  have hcount : (f r).retryCount = r.retryCount := by cases hf <;> rfl
  intro q hmem
  rw [tried, hq] at hmem
  rcases List.mem_cons.mp hmem with rfl | hmem
  · rw [hcount]
    exact h.retries r (by simp [hq])
  · exact h.retries q (by simp [hq, hmem])

lemma tried_sends (h : Ready 0 c) (hq : c.publishQueue = r :: rest) (hf : FrontUpdate o f) :
    ∀ q ∈ (c.tried r o f lib).publishQueue.head?,
      sinceReport (c.tried r o f lib).log ≤ q.retryCount + 1 := by
  have hcount : (f r).retryCount = r.retryCount := by cases hf <;> rfl
  intro q hmem
  obtain rfl : f r = q := by simpa [tried, hq] using hmem
  rw [tried_since, hcount]
  exact Nat.succ_le_succ (h.sends r (by simp [hq]))

/-- A message that the library has not taken. -/
lemma tried_ready (h : Ready 0 c) (hq : c.publishQueue = r :: rest) (hf : FrontUpdate o f)
    (ho : o.token = none) : Ready 1 (c.tried r o f lib) where
  within := tried_within lib h hq
  retries := tried_retries lib h hq hf
  fresh hnil := by simp [tried, hq] at hnil
  sends := tried_sends lib h hq hf
  window := by simp [tried, ho, h.window]

lemma accepted_paced (h : Ready 0 c) (hq : c.publishQueue = r :: rest) (token : ℤ) :
    Paced (c.tried r (.accepted token) (fun q => { q with token := token, accepted := true })
      lib) where
  within := tried_within lib h hq
  retries := tried_retries lib h hq (.accepted token)
  fresh hnil := by simp [tried, hq] at hnil
  sends := tried_sends lib h hq (.accepted token)
  window := .inr ⟨{ r with token := token, accepted := true }, by simp [tried, hq], rfl,
    by simp [tried, Outcome.token, h.window]⟩

end Tried

/-- Each call of the recursion keeps the pace if those it makes do. -/
lemma paced_recursion : Recursion (fun c d => Ready 0 c → Paced d) (fun c d => Ready 0 c → Paced d)
    (fun c d => Ready 1 c → Paced d) where
  away c _ h := ((asked_idles c _).ready (by omega) h).paced (by omega)
  idle c _ _ := by
    refine ⟨fun h => ((asked_idles c _).ready (by omega) h).paced (by omega), fun _ h => ?_⟩
    exact (((asked_idles c _).trans (setState_idles _ _)).ready (by omega) h).paced (by omega)
  publish c d _ _ hd h := hd ((asked_idles c _).ready (by omega) h)
  skipped c r _ h := (emit_idles c rfl rfl).paced (h.paced (by omega))
  unencoded c r rest lib hq _ _ h := (tried_ready lib h hq .unencoded rfl).paced (by omega)
  accepted c r rest token lib hq _ := by
    refine ⟨fun h => accepted_paced lib h hq token, fun h => ?_⟩
    exact (access_idles _ _).paced (accepted_paced lib h hq token)
  refused c r rest lib hq _ _ h := (tried_ready lib h hq .refused rfl).paced (by omega)
  failed c r rest f lib d hq _ hf _ hd := by
    refine ⟨fun h => hd (tried_ready lib h hq hf rfl), fun h => ?_⟩
    exact (access_idles _ _).paced (hd (tried_ready lib h hq hf rfl))
  giveUp c r rest d hq := by
    have haccess : ∀ c, Ready 1 c → Ready 1 (c.emit (.access r.id)) := fun c h =>
      (access_idles c _).ready (by omega) h
    refine ⟨fun hd h => hd (resolveFront_ready (haccess c h) rfl), fun hd h => hd ?_⟩
    exact resolveFront_ready ((asked_idles _ _).ready (by omega) (haccess c h)) rfl
  retry c r rest d hq hr hd h := by
    have hidles := (access_idles c r.id).trans (asked_idles _ .connected)
    have h' := hidles.ready (by omega) h
    generalize (c.emit (.access r.id)).asked .connected = c' at hidles h' hd
    have hq' : c'.publishQueue = r :: rest := hidles.queue.trans hq
    refine hd ⟨h'.within, ?_, ?_, ?_, h'.window⟩
    · intro q hmem
      rw [modifyFront, hq'] at hmem
      rcases List.mem_cons.mp hmem with rfl | hmem
      · exact hr
      · exact h'.retries q (by simp [hq', hmem])
    · intro hnil
      simp [modifyFront, hq'] at hnil
    · intro q hmem
      obtain rfl : { r with retryCount := r.retryCount + 1 } = q := by
        simpa [modifyFront, hq'] using hmem
      exact h'.sends r (by simp [hq'])

/-! ### The operations of an asynchronous client -/

section Operations

variable (c : Client)

lemma setPrimary_idles (b : Bool) : Idles c (c.setPrimary b) :=
  ⟨rfl, .inl rfl, [], by simp [setPrimary], rfl, rfl⟩

lemma activated_idles : Idles c c.activated := by
  unfold activated
  split
  · exact emit_idles c rfl rfl
  · exact .refl c

lemma commandsResult_idles (accepted : Bool) : Idles c (c.commandsResult accepted) :=
  ⟨rfl, .inl rfl, [.subscribed accepted], rfl, rfl, rfl⟩

lemma subscribeToCommands_idles : Idles c c.subscribeToCommands.2 := by
  have hres : ∀ accepted, Idles c ((c.asked .code).commandsResult accepted) := fun accepted =>
    (asked_idles c .code).trans (commandsResult_idles _ accepted)
  simp only [subscribeToCommands]
  split <;> split
  · exact hres false
  · exact (hres true).trans (activated_idles _)
  · exact hres false
  · exact hres true
  · exact hres false
  · exact (hres true).trans ⟨rfl, .inl rfl, [], by simp, rfl, rfl⟩

lemma activate_idles : Idles c c.activate.2 := by
  simp only [activate]
  split
  · exact .refl c
  · have h := (setPrimary_idles c true).trans (subscribeToCommands_idles _)
    split
    · exact h.trans (setPrimary_idles _ false)
    · exact h

lemma unsubscribeToCommands_idles : Idles c c.unsubscribeToCommands.2 := by
  simp only [unsubscribeToCommands]
  split
  · split
    · exact asked_idles c .code
    · exact (asked_idles c .code).trans ⟨rfl, .inl rfl, [], by simp, rfl, rfl⟩
  · split
    · exact asked_idles c .code
    · exact (asked_idles c .code).trans ⟨rfl, .inl rfl, [], by simp, rfl, rfl⟩
  · exact .refl c

lemma deactivate_idles : Idles c c.deactivate.2 := by
  simp only [deactivate]
  split
  · exact .refl c
  · split
    · exact unsubscribeToCommands_idles c
    · exact (unsubscribeToCommands_idles c).trans (setPrimary_idles _ false)

lemma configure_idles (topics : ClientTopicOptions) : Idles c (c.configure topics).2 := by
  have h0 : Idles c { c with topics := topics } := ⟨rfl, .inl rfl, [], by simp, rfl, rfl⟩
  have h : Idles c { c with topics := topics }.configureClient.2 := by
    have hcode := h0.trans (asked_idles _ .code)
    simp only [configureClient]
    split
    · split <;> exact hcode
    · repeat' split
      · exact hcode
      · exact hcode.trans (asked_idles _ .code)
      · exact hcode.trans (asked_idles _ .code)
    · exact h0.trans ⟨rfl, .inl rfl, [], by simp [incrementBdSeq], rfl, rfl⟩
  simp only [configure]
  split
  · exact h
  · exact h.trans ⟨rfl, .inl rfl, [], by simp, rfl, rfl⟩

lemma connected_idles : Idles c c.connected := by
  have h0 : Idles c { c with up := true, commands := none, inflight := [] } :=
    ⟨rfl, .inr rfl, [], by simp, rfl, rfl⟩
  have h := (h0.trans (setState_idles _ .connected)).trans
    (emit_idles _ (e := .onEvent .connected) rfl rfl)
  simp only [connected]
  split
  · exact h.trans (asked_idles _ .code)
  · exact h

lemma onSubscribeResult_idles (token : ℤ) (reasonCodes : List ℕ) :
    Idles c (c.onSubscribeResult token reasonCodes) := by
  have h0 : Idles c { c with commands := some false } := ⟨rfl, .inl rfl, [], by simp, rfl, rfl⟩
  unfold onSubscribeResult
  repeat' split
  · exact h0.trans (activated_idles _)
  · exact activated_idles c
  · exact .refl c

lemma disconnect_idles : Idles c c.disconnect := by
  have hstate : ∀ s, Idles c ((c.setState s).asked .code) := fun s =>
    (setState_idles c s).trans (asked_idles _ .code)
  have hend : ∀ d : Client, Idles c d → Idles c (d.endSession.setState .disconnected) := by
    intro d hd
    have hsession : Idles d d.endSession := ⟨rfl, .inr rfl, [], by simp [endSession], rfl, rfl⟩
    exact hd.trans (hsession.trans (setState_idles _ _))
  unfold disconnect
  split
  · exact .refl c
  · simp only [clientDisconnect]
    split
    · split
      · exact hstate _
      · exact hend _ (hstate _)
    · exact hstate _
    · split
      · exact ((asked_idles c .connected).trans (setState_idles _ _)).trans (asked_idles _ .code)
      · exact asked_idles c .connected

variable {c}

lemma connect_idles (hk : c.kind ≠ .pahoSync) : Idles c c.connect.2 := by
  have hconnecting : Idles c ((c.setState .connecting).asked .code) :=
    (setState_idles c _).trans (asked_idles _ .code)
  have h : Idles c c.clientConnect.2 := by
    simp only [clientConnect]
    split
    · exact absurd ‹_› hk
    · repeat' split
      · exact .refl c
      · exact hconnecting
      · exact hconnecting
    · split <;> exact asked_idles c .code
  simp only [connect]
  repeat' split
  · exact .refl c
  · exact .refl c
  · exact h.trans (setState_idles _ _)
  · exact h.trans (setState_idles _ _)

/-- Synchronizing is for the synchronous class. -/
lemma execute_idles (hk : c.kind ≠ .pahoSync) : Idles c c.execute := by
  unfold execute
  split
  · rw [sync_of_ne ((connect_still hk).kind ▸ hk)]
    exact connect_idles hk
  · rw [sync_of_ne hk]
    exact .refl c

/-! ### Requests, answers and the end of a connection -/

/-- A new request, to the end of the queue. -/
lemma enqueue_ready {r : PublishRequest} (hr : r.retryCount = 0) (h : Paced c)
    (hq : c.publishQueue = []) : Ready 0 (c.enqueue r) := by
  have hqueue : (c.enqueue r).publishQueue = [r] := by simp [enqueue, hq]
  refine ⟨h.within, ?_, ?_, ?_, ?_⟩
  · intro q hmem
    rw [hqueue, List.mem_singleton] at hmem
    rw [hmem, hr]
    exact Nat.zero_le _
  · exact fun _ => h.fresh hq
  · exact fun q _ => (h.fresh hq).trans_le (Nat.zero_le _)
  · refine h.window.resolve_right ?_
    rintro ⟨q, hmem, -⟩
    rw [hq] at hmem
    cases hmem

lemma request_paced {r : PublishRequest} (hr : r.retryCount = 0) (h : Paced c) :
    Paced (c.request r) := by
  have hcons : c.publishQueue ≠ [] → Paced (c.enqueue r) := by
    intro hne
    have hhead : (c.enqueue r).publishQueue.head? = c.publishQueue.head? := by
      rw [enqueue, List.head?_append_of_ne_nil _ hne]
    refine ⟨h.within, ?_, ?_, ?_, ?_⟩
    · intro q hmem
      rcases List.mem_append.mp hmem with hmem | hmem
      · exact h.retries q hmem
      · rw [List.mem_singleton.mp hmem, hr]
        exact Nat.zero_le _
    · exact fun hnil => absurd (List.append_eq_nil_iff.mp hnil).1 hne
    · rw [hhead]
      exact h.sends
    · rw [hhead]
      exact h.window
  simp only [request]
  rcases hq : c.publishQueue with _ | ⟨q, rest⟩
  · have hready := (asked_idles _ .connected).ready (by omega) (enqueue_ready hr h hq)
    have hlength : (c.enqueue r).publishQueue.length = 1 := by simp [enqueue, hq]
    rw [if_pos hlength]
    split
    · exact paced_recursion.publishFromQueue _ hready
    · exact hready.paced (by omega)
  · have hlength : (c.enqueue r).publishQueue.length ≠ 1 := by simp [enqueue, hq]
    rw [if_neg hlength]
    exact hcons (by simp [hq])

/-- An answer that is not for the front request. -/
lemma calledBack_idles (h : Paced c) (token : ℤ)
    (ht : ∀ r ∈ c.publishQueue.head?, r.token ≠ token) :
    Idles c (c.calledBack token) := by
  refine ⟨rfl, ?_, [], by simp [calledBack], rfl, rfl⟩
  rcases h.window with hw | ⟨r, hr, -, hw⟩
  · exact .inr (by simp [calledBack, hw])
  · refine .inl ?_
    rw [calledBack, hw, List.erase_cons_tail]
    · rfl
    · simpa using ht r hr

/-- An answer for the front request: it may be sent again. -/
lemma calledBack_ready (h : Paced c) {r : PublishRequest} (hr : r ∈ c.publishQueue.head?) :
    Ready 1 (c.calledBack r.token) := by
  refine ⟨h.within, h.retries, h.fresh, h.sends, ?_⟩
  rcases h.window with hw | ⟨q, hq, -, hw⟩
  · simp [calledBack, hw]
  · obtain rfl : r = q := Option.some.inj (hr.symm.trans hq)
    simp [calledBack, hw]

lemma onDelivery_paced (h : Paced c) (token : ℤ) : Paced (c.onDelivery token) := by
  unfold onDelivery
  rcases hq : c.publishQueue with _ | ⟨r, rest⟩
  · have hidles := calledBack_idles h token (by simp [hq])
    exact (hidles.trans (emit_idles _ rfl rfl)).paced h
  · by_cases ht : r.token = token
    · subst ht
      simp only [if_true]
      have hready :=
        (access_idles _ r.id).ready (by omega) (calledBack_ready (r := r) h (by simp [hq]))
      exact paced_recursion.publishFromQueue _ (resolveFront_ready (e := .delivered r) hready rfl)
    · simp only [ht, if_false]
      have hidles := calledBack_idles h token (by simpa [hq] using ht)
      exact (hidles.trans (access_idles _ r.id)).paced h

lemma onDeliveryFailure_paced (h : Paced c) (token : ℤ) :
    Paced ((c.calledBack token).onDeliveryFailure token) := by
  rcases hq : c.publishQueue with _ | ⟨r, rest⟩
  · rw [onDeliveryFailure_of_nil (c := c.calledBack token) hq]
    exact (calledBack_idles h token (by simp [hq])).paced h
  · by_cases ht : r.token = token
    · subst ht
      exact paced_recursion.onDeliveryFailure (c := c.calledBack r.token) hq
        (calledBack_ready h (by simp [hq]))
    · rw [onDeliveryFailure_of_ne (c := c.calledBack token) hq ht]
      have hidles := calledBack_idles h token (by simpa [hq] using ht)
      exact (hidles.trans (access_idles _ r.id)).paced h

lemma foldl_tick_undelivered (q : List PublishRequest) {k : ℕ} (h : q = [] → k = 0) :
    (q.map Effect.undelivered).foldl tick k = 0 := by
  induction q generalizing k with
  | nil => exact h rfl
  | cons r q ih => exact ih fun _ => rfl

lemma onDisconnect_paced (h : Paced c) : Paced c.onDisconnect := by
  have hlog : c.onDisconnect.log =
      c.log ++ (c.publishQueue.map .undelivered ++ [.onEvent .disconnected]) := by
    simp [onDisconnect, disconnected, dumpQueue_eq, endSession, Client.emit]
  have hatt : attempts (c.publishQueue.map .undelivered ++ [.onEvent .disconnected]) = [] := by
    simp [attempts, List.filterMap_map, Function.comp_def, Effect.payload]
  have hinflight : c.onDisconnect.inflight = [] := by
    rcases setState_idles c.dumpQueue.endSession .disconnected |>.inflight with hi | hi <;>
      exact hi
  refine ⟨?_, by simp, fun _ => ?_, by simp, .inl hinflight⟩
  · rw [hlog]
    refine h.within.append ?_
    rw [hatt]
    exact h.within _ List.prefix_rfl
  · rw [hlog, sinceReport_append, List.foldl_append, foldl_tick_undelivered _ h.fresh]
    rfl

lemma handle_paced (h : Paced c) (l : LibraryCall) : Paced (c.handle l) := by
  cases l with
  | answers l => exact Idles.paced (c := c) ⟨rfl, .inl rfl, [], by simp [handle], rfl, rfl⟩ h
  | link up => exact Idles.paced (c := c) ⟨rfl, .inl rfl, [], by simp [handle], rfl, rfl⟩ h
  | onDelivery token => exact onDelivery_paced h token
  | onDeliveryFailure token => exact onDeliveryFailure_paced h token
  | onMessage topic payload => exact (emit_idles c rfl rfl).paced h
  | onDisconnect => exact onDisconnect_paced h
  | onConnect => exact (connected_idles c).paced h
  | onConnectFailure => exact (setState_idles c _).paced h
  | onCommandSubscription => exact (activated_idles c).paced h
  | onCommandSubscribeFailure =>
    exact Idles.paced (c := c) ⟨rfl, .inl rfl, [], by simp [handle], rfl, rfl⟩ h
  | onSubscribeResult token reasonCodes => exact (onSubscribeResult_idles c _ _).paced h

/-- Every operation of an asynchronous client keeps the pace. -/
lemma step_paced (hk : c.kind ≠ .pahoSync) (h : Paced c) {a : ClientCall}
    (ha : ∀ r ∈ a.passed, r.retryCount = 0) : Paced (c.step a) := by
  cases a with
  | configure topics => exact (configure_idles c topics).paced h
  | activate => exact (activate_idles c).paced h
  | deactivate => exact (deactivate_idles c).paced h
  | request r => exact request_paced (ha r rfl) h
  | disconnect => exact (disconnect_idles c).paced h
  | execute => exact (execute_idles hk).paced h
  | library l =>
    rw [Client.step, callback]
    split
    · exact handle_paced h l
    · exact h

end Operations

end Wire

namespace Node

/-- **Only the oldest request is sent.** In every run of a node, what a client sends, at its
first attempt or a later one, is for the request that comes next after those it has
reported. -/
theorem oldest_first (s : NodeSetup) (calls : List NodeCall) (i : ClientId) :
    Wire.OldestFirst
      (keys (((run step (create s) calls).client i).hist.filterMap ClientCall.passed))
      ((run step (create s) calls).client i).cur.log := by
  have h0 : Wire.InTurn [] ((create s).client i).init := ⟨rfl, trivial⟩
  rw [← client_init (create s) calls i] at h0
  have h := Wire.run_inTurn h0 ((run step (create s) calls).client i).hist
  rw [Traced.replay] at h
  exact h.serves.oldestFirst

/-- The asynchronous clients keep the pace. -/
def AllPaced (kind : ClientId → ClientKind) (n : Node) : Prop :=
  ∀ i, (n.client i).cur.kind = kind i ∧ (kind i ≠ .pahoSync → Wire.Paced (n.client i).cur)

lemma callClient_allPaced {kind : ClientId → ClientKind} {n : Node} (h : AllPaced kind n)
    (i : ClientId) {a : ClientCall} (ha : ∀ r ∈ a.passed, r.retryCount = 0) :
    AllPaced kind (n.callClient i a) := by
  intro j
  rw [callClient_client]
  split
  · next hj =>
    subst hj
    obtain ⟨hkind, hpaced⟩ := h j
    refine ⟨(step_kind _ a).trans hkind, fun hk => ?_⟩
    exact Wire.step_paced (by rwa [hkind]) (hpaced hk) ha
  · exact h j

lemma allPaced_eventKept (kind : ClientId → ClientKind) : EventKept (AllPaced kind) where
  publish n p b h := by
    rcases publish_cases n p b with ⟨e, -⟩ | ⟨e, -⟩ | ⟨i, -, e⟩
    · rwa [e]
    · rw [e]
      exact h
    · rw [e, requested]
      refine callClient_allPaced (fun j => ?_) i ?_
      · rw [prepared_client]
        exact h j
      · rintro r ⟨⟩
        rfl
  client n i a _ hr h := by
    refine callClient_allPaced h i fun r hmem => ?_
    cases a with
    | request r' => exact absurd rfl (hr r')
    | _ => cases hmem
  pub _ _ _ _ _ h := h
  free _ _ _ _ _ h := h
  pop _ _ _ _ _ _ h := h
  activate _ i h := callClient_allPaced h i nofun
  hostStates _ _ h := h
  activeClient _ _ h := h
  fault _ h := h

lemma run_allPaced (s : NodeSetup) (calls : List NodeCall) :
    AllPaced s.kind (run step (create s) calls) := by
  refine run_invariant (P := AllPaced s.kind)
    (fun n a h => step_kept (allPaced_eventKept s.kind) h a ?_) ?_ calls
  · exact fun _ _ _ _ _ _ _ => h
  · intro i
    refine ⟨rfl, fun _ => ⟨?_, nofun, fun _ => rfl, nofun, .inl rfl⟩⟩
    intro k hk
    rw [List.prefix_nil.mp hk]
    exact Nat.zero_le _

/-- Between two reports a client sends at most `b` times. -/
def SendsAtMost (b : ℕ) (l : List Effect) : Prop :=
  ∀ k m k', l = k ++ m ++ k' → reports m = [] → (attempts m).length ≤ b

/-- **A request is sent at most once more than its retries**, in the whole life of an
asynchronous client: there are never more messages than that without a report. -/
theorem sends_bounded (s : NodeSetup) (calls : List NodeCall) (i : ClientId)
    (hk : s.kind i ≠ .pahoSync) :
    SendsAtMost Wire.maxSends ((run step (create s) calls).client i).cur.log := by
  have h := ((run_allPaced s calls i).2 hk).within
  intro k m k' hl hm
  rw [hl] at h
  exact h.stretch hm

/-- A client is activated, and its library fails to deliver its birth each time. -/
def neverDelivered : List NodeCall :=
  [.addClient, .enable, .executeClient 0, .library 0 .onConnect, .processEvent,
    .library 0 .onCommandSubscription, .processEvent] ++
    List.replicate 6 (.library 0 (.onDeliveryFailure 1))

theorem neverDelivered_sends : SendsAtMost Wire.maxSends
    ((run step (create (.plain .pahoAsync)) neverDelivered).client 0).cur.log :=
  sends_bounded (.plain .pahoAsync) neverDelivered 0 (by decide)

/-- It sends the birth as often as that. -/
example : (attempts ((run step (create (.plain .pahoAsync)) neverDelivered).client
    0).cur.log).length = Wire.maxSends := by decide

/-- The library owes no answer but for the front request, whose message it has taken. -/
def OneOut (c : Client) : Prop :=
  c.inflight = [] ∨ ∃ r ∈ c.publishQueue.head?, r.accepted = true ∧ c.inflight = [r.token]

/-- **One message at a time.** In every run an asynchronous client has at most one message out
that the library has not answered, and it is that of the front request. -/
theorem one_out (s : NodeSetup) (calls : List NodeCall) (i : ClientId)
    (hk : s.kind i ≠ .pahoSync) : OneOut ((run step (create s) calls).client i).cur :=
  ((run_allPaced s calls i).2 hk).window

theorem deliveredTwice_oneOut :
    OneOut ((run step (create (.plain .pahoAsync)) deliveredTwice).client 0).cur :=
  one_out (.plain .pahoAsync) deliveredTwice 0 (by decide)

end Node

end Sparkplug
