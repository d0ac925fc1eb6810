import Sparkplug.HostState
import Sparkplug.Announcements

/-!
Births before data, on the wire of one client.

What the library has accepted since the last activation, followed by the requests in the
queue that it has not accepted, is a stream the client can only send off. So if it is in
order when a request is queued, it stays in order, unless a birth gets lost.
-/

namespace Sparkplug

open Machine Relation Announcements

/-- A birth announces its publisher, and the birth of the node begins an epoch. -/
def PublishRequest.entry (r : PublishRequest) : Entry ℕ :=
  match r.publisher, r.isBirth with
  | .node, true => .root
  | .node, false => .use none
  | .device d, true => .announce d
  | .device d, false => .use (some d)

/-- The request leaves the queue without ever having been accepted, and is a birth. -/
def PublishRequest.isLostBirth (r : PublishRequest) : Bool := r.isBirth && !r.accepted

/-- What the library has accepted since the last accepted command subscription, whether a
birth was lost since, and whether anything was ever accepted after a birth was lost. -/
structure Sent where
  wire : List (Entry ℕ) := []
  lost : Bool := false
  late : Bool := false

def Sent.next (s : Sent) : Effect → Sent
  | .subscribed true => { s with wire := [], lost := false }
  | .attempt a =>
    match a.outcome with
    | .accepted _ => { s with wire := s.wire ++ [a.request.entry], late := s.late || s.lost }
    | _ => s
  | .delivered r | .undelivered r => { s with lost := s.lost || r.isLostBirth }
  | _ => s

def sent (l : List Effect) : Sent := l.foldl Sent.next {}

lemma sent_append (k l : List Effect) : sent (k ++ l) = l.foldl Sent.next (sent k) :=
  List.foldl_append ..

lemma late_next {s : Sent} {e : Effect} (h : s.late = true) : (s.next e).late = true := by
  cases e with
  | attempt a =>
    simp only [Sent.next]
    split <;> simp [h]
  | subscribed b => cases b <;> exact h
  | _ => exact h

/-- What was accepted too late once remains so. -/
lemma late_append {k : List Effect} (l : List Effect) (h : (sent (k ++ l)).late = false) :
    (sent k).late = false := by
  rw [sent_append] at h
  generalize sent k = s at h ⊢
  induction l generalizing s with
  | nil => exact h
  | cons e l ih =>
    by_contra hs
    have hnext := ih (s.next e) h
    rw [late_next (by simpa using hs)] at hnext
    cases hnext

namespace Client

/-- The requests never accepted, as entries. -/
def pending (q : List PublishRequest) : List (Entry ℕ) :=
  (q.filter fun r => !r.accepted).map PublishRequest.entry

/-- What is on the wire. -/
def wire (c : Client) : List (Entry ℕ) := (sent c.log).wire

/-- What will be known when all that is queued has been sent. -/
def promised (c : Client) : Known ℕ := (known c.wire).after (pending c.publishQueue)

/-- The wire of the client is in order, and the wire of a primary client will be. -/
structure Orderly (c : Client) : Prop where
  tail : ∀ r ∈ c.publishQueue.tail, r.accepted = false
  token : ∀ r ∈ c.publishQueue, r.accepted = false → r.token < 0
  last : ∀ r ∈ c.publishQueue.head?, r.accepted = true → c.wire.getLast? = some r.entry
  wire : InOrder c.wire
  reads : (sent c.log).lost = false → c.isPrimary = true →
    (known c.wire).Reads (pending c.publishQueue)

/-- From `c` to `d` the client has not become primary, and unless a birth was lost it will
know the same. -/
def Progress (c d : Client) : Prop :=
  (d.isPrimary = true → c.isPrimary = true) ∧
    ((sent d.log).lost = false → (sent c.log).lost = false ∧ d.promised = c.promised)

lemma Progress.refl (c : Client) : Progress c c := ⟨id, fun h => ⟨h, rfl⟩⟩

lemma Progress.trans {b c d : Client} (h : Progress b c) (k : Progress c d) : Progress b d :=
  ⟨h.1 ∘ k.1, fun hl => ⟨(h.2 (k.2 hl).1).1, (k.2 hl).2.trans (h.2 (k.2 hl).1).2⟩⟩

/-! ### One small step -/

/-- The front request may change in what does not matter here. -/
lemma Orderly.of_modifyHead {c d : Client} (h : Orderly c) (f : PublishRequest → PublishRequest)
    (hf : ∀ r, (f r).entry = r.entry ∧ (f r).accepted = r.accepted ∧
      (r.token < 0 → (f r).token < 0))
    (hq : d.publishQueue = c.publishQueue.modifyHead f) (hl : sent d.log = sent c.log)
    (hp : d.isPrimary = true → c.isPrimary = true) : Orderly d ∧ Progress c d := by
  have hwire : d.wire = c.wire := congrArg Sent.wire hl
  have hpending : pending d.publishQueue = pending c.publishQueue := by
    rw [hq]
    cases c.publishQueue with
    | nil => rfl
    | cons r q => simp [pending, List.filter_cons, hf, apply_ite]
  refine ⟨⟨?_, ?_, ?_, hwire ▸ h.wire, ?_⟩, hp, fun hlost => ⟨hl ▸ hlost, ?_⟩⟩
  · rw [hq]
    intro r hr
    refine h.tail r ?_
    cases hc : c.publishQueue <;> simp_all
  · rw [hq]
    intro r hr hacc
    cases hc : c.publishQueue with
    | nil => simp [hc] at hr
    | cons x q =>
      rw [hc, List.modifyHead_cons, List.mem_cons] at hr
      rcases hr with rfl | hr
      · exact (hf x).2.2 (h.token x (by simp [hc]) ((hf x).2.1.symm.trans hacc))
      · exact h.token r (by simp [hc, hr]) hacc
  · rw [hq, hwire]
    intro r hr hacc
    cases hc : c.publishQueue with
    | nil => simp [hc] at hr
    | cons x q =>
      obtain rfl : f x = r := by simpa [hc] using hr
      rw [(hf x).1]
      exact h.last x (by simp [hc]) ((hf x).2.1.symm.trans hacc)
  · intro hlost hprim
    rw [hwire, hpending]
    exact h.reads (hl ▸ hlost) (hp hprim)
  · rw [promised, promised, hwire, hpending]

lemma Orderly.of_same {c d : Client} (h : Orderly c) (hq : d.publishQueue = c.publishQueue)
    (hl : sent d.log = sent c.log) (hp : d.isPrimary = true → c.isPrimary = true) :
    Orderly d ∧ Progress c d := by
  refine h.of_modifyHead id (fun r => ⟨rfl, rfl, id⟩) ?_ hl hp
  rw [hq]
  cases c.publishQueue <;> rfl

lemma pending_accepted {r : PublishRequest} (h : r.accepted = true) (q : List PublishRequest) :
    pending (r :: q) = pending q := by
  simp [pending, h]

lemma pending_waiting {r : PublishRequest} (h : r.accepted = false) (q : List PublishRequest) :
    pending (r :: q) = r.entry :: pending q := by
  simp [pending, h]

/-- Data uses what is known already. -/
lemma entry_of_data {r : PublishRequest} (h : r.isBirth = false) : ∃ d, r.entry = .use d := by
  unfold PublishRequest.entry
  rw [h]
  cases r.publisher with
  | node => exact ⟨none, rfl⟩
  | device d => exact ⟨some d, rfl⟩

lemma Orderly.accepted {c d : Client} (h : Orderly c) {r : PublishRequest}
    {rest : List PublishRequest} (r' : PublishRequest) (hq : c.publishQueue = r :: rest)
    (hg : c.isPrimary = true ∨ r.accepted = true) (hlost : (sent c.log).lost = false)
    (hq' : d.publishQueue = r' :: rest) (he : r'.entry = r.entry) (hacc : r'.accepted = true)
    (hl : sent d.log = { sent c.log with wire := c.wire ++ [r.entry] })
    (hp : d.isPrimary = c.isPrimary) : Orderly d ∧ Progress c d := by
  have hwire : d.wire = c.wire ++ [r.entry] := congrArg Sent.wire hl
  have hpending : pending d.publishQueue = pending rest := by rw [hq', pending_accepted hacc]
  -- a message sent again repeats the last one, and a new one is the next in the stream
  have hsend : InOrder d.wire ∧ d.promised = c.promised ∧
      (c.isPrimary = true → (known d.wire).Reads (pending rest)) := by
    rw [promised, promised, hpending, hwire]
    cases hr : r.accepted with
    | true =>
      have hpend : pending c.publishQueue = pending rest := by rw [hq, pending_accepted hr]
      obtain ⟨horder, hknown⟩ := repeat_last h.wire (h.last r (by simp [hq]) hr)
      rw [hknown, hpend]
      exact ⟨horder, rfl, fun hprim => hpend ▸ h.reads hlost hprim⟩
    | false =>
      have hpend : pending c.publishQueue = r.entry :: pending rest := by
        rw [hq, pending_waiting hr]
      have hprim : c.isPrimary = true := hg.resolve_right (by simp [hr])
      obtain ⟨hallows, hreads⟩ := hpend ▸ h.reads hlost hprim
      rw [hpend, known_snoc]
      exact ⟨inOrder_snoc.mpr ⟨h.wire, hallows⟩, rfl, fun _ => hreads⟩
  refine ⟨⟨?_, ?_, ?_, hsend.1, ?_⟩, fun hd => hp ▸ hd, fun _ => ⟨hlost, hsend.2.1⟩⟩
  · rw [hq']
    exact fun x hx => h.tail x (by simpa [hq] using hx)
  · rw [hq']
    intro x hx hxacc
    rcases List.mem_cons.mp hx with rfl | hx
    · exact absurd (hacc.symm.trans hxacc) (by simp)
    · exact h.token x (by simp [hq, hx]) hxacc
  · rw [hq', hwire]
    intro x hx _
    obtain rfl : r' = x := by simpa using hx
    simp [he]
  · intro _ hprim
    rw [hpending]
    exact hsend.2.2 (hp ▸ hprim)

/-- A front that was accepted, or that is no birth, is not missed when it goes. -/
lemma pending_after_tail {r : PublishRequest} {rest : List PublishRequest}
    (h : r.accepted = true ∨ r.isBirth = false) (k : Known ℕ) :
    k.after (pending (r :: rest)) = k.after (pending rest) := by
  cases hacc : r.accepted with
  | true => rw [pending_accepted hacc]
  | false =>
    obtain ⟨x, hx⟩ := entry_of_data (h.resolve_left (by simp [hacc]))
    rw [pending_waiting hacc, hx, Known.after_cons, Known.next_use]

lemma pending_reads_tail {r : PublishRequest} {rest : List PublishRequest} {k : Known ℕ}
    (h : r.accepted = true ∨ r.isBirth = false) (hreads : k.Reads (pending (r :: rest))) :
    k.Reads (pending rest) := by
  cases hacc : r.accepted with
  | true => rwa [pending_accepted hacc] at hreads
  | false =>
    obtain ⟨x, hx⟩ := entry_of_data (h.resolve_left (by simp [hacc]))
    rw [pending_waiting hacc, hx] at hreads
    have := hreads.2
    rwa [Known.next_use] at this

lemma Orderly.resolved {c d : Client} (h : Orderly c) {r : PublishRequest}
    {rest : List PublishRequest} (hq : c.publishQueue = r :: rest) (hq' : d.publishQueue = rest)
    (hl : sent d.log = { sent c.log with lost := (sent c.log).lost || r.isLostBirth })
    (hp : d.isPrimary = c.isPrimary) : Orderly d ∧ Progress c d := by
  have hwire : d.wire = c.wire := by
    rw [Client.wire, hl]
    rfl
  have hlost : (sent d.log).lost = false →
      (sent c.log).lost = false ∧ (r.accepted = true ∨ r.isBirth = false) := by
    rw [hl]
    intro hd
    cases hr : r.accepted <;> simp_all [PublishRequest.isLostBirth]
  have hrest : ∀ x ∈ rest, x.accepted = false := fun x hx => h.tail x (by simpa [hq] using hx)
  refine ⟨⟨?_, ?_, ?_, hwire ▸ h.wire, ?_⟩, fun hd => hp ▸ hd, fun hd => ?_⟩
  · rw [hq']
    exact fun x hx => hrest x (List.mem_of_mem_tail hx)
  · rw [hq']
    exact fun x hx => h.token x (by simp [hq, hx])
  · rw [hq']
    intro x hx hacc
    have := hrest x (List.mem_of_mem_head? hx)
    exact absurd (hacc.symm.trans this) (by simp)
  · intro hd hprim
    rw [hwire, hq']
    exact pending_reads_tail (hlost hd).2 (hq ▸ h.reads (hlost hd).1 (hp ▸ hprim))
  · refine ⟨(hlost hd).1, ?_⟩
    rw [promised, promised, hwire, hq, hq', pending_after_tail (hlost hd).2]

lemma sent_emit (c : Client) (e : Effect) : sent (c.emit e).log = (sent c.log).next e :=
  sent_append c.log [e]

lemma sent_tried (c : Client) (r : PublishRequest) (o : Outcome)
    (f : PublishRequest → PublishRequest) (lib : Answers) : sent (c.tried r o f lib).log =
      (sent c.log).next (.attempt ⟨r, c.nextSeq r, if r.isNodeBirth then some c.bdSeq else none, o⟩) :=
  sent_append c.log _

/-- Neither subscriptions nor attempts at requests that may not be sent. -/
def ordinary : Scope := { subscriptions := false, strays := false }

lemma publishStep_orderly {c d : Client} (hs : PublishStep ordinary c d) (h : Orderly c)
    (hlate : (sent d.log).late = false) : Orderly d ∧ Progress c d := by
  cases hs with
  | asked q => exact h.of_same (by simp) (by simp) (fun hp => by cases q <;> exact hp)
  | access => exact h.of_same rfl (sent_emit c _) id
  | skipped r hs => exact h.of_same rfl (sent_emit c _) id
  | idle hs =>
    exact h.of_same (by simp) (by simp) (setState_isPrimary (s := .connected) (by simp) c ▸ id)
  | @tried r rest o f lib hq hs hg hf =>
    have hsent := sent_tried c r o f lib
    cases hf with
    | unencoded => exact h.of_modifyHead id (fun r => ⟨rfl, rfl, id⟩) rfl hsent id
    | refused => exact h.of_modifyHead id (fun r => ⟨rfl, rfl, id⟩) rfl hsent id
    | @refusedToken token ht =>
      exact h.of_modifyHead (fun q => { q with token := token }) (fun r => ⟨rfl, rfl, fun _ => ht⟩)
        rfl hsent id
    | accepted token =>
      rw [hsent] at hlate
      simp only [Sent.next, Bool.or_eq_false_iff] at hlate
      refine h.accepted { r with token := token, accepted := true } hq
        (hg.resolve_left (by simp [ordinary])) hlate.2 (by simp [tried, hq]) rfl rfl ?_ rfl
      rw [hsent]
      simp [Sent.next, hlate, wire]
  | @giveUp r rest hq =>
    exact h.resolved hq (by simp [resolveFront, hq]) (sent_emit _ _) rfl
  | retry =>
    exact h.of_modifyHead (fun q => { q with retryCount := q.retryCount + 1 })
      (fun r => ⟨rfl, rfl, id⟩) rfl rfl id

lemma clientStep_orderly {c d : Client} (hs : ClientStep ordinary c d) (h : Orderly c)
    (hlate : (sent d.log).late = false) : Orderly d ∧ Progress c d := by
  cases hs with
  | publish hs => exact publishStep_orderly hs h hlate
  | deliver hA hq => exact h.resolved hq (by simp [resolveFront, hq]) (sent_emit _ _) rfl
  | event he => exact h.of_same rfl (sent_emit c _) id
  | emptyFront => exact h.of_same rfl (sent_emit c _) id
  | commandsResult accepted hA => cases hA
  | setState s => exact h.of_same (by simp) (by simp) (clientStep_calm (.setState (A := {}) c s)).1
  | resign => exact h.of_same rfl rfl (by simp [setPrimary])
  | surroundings => exact h.of_same rfl rfl id
  | settings => exact h.of_same rfl rfl id

lemma late_of_grown {k l : List Effect} (h : k <+: l) (hl : (sent l).late = false) :
    (sent k).late = false := by
  obtain ⟨m, rfl⟩ := h
  exact late_append m hl

lemma steps_orderly {c d : Client} (hs : Steps ordinary c d) (h : Orderly c)
    (hlate : (sent d.log).late = false) : Orderly d ∧ Progress c d := by
  induction hs with
  | refl => exact ⟨h, .refl c⟩
  | tail hs hstep ih =>
    obtain ⟨hb, hprog⟩ := ih (late_of_grown (Ledger.Steps.log (.single hstep)) hlate)
    obtain ⟨hd, hprog'⟩ := clientStep_orderly hstep hb hlate
    exact ⟨hd, hprog.trans hprog'⟩

/-! ### The operations -/

/-- The failure of a token the library has given out. -/
def GivenOut : ClientCall → Prop
  | .library (.onDeliveryFailure token) => 0 ≤ token
  | _ => True

lemma Orderly.fits {c : Client} (h : Orderly c) {token : ℤ} (ht : 0 ≤ token) :
    Fits ordinary c token := by
  intro r hr hrt
  refine .inr (.inr ?_)
  by_contra hacc
  have := h.token r (List.mem_of_mem_head? hr) (by simpa using hacc)
  omega

lemma taken_fits {c : Client} {a : ClientCall} (h : Orderly (c.taken a)) (hg : GivenOut a)
    (token : ℤ) (ha : a = .library (.onDeliveryFailure token)) : Fits ordinary c token := by
  subst ha
  exact h.fits hg

/-- Every operation but `activate`. -/
lemma step_orderly {c : Client} {a : ClientCall} (ha : a ≠ .activate) (hg : GivenOut a)
    (h : Orderly (c.taken a)) (hlate : (sent (c.step a).log).late = false) :
    Orderly (c.step a) ∧ Progress (c.taken a) (c.step a) :=
  steps_orderly (step_steps_of_ne rfl ha (taken_fits h hg)) h hlate

/-- A request that continues the stream is queued. -/
lemma Orderly.enqueue {c : Client} (h : Orderly c) {r : PublishRequest} (hr : r.accepted = false)
    (ht : r.token < 0) (hnext : (sent c.log).lost = false → c.isPrimary = true →
      c.promised.Allows r.entry) :
    Orderly (c.enqueue r) ∧ (c.enqueue r).promised = c.promised.next r.entry := by
  have hpending : pending (c.enqueue r).publishQueue = pending c.publishQueue ++ [r.entry] := by
    simp [Client.enqueue, pending, hr]
  have hqueue : (c.enqueue r).publishQueue = c.publishQueue ++ [r] := rfl
  refine ⟨⟨?_, ?_, ?_, h.wire, ?_⟩, ?_⟩
  · rw [hqueue]
    intro x hx
    cases hc : c.publishQueue with
    | nil => simp [hc] at hx
    | cons y q =>
      rw [hc, List.cons_append, List.tail_cons, List.mem_append, List.mem_singleton] at hx
      rcases hx with hx | rfl
      · exact h.tail x (by simpa [hc] using hx)
      · exact hr
  · rw [hqueue]
    intro x hx hacc
    rcases List.mem_append.mp hx with hx | hx
    · exact h.token x hx hacc
    · rwa [List.mem_singleton.mp hx]
  · rw [hqueue]
    intro x hx hacc
    cases hc : c.publishQueue with
    | nil =>
      obtain rfl : r = x := by simpa [hc] using hx
      exact absurd (hacc.symm.trans hr) (by simp)
    | cons y q => exact h.last x (by simpa [hc] using hx) hacc
  · intro hlost hprim
    rw [hpending, Known.reads_append]
    exact ⟨h.reads hlost hprim, hnext hlost hprim, trivial⟩
  · rw [promised, hpending, Known.after_append]
    rfl

lemma activate_log {c : Client} (h : c.isPrimary = false) : ∃ b l,
    c.activate.2.log = c.log ++ .subscribed b :: l ∧ (l = [] ∨ l = [.onEvent .active]) := by
  have hsub : ∀ d : Client, ∃ b l, d.subscribeToCommands.2.log = d.log ++ .subscribed b :: l ∧
      (l = [] ∨ l = [.onEvent .active]) := by
    intro d
    have hact : ∀ e : Client, e.activated.log = e.log ∨
        e.activated.log = e.log ++ [.onEvent .active] := by
      intro e
      unfold activated
      split
      · exact .inr rfl
      · exact .inl rfl
    simp only [subscribeToCommands]
    split <;> split
    · exact ⟨false, [], by simp [commandsResult, emit], .inl rfl⟩
    · rcases hact ((d.asked .code).commandsResult true) with h | h
      · exact ⟨true, [], by rw [h]; simp [commandsResult, emit], .inl rfl⟩
      · exact ⟨true, _, by rw [h]; simp [commandsResult, emit], .inr rfl⟩
    · exact ⟨false, [], by simp [commandsResult, emit], .inl rfl⟩
    · exact ⟨true, [], by simp [commandsResult, emit], .inl rfl⟩
    · exact ⟨false, [], by simp [commandsResult, emit], .inl rfl⟩
    · exact ⟨true, [], by simp [commandsResult, emit], .inl rfl⟩
  obtain ⟨b, l, hlog, hl⟩ := hsub (c.setPrimary true)
  refine ⟨b, l, ?_, hl⟩
  rw [Client.activate, if_neg (by simp [h])]
  simp only
  split <;> exact hlog

/-- A client with nothing in its queue is activated. -/
lemma Orderly.activate {c : Client} (h : Orderly c) (hp : c.isPrimary = false)
    (hq : c.publishQueue = []) : Orderly c.activate.2 := by
  obtain ⟨b, l, hlog, hl⟩ := activate_log hp
  have hqueue : c.activate.2.publishQueue = [] := (activate_cases hp).1.trans hq
  have hsent : sent c.activate.2.log = (sent c.log).next (.subscribed b) := by
    rw [hlog, sent_append]
    rcases hl with rfl | rfl <;> rfl
  have hwire : InOrder c.activate.2.wire := by
    rw [Client.wire, hsent]
    cases b with
    | false => exact h.wire
    | true => exact inOrder_nil
  refine ⟨?_, ?_, ?_, hwire, ?_⟩ <;> simp [hqueue, pending, Known.Reads]

end Client

end Sparkplug
