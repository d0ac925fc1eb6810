import Sparkplug.Handles
import Sparkplug.Ledger
import Sparkplug.Recursion

/-!
The lifetimes of requests.

A request is destroyed with the report of what became of it. By then `publishMessage` may
still be at work on it: what it calls when the library refuses the message can give the
request up before it returns. The log has one entry for uses between which nothing else
happens.
-/

namespace Sparkplug

/-- The request whose fields an effect reads or writes. -/
def Effect.used : Effect → Option ℕ
  | .access id => some id
  | .attempt a => some a.request.id
  | .delivered r | .undelivered r => some r.id
  | _ => none

def Effect.destroyed : Effect → Option ℕ
  | .delivered r | .undelivered r => some r.id
  | _ => none

/-! ### What the library makes of a request -/

/-- A request with `n` retries left is given up by its own publish: each time a payload is
encoded the library refuses it, with the connection up in between, until no retry is left or
the connection is down. -/
def GivenUp (kind : ClientKind) (n : ℕ) (l : Answers) : Prop :=
  ∃ j ≤ n, (∀ i ≤ j, 0 < l.encoded.get i ∧ (l.send.get i).refused kind = true) ∧
    (∀ i < j, l.connected.get i = true) ∧ (j = n ∨ l.connected.get j = false)

/-- The first message decides. -/
lemma GivenUp.at_once {kind : ClientKind} {n : ℕ} {l : Answers}
    (h : 0 < l.encoded.head ∧ l.send.head.refused kind = true)
    (hend : n = 0 ∨ l.connected.head = false) : GivenUp kind n l := by
  refine ⟨0, Nat.zero_le n, fun i hi => ?_, by simp, hend.imp Eq.symm id⟩
  obtain rfl := Nat.le_zero.mp hi
  exact h

lemma givenUp_zero {kind : ClientKind} {l : Answers} :
    GivenUp kind 0 l ↔ 0 < l.encoded.head ∧ l.send.head.refused kind = true := by
  refine ⟨?_, fun h => .at_once h (.inl rfl)⟩
  rintro ⟨j, -, h, -⟩
  exact h 0 (Nat.zero_le j)

/-- The first message is refused, and the connection is down or the rest of the retries fail
too. -/
lemma givenUp_succ {kind : ClientKind} {n : ℕ} {l : Answers} : GivenUp kind (n + 1) l ↔
    (0 < l.encoded.head ∧ l.send.head.refused kind = true) ∧
      (l.connected.head = false ∨ GivenUp kind n l.sent.pastLink) := by
  constructor
  · rintro ⟨j, hj, hrefused, hup, hend⟩
    refine ⟨hrefused 0 (Nat.zero_le j), ?_⟩
    rcases j with _ | j
    · exact .inl (hend.resolve_left (by omega))
    · refine .inr ⟨j, by omega, fun i hi => hrefused (i + 1) (by omega),
        fun i hi => hup (i + 1) (by omega), hend.imp (by omega) id⟩
  · rintro ⟨h0, hdown | ⟨j, hj, hrefused, hup, hend⟩⟩
    · exact .at_once h0 (.inr hdown)
    · cases hc : l.connected.head with
      | false => exact .at_once h0 (.inr hc)
      | true =>
        refine ⟨j + 1, by omega, fun i hi => ?_, fun i hi => ?_, hend.imp (by omega) id⟩
        · rcases i with _ | i
          · exact h0
          · exact hrefused i (by omega)
        · rcases i with _ | i
          · exact hc
          · exact hup i (by omega)

namespace Client

open Ledger

/-- The requests of the queue that are not passed to `destroyRequest` yet. -/
def handles (c : Client) : Set ℕ := {id | id ∈ c.publishQueue.map PublishRequest.id}

/-- The front request is given up by its publish. -/
def Dooms (c : Client) : Prop :=
  c.state ≠ .disconnected ∧
    ∃ r ∈ c.publishQueue.head?, GivenUp c.kind (publishRetries - r.retryCount) c.lib

/-- The front request, whose message was refused, is given up at once or by its retry. -/
def DoomsFailed (c : Client) : Prop :=
  ∃ r ∈ c.publishQueue.head?, publishRetries ≤ r.retryCount ∨ c.isConnected = false ∨
    c.state ≠ .disconnected ∧ GivenUp c.kind (publishRetries - (r.retryCount + 1)) c.lib.pastLink

/-- Publishing from the queue gives the front request up. -/
def DoomsFront (c : Client) : Prop :=
  c.isConnected = true ∧ c.isPrimary = true ∧ (c.asked .connected).Dooms

lemma givenUp_iff {kind : ClientKind} {k : ℕ} {l : Answers} :
    GivenUp kind (publishRetries - k) l ↔ (0 < l.encoded.head ∧ l.send.head.refused kind = true) ∧
      (publishRetries ≤ k ∨ l.connected.head = false ∨
        GivenUp kind (publishRetries - (k + 1)) l.sent.pastLink) := by
  by_cases hk : publishRetries ≤ k
  · rw [Nat.sub_eq_zero_of_le hk, givenUp_zero]
    simp [hk]
  · obtain ⟨n, hn⟩ : ∃ n, publishRetries - k = n + 1 := ⟨publishRetries - k - 1, by omega⟩
    have hn' : publishRetries - (k + 1) = n := by omega
    rw [hn, hn', givenUp_succ]
    simp [hk]

/-- From `c` to `d` only requests of the queue were used, and none was destroyed. -/
def Untouched (c d : Client) : Prop :=
  ∃ l, d.log = c.log ++ l ∧ (∀ e ∈ l, e.destroyed = none) ∧
    (∀ e ∈ l, ∀ id ∈ e.used, id ∈ c.handles) ∧ d.publishQueue.map (·.id) = c.publishQueue.map (·.id)

/-- A request was destroyed. -/
def Destroys (id : ℕ) (c d : Client) : Prop :=
  ∃ l, d.log = c.log ++ l ∧ id ∈ Handles.gone Effect.destroyed l

/-- A request was used after it was destroyed. -/
def Betrays (id : ℕ) (c d : Client) : Prop :=
  ∃ l m, d.log = c.log ++ (l ++ m) ∧ id ∈ Handles.gone Effect.destroyed l ∧
    ∃ f ∈ m, f.used = some id

section Relations

variable {b c d : Client} {id : ℕ}

lemma front_mem_handles {r : PublishRequest} {rest : List PublishRequest}
    (hq : c.publishQueue = r :: rest) : r.id ∈ c.handles := by
  simp [handles, hq]

/-- Nothing but accesses to the front request, and no change of the queue. -/
lemma Untouched.of_front (l : List Effect) (hl : d.log = c.log ++ l)
    (hq : d.publishQueue.map (·.id) = c.publishQueue.map (·.id))
    (h : ∀ e ∈ l, e.destroyed = none ∧ ∀ id ∈ e.used, id ∈ c.handles) : Untouched c d :=
  ⟨l, hl, fun e he => (h e he).1, fun e he => (h e he).2, hq⟩

lemma Untouched.refl (c : Client) : Untouched c c := .of_front [] (by simp) rfl (by simp)

lemma Untouched.trans (h : Untouched b c) (k : Untouched c d) : Untouched b d := by
  obtain ⟨l, hl, hnone, hused, hids⟩ := h
  obtain ⟨m, hm, knone, kused, kids⟩ := k
  have hhandles : c.handles = b.handles := by
    unfold handles
    rw [hids]
  refine ⟨l ++ m, by rw [hm, hl, List.append_assoc], fun e he => ?_, fun e he => ?_,
    kids.trans hids⟩
  · exact (List.mem_append.mp he).elim (hnone e) (knone e)
  · exact (List.mem_append.mp he).elim (hused e) fun he => hhandles ▸ kused e he

lemma Betrays.destroys (h : Betrays id c d) : Destroys id c d := by
  obtain ⟨l, m, hlog, hgone, -⟩ := h
  exact ⟨l ++ m, hlog, Handles.gone_append ▸ .inl hgone⟩

lemma Destroys.after (h : Destroys id c d) {k : List Effect} (hk : c.log = b.log ++ k) :
    Destroys id b d := by
  obtain ⟨l, hl, hgone⟩ := h
  exact ⟨k ++ l, by rw [hl, hk, List.append_assoc], Handles.gone_append ▸ .inr hgone⟩

lemma Betrays.after (h : Betrays id c d) {k : List Effect} (hk : c.log = b.log ++ k) :
    Betrays id b d := by
  obtain ⟨l, m, hlog, hgone, hf⟩ := h
  exact ⟨k ++ l, m, by simp [hlog, hk], Handles.gone_append ▸ .inr hgone, hf⟩

/-- The token of a destroyed request is read. -/
lemma Destroys.access (h : Destroys id c d) : Betrays id c (d.emit (.access id)) := by
  obtain ⟨l, hl, hgone⟩ := h
  exact ⟨l, [.access id], by simp [emit, hl], hgone, .access id, by simp, rfl⟩

lemma tried_untouched {r : PublishRequest} {rest : List PublishRequest}
    (hq : c.publishQueue = r :: rest) (o : Outcome) {f : PublishRequest → PublishRequest}
    (hf : (f r).id = r.id) (lib : Answers) : Untouched c (c.tried r o f lib) := by
  have hmem := front_mem_handles hq
  refine .of_front (attemptLog c r o) rfl (by simp [tried, hq, hf]) ?_
  simp [attemptLog, Effect.destroyed, Effect.used, hmem]

lemma refusedFront_untouched {r : PublishRequest} {rest : List PublishRequest}
    (hq : c.publishQueue = r :: rest) : Untouched c (c.refusedFront r) :=
  tried_untouched hq .refused (refusedWith_id ..) _

lemma access_untouched {r : PublishRequest} {rest : List PublishRequest}
    (hq : c.publishQueue = r :: rest) (h : Untouched c d) :
    Untouched c (d.emit (.access r.id)) := by
  obtain ⟨l, hl, hnone, hused, hids⟩ := h
  have hmem := front_mem_handles hq
  refine .of_front (l ++ [.access r.id]) (by simp [emit, hl]) hids fun e he => ?_
  rcases List.mem_append.mp he with he | he
  · exact ⟨hnone e he, hused e he⟩
  · obtain rfl := List.mem_singleton.mp he
    exact ⟨rfl, by simpa [Effect.used] using hmem⟩

end Relations

/-! ### Clients of the third class -/

/-- What each of the three does to the requests of the third class, by whether the front
request is given up. -/
def PublishUses (c d : Client) : Prop := c.kind = .cppMqtt →
  (¬c.DoomsFront → Untouched c d) ∧ (c.DoomsFront → ∃ id, Betrays id c d)

def ProcessUses (c d : Client) : Prop := c.kind = .cppMqtt →
  (¬c.Dooms → Untouched c d) ∧ (c.Dooms → ∀ r ∈ c.publishQueue.head?, Betrays r.id c d)

def FailUses (c d : Client) : Prop := c.kind = .cppMqtt →
  (¬c.DoomsFailed → Untouched c d) ∧
    (c.DoomsFailed → ∀ r ∈ c.publishQueue.head?, Destroys r.id c d)

lemma PublishUses.log {c d : Client} (hk : c.kind = .cppMqtt) (h : PublishUses c d) :
    ∃ l, d.log = c.log ++ l := by
  by_cases hc : c.DoomsFront
  · obtain ⟨_, l, m, hl, -⟩ := (h hk).2 hc
    exact ⟨_, hl⟩
  · obtain ⟨l, hl, -⟩ := (h hk).1 hc
    exact ⟨l, hl⟩

lemma dooms_iff {c : Client} {r : PublishRequest} {rest : List PublishRequest}
    (hq : c.publishQueue = r :: rest) (hs : c.state ≠ .disconnected) :
    c.Dooms ↔ (0 < c.encodedLength ∧ c.sendAnswer.refused c.kind = true) ∧
      (c.refusedFront r).DoomsFailed := by
  have hfront : (c.refusedFront r).publishQueue.head? =
      some (r.refusedWith c.sendAnswer c.kind) := by
    rw [refusedFront_queue hq, List.head?_cons]
  have hcount := refusedWith_retryCount r c.sendAnswer c.kind
  have hstate : (c.refusedFront r).state ≠ .disconnected := by simp [refusedFront, tried]
  simp only [Dooms, DoomsFailed, hq, hs, hfront, hstate, List.head?_cons, Option.mem_some,
    exists_eq_left', hcount, ne_eq, not_false_eq_true, true_and]
  exact givenUp_iff

lemma asked_untouched (c : Client) (q : Question) : Untouched c (c.asked q) :=
  .of_front [] (by simp) (by simp) (by simp)

lemma skipped_untouched (c : Client) (r : PublishRequest) : Untouched c (c.emit (.skipped r)) :=
  .of_front [.skipped r] rfl rfl (by simp [Effect.destroyed, Effect.used])

lemma retried_untouched {c : Client} {r : PublishRequest} {rest : List PublishRequest}
    (hq : c.publishQueue = r :: rest) : Untouched c (c.retriedFront r) := by
  have hmem := front_mem_handles hq
  refine .of_front [.access r.id] (by simp [retriedFront, modifyFront, emit])
    (by rw [retriedFront_queue hq, hq]; rfl) ?_
  simp [Effect.destroyed, Effect.used, hmem]

/-- A front request that is given up is destroyed, whatever is published then. -/
lemma destroys_of_giveUp {c c' d : Client} {r : PublishRequest}
    (h : PublishUses c' d) (hk : c'.kind = .cppMqtt)
    (hlog : c'.log = c.log ++ [.access r.id, .undelivered r]) : Destroys r.id c d := by
  obtain ⟨l, hl⟩ := h.log hk
  refine ⟨[.access r.id, .undelivered r] ++ l, by rw [hl, hlog, List.append_assoc], ?_⟩
  exact ⟨.undelivered r, by simp, rfl⟩

lemma retriedFront_dooms_iff {c : Client} {r : PublishRequest} {rest : List PublishRequest}
    (hq : c.publishQueue = r :: rest) : (c.retriedFront r).Dooms ↔ c.state ≠ .disconnected ∧
      GivenUp c.kind (publishRetries - (r.retryCount + 1)) c.lib.pastLink := by
  simp [Dooms, retriedFront, modifyFront, asked, emit, Answers.pastLink, hq]

lemma uses_rounds : Rounds PublishUses ProcessUses FailUses where
  away c hc _ := ⟨fun _ => c.asked_untouched _, fun h => absurd (hc.symm.trans h.1) (by simp)⟩
  idle c _ hidle := by
    have hno : ¬c.DoomsFront := by
      rintro ⟨-, hp, -, r, hr, -⟩
      rcases hidle with h | h
      · exact absurd (h.symm.trans hp) (by simp)
      · simp [h] at hr
    refine ⟨fun _ => ⟨fun _ => c.asked_untouched _, fun h => absurd h hno⟩, fun _ _ => ?_⟩
    exact ⟨fun _ => .of_front [] (by simp) (by simp) (by simp), fun h => absurd h hno⟩
  publish c r rest d hq hc hp h hk := by
    obtain ⟨hsafe, hbad⟩ := h hk
    refine ⟨fun hn => ?_, fun hn => ⟨r.id, ?_⟩⟩
    · exact (c.asked_untouched _).trans (hsafe fun hd => hn ⟨hc, hp, hd⟩)
    · exact (hbad hn.2.2 r (by simp [hq])).after (k := []) (by simp)
  skipped c r rest _ hs _ := ⟨fun _ => c.skipped_untouched r, fun h => absurd hs h.1⟩
  unencoded c r rest hq hs he _ := by
    have hno : ¬c.Dooms := fun h => absurd ((dooms_iff hq hs).mp h).1.1 (by omega)
    exact ⟨fun _ => tried_untouched hq _ rfl _, fun h => absurd h hno⟩
  accepted c r rest hq hs _ ha hk := by
    have hno : ¬c.Dooms := fun h =>
      absurd (ha.symm.trans ((dooms_iff hq hs).mp h).1.2) (by simp)
    have hret : c.returned r (c.acceptedFront r) = (c.acceptedFront r).emit (.access r.id) := by
      simp [returned, hk]
    rw [hret]
    exact ⟨fun _ => access_untouched hq (tried_untouched hq _ (by rfl) _), fun h => absurd h hno⟩
  refused c r rest _ _ _ _ hasync hk := by
    rw [hk] at hasync
    cases hasync
  failed c r rest d hq hs he ha hasync h hk := by
    obtain ⟨hsafe, hbad⟩ := h hk
    have hret : c.returned r d = d.emit (.access r.id) := by simp [returned, hk]
    rw [hret]
    have hdooms := dooms_iff hq hs
    refine ⟨fun hn => ?_, fun hd q hr => ?_⟩
    · have hno : ¬(c.refusedFront r).DoomsFailed := fun hf => hn (hdooms.mpr ⟨⟨he, ha⟩, hf⟩)
      exact access_untouched hq ((refusedFront_untouched hq).trans (hsafe hno))
    · -- the outer frame reads the token of the request that was given up
      obtain rfl : r = q := by simpa [hq] using hr
      have hfront := hbad (hdooms.mp hd).2 (r.refusedWith c.sendAnswer c.kind)
        (by simp [refusedFront_queue hq])
      rw [refusedWith_id] at hfront
      exact (hfront.after rfl).access
  giveUp c r rest d hq hr h hk := by
    refine ⟨fun hn => absurd ⟨r, by simp [hq], .inl hr⟩ hn, fun _ q hq' => ?_⟩
    obtain rfl : r = q := by simpa [hq] using hq'
    exact destroys_of_giveUp h hk (by simp [exhaustedFront, resolveFront, emit])
  lost c r rest d hq hr hc h hk := by
    refine ⟨fun hn => absurd ⟨r, by simp [hq], .inr (.inl hc)⟩ hn, fun _ q hq' => ?_⟩
    obtain rfl : r = q := by simpa [hq] using hq'
    exact destroys_of_giveUp h hk (by simp [lostFront, resolveFront, emit])
  retry c r rest d hq hr hc h hk := by
    obtain ⟨hsafe, hbad⟩ := h hk
    have hlog : (c.retriedFront r).log = c.log ++ [.access r.id] := by
      simp [retriedFront, modifyFront, emit]
    have hdooms : c.DoomsFailed ↔ (c.retriedFront r).Dooms := by
      simp [DoomsFailed, hq, hc, not_le.mpr hr, retriedFront_dooms_iff hq]
    refine ⟨fun hn => ?_, fun hn q hq' => ?_⟩
    · exact (retried_untouched hq).trans (hsafe (mt hdooms.mpr hn))
    · obtain rfl : r = q := by simpa [hq] using hq'
      have hfront := hbad (hdooms.mp hn) { r with retryCount := r.retryCount + 1 }
        (by simp [retriedFront_queue hq])
      exact hfront.destroys.after hlog

/-! ### Careful clients -/

/-- From `c` to `d` only live requests were used, and those still alive are queued. -/
def Careful (c d : Client) : Prop := (c.publishQueue.map (·.id)).Nodup →
  ∃ l, d.log = c.log ++ l ∧ Handles.UsesLive Effect.used Effect.destroyed c.handles l ∧
    c.handles \ Handles.gone Effect.destroyed l = d.handles ∧ (d.publishQueue.map (·.id)).Nodup

lemma Untouched.careful {c d : Client} (h : Untouched c d) : Careful c d := by
  obtain ⟨l, hl, hnone, hused, hids⟩ := h
  refine fun hn => ⟨l, hl, Handles.usesLive_of_none hnone hused, ?_, hids ▸ hn⟩
  rw [Handles.gone_eq_empty hnone, Set.sdiff_empty, handles, handles, hids]

lemma Careful.trans {b c d : Client} (h : Careful b c) (k : Careful c d) : Careful b d := by
  intro hb
  obtain ⟨l, hl, huses, hgone, hc⟩ := h hb
  obtain ⟨m, hm, kuses, kgone, hd⟩ := k hc
  refine ⟨l ++ m, by rw [hm, hl, List.append_assoc], ?_, ?_, hd⟩
  · exact Handles.usesLive_append.mpr ⟨huses, hgone.symm ▸ kuses⟩
  · rw [Handles.gone_append, ← Set.sdiff_sdiff, hgone, kgone]

lemma resolveFront_careful {c : Client} {r : PublishRequest} {rest : List PublishRequest}
    (hq : c.publishQueue = r :: rest) : Careful c (c.resolveFront (.undelivered r)) := by
  intro hn
  have hrest : (c.resolveFront (.undelivered r)).publishQueue = rest := by simp [resolveFront, hq]
  rw [hq, List.map_cons, List.nodup_cons] at hn
  refine ⟨[.undelivered r], rfl, ⟨?_, trivial⟩, ?_, hrest.symm ▸ hn.2⟩
  · simpa [Effect.used] using front_mem_handles hq
  · have hgone : Handles.gone Effect.destroyed [.undelivered r] = {r.id} := by
      ext id
      simp [Handles.gone, Effect.destroyed, eq_comm]
    rw [hgone, handles, handles, hq, hrest, List.map_cons]
    ext id
    refine ⟨fun h => (List.mem_cons.mp h.1).resolve_left h.2, fun h => ?_⟩
    refine ⟨List.mem_cons_of_mem _ h, ?_⟩
    rintro rfl
    exact hn.1 h

lemma exhaustedFront_careful {c : Client} {r : PublishRequest} {rest : List PublishRequest}
    (hq : c.publishQueue = r :: rest) : Careful c (c.exhaustedFront r) := by
  have haccess := access_untouched hq (Untouched.refl c)
  exact haccess.careful.trans (resolveFront_careful (c := c.emit (.access r.id)) hq)

lemma lostFront_careful {c : Client} {r : PublishRequest} {rest : List PublishRequest}
    (hq : c.publishQueue = r :: rest) : Careful c (c.lostFront r) := by
  have haccess := access_untouched hq (Untouched.refl c)
  have hasked := haccess.trans (asked_untouched _ .connected)
  exact hasked.careful.trans
    (resolveFront_careful (c := (c.emit (.access r.id)).asked .connected) hq)

/-- `PahoSyncClient` reads nothing of a request after its publish. -/
lemma careful_rounds : Rounds (fun c d => c.kind = .pahoSync → Careful c d)
    (fun c d => c.kind = .pahoSync → Careful c d)
    (fun c d => c.kind = .pahoSync → Careful c d) where
  away c _ _ := (c.asked_untouched _).careful
  idle c _ _ := ⟨fun _ => (c.asked_untouched _).careful, fun _ _ =>
    (Untouched.of_front [] (by simp) (by simp) (by simp)).careful⟩
  publish c r rest d _ _ _ h hk := (c.asked_untouched _).careful.trans (h hk)
  skipped c r rest _ _ _ := (c.skipped_untouched r).careful
  unencoded c r rest hq _ _ _ := (tried_untouched hq _ rfl _).careful
  accepted c r rest hq _ _ _ hk := by
    have hret : c.returned r (c.acceptedFront r) = c.acceptedFront r := by simp [returned, hk]
    rw [hret]
    exact (tried_untouched hq _ (by rfl) _).careful
  refused c r rest hq _ _ _ _ _ := (refusedFront_untouched hq).careful
  failed c r rest d hq _ _ _ _ h hk := by
    have hret : c.returned r d = d := by simp [returned, hk]
    rw [hret]
    exact (refusedFront_untouched hq).careful.trans (h hk)
  giveUp c r rest d hq _ h hk := (exhaustedFront_careful hq).trans (h hk)
  lost c r rest d hq _ _ h hk := (lostFront_careful hq).trans (h hk)
  retry c r rest d hq _ _ h hk := (retried_untouched hq).careful.trans (h hk)

/-! ### Verdicts -/

/-- The requests between `c` and `d` are used as they are to be, unless `doomed`. -/
def Verdict (doomed : Prop) (c d : Client) : Prop :=
  (¬doomed → Careful c d) ∧ (doomed → ∃ id, Betrays id c d)

section Verdicts

variable {b c d : Client} {doomed : Prop}

lemma Verdict.after (h : Verdict doomed c d) (hb : (b.publishQueue.map (·.id)).Nodup)
    (k : Careful b c) : Verdict doomed b d := by
  obtain ⟨l, hl, -⟩ := k hb
  exact ⟨fun hn => k.trans (h.1 hn), fun hd => (h.2 hd).imp fun _ hbetrays => hbetrays.after hl⟩

lemma Verdict.usesLive_iff (h : Verdict doomed c d) (hc : (c.publishQueue.map (·.id)).Nodup) :
    Handles.UsesLive Effect.used Effect.destroyed c.handles (effects c d) ↔ ¬doomed := by
  by_cases hd : doomed
  · obtain ⟨id, l, m, hlog, hgone, f, hf, hu⟩ := h.2 hd
    rw [effects_eq hlog]
    exact iff_of_false (Handles.not_usesLive hgone hf hu) (not_not_intro hd)
  · obtain ⟨l, hl, huses, -⟩ := h.1 hd hc
    rw [effects_eq hl]
    exact iff_of_true huses hd

lemma Verdict.congr {P : Prop} (h : Verdict P c d) (hP : P ↔ doomed) : Verdict doomed c d :=
  propext hP ▸ h

lemma Untouched.verdict (h : Untouched c d) (hd : ¬doomed) : Verdict doomed c d :=
  ⟨fun _ => h.careful, fun h => absurd h hd⟩

lemma publishFromQueue_verdict (hk : c.kind ≠ .pahoAsync) :
    Verdict (c.kind = .cppMqtt ∧ c.DoomsFront) c c.publishFromQueue := by
  cases hkind : c.kind with
  | pahoAsync => exact absurd hkind hk
  | pahoSync => exact ⟨fun _ => careful_rounds.publishFromQueue c hkind, by simp⟩
  | cppMqtt =>
    obtain ⟨hsafe, hbad⟩ := uses_rounds.publishFromQueue c hkind
    exact ⟨fun hn => (hsafe fun hd => hn ⟨rfl, hd⟩).careful, fun hd => hbad hd.2⟩

lemma processRequest_verdict (hk : c.kind ≠ .pahoAsync) {r : PublishRequest}
    {rest : List PublishRequest} (hq : c.publishQueue = r :: rest) :
    Verdict (c.kind = .cppMqtt ∧ c.Dooms) c (c.processRequest r) := by
  cases hkind : c.kind with
  | pahoAsync => exact absurd hkind hk
  | pahoSync => exact ⟨fun _ => careful_rounds.processRequest hq hkind, by simp⟩
  | cppMqtt =>
    obtain ⟨hsafe, hbad⟩ := uses_rounds.processRequest hq hkind
    exact ⟨fun hn => (hsafe fun hd => hn ⟨rfl, hd⟩).careful,
      fun hd => ⟨r.id, hbad hd.2 r (by simp [hq])⟩⟩

end Verdicts

/-! ### The operations on the queue -/

inductive QueueCall
  | publishFromQueue
  | request (r : PublishRequest)
  | onDeliveryFailure (token : ℤ)

namespace QueueCall

/-- The queue the operation works on. A request passed to the client is appended to it. -/
def taken (c : Client) : QueueCall → Client
  | request r => c.enqueue r
  | publishFromQueue | onDeliveryFailure _ => c

def perform (c : Client) : QueueCall → Client
  | publishFromQueue => c.publishFromQueue
  | request r => c.request r
  | onDeliveryFailure token => c.onDeliveryFailure token

/-- A request that is published in the operation is given up by its own publish: the front
one, the new one of an empty queue, the front one after a failure, or the next one if that
is given up at once. -/
def Dooms (c : Client) : QueueCall → Prop
  | publishFromQueue => c.DoomsFront
  | request r => c.publishQueue = [] ∧ c.isConnected = true ∧
      ((c.enqueue r).asked .connected).DoomsFront
  | onDeliveryFailure token => ∃ r ∈ c.publishQueue.head?, r.token = token ∧
      if publishRetries ≤ r.retryCount then
        DoomsFront { c with publishQueue := c.publishQueue.tail }
      else if c.isConnected then c.state ≠ .disconnected ∧
        GivenUp c.kind (publishRetries - (r.retryCount + 1)) c.lib.pastLink
      else DoomsFront { c.asked .connected with publishQueue := c.publishQueue.tail }

end QueueCall

lemma request_verdict {c : Client} (hk : c.kind ≠ .pahoAsync) (r : PublishRequest)
    (hn : ((c.enqueue r).publishQueue.map (·.id)).Nodup) :
    Verdict (c.kind = .cppMqtt ∧ (QueueCall.request r).Dooms c) (c.enqueue r) (c.request r) := by
  have hasked := (c.enqueue r).asked_untouched .connected
  have hlen : (c.enqueue r).publishQueue.length = 1 ↔ c.publishQueue = [] := by
    simp [enqueue]
  simp only [request, hlen]
  split
  · next hq =>
    split
    · next hc =>
      have hverdict := publishFromQueue_verdict (c := (c.enqueue r).asked .connected) hk
      refine (hverdict.after hn hasked.careful).congr (and_congr_right fun _ => ?_)
      exact ⟨fun h => ⟨hq, hc, h⟩, fun h => h.2.2⟩
    · next hc => exact hasked.verdict fun h => hc h.2.2.1
  · next hq => exact (Untouched.refl _).verdict fun h => hq h.2.1

lemma onDeliveryFailure_verdict {c : Client} (hk : c.kind ≠ .pahoAsync) (token : ℤ)
    (hn : (c.publishQueue.map (·.id)).Nodup) :
    Verdict (c.kind = .cppMqtt ∧ (QueueCall.onDeliveryFailure token).Dooms c) c
      (c.onDeliveryFailure token) := by
  rw [onDeliveryFailure_eq, onDeliveryFailureWith]
  rcases hq : c.publishQueue with _ | ⟨r, rest⟩
  · refine (Untouched.refl c).verdict ?_
    rintro ⟨-, q, hmem, -⟩
    simp [hq] at hmem
  have haccess := access_untouched hq (Untouched.refl c)
  have hdooms : (QueueCall.onDeliveryFailure token).Dooms c ↔ r.token = token ∧
      if publishRetries ≤ r.retryCount then
        DoomsFront { c with publishQueue := c.publishQueue.tail }
      else if c.isConnected then c.state ≠ .disconnected ∧
        GivenUp c.kind (publishRetries - (r.retryCount + 1)) c.lib.pastLink
      else DoomsFront { c.asked .connected with publishQueue := c.publishQueue.tail } := by
    simp [QueueCall.Dooms, hq]
  rw [hdooms]
  by_cases ht : r.token = token
  · by_cases hr : publishRetries ≤ r.retryCount
    · simp only [if_pos ht, if_pos hr]
      have hverdict := publishFromQueue_verdict (c := c.exhaustedFront r) hk
      refine (hverdict.after hn (exhaustedFront_careful hq)).congr (and_congr_right fun _ => ?_)
      exact ⟨fun h => ⟨ht, h⟩, fun h => h.2⟩
    · cases hc : c.isConnected with
      | true =>
        have hup : (c.emit (.access r.id)).isConnected = true := hc
        simp only [if_pos ht, if_neg hr, hup, if_true]
        have hverdict := processRequest_verdict (c := c.retriedFront r) hk (retriedFront_queue hq)
        refine (hverdict.after hn (retried_untouched hq).careful).congr
          (and_congr_right fun _ => ?_)
        exact (retriedFront_dooms_iff hq).trans ⟨fun h => ⟨ht, h⟩, fun h => h.2⟩
      | false =>
        have hdown : (c.emit (.access r.id)).isConnected = false := hc
        simp only [if_pos ht, if_neg hr, hdown, Bool.false_eq_true, if_false]
        have hverdict := publishFromQueue_verdict (c := c.lostFront r) hk
        refine (hverdict.after hn (lostFront_careful hq)).congr (and_congr_right fun _ => ?_)
        exact ⟨fun h => ⟨ht, h⟩, fun h => h.2⟩
  · simp only [if_neg ht]
    exact haccess.verdict fun h => ht h.2.1

/-- **No destroyed request is used** by a `PahoSyncClient`, and none by a `CppMqttClient`
unless a request is given up by its own publish. -/
theorem requestsLive_iff {c : Client} (hk : c.kind ≠ .pahoAsync) (a : QueueCall)
    (hn : ((a.taken c).publishQueue.map (·.id)).Nodup) :
    Handles.UsesLive Effect.used Effect.destroyed (a.taken c).handles (effects c (a.perform c)) ↔
      ¬(c.kind = .cppMqtt ∧ a.Dooms c) := by
  cases a with
  | publishFromQueue => exact (publishFromQueue_verdict hk).usesLive_iff hn
  | request r => exact (request_verdict hk r hn).usesLive_iff hn
  | onDeliveryFailure token => exact (onDeliveryFailure_verdict hk token hn).usesLive_iff hn

/-- A primary client of the third class with one request and these answers to its messages. -/
def oneRequest (send : Stream' SendAnswer) : Client where
  kind := .cppMqtt
  state := .connected
  isPrimary := true
  publishQueue := [{ id := 0, isBirth := true, publisher := .node, topic := [] }]
  lib := { send }

/-- A message is refused once. -/
def refusedOnce : Client := oneRequest (.cons ⟨0, -1⟩ (.const ⟨0, 1⟩))

theorem refusedOnce_usesLive : Handles.UsesLive Effect.used Effect.destroyed refusedOnce.handles
    (effects refusedOnce refusedOnce.publishFromQueue) := by
  refine (requestsLive_iff (c := refusedOnce) (by decide) .publishFromQueue (by decide)).mpr ?_
  rintro ⟨-, -, -, -, r, hr, j, -, hrefused, -, hend⟩
  obtain rfl := Option.some.inj hr
  rcases j with _ | j
  · rcases hend with h | h <;> cases h
  · exact absurd (hrefused 1 (by omega)).2 (by decide)

/-- Every message is refused. -/
def alwaysRefused : Client := oneRequest (.const ⟨0, -1⟩)

/-- The request is given up, and then the six frames of `publishMessage` read its token. -/
theorem alwaysRefused_not_usesLive : ¬Handles.UsesLive Effect.used Effect.destroyed
    alwaysRefused.handles (effects alwaysRefused alwaysRefused.publishFromQueue) := by
  rw [← List.take_append_drop 25 (effects alwaysRefused _)]
  refine Handles.not_usesLive (i := 0) (f := .access 0)
    ⟨.undelivered ⟨0, true, .node, [], -1, 5, false⟩, ?_, rfl⟩ ?_ rfl
  · decide
  · decide

end Client

end Sparkplug
