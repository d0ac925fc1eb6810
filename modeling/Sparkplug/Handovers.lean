import Sparkplug.Primary
import Sparkplug.Recursion
import Sparkplug.Sequence

/-!
What a synchronizing client hands to its library.

`PahoSyncClient::sync` may publish from the queue twice in one call, the second time without
knowing what came of the first. How publishing from a queue ends is said first in terms of
the library's answers alone.
-/

namespace Sparkplug

/-! ### How publishing ends -/

/-- Nothing is published any more, no payload was encoded for the front request, or the
library has taken its message. -/
inductive PublishEnd
  | idle | unencoded | taken
  deriving DecidableEq

namespace Answers

/-- One message: it is not encoded, or the library takes it or refuses it. -/
def message (l : Answers) (refused : Answers → PublishEnd × Answers) : PublishEnd × Answers :=
  if l.encoded.head = 0 then (.unencoded, l.unsent)
  else if l.send.head.refused .pahoSync then refused l.sent
  else (.taken, l.sent)

section Retries

variable (next : Answers → PublishEnd × Answers)

/-- A request with `n` retries left. What comes after it has been given up is `next`. -/
def process : ℕ → Answers → PublishEnd × Answers
  | 0, l => l.message next
  | n + 1, l => l.message fun l =>
      if l.connected.head then process n l.pastLink else next l.pastLink

/-- A refused request with `n` retries left. -/
def failure : ℕ → Answers → PublishEnd × Answers
  | 0, l => next l
  | n + 1, l => if l.connected.head then process next n l.pastLink else next l.pastLink

lemma process_eq (n : ℕ) (l : Answers) : process next n l = l.message (failure next n) := by
  cases n <;> rfl

end Retries

/-- A queue, by the retries its requests have left. The end comes with the answers left. -/
def publish : List ℕ → Answers → PublishEnd × Answers
  | [], l => (.idle, l.pastLink)
  | n :: ns, l =>
    if l.connected.head then process (publish ns) n l.pastLink else (.idle, l.pastLink)

lemma message_pending {l : Answers} {refused : Answers → PublishEnd × Answers}
    (h : ∀ l, (refused l).2.pending = l.pending) : (l.message refused).2.pending = l.pending := by
  unfold message
  split
  · rfl
  · split
    · exact h l.sent
    · rfl

lemma process_pending {next : Answers → PublishEnd × Answers}
    (h : ∀ l, (next l).2.pending = l.pending) (n : ℕ) (l : Answers) :
    (process next n l).2.pending = l.pending := by
  induction n generalizing l with
  | zero => exact message_pending h
  | succ n ih =>
    refine message_pending fun l => ?_
    split
    · exact ih l.pastLink
    · exact h l.pastLink

lemma publish_pending (ns : List ℕ) (l : Answers) : (publish ns l).2.pending = l.pending := by
  induction ns generalizing l with
  | nil => rfl
  | cons n ns ih =>
    unfold publish
    split
    · exact process_pending ih n l.pastLink
    · rfl

end Answers

/-! ### Hand-overs -/

/-- The attempts at which a message was handed to the library. -/
def handed (l : List Effect) : List Attempt :=
  (Sequence.attempts l).filter fun a => a.outcome ≠ .unencoded

/-- Between two hand-overs of a request the first one has failed. -/
def NoneTwice (as : List Attempt) : Prop :=
  as.Pairwise fun a b => a.request.id = b.request.id → a.outcome = .refused

instance (as : List Attempt) : Decidable (NoneTwice as) :=
  inferInstanceAs (Decidable (as.Pairwise _))

/-- Only requests whose message was accepted are delivered, and no request is handed over
again unless its last hand-over failed. -/
structure SentOnce (l : List Effect) : Prop where
  delivered : ∀ r, .delivered r ∈ l → r.accepted = true
  handed : NoneTwice (handed l)

lemma handed_append (l m : List Effect) : handed (l ++ m) = handed l ++ handed m := by
  simp [handed, Sequence.attempts_append]

namespace Client

open Ledger Sequence

/-- From `c` to `d` these messages were handed to the library. -/
def Hands (c d : Client) (as : List Attempt) : Prop := ∃ l, d.log = c.log ++ l ∧ handed l = as

section Hands

variable {b c d : Client} {as bs : List Attempt}

lemma Hands.trans (h : Hands b c as) (k : Hands c d bs) : Hands b d (as ++ bs) := by
  obtain ⟨l, hl, rfl⟩ := h
  obtain ⟨m, hm, rfl⟩ := k
  exact ⟨l ++ m, by rw [hm, hl, List.append_assoc], handed_append l m⟩

/-- Nothing is handed over in between. -/
lemma Hands.after (h : Hands c d as) (k : Hands b c []) : Hands b d as := k.trans h

lemma Hands.of_quiet (l : List Effect) (hl : d.log = c.log ++ l) (h : handed l = []) :
    Hands c d [] := ⟨l, hl, h⟩

lemma Hands.effects (h : Hands c d as) : handed (effects c d) = as := by
  obtain ⟨l, hl, rfl⟩ := h
  rw [effects_eq hl]

/-- What was handed over for one payload. -/
lemma tried_hands (c : Client) (r : PublishRequest) {o : Outcome} (ho : o ≠ .unencoded)
    (f : PublishRequest → PublishRequest) (lib : Answers) :
    ∃ a, Hands c (c.tried r o f lib) [a] ∧ a.request.id = r.id ∧ a.outcome = o := by
  have hatt : attempts (attemptLog c r o) =
      [⟨r, c.nextSeq r, if r.isNodeBirth then some c.bdSeq else none, o⟩] := rfl
  have hhanded : handed (attemptLog c r o) = attempts (attemptLog c r o) := by
    simp [handed, hatt, ho]
  exact ⟨_, ⟨attemptLog c r o, rfl, hhanded.trans hatt⟩, rfl, rfl⟩

end Hands

/-- The retries that the requests of a queue have left. -/
def retries (q : List PublishRequest) : List ℕ := q.map fun r => publishRetries - r.retryCount

/-- Every hand-over but the last has failed. -/
def FailedBefore (as : List Attempt) : Prop := as.Pairwise fun a _ => a.outcome = .refused

lemma FailedBefore.noneTwice {as : List Attempt} (h : FailedBefore as) : NoneTwice as := by
  refine List.Pairwise.imp ?_ h
  exact fun hout _ => hout

lemma FailedBefore.append {as bs : List Attempt} (h : ∀ a ∈ as, a.outcome = .refused)
    (k : FailedBefore bs) : FailedBefore (as ++ bs) :=
  List.pairwise_append.mpr
    ⟨List.pairwise_of_forall_mem_list fun a ha _ _ => h a ha, k, fun a ha _ _ => h a ha⟩

/-- Publishing has ended in `d` as it is said: if the library has taken a message, it is the
last one, of the request now at the front. -/
structure Ends (c d : Client) (e : PublishEnd × Answers) : Prop where
  hands : ∃ as, Hands c d as ∧ FailedBefore as ∧
    (e.1 ≠ .taken → ∀ a ∈ as, a.outcome = .refused) ∧
    (e.1 = .taken → ∃ a ∈ as, a.outcome ≠ .refused ∧
      d.publishQueue.head?.map (·.id) = some a.request.id)
  lib : d.lib = e.2

/-- After hand-overs that failed. -/
lemma Ends.after {b c d : Client} {e : PublishEnd × Answers} {rs : List Attempt} (h : Ends c d e)
    (k : Hands b c rs) (hrs : ∀ a ∈ rs, a.outcome = .refused) : Ends b d e where
  hands := by
    obtain ⟨as, has, hlast, hrefused, htaken⟩ := h.hands
    refine ⟨rs ++ as, k.trans has, .append hrs hlast, fun he a ha => ?_, fun he => ?_⟩
    · exact (List.mem_append.mp ha).elim (hrs a) (hrefused he a)
    · obtain ⟨a, ha, hout, hfront⟩ := htaken he
      exact ⟨a, List.mem_append_right rs ha, hout, hfront⟩
  lib := h.lib

/-- Publishing ends without a hand-over. -/
lemma Ends.of_quiet {c d : Client} {e : PublishEnd × Answers} (he : e.1 ≠ .taken)
    (h : Hands c d []) (hlib : d.lib = e.2) : Ends c d e where
  hands := ⟨[], h, .nil, by simp, fun ht => absurd ht he⟩
  lib := hlib

/-- A primary client of this class that is not disconnected. -/
structure Publishing (c : Client) : Prop where
  kind : c.kind = .pahoSync
  isPrimary : c.isPrimary = true
  state : c.state ≠ .disconnected

/-- How each of the three ends. -/
def PublishEnds (c d : Client) : Prop :=
  c.Publishing → Ends c d (Answers.publish (retries c.publishQueue) c.lib)

def ProcessEnds (c d : Client) : Prop :=
  c.Publishing → ∀ r rest, c.publishQueue = r :: rest →
    Ends c d (c.lib.process (Answers.publish (retries rest)) (publishRetries - r.retryCount))

def FailEnds (c d : Client) : Prop :=
  c.Publishing → ∀ r rest, c.publishQueue = r :: rest →
    Ends c d (c.lib.failure (Answers.publish (retries rest)) (publishRetries - r.retryCount))

lemma asked_hands (c : Client) (q : Question) : Hands c (c.asked q) [] :=
  .of_quiet [] (by simp) rfl

lemma givenUp_hands {c c' : Client} {r : PublishRequest}
    (hl : c'.log = c.log ++ [.access r.id, .undelivered r]) : Hands c c' [] :=
  .of_quiet _ hl rfl

lemma ends_rounds : Rounds PublishEnds ProcessEnds FailEnds where
  away c hc hpub := by
    have he : Answers.publish (retries c.publishQueue) c.lib = (.idle, c.lib.pastLink) := by
      cases c.publishQueue with
      | nil => rfl
      | cons r rest => exact if_neg (Bool.eq_false_iff.mp hc)
    rw [he]
    exact .of_quiet (by simp) (c.asked_hands _) rfl
  idle c _ hidle := by
    have hnil : c.Publishing → c.publishQueue = [] := fun hpub =>
      hidle.resolve_left (by simp [hpub.isPrimary])
    refine ⟨fun hpub => ?_, fun _ hpub => ?_⟩
    · rw [hnil hpub]
      exact .of_quiet (by simp [retries, Answers.publish]) (c.asked_hands _) rfl
    · rw [hnil hpub, setState_eq (by simp)]
      exact .of_quiet (by simp [retries, Answers.publish]) (c.asked_hands _) rfl
  publish c r rest d hq hc _ h hpub := by
    have he : Answers.publish (retries c.publishQueue) c.lib = c.lib.pastLink.process
        (Answers.publish (retries rest)) (publishRetries - r.retryCount) := by
      rw [hq]
      exact if_pos hc
    rw [he]
    have hends := h ⟨hpub.kind, hpub.isPrimary, hpub.state⟩ r rest (by simp [hq])
    exact hends.after (c.asked_hands _) (by simp)
  skipped c r rest _ hs hpub := absurd hs hpub.state
  unencoded c r rest hq _ he hpub q rest' hq' := by
    have hend : ∀ f, Answers.message c.lib f = (.unencoded, c.lib.unsent) := fun f => if_pos he
    rw [Answers.process_eq, hend]
    exact .of_quiet (by simp) (.of_quiet (attemptLog c r .unencoded) rfl (by rfl)) rfl
  accepted c r rest hq _ he ha hpub q rest' hq' := by
    have hret : c.returned r (c.acceptedFront r) = c.acceptedFront r := by
      simp [returned, hpub.kind]
    have hend : ∀ f, Answers.message c.lib f = (.taken, c.lib.sent) := by
      intro f
      rw [hpub.kind] at ha
      exact (if_neg (Nat.pos_iff_ne_zero.mp he)).trans (if_neg (Bool.eq_false_iff.mp ha))
    rw [Answers.process_eq, hend, hret]
    obtain ⟨a, hands, hid, hout⟩ := tried_hands c r (o := .accepted c.sendAnswer.token) (by simp)
      (fun q => { q with token := c.sendAnswer.token, accepted := true }) c.lib.sent
    refine ⟨⟨[a], hands, List.pairwise_singleton .., fun h => absurd rfl h, fun _ => ?_⟩, rfl⟩
    exact ⟨a, by simp, by simp [hout], by simp [acceptedFront, tried, hq, hid]⟩
  refused c r rest _ _ _ _ hasync hpub := absurd (hpub.kind.symm.trans hasync) (by simp)
  failed c r rest d hq _ he ha _ h hpub q rest' hq' := by
    obtain ⟨rfl, rfl⟩ := List.cons.inj (hq.symm.trans hq')
    have hret : c.returned r d = d := by simp [returned, hpub.kind]
    have hend : ∀ f, Answers.message c.lib f = f c.lib.sent := by
      intro f
      rw [hpub.kind] at ha
      exact (if_neg (Nat.pos_iff_ne_zero.mp he)).trans (if_pos ha)
    rw [Answers.process_eq, hend, hret]
    obtain ⟨a, hands, -, hout⟩ := tried_hands c r (o := .refused) (by simp)
      (·.refusedWith c.sendAnswer c.kind) c.lib.sent
    have hends := h ⟨hpub.kind, hpub.isPrimary, by simp [refusedFront, tried]⟩
      (r.refusedWith c.sendAnswer c.kind) rest (refusedFront_queue hq)
    rw [refusedWith_retryCount] at hends
    exact hends.after hands (by simp [hout])
  giveUp c r rest d hq hr h hpub q rest' hq' := by
    obtain ⟨rfl, rfl⟩ := List.cons.inj (hq.symm.trans hq')
    rw [Nat.sub_eq_zero_of_le hr]
    have hends := h ⟨hpub.kind, hpub.isPrimary, hpub.state⟩
    rw [exhaustedFront_queue hq] at hends
    exact hends.after (givenUp_hands (r := r) (by simp [exhaustedFront, resolveFront, emit]))
      (by simp)
  lost c r rest d hq hr hc h hpub q rest' hq' := by
    obtain ⟨rfl, rfl⟩ := List.cons.inj (hq.symm.trans hq')
    obtain ⟨n, hn⟩ : ∃ n, publishRetries - r.retryCount = n + 1 :=
      ⟨publishRetries - r.retryCount - 1, by omega⟩
    have hend : ∀ next, c.lib.failure next (n + 1) = next c.lib.pastLink := fun next =>
      if_neg (Bool.eq_false_iff.mp hc)
    rw [hn, hend]
    have hends := h ⟨hpub.kind, hpub.isPrimary, hpub.state⟩
    rw [lostFront_queue hq] at hends
    exact hends.after (givenUp_hands (r := r) (by simp [lostFront, resolveFront, emit])) (by simp)
  retry c r rest d hq hr hc h hpub q rest' hq' := by
    obtain ⟨rfl, rfl⟩ := List.cons.inj (hq.symm.trans hq')
    have hn : publishRetries - r.retryCount = publishRetries - (r.retryCount + 1) + 1 := by omega
    have hend : ∀ next n, c.lib.failure next (n + 1) = c.lib.pastLink.process next n :=
      fun _ _ => if_pos hc
    rw [hn, hend]
    have hends := h ⟨hpub.kind, hpub.isPrimary, hpub.state⟩
      { r with retryCount := r.retryCount + 1 } rest (retriedFront_queue hq)
    exact hends.after (.of_quiet [.access r.id] (by simp [retriedFront, modifyFront, emit]) rfl)
      (by simp)

/-! ### Publishing from the queue -/

/-- A message of the front request, if there is one, is handed over. -/
def HandsOver (c : Client) : Prop :=
  c.isConnected = true ∧ c.isPrimary = true ∧ c.state ≠ .disconnected ∧ 0 < c.encodedLength

lemma publishFromQueue_hands_nil {c : Client} (h : ¬c.HandsOver) :
    Hands c c.publishFromQueue [] := by
  have hasked := c.asked_hands .connected
  unfold publishFromQueue publishFromQueueWith
  split
  · next hc =>
    split
    · next r rest hp hq =>
      change Hands c ((c.asked .connected).processRequest r) []
      by_cases hs : c.state = .disconnected
      · have hskip : (c.asked .connected).processRequest r =
            (c.asked .connected).emit (.skipped r) := if_pos hs
        rw [hskip]
        exact Hands.after (.of_quiet [.skipped r] rfl rfl) hasked
      · have he : (c.asked .connected).encodedLength = 0 := by
          by_contra hne
          exact h ⟨hc, hp, hs, Nat.pos_of_ne_zero hne⟩
        rw [processRequest_eq (c := c.asked .connected) hs, if_pos he]
        exact Hands.after (.of_quiet (attemptLog _ r .unencoded) rfl rfl) hasked
    · split
      · exact hasked.trans (.of_quiet [] (by simp) rfl)
      · exact hasked
  · exact hasked

lemma publishFromQueue_hands {c : Client} {r : PublishRequest} {rest : List PublishRequest}
    (hk : c.kind = .pahoSync) (hq : c.publishQueue = r :: rest) (h : c.HandsOver) :
    ∃ a as, Hands c c.publishFromQueue (a :: as) ∧ a.request.id = r.id := by
  obtain ⟨hc, hp, hs, he⟩ := h
  have hprocess : c.publishFromQueue = (c.asked .connected).processRequest r := by
    unfold publishFromQueue publishFromQueueWith
    rw [if_pos hc]
    simp only [hp, hq]
    rfl
  have hpos : (c.asked .connected).encodedLength ≠ 0 := Nat.pos_iff_ne_zero.mp he
  have hret : ∀ d, (c.asked .connected).returned r d = d := fun d => by
    simp [returned, asked, hk]
  have hkind : (c.asked .connected).kind ≠ .pahoAsync := by simp [asked, hk]
  rw [hprocess, processRequest_eq (c := c.asked .connected) hs, if_neg hpos, hret, if_neg hkind]
  split
  · obtain ⟨a, hands, hid, -⟩ := tried_hands (c.asked .connected) r
      (o := .accepted (c.asked .connected).sendAnswer.token) (by simp)
      (fun q => { q with token := (c.asked .connected).sendAnswer.token, accepted := true })
      (c.asked .connected).lib.sent
    exact ⟨a, [], hands.after (c.asked_hands _), hid⟩
  · obtain ⟨a, hands, hid, -⟩ := tried_hands (c.asked .connected) r (o := .refused) (by simp)
      (·.refusedWith (c.asked .connected).sendAnswer (c.asked .connected).kind)
      (c.asked .connected).lib.sent
    obtain ⟨l, hl⟩ := Ledger.Steps.log
      (onDeliveryFailure_publishes_all ((c.asked .connected).refusedFront r)
        (r.refusedWith (c.asked .connected).sendAnswer (c.asked .connected).kind).token).steps
    exact ⟨a, handed l, (hands.after (c.asked_hands _)).trans ⟨l, hl.symm, rfl⟩, hid⟩

/-- In one call the library takes one message at most, the last one. -/
lemma publishFromQueue_handed {c : Client} (hk : c.kind = .pahoSync) :
    ∃ as, Hands c c.publishFromQueue as ∧ FailedBefore as := by
  by_cases hpub : c.isPrimary = true ∧ c.state ≠ .disconnected
  · obtain ⟨as, has, hlast, -⟩ := (ends_rounds.publishFromQueue c ⟨hk, hpub.1, hpub.2⟩).hands
    exact ⟨as, has, hlast⟩
  · exact ⟨[], publishFromQueue_hands_nil fun h => hpub ⟨h.2.1, h.2.2.1⟩, .nil⟩

/-- The library takes a message, and with the answers left the next one is handed over. -/
def TakenAgain (e : PublishEnd × Answers) : Prop :=
  e.1 = .taken ∧ e.2.connected.head = true ∧ 0 < e.2.encoded.head

/-- Publishing twice when the library takes a message the first time. -/
lemma publishTaken_iff {c : Client} (hpub : c.Publishing)
    (ht : (Answers.publish (retries c.publishQueue) c.lib).1 = .taken) :
    ∃ as, Hands c (c.publishFromQueue.asked .pending).publishFromQueue as ∧
      (NoneTwice as ↔ ¬TakenAgain (Answers.publish (retries c.publishQueue) c.lib)) := by
  have hframe := (publishFromQueue_publishes (A := {}) c).frame
  have hasked := c.publishFromQueue.asked_hands .pending
  have hkind : (c.publishFromQueue.asked .pending).kind = .pahoSync := hframe.kind.trans hpub.kind
  have hends := ends_rounds.publishFromQueue c hpub
  obtain ⟨as, has, hlast, -, htaken⟩ := hends.hands
  obtain ⟨a, ha, hout, hfront⟩ := htaken ht
  by_cases hover : (c.publishFromQueue.asked .pending).HandsOver
  · -- the message that was taken is handed over again
    obtain ⟨r, rest, hq, hid⟩ : ∃ r rest, c.publishFromQueue.publishQueue = r :: rest ∧
        r.id = a.request.id := by
      rcases hq : c.publishFromQueue.publishQueue with _ | ⟨r, rest⟩
      · simp [hq] at hfront
      · exact ⟨r, rest, rfl, by simpa [hq] using hfront⟩
    obtain ⟨b, bs, hbs, hb⟩ := publishFromQueue_hands hkind (by simpa using hq) hover
    refine ⟨_, (has.trans hasked).trans hbs, iff_of_false (fun htwice => hout ?_)
      (not_not_intro ⟨ht, hends.lib ▸ hover.1, hends.lib ▸ hover.2.2.2⟩)⟩
    refine (List.pairwise_append.mp htwice).2.2 a (by simp [ha]) b (by simp) ?_
    rw [hb, hid]
  · refine ⟨_, (has.trans hasked).trans (publishFromQueue_hands_nil hover),
      iff_of_true (by simpa using hlast.noneTwice) ?_⟩
    rintro ⟨-, hc, henc⟩
    rw [← hends.lib] at hc henc
    exact hover ⟨hc, hframe.isPrimary.trans hpub.isPrimary, hframe.state hpub.state, henc⟩

/-- Publishing from the queue twice hands a message over twice if the library takes one the
first time. -/
lemma publishTwice_iff {c : Client} (hk : c.kind = .pahoSync) :
    ∃ as, Hands c (c.publishFromQueue.asked .pending).publishFromQueue as ∧
      (NoneTwice as ↔ ¬(c.isPrimary = true ∧ c.state ≠ .disconnected ∧
        TakenAgain (Answers.publish (retries c.publishQueue) c.lib))) := by
  have hasked := c.publishFromQueue.asked_hands .pending
  obtain ⟨bs, hbs, hlast⟩ := publishFromQueue_handed (c := c.publishFromQueue.asked .pending)
    ((publishFromQueue_publishes (A := {}) c).frame.kind.trans hk)
  by_cases hpub : c.isPrimary = true ∧ c.state ≠ .disconnected
  · have hpublishing : c.Publishing := ⟨hk, hpub.1, hpub.2⟩
    by_cases ht : (Answers.publish (retries c.publishQueue) c.lib).1 = .taken
    · obtain ⟨as, has, htwice⟩ := publishTaken_iff hpublishing ht
      refine ⟨as, has, htwice.trans (not_congr ?_)⟩
      exact ⟨fun h => ⟨hpub.1, hpub.2, h⟩, fun h => h.2.2⟩
    · obtain ⟨as, has, -, hrefused, -⟩ := (ends_rounds.publishFromQueue c hpublishing).hands
      refine ⟨_, (has.trans hasked).trans hbs, iff_of_true ?_ fun h => ht h.2.2.1⟩
      rw [List.append_nil]
      exact (FailedBefore.append (hrefused ht) hlast).noneTwice
  · have hnil : Hands c c.publishFromQueue [] :=
      publishFromQueue_hands_nil fun h => hpub ⟨h.2.1, h.2.2.1⟩
    exact ⟨_, (hnil.trans hasked).trans hbs,
      iff_of_true hlast.noneTwice fun h => hpub ⟨h.1, h.2.1⟩⟩

/-! ### Synchronizing -/

lemma onDisconnect_hands (c : Client) : Hands c c.onDisconnect [] := by
  have hlog : c.onDisconnect.log =
      c.log ++ (c.publishQueue.map .undelivered ++ [.onEvent .disconnected]) := by
    simp [onDisconnect, disconnected, dumpQueue_eq, endSession, emit]
  refine .of_quiet _ hlog ?_
  simp [handed, attempts, Effect.payload]

lemma messages_hands (c : Client) (ms : List (Str × Str)) :
    Hands c (ms.foldl (fun c m => c.messageReceived m.1 m.2) c) [] := by
  induction ms generalizing c with
  | nil => exact .of_quiet [] (by simp) rfl
  | cons m ms ih =>
    exact (ih _).after (.of_quiet [.onEvent (.message m.1 m.2)] rfl rfl)

lemma syncReceive_hands (c : Client) : Hands c c.syncReceive [] := by
  have h := (messages_hands (c.asked .received) c.receive.1).after (c.asked_hands _)
  simp only [syncReceive]
  split
  · exact (onDisconnect_hands _).after h
  · exact h

/-- With no token in flight the queue is published from. -/
lemma syncPending_eq {c : Client} (h : c.getPendingDeliveryTokens.1 = some []) :
    c.syncPending.1 = (c.asked .pending).publishFromQueue := by
  rcases ht : c.getPendingDeliveryTokens with ⟨tokens, result⟩
  rw [ht] at h
  obtain rfl := h
  simp [syncPending, ht]

lemma syncPending_hands_nil {c : Client} (h : c.getPendingDeliveryTokens.1 ≠ some []) :
    Hands c c.syncPending.1 [] := by
  have hasked := c.asked_hands .pending
  unfold syncPending
  split
  · next ht => exact absurd (by rw [ht]) h
  · exact hasked
  · split
    · exact (onDisconnect_hands _).after hasked
    · exact hasked

/-- The front request is reported as delivered without ever having been accepted. -/
def Premature (c : Client) : Prop :=
  c.waitForCompletion = mqttSuccess ∧ ∃ r ∈ c.publishQueue.head?, r.accepted = false

/-- After a delivery the library takes a message of the rest of the queue, has no token in
flight, and the message is handed over again. -/
def Resends (c : Client) : Prop :=
  c.waitForCompletion = mqttSuccess ∧ c.isPrimary = true ∧ c.state ≠ .disconnected ∧
    TakenAgain (Answers.publish (retries c.publishQueue.tail) (c.asked .completion).lib) ∧
    c.getPendingDeliveryTokens.1 = some []

/-- What is handed over in the whole call is what is handed over in the part about the
queue. -/
lemma sync_hands {c : Client} (hk : c.kind = .pahoSync) {as : List Attempt}
    (h : Hands c c.syncQueue.1 as) : Hands c c.sync as := by
  unfold sync
  rw [hk]
  simp only
  split
  · simpa using h.trans (syncReceive_hands _)
  · exact h

/-- The wait for the front request is over, which has been delivered. -/
def completed (c : Client) (r : PublishRequest) : Client :=
  (((c.emit (.access r.id)).asked .completion).calledBack r.token).resolveFront (.delivered r)

section Front

variable {c : Client} {r : PublishRequest} {rest : List PublishRequest}

lemma completed_log (c : Client) (r : PublishRequest) :
    (c.completed r).log = c.log ++ [.access r.id, .delivered r] := by
  simp [completed, resolveFront, calledBack, emit]

lemma syncQueue_of_success (hq : c.publishQueue = r :: rest)
    (h : c.waitForCompletion = mqttSuccess) :
    c.syncQueue = (c.completed r).publishFromQueue.syncPending := by
  simp only [syncQueue, hq, h, if_true]
  rfl

lemma syncQueue_of_disconnected (hq : c.publishQueue = r :: rest)
    (h : c.waitForCompletion ≠ mqttSuccess) (hd : c.waitForCompletion = mqttDisconnected) :
    c.syncQueue = (((c.emit (.access r.id)).asked .completion).onDisconnect, false) := by
  simp only [syncQueue, hq, if_neg h, if_pos hd]

lemma syncQueue_of_pending (hq : c.publishQueue = r :: rest)
    (h : c.waitForCompletion ≠ mqttSuccess) (hd : c.waitForCompletion ≠ mqttDisconnected) :
    c.syncQueue = ((c.emit (.access r.id)).asked .completion).syncPending := by
  simp only [syncQueue, hq, if_neg h, if_neg hd]

/-- Publishing from the queue asks nothing about the tokens in flight. -/
lemma publishFromQueue_pending (h : c.Publishing) :
    c.publishFromQueue.getPendingDeliveryTokens = c.getPendingDeliveryTokens := by
  have hends := ends_rounds.publishFromQueue c h
  rw [getPendingDeliveryTokens, hends.lib, Answers.publish_pending]
  rfl

lemma completed_handed_iff (hk : c.kind = .pahoSync) (h : c.waitForCompletion = mqttSuccess) :
    ∃ as, Hands (c.completed r) (c.completed r).publishFromQueue.syncPending.1 as ∧
      (NoneTwice as ↔ ¬c.Resends) := by
  have hresends : c.Resends ↔ ((c.completed r).isPrimary = true ∧
      (c.completed r).state ≠ .disconnected ∧
      TakenAgain (Answers.publish (retries (c.completed r).publishQueue) (c.completed r).lib)) ∧
      c.getPendingDeliveryTokens.1 = some [] := by
    have hrest : (c.completed r).publishQueue = c.publishQueue.tail := by
      simp [completed, resolveFront, calledBack]
    rw [hrest]
    simp only [Resends, h, true_and, and_assoc]
    rfl
  have htokens : (c.completed r).Publishing →
      (c.completed r).publishFromQueue.getPendingDeliveryTokens = c.getPendingDeliveryTokens :=
    fun hpub => publishFromQueue_pending hpub
  by_cases hp : (c.completed r).publishFromQueue.getPendingDeliveryTokens.1 = some []
  · obtain ⟨as, has, htwice⟩ := publishTwice_iff (c := c.completed r) hk
    refine ⟨as, syncPending_eq hp ▸ has, htwice.trans (not_congr (hresends.trans ?_).symm)⟩
    exact ⟨fun h => h.1, fun h => ⟨h, htokens ⟨hk, h.1, h.2.1⟩ ▸ hp⟩⟩
  · obtain ⟨as, has, hlast⟩ := publishFromQueue_handed (c := c.completed r) hk
    refine ⟨as, by simpa using has.trans (syncPending_hands_nil hp),
      iff_of_true hlast.noneTwice ?_⟩
    rw [hresends]
    rintro ⟨⟨hprim, hs, -⟩, hnone⟩
    exact hp (htokens ⟨hk, hprim, hs⟩ ▸ hnone)

end Front

lemma sync_handed_iff {c : Client} (hk : c.kind = .pahoSync) :
    ∃ as, Hands c c.sync as ∧ (NoneTwice as ↔ ¬c.Resends) := by
  rcases hq : c.publishQueue with _ | ⟨r, rest⟩
  · have hqueue : c.syncQueue = (c, true) := by simp [syncQueue, hq]
    refine ⟨[], sync_hands hk (hqueue ▸ .of_quiet [] (by simp) rfl), iff_of_true .nil ?_⟩
    rintro ⟨-, -, -, ⟨htaken, -⟩, -⟩
    simp [hq, retries, Answers.publish] at htaken
  have hfirst : Hands c ((c.emit (.access r.id)).asked .completion) [] :=
    .of_quiet [.access r.id] (by simp [emit]) rfl
  by_cases hsucc : c.waitForCompletion = mqttSuccess
  · obtain ⟨as, has, htwice⟩ := completed_handed_iff (r := r) hk hsucc
    have hcompleted : Hands c (c.completed r) [] := .of_quiet _ (c.completed_log r) rfl
    refine ⟨as, sync_hands hk ?_, htwice⟩
    rw [syncQueue_of_success hq hsucc]
    exact has.after hcompleted
  have hno : ¬c.Resends := fun h => hsucc h.1
  by_cases hdisc : c.waitForCompletion = mqttDisconnected
  · refine ⟨[], sync_hands hk ?_, iff_of_true .nil hno⟩
    rw [syncQueue_of_disconnected hq hsucc hdisc]
    exact (onDisconnect_hands _).after hfirst
  · by_cases hp : ((c.emit (.access r.id)).asked .completion).getPendingDeliveryTokens.1 = some []
    · obtain ⟨as, has, hlast⟩ := publishFromQueue_handed
        (c := ((c.emit (.access r.id)).asked .completion).asked .pending) hk
      refine ⟨as, sync_hands hk ?_, iff_of_true hlast.noneTwice hno⟩
      rw [syncQueue_of_pending hq hsucc hdisc, syncPending_eq hp]
      exact (has.after (asked_hands _ _)).after hfirst
    · refine ⟨[], sync_hands hk ?_, iff_of_true .nil hno⟩
      rw [syncQueue_of_pending hq hsucc hdisc]
      exact (syncPending_hands_nil hp).after hfirst

/-- Without a completed wait nothing is delivered. -/
lemma sync_steps_of_not_success {A : Scope} {c : Client}
    (h : ∀ r ∈ c.publishQueue.head?, c.waitForCompletion ≠ mqttSuccess) : Steps A c c.sync := by
  have hqueue : Steps A c c.syncQueue.1 := by
    rcases hq : c.publishQueue with _ | ⟨r, rest⟩
    · simp [syncQueue, hq, Relation.ReflTransGen.refl]
    have hsucc := h r (by simp [hq])
    have hfirst : Steps A c ((c.emit (.access r.id)).asked .completion) :=
      .head (.publish (.access c _)) (asked_steps _ _)
    by_cases hdisc : c.waitForCompletion = mqttDisconnected
    · rw [syncQueue_of_disconnected hq hsucc hdisc]
      exact hfirst.trans (onDisconnect_steps _)
    · rw [syncQueue_of_pending hq hsucc hdisc]
      exact hfirst.trans (syncPending_steps _)
  unfold sync
  split
  · split
    · exact hqueue.trans (syncReceive_steps _)
    · exact hqueue
  all_goals exact .refl

lemma sync_delivered_iff {c : Client} (hk : c.kind = .pahoSync) :
    (∀ r, .delivered r ∈ effects c c.sync → r.accepted = true) ↔ ¬c.Premature := by
  constructor
  · rintro h ⟨hsucc, r, hr, hacc⟩
    obtain ⟨rest, hq⟩ : ∃ rest, c.publishQueue = r :: rest := by
      rcases hq : c.publishQueue with _ | ⟨q, rest⟩
      · simp [hq] at hr
      · exact ⟨rest, by simpa [hq] using hr⟩
    have hsteps : Steps {} (c.completed r) c.sync := by
      have hpending := (publishFromQueue_steps (c.completed r) (A := {})).trans
        (syncPending_steps _)
      unfold sync
      rw [hk, syncQueue_of_success hq hsucc]
      simp only
      split
      · exact hpending.trans (syncReceive_steps _)
      · exact hpending
    obtain ⟨l, hl⟩ := Ledger.Steps.log hsteps
    have hmem : .delivered r ∈ effects c c.sync := by
      rw [effects_eq (l := [.access r.id, .delivered r] ++ l)
        (by rw [← hl, completed_log, List.append_assoc])]
      simp
    exact absurd ((h r hmem).symm.trans hacc) (by simp)
  · intro h r hr
    obtain ⟨l, hl, hfront⟩ := sync_reports c
    rw [effects_eq hl] at hr
    by_cases hsucc : c.waitForCompletion = mqttSuccess
    · have hrep : (r, true) ∈ reports l := List.mem_filterMap.mpr ⟨_, hr, rfl⟩
      by_contra hacc
      exact h ⟨hsucc, r, hfront _ hrep rfl, Bool.eq_false_iff.mpr hacc⟩
    · obtain ⟨m, hm, hnone⟩ := steps_undelivers
        (sync_steps_of_not_success (A := quiet) fun _ _ => hsucc)
      obtain rfl : m = l := List.append_cancel_left (hm.symm.trans hl)
      have hrep : (r, true) ∈ reports m := List.mem_filterMap.mpr ⟨_, hr, rfl⟩
      cases hnone _ hrep

/-- **Synchronizing reports what was sent and sends nothing twice** exactly if the front
request was accepted before the library takes it for completed, and no message is handed
over again that the same call has sent. -/
theorem sync_sentOnce_iff {c : Client} (hk : c.kind = .pahoSync) :
    SentOnce (effects c c.sync) ↔ ¬c.Premature ∧ ¬c.Resends := by
  obtain ⟨as, has, htwice⟩ := sync_handed_iff hk
  rw [← has.effects] at htwice
  rw [← sync_delivered_iff hk, ← htwice]
  exact ⟨fun h => ⟨h.delivered, h.handed⟩, fun h => ⟨h.1, h.2⟩⟩

/-- A primary client whose library takes the front request for completed. -/
def waiting (accepted : Bool) (rest : List PublishRequest) : Client where
  kind := .pahoSync
  state := .connected
  isPrimary := true
  publishQueue :=
    { id := 0, isBirth := true, publisher := .node, topic := [], accepted } :: rest

theorem last_sentOnce : SentOnce (effects (waiting true []) (waiting true []).sync) := by
  refine (sync_sentOnce_iff rfl).mpr ⟨?_, ?_⟩
  · rintro ⟨-, r, hr, hacc⟩
    obtain rfl := Option.some.inj hr
    cases hacc
  · rintro ⟨-, -, -, ⟨htaken, -⟩, -⟩
    cases htaken

/-- A request that was not sent yet. -/
def unsentRequest : PublishRequest where
  id := 1
  isBirth := false
  publisher := .node
  topic := []

/-- A request that was queued without a connection is delivered unsent; and after the delivery
of one that was sent, the next one is sent twice. -/
theorem waiting_not_sentOnce : ¬SentOnce (effects (waiting false []) (waiting false []).sync) ∧
    ¬SentOnce (effects (waiting true [unsentRequest]) (waiting true [unsentRequest]).sync) := by
  refine ⟨fun h => ?_, fun h => ?_⟩
  · have hmem : .delivered { id := 0, isBirth := true, publisher := .node, topic := [] } ∈
        effects (waiting false []) (waiting false []).sync := by decide
    cases h.delivered _ hmem
  · exact absurd h.handed (by decide)

end Client

end Sparkplug
