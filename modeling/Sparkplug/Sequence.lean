import Sparkplug.ClientSteps
import Sparkplug.Counter

/-!
Sequence numbers.

Every payload built takes the next number, an NBIRTH takes zero. The payloads that cannot
be encoded and those the library refuses take a number too, so the numbers of the messages
the library accepts are without a gap only as long as nothing fails.
-/

namespace Sparkplug

open Machine Client

def Effect.payload : Effect → Option Attempt
  | .attempt a => some a
  | _ => none

def Attempt.isNodeBirth (a : Attempt) : Bool := a.request.isNodeBirth

def Attempt.isAccepted (a : Attempt) : Bool := a.outcome.token.isSome

namespace Sequence

/-- The payloads built, in order. -/
def attempts (l : List Effect) : List Attempt := l.filterMap Effect.payload

/-- The messages the library accepted, in order. -/
def acceptedMessages (l : List Effect) : List Attempt := (attempts l).filter Attempt.isAccepted

@[simp] lemma attempts_append (k l : List Effect) :
    attempts (k ++ l) = attempts k ++ attempts l := List.filterMap_append ..

/-- From any accepted NBIRTH up to the next one the sequence numbers of the accepted
messages are `0, 1, 2, …` modulo 256. -/
def GapFree (l : List Effect) : Prop :=
  Counter.GapFree 256 Attempt.isNodeBirth Attempt.seq (acceptedMessages l)

/-- The number of payloads built since the last NBIRTH was built, that one included. -/
def builtSinceBirth (as : List Attempt) : Option ℕ := Counter.fromLast Attempt.isNodeBirth as

/-- The number of messages accepted since the last NBIRTH was accepted, that one included. -/
def acceptedSinceBirth (as : List Attempt) : Option ℕ :=
  Counter.fromLast Attempt.isNodeBirth (as.filter Attempt.isAccepted)

/-- Whenever a message other than an NBIRTH is accepted after an accepted NBIRTH, as many
payloads have been built since the last NBIRTH as were accepted since the last accepted
one, up to multiples of 256. -/
def NothingWasted (as : List Attempt) : Prop :=
  ∀ pre a post, as = pre ++ a :: post → a.isAccepted = true → a.isNodeBirth = false →
    ∀ i k, builtSinceBirth pre = some i → acceptedSinceBirth pre = some k → i ≡ k [MOD 256]

/-- The counter of the client is the counter of its payloads. -/
def Numbered (c : Client) : Prop :=
  Counter.Counted 256 Attempt.isNodeBirth Attempt.seq 0 (attempts c.log) c.payloadSequence

/-- A step that builds no payload. -/
lemma Numbered.of_quiet {c d : Client} (l : List Effect) (h : Numbered c)
    (hl : d.log = c.log ++ l) (hatt : attempts l = [])
    (hseq : d.payloadSequence = c.payloadSequence) : Numbered d := by
  unfold Numbered
  rwa [hl, attempts_append, hatt, List.append_nil, hseq]

@[simp] lemma setState_payloadSequence (c : Client) (s : ClientState) :
    (c.setState s).payloadSequence = c.payloadSequence := by
  unfold setState; split
  · rfl
  · cases s <;> rfl

@[simp] lemma asked_payloadSequence (c : Client) (q : Question) :
    (c.asked q).payloadSequence = c.payloadSequence := by
  cases q <;> rfl

lemma tried_numbered {c : Client} (h : Numbered c) (r : PublishRequest) (o : Outcome)
    (f : PublishRequest → PublishRequest) (lib : Answers) : Numbered (c.tried r o f lib) := by
  have hlog : attempts (c.tried r o f lib).log = attempts c.log ++
      [⟨r, c.nextSeq r, if r.isNodeBirth then some c.bdSeq else none, o⟩] := by
    rw [tried, attempts_append]
    rfl
  unfold Numbered
  rw [hlog]
  exact .snoc h rfl

lemma publishStep_numbered {A : Scope} {c d : Client} (hs : PublishStep A c d) (h : Numbered c) :
    Numbered d := by
  cases hs with
  | asked q => exact h.of_quiet [] (by simp) rfl (by simp)
  | access id => exact h.of_quiet [.access id] rfl rfl rfl
  | skipped r => exact h.of_quiet [.skipped r] rfl rfl rfl
  | idle => exact h.of_quiet [] (by simp) rfl (by simp)
  | tried => exact tried_numbered h ..
  | giveUp => exact h.of_quiet [.undelivered _] rfl rfl rfl
  | retry => exact h.of_quiet [] (by simp [modifyFront]) rfl rfl

lemma clientStep_numbered {A : Scope} {c d : Client} (hs : ClientStep A c d) (h : Numbered c) :
    Numbered d := by
  cases hs with
  | publish hs => exact publishStep_numbered hs h
  | deliver => exact h.of_quiet [.delivered _] rfl rfl rfl
  | @event e => exact h.of_quiet [.onEvent e] rfl rfl rfl
  | emptyFront => exact h.of_quiet [.emptyFront] rfl rfl rfl
  | commandsResult b => exact h.of_quiet [.subscribed b] rfl rfl rfl
  | setState s => exact h.of_quiet [] (by simp) rfl (by simp)
  | resign => exact h.of_quiet [] (by simp [setPrimary]) rfl rfl
  | surroundings l up commands inflight => exact h.of_quiet [] (by simp) rfl rfl
  | settings topics configured bdSeq token => exact h.of_quiet [] (by simp) rfl rfl

lemma taken_numbered {c : Client} (h : Numbered c) (a : ClientCall) : Numbered (c.taken a) := by
  cases a <;> exact h

lemma run_numbered (kind : ClientKind) (calls : List ClientCall) :
    Numbered (run step { kind } calls) := by
  have h0 : Numbered { kind } := Counter.Counted.nil
  refine run_invariant (fun c a h => ?_) h0 calls
  exact (step_steps c a).invariant clientStep_numbered (taken_numbered h a)

/-- **When the sequence numbers have no gap.** -/
theorem gapFree_iff_nothingWasted (kind : ClientKind) (calls : List ClientCall) :
    GapFree (run step { kind } calls).log ↔
      NothingWasted (attempts (run step { kind } calls).log) :=
  (run_numbered kind calls).gapFree_filter_iff

/-- A client is connected and activated, its NBIRTH is accepted and delivered, and the
library refuses the first attempt to send a data message. -/
def refusedOnce : List ClientCall :=
  [.configure {}, .execute, .activate, .request ⟨0, true, .node, [], -1, 0, false⟩, .execute,
    .library (.answers { send := .cons ⟨-1, 0⟩ (.const ⟨0, 2⟩) }),
    .request ⟨1, false, .node, [], -1, 0, false⟩]

/-- The message after the NBIRTH has sequence number 2. -/
theorem refusedOnce_not_gapFree : ¬ GapFree (run step { kind := .pahoSync } refusedOnce).log := by
  intro h
  have hlog : acceptedMessages (run step { kind := .pahoSync } refusedOnce).log =
      [⟨⟨0, true, .node, [], -1, 0, false⟩, 0, some 255, .accepted 1⟩,
        ⟨⟨1, false, .node, [], -1, 1, false⟩, 2, none, .accepted 2⟩] := by decide
  have hseq := h [] _ [_] [] hlog rfl (by simp [Attempt.isNodeBirth, PublishRequest.isNodeBirth])
  exact absurd hseq (by decide)

end Sequence

end Sparkplug
