import Sparkplug.Machine

/-!
A service with a queue.

Requests wait in the order in which they came. The first one is answered, with a success or a
failure; after a failure it is tried again, up to a limit. So every request is told of once and in
order, and it takes a bounded number of answers.
-/

namespace Sparkplug.Service

open Machine

variable {κ : Type*}

/-- The requests that wait, with their retries so far, and those told of, with their answers. -/
@[ext]
structure State (κ : Type*) where
  waiting : List (κ × ℕ)
  told : List (κ × Bool)

/-- A request comes, maybe retried before, or the first one is answered. -/
inductive Call (κ : Type*)
  | take (k : κ) (retries : ℕ)
  | answer (success : Bool)

variable (limit : ℕ)

/-- The first request has been answered. -/
def State.answer (s : State κ) (success : Bool) : State κ :=
  match s.waiting with
  | [] => s
  | (k, n) :: rest =>
    if success then ⟨rest, s.told ++ [(k, true)]⟩
    else if limit ≤ n then ⟨rest, s.told ++ [(k, false)]⟩
    else ⟨(k, n + 1) :: rest, s.told⟩

def step (s : State κ) : Call κ → State κ
  | .take k retries => ⟨s.waiting ++ [(k, retries)], s.told⟩
  | .answer success => s.answer limit success

/-- The answers that the requests in `q` take at most. -/
def answersLeft : List (κ × ℕ) → ℕ
  | [] => 0
  | x :: q => limit - x.2 + 1 + answersLeft q

def Call.isAnswer : Call κ → Bool
  | .take .. => false
  | .answer _ => true

def Call.isSuccess : Call κ → Bool
  | .answer success => success
  | .take .. => false

variable {s : State κ}

/-- An answer tells of the first request, or it is a failure and uses up one of its retries. -/
lemma answer_cases {k : κ} {n : ℕ} {rest : List (κ × ℕ)} (hs : s.waiting = (k, n) :: rest)
    (success : Bool) :
    (∃ b, s.answer limit success = ⟨rest, s.told ++ [(k, b)]⟩) ∨
      success = false ∧ n < limit ∧ s.answer limit success = ⟨(k, n + 1) :: rest, s.told⟩ := by
  unfold State.answer
  rw [hs]
  simp only
  repeat' split
  · exact .inl ⟨true, rfl⟩
  · exact .inl ⟨false, rfl⟩
  · next hsuccess hn => exact .inr ⟨by simpa using hsuccess, by omega, rfl⟩

lemma answer_less (s : State κ) (success : Bool) :
    answersLeft limit (s.answer limit success).waiting ≤ answersLeft limit s.waiting - 1 := by
  rcases hs : s.waiting with _ | ⟨⟨k, n⟩, rest⟩
  · simp [State.answer, hs, answersLeft]
  · rcases answer_cases limit hs success with ⟨b, h⟩ | ⟨-, hn, h⟩
    · rw [h, answersLeft]
      dsimp only
      omega
    · rw [h, answersLeft, answersLeft]
      dsimp only
      omega

variable {limit}

lemma told_prefix (s : State κ) (calls : List (Call κ)) :
    s.told.map Prod.fst <+: (run (step limit) s calls).told.map Prod.fst := by
  refine run_invariant (P := fun t : State κ => s.told.map Prod.fst <+: t.told.map Prod.fst)
    (fun t a ht => ht.trans ?_) (List.prefix_refl _) calls
  cases a with
  | take k retries => exact List.prefix_refl _
  | answer success =>
    change _ <+: (t.answer limit success).told.map Prod.fst
    rcases hq : t.waiting with _ | ⟨⟨k, n⟩, rest⟩
    · simp [State.answer, hq]
    · rcases answer_cases limit hq success with ⟨b, h⟩ | ⟨-, -, h⟩
      · rw [h]
        simp
      · rw [h]

/-- **A bounded number of answers**: the requests at the front of the queue have been told of, in
their order, when there have been as many answers as they may take, or as many successes as there
are such requests, whatever came in between. -/
theorem told_of_answers {pre suf : List (κ × ℕ)} (hs : s.waiting = pre ++ suf)
    {calls : List (Call κ)} (henough : answersLeft limit pre ≤ calls.countP Call.isAnswer ∨
      pre.length ≤ calls.countP Call.isSuccess) :
    s.told.map Prod.fst ++ pre.map Prod.fst <+: (run (step limit) s calls).told.map Prod.fst := by
  induction calls generalizing s pre suf with
  | nil =>
    cases pre with
    | nil => simp
    | cons x pre =>
      rw [answersLeft] at henough
      exact absurd henough (by simp)
  | cons a calls ih =>
    cases a with
    | take k retries =>
      have hwaiting :
          (step limit s (.take k retries)).waiting = pre ++ (suf ++ [(k, retries)]) := by
        simp [step, hs]
      exact ih hwaiting (by simpa [Call.isAnswer, Call.isSuccess] using henough)
    | answer success =>
      cases pre with
      | nil => simpa using told_prefix s (.answer success :: calls)
      | cons x pre =>
        rw [answersLeft, List.length_cons, List.countP_cons, List.countP_cons, Call.isAnswer,
          Call.isSuccess, if_pos rfl] at henough
        have hone : (if success = true then 1 else 0) ≤ 1 := by split <;> omega
        rcases answer_cases limit hs success with ⟨b, h⟩ | ⟨hfailure, hn, h⟩
        · have hwaiting : (s.answer limit success).waiting = pre ++ suf := by rw [h]; rfl
          have hrest := ih hwaiting (by omega)
          rw [h] at hrest
          simpa [step, h] using hrest
        · have hwaiting : (s.answer limit success).waiting = ((x.1, x.2 + 1) :: pre) ++ suf := by
            rw [h]; rfl
          have hrest := ih hwaiting (by
            rw [hfailure, if_neg (by simp)] at henough
            rw [answersLeft, List.length_cons]
            omega)
          rw [h] at hrest
          simpa [step, h] using hrest

end Sparkplug.Service
