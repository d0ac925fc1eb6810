import Mathlib.Data.List.Infix
import Mathlib.Logic.Relation
import Mathlib.Order.WellFounded

/-!
Deterministic machines: a state, an action, the next state.

Whatever the surroundings choose (the answer of a library call, the order of two
callbacks) is part of the action, so a run is the list of its actions. The rules here
carry a property of one step to a property of a whole run, and a machine that remembers
its own actions carries the proof that they lead to its state.
-/

namespace Sparkplug.Machine

variable {σ α : Type*} (step : σ → α → σ)

/-- The state after the actions `as`. -/
def run (s : σ) (as : List α) : σ := as.foldl step s

@[simp] lemma run_nil (s : σ) : run step s [] = s := rfl

@[simp] lemma run_cons (s : σ) (a : α) (as : List α) :
    run step s (a :: as) = run step (step s a) as := rfl

lemma run_append (s : σ) (as bs : List α) :
    run step s (as ++ bs) = run step (run step s as) bs := by
  simp [run, List.foldl_append]

lemma run_snoc (s : σ) (as : List α) (a : α) :
    run step s (as ++ [a]) = step (run step s as) a := by
  simp [run_append]

/-! ### Properties of all states and of all steps of a run -/

/-- `P` holds of every state the run goes through, the first and the last included. -/
def Along (P : σ → Prop) : σ → List α → Prop
  | s, [] => P s
  | s, a :: as => P s ∧ Along P (step s a) as

/-- Every action of the run meets `C` in the state it is taken in. -/
def Each (C : σ → α → Prop) : σ → List α → Prop
  | _, [] => True
  | s, a :: as => C s a ∧ Each C (step s a) as

instance Along.decidable (P : σ → Prop) [∀ s, Decidable (P s)] :
    ∀ s as, Decidable (Along step P s as)
  | s, [] => inferInstanceAs (Decidable (P s))
  | s, a :: as =>
    haveI := Along.decidable P (step s a) as
    inferInstanceAs (Decidable (P s ∧ Along step P (step s a) as))

instance Each.decidable (C : σ → α → Prop) [∀ s a, Decidable (C s a)] :
    ∀ s as, Decidable (Each step C s as)
  | _, [] => inferInstanceAs (Decidable True)
  | s, a :: as =>
    haveI := Each.decidable C (step s a) as
    inferInstanceAs (Decidable (C s a ∧ Each step C (step s a) as))

variable {step} {P : σ → Prop} {C : σ → α → Prop}

lemma Along.head {s : σ} {as : List α} (h : Along step P s as) : P s := by
  cases as with
  | nil => exact h
  | cons a as => exact h.1

lemma Along.last {s : σ} {as : List α} (h : Along step P s as) : P (run step s as) := by
  induction as generalizing s with
  | nil => exact h
  | cons a as ih => exact ih h.2

lemma each_append {s : σ} {as bs : List α} :
    Each step C s (as ++ bs) ↔ Each step C s as ∧ Each step C (run step s as) bs := by
  induction as generalizing s with
  | nil => simp [Each]
  | cons a as ih => simp [Each, ih, and_assoc]

lemma Each.mono {D : σ → α → Prop} (hCD : ∀ s a, C s a → D s a) {s : σ} {as : List α}
    (h : Each step C s as) : Each step D s as := by
  induction as generalizing s with
  | nil => trivial
  | cons a as ih => exact ⟨hCD s a h.1, ih h.2⟩

/-- A condition on the actions alone. -/
lemma each_iff_forall {D : α → Prop} {s : σ} {as : List α} :
    Each step (fun _ a => D a) s as ↔ ∀ a ∈ as, D a := by
  induction as generalizing s with
  | nil => simp [Each]
  | cons a as ih => simp [Each, ih]

/-- What holds along a run holds before each of its actions. -/
lemma Along.each {s : σ} {as : List α} (h : Along step P s as) :
    Each step (fun s _ => P s) s as := by
  induction as generalizing s with
  | nil => trivial
  | cons a as ih => exact ⟨h.1, ih h.2⟩

lemma Along.mono {Q : σ → Prop} (hPQ : ∀ s, P s → Q s) {s : σ} {as : List α}
    (h : Along step P s as) : Along step Q s as := by
  induction as generalizing s with
  | nil => exact hPQ s h
  | cons a as ih => exact ⟨hPQ s h.1, ih h.2⟩

/-- The rule for invariants under a condition on the steps. -/
theorem along_of_each (hstep : ∀ s a, P s → C s a → P (step s a)) {s : σ} {as : List α}
    (h0 : P s) (h : Each step C s as) : Along step P s as := by
  induction as generalizing s with
  | nil => exact h0
  | cons a as ih => exact ⟨h0, ih (hstep s a h0 h.1) h.2⟩

/-- The rule for plain invariants. -/
theorem run_invariant (hstep : ∀ s a, P s → P (step s a)) {s : σ} (h0 : P s) (as : List α) :
    P (run step s as) := by
  induction as generalizing s with
  | nil => exact h0
  | cons a as ih => exact ih (hstep s a h0)

/-- **The exact rule**: when `C` says of every step from a good state whether it keeps the
state good, a run stays good exactly when all its steps meet `C`. The states may be taken
among those with a plain invariant `I`. -/
theorem along_iff_each_of {I : σ → Prop} (hinv : ∀ s a, I s → I (step s a))
    (hstep : ∀ s a, I s → P s → (P (step s a) ↔ C s a)) {s : σ} {as : List α} (hI : I s)
    (h0 : P s) : Along step P s as ↔ Each step C s as := by
  induction as generalizing s with
  | nil => exact ⟨fun _ => trivial, fun _ => h0⟩
  | cons a as ih =>
    refine ⟨?_, ?_⟩
    · rintro ⟨-, h⟩
      exact ⟨(hstep s a hI h0).mp h.head, (ih (hinv s a hI) h.head).mp h⟩
    · rintro ⟨hc, h⟩
      have h1 := (hstep s a hI h0).mpr hc
      exact ⟨h0, (ih (hinv s a hI) h1).mpr h⟩

/-- The exact rule over all states. -/
theorem along_iff_each (hstep : ∀ s a, P s → (P (step s a) ↔ C s a)) {s : σ} {as : List α}
    (h0 : P s) : Along step P s as ↔ Each step C s as :=
  along_iff_each_of (I := fun _ => True) (fun _ _ _ => trivial) (fun s a _ => hstep s a) trivial
    h0

/-- Two conditions on the steps of a run are one where they are one for every step: from the
states with `I`, which the steps that meet `H` keep. -/
theorem each_iff_each_of {I : σ → Prop} {H C D : σ → α → Prop}
    (hinv : ∀ s a, I s → H s a → I (step s a)) (hstep : ∀ s a, I s → H s a → (C s a ↔ D s a))
    {s : σ} {as : List α} (hI : I s) (hH : Each step H s as) :
    Each step C s as ↔ Each step D s as := by
  induction as generalizing s with
  | nil => exact Iff.rfl
  | cons a as ih => exact and_congr (hstep s a hI hH.1) (ih (hinv s a hI hH.1) hH.2)

/-- **A bound that every action lowers** is used up by as many actions. -/
theorem run_exhausts {I : σ → Prop} (μ : σ → ℕ)
    (hstep : ∀ s a, I s → I (step s a) ∧ μ (step s a) ≤ μ s - 1) {s : σ} {as : List α} (h : I s)
    (hlen : μ s ≤ as.length) : I (run step s as) ∧ μ (run step s as) = 0 := by
  induction as generalizing s with
  | nil => exact ⟨h, Nat.le_zero.mp hlen⟩
  | cons a as ih =>
    obtain ⟨hinv, hless⟩ := hstep s a h
    rw [List.length_cons] at hlen
    exact ih hinv (by omega)

/-! ### Loops -/

variable (step) in
/-- The state after `k` rounds of a loop that takes the action `a`. -/
def rounds (a : α) (k : ℕ) (s : σ) : σ := run step s (List.replicate k a)

section Loops

variable {a : α} (done good : σ → Prop)

@[simp] lemma rounds_zero (a : α) (s : σ) : rounds step a 0 s = s := rfl

lemma rounds_succ (a : α) (k : ℕ) (s : σ) :
    rounds step a (k + 1) s = rounds step a k (step s a) := rfl

lemma rounds_add (a : α) (j k : ℕ) (s : σ) :
    rounds step a (j + k) s = rounds step a k (rounds step a j s) := by
  rw [rounds, List.replicate_add, run_append]
  rfl

lemma rounds_next (a : α) (k : ℕ) (s : σ) :
    rounds step a (k + 1) s = step (rounds step a k s) a := rounds_add a k 1 s

/-- Where a round does nothing, no number of them does. -/
lemma rounds_of_fixed {s : σ} (h : step s a = s) (k : ℕ) : rounds step a k s = s := by
  induction k with
  | zero => rfl
  | succ k ih => rw [rounds_succ, h, ih]

/-- What a round keeps, any number of them keep. -/
lemma rounds_invariant (hstep : ∀ s, P s → P (step s a)) {s : σ} (h : P s) (k : ℕ) :
    P (rounds step a k s) := by
  induction k with
  | zero => exact h
  | succ k ih =>
    rw [rounds_next]
    exact hstep _ ih

/-- A loop ends if a measure gets smaller in each of its rounds. -/
theorem loop_ends {δ : Type*} [Preorder δ] [WellFoundedLT δ] (μ : σ → δ)
    (hless : ∀ s, ¬done s → μ (step s a) < μ s) (s : σ) : ∃ k, done (rounds step a k s) := by
  induction hm : μ s using WellFoundedLT.induction generalizing s with
  | ind m ih =>
    by_cases hs : done s
    · exact ⟨0, hs⟩
    · obtain ⟨k, hk⟩ := ih _ (hm ▸ hless s hs) (step s a) rfl
      exact ⟨k + 1, hk⟩

/-- **The exact rule for loops** that may go wrong: if `C` says of every round from a good
state whether it leads to a good one, and a measure gets smaller as long as the states are
good, the loop ends in a good state exactly when all its rounds meet `C`. -/
theorem loop_iff {δ : Type*} [Preorder δ] [WellFoundedLT δ] (μ : σ → δ) {C : σ → Prop}
    (hless : ∀ s, good s → ¬done s → μ (step s a) < μ s)
    (hstop : ∀ s, done s → step s a = s ∧ C s) (hbad : ∀ s, ¬good s → step s a = s)
    (hgood : ∀ s, good s → ¬done s → (good (step s a) ↔ C s)) {s : σ} (h : good s) :
    (∃ k, done (rounds step a k s) ∧ good (rounds step a k s)) ↔
      ∀ k, C (rounds step a k s) := by
  constructor
  · rintro ⟨k, hdone, hk⟩ j
    -- what is bad stays bad, so all rounds up to the last one are good
    have hearlier : ∀ i ≤ k, good (rounds step a i s) := by
      intro i hi
      by_contra hi'
      obtain ⟨m, rfl⟩ := Nat.exists_eq_add_of_le hi
      rw [rounds_add, rounds_of_fixed (hbad _ hi')] at hk
      exact hi' hk
    rcases Nat.lt_or_ge j k with hj | hj
    · by_cases hd : done (rounds step a j s)
      · exact (hstop _ hd).2
      · have hnext := hearlier (j + 1) hj
        rw [rounds_next] at hnext
        exact (hgood _ (hearlier j hj.le) hd).mp hnext
    · obtain ⟨m, rfl⟩ := Nat.exists_eq_add_of_le hj
      rw [rounds_add, rounds_of_fixed (hstop _ hdone).1]
      exact (hstop _ hdone).2
  · intro hC
    have hall : ∀ k, good (rounds step a k s) := by
      intro k
      induction k with
      | zero => exact h
      | succ k ih =>
        rw [rounds_next]
        by_cases hd : done (rounds step a k s)
        · rwa [(hstop _ hd).1]
        · exact (hgood _ ih hd).mpr (hC k)
    obtain ⟨k, hk⟩ := loop_ends (fun s => done s ∨ ¬good s) μ
      (fun s hs => hless s (not_not.mp fun hg => hs (.inr hg)) fun hd => hs (.inl hd)) s
    exact ⟨k, hk.resolve_right (not_not_intro (hall k)), hall k⟩

end Loops

/-! ### What a run puts out -/

section Outputs

variable {β : Type*}

variable (step) in
/-- What the actions of a run put out, in order. -/
def outputs (out : σ → α → List β) : σ → List α → List β
  | _, [] => []
  | s, a :: as => out s a ++ outputs out (step s a) as

variable {out : σ → α → List β}

/-- The rule for invariants of a state and of what was put out on the way to it. -/
theorem outputs_invariant {Q : σ → List β → Prop}
    (hstep : ∀ s l a, Q s l → Q (step s a) (l ++ out s a)) {s : σ} {l : List β} (h : Q s l)
    (as : List α) : Q (run step s as) (l ++ outputs step out s as) := by
  induction as generalizing s l with
  | nil => simpa [outputs] using h
  | cons a as ih =>
    rw [outputs, ← List.append_assoc]
    exact ih (hstep s l a h)

/-- **The rule for refinements**: a machine whose every step is, seen through `f`, what its output
does to another machine, refines it in every run of steps that meet `C`. -/
theorem run_refines {τ : Type*} {next : τ → β → τ} (f : σ → τ) {I : σ → Prop}
    (hstep : ∀ s a, I s → C s a → I (step s a) ∧ f (step s a) = run next (f s) (out s a))
    {s : σ} {as : List α} (h : I s) (hC : Each step C s as) :
    I (run step s as) ∧ f (run step s as) = run next (f s) (outputs step out s as) := by
  induction as generalizing s with
  | nil => exact ⟨h, rfl⟩
  | cons a as ih =>
    obtain ⟨hinv, hnext⟩ := hstep s a h hC.1
    obtain ⟨hlast, hrest⟩ := ih hinv hC.2
    refine ⟨hlast, ?_⟩
    rw [run_cons, outputs, run_append, ← hnext, hrest]

end Outputs

/-! ### Machines that remember their actions -/

variable (step) in
/-- A state together with the actions that led to it. -/
structure Traced where
  init : σ
  hist : List α
  cur : σ
  replay : run step init hist = cur

namespace Traced

def start (step : σ → α → σ) (s : σ) : Traced step := ⟨s, [], s, rfl⟩

def act (t : Traced step) (a : α) : Traced step where
  init := t.init
  hist := t.hist ++ [a]
  cur := step t.cur a
  replay := by rw [run_snoc, t.replay]

@[simp] lemma act_cur (t : Traced step) (a : α) : (t.act a).cur = step t.cur a := rfl
@[simp] lemma act_init (t : Traced step) (a : α) : (t.act a).init = t.init := rfl
@[simp] lemma act_hist (t : Traced step) (a : α) : (t.act a).hist = t.hist ++ [a] := rfl

/-- What every step keeps holds of a remembering machine that started well. -/
theorem invariant (hstep : ∀ s a, P s → P (step s a)) (t : Traced step) (h0 : P t.init) :
    P t.cur := by
  rw [← t.replay]
  exact run_invariant hstep h0 t.hist

end Traced

end Sparkplug.Machine
