import Mathlib.Order.BooleanAlgebra.Set

/-!
Handles: what is used must be alive.

An event may use a handle, and it may destroy one. A list of events is right for a set of
live handles if every handle is alive when it is used.
-/

namespace Sparkplug.Handles

variable {ι ε : Type*} (used destroyed : ε → Option ι)

/-- The handles destroyed in `l`. -/
def gone (l : List ε) : Set ι := {i | ∃ e ∈ l, destroyed e = some i}

/-- Every handle used is one of `live` that has not been destroyed before. -/
def UsesLive : Set ι → List ε → Prop
  | _, [] => True
  | live, e :: l => (∀ i ∈ used e, i ∈ live) ∧ UsesLive (live \ gone destroyed [e]) l

variable {used destroyed} {live : Set ι} {l m : List ε}

lemma gone_append : gone destroyed (l ++ m) = gone destroyed l ∪ gone destroyed m := by
  ext i
  simp [gone, or_and_right, exists_or]

lemma gone_eq_empty (h : ∀ e ∈ l, destroyed e = none) : gone destroyed l = ∅ := by
  refine Set.eq_empty_iff_forall_notMem.mpr fun i => ?_
  rintro ⟨e, he, hi⟩
  simp [h e he] at hi

lemma usesLive_append : UsesLive used destroyed live (l ++ m) ↔
    UsesLive used destroyed live l ∧ UsesLive used destroyed (live \ gone destroyed l) m := by
  induction l generalizing live with
  | nil =>
    have hnil : gone destroyed [] = ∅ := gone_eq_empty (by simp)
    simp [UsesLive, hnil]
  | cons e l ih =>
    have hcons : gone destroyed (e :: l) = gone destroyed [e] ∪ gone destroyed l :=
      gone_append (l := [e])
    rw [List.cons_append, UsesLive, ih, UsesLive, and_assoc, hcons, Set.sdiff_sdiff]

/-- Where nothing is destroyed. -/
lemma usesLive_of_none (h : ∀ e ∈ l, destroyed e = none) (hu : ∀ e ∈ l, ∀ i ∈ used e, i ∈ live) :
    UsesLive used destroyed live l := by
  induction l with
  | nil => trivial
  | cons e l ih =>
    have hgone : gone destroyed [e] = ∅ := gone_eq_empty (by simpa using h e (by simp))
    refine ⟨hu e (by simp), ?_⟩
    rw [hgone, Set.sdiff_empty]
    exact ih (fun f hf => h f (by simp [hf])) fun f hf => hu f (by simp [hf])

/-- A use after the end. -/
lemma not_usesLive {i : ι} {f : ε} (hi : i ∈ gone destroyed l) (hf : f ∈ m)
    (hu : used f = some i) : ¬UsesLive used destroyed live (l ++ m) := by
  rw [usesLive_append]
  rintro ⟨-, h⟩
  obtain ⟨m₁, m₂, rfl⟩ := List.append_of_mem hf
  exact (((usesLive_append.mp h).2.1 i hu).1).2 hi

end Sparkplug.Handles
