import Mathlib.Data.List.Infix

/-!
Strings made of levels.

Levels that do not contain the separator can be read off the joined string, and a string
without the separator occurs in the joined string only within one of the levels.
-/

namespace Sparkplug.Levels

variable {α : Type*} {c : α} {p a b : List α} {ls ms : List (List α)}

/-- What does not contain `c` does not reach across it. -/
lemma infix_append_cons (hc : c ∉ p) : p <:+: a ++ c :: b ↔ p <:+: a ∨ p <:+: b := by
  refine ⟨?_, ?_⟩
  · rintro ⟨s, t, h⟩
    rcases List.append_eq_append_iff.mp h with ⟨u, ha, -⟩ | ⟨u, hsp, hb⟩
    · exact .inl ⟨s, u, ha.symm⟩
    · rcases List.append_eq_append_iff.mp hsp with ⟨v, ha, hp⟩ | ⟨v, hs, hu⟩
      · cases u with
        | nil => exact .inl ⟨s, [], by rw [ha, hp]; simp⟩
        | cons x u =>
          -- the separator would be in `p`
          obtain ⟨rfl, -⟩ := List.cons_eq_cons.mp hb
          exact absurd (by rw [hp]; simp) hc
      · cases v with
        | nil =>
          rw [List.nil_append] at hu
          cases p with
          | nil => exact .inl ⟨[], a, rfl⟩
          | cons x p =>
            rw [hu] at hb
            obtain ⟨rfl, -⟩ := List.cons_eq_cons.mp hb
            exact absurd (List.mem_cons_self) hc
        | cons x v =>
          subst hu
          obtain ⟨-, rfl⟩ := List.cons_eq_cons.mp hb
          exact .inr ⟨v, t, by simp⟩
  · rintro (h | h)
    · exact List.infix_append_of_infix_left h
    · exact List.infix_append_of_infix_right (List.infix_cons h)

/-- An occurrence in joined levels is an occurrence in one of them. -/
theorem infix_intercalate (hc : c ∉ p) (hls : ls ≠ []) :
    p <:+: [c].intercalate ls ↔ ∃ l ∈ ls, p <:+: l := by
  induction ls with
  | nil => exact absurd rfl hls
  | cons l ls ih =>
    cases ls with
    | nil => simp
    | cons m ls =>
      rw [List.intercalate_cons_cons, List.append_assoc, List.singleton_append,
        infix_append_cons hc, ih (by simp)]
      simp

/-- Levels are determined by the joined string. -/
theorem intercalate_inj [DecidableEq α] (hls : ls ≠ []) (hms : ms ≠ []) (hl : ∀ l ∈ ls, c ∉ l)
    (hm : ∀ m ∈ ms, c ∉ m) (h : [c].intercalate ls = [c].intercalate ms) : ls = ms := by
  have := congrArg (·.splitOn c) h
  rwa [List.splitOn_intercalate c hl hls, List.splitOn_intercalate c hm hms] at this

end Sparkplug.Levels
