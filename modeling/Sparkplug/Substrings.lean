import Mathlib.Data.List.Infix

/-!
Searching for a part of a string.

A search answers with a position, as library functions do. The first position at which a
part occurs is what stands before it: this is how a search is taken apart here.
-/

namespace Sparkplug.Substrings

variable {α : Type*} [DecidableEq α] {part s t a b : List α} {c : α} {pos k : ℕ}

/-- The first position from `pos` on at which `part` occurs in `s`. -/
def find (s part : List α) (pos : ℕ) : Option ℕ :=
  (List.range' pos (s.length + 1 - pos)).find? fun k => part.isPrefixOf (s.drop k)

/-- The part of `s` at `pos`, of at most `len` characters. -/
def substr (s : List α) (pos len : ℕ) : List α := (s.drop pos).take len

lemma find_eq_some_iff : find s part pos = some k ↔
    pos ≤ k ∧ k ≤ s.length ∧ part <+: s.drop k ∧ ∀ j, pos ≤ j → j < k → ¬part <+: s.drop j := by
  simp only [find, List.find?_range'_eq_some, List.mem_range'_1, List.isPrefixOf_iff_prefix,
    Bool.not_eq_true', ← Bool.not_eq_true]
  refine ⟨?_, ?_⟩
  · rintro ⟨hp, ⟨h1, h2⟩, h⟩
    exact ⟨h1, by omega, hp, h⟩
  · rintro ⟨h1, h2, hp, h⟩
    exact ⟨hp, ⟨h1, by omega⟩, h⟩

lemma find_eq_none_iff : find s part pos = none ↔
    ∀ j, pos ≤ j → j ≤ s.length → ¬part <+: s.drop j := by
  simp only [find, List.find?_range'_eq_none, List.isPrefixOf_iff_prefix, Bool.not_eq_true',
    ← Bool.not_eq_true]
  refine ⟨fun h j h1 h2 => h j h1 (by omega), fun h j h1 h2 => h j h1 (by omega)⟩

/-- What follows the first occurrence does not matter. -/
lemma find_append (h : find s part pos = some k) (hk : k + part.length ≤ s.length) :
    find (s ++ t) part pos = some k := by
  obtain ⟨h1, h2, hp, hmin⟩ := find_eq_some_iff.mp h
  refine find_eq_some_iff.mpr ⟨h1, by simp; omega, ?_, fun j hj hjk hpre => hmin j hj hjk ?_⟩
  · rw [List.drop_append_of_le_length h2]
    exact hp.trans (List.prefix_append ..)
  · rw [List.drop_append_of_le_length (by omega)] at hpre
    refine List.prefix_of_prefix_length_le hpre (List.prefix_append ..) ?_
    rw [List.length_drop]
    omega

lemma find_le (h : find s part pos = some k) : k + part.length ≤ s.length := by
  obtain ⟨-, hk, hp, -⟩ := find_eq_some_iff.mp h
  have := hp.length_le
  rw [List.length_drop] at this
  omega

/-- What is found is still found when the string ends with it. -/
lemma find_take (h : find s part pos = some k) :
    find (s.take (k + part.length)) part pos = some k := by
  have hle := find_le h
  obtain ⟨h1, h2, hp, hmin⟩ := find_eq_some_iff.mp h
  refine find_eq_some_iff.mpr ⟨h1, ?_, ?_, fun j hj hjk hpre => hmin j hj hjk ?_⟩
  · rw [List.length_take]
    omega
  · rw [List.drop_take, Nat.add_sub_cancel_left]
    exact List.prefix_take_iff.mpr ⟨hp, le_rfl⟩
  · rw [List.drop_take] at hpre
    exact hpre.trans (List.take_prefix ..)

/-! ### Searching for a character -/

omit [DecidableEq α] in
lemma singleton_prefix_drop {j : ℕ} : [c] <+: s.drop j ↔ s[j]? = some c := by
  rw [List.singleton_prefix_iff_head?_eq_some, List.head?_drop]

/-- What a search for a character finds is what it has passed over. -/
lemma find_singleton (hc : c ∉ a) :
    find (t ++ a ++ c :: b) [c] t.length = some (t.length + a.length) := by
  refine find_eq_some_iff.mpr ⟨by omega, by simp, ?_, fun j h1 h2 h => ?_⟩
  · rw [singleton_prefix_drop, List.getElem?_append_right (by simp)]
    simp
  · rw [singleton_prefix_drop, List.append_assoc, List.getElem?_append_right h1,
      List.getElem?_append_left (by omega)] at h
    exact hc (List.mem_of_getElem? h)

lemma find_singleton_none (hc : c ∉ a) : find (t ++ a) [c] t.length = none := by
  refine find_eq_none_iff.mpr fun j h1 _ h => ?_
  rw [singleton_prefix_drop, List.getElem?_append_right h1] at h
  exact hc (List.mem_of_getElem? h)

lemma not_mem_substr (h : find s [c] pos = some k) : c ∉ substr s pos (k - pos) := by
  obtain ⟨-, -, -, hmin⟩ := find_eq_some_iff.mp h
  intro hmem
  obtain ⟨i, hi⟩ := List.mem_iff_getElem?.mp hmem
  rw [substr, List.getElem?_take] at hi
  split at hi
  · next hlt =>
    rw [List.getElem?_drop] at hi
    exact hmin (pos + i) (by omega) (by omega) (singleton_prefix_drop.mpr hi)
  · cases hi

lemma not_mem_drop (h : find s [c] pos = none) : c ∉ s.drop pos := by
  intro hmem
  obtain ⟨i, hi⟩ := List.mem_iff_getElem?.mp hmem
  rw [List.getElem?_drop] at hi
  have hlt : pos + i < s.length := (List.getElem?_eq_some_iff.mp hi).1
  exact find_eq_none_iff.mp h (pos + i) (by omega) (by omega) (singleton_prefix_drop.mpr hi)

end Sparkplug.Substrings
