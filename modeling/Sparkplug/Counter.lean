import Mathlib.Data.List.Induction
import Mathlib.Data.Nat.ModEq

/-!
Numbering items with a counter.

A counter modulo `m` numbers a list of items and starts again at zero at some of them.
Only some of the items are kept. The numbers of the kept ones are without a gap exactly
when, at each kept item, as many items were numbered as were kept, modulo `m`, since the
restart.
-/

namespace Sparkplug.Counter

variable {α : Type*} (m : ℕ) (restart : α → Bool) (value : α → ℕ)

/-- The items of `l` are numbered in order from `s` on, and the counter then stands at
`n`. -/
inductive Counted (s : ℕ) : List α → ℕ → Prop
  | nil : Counted s [] s
  | snoc {l : List α} {n : ℕ} {a : α} (h : Counted s l n)
    (ha : value a = if restart a then 0 else n) : Counted s (l ++ [a]) ((value a + 1) % m)

/-- The number of items from the last one that meets `p` on, that item included. -/
def fromLast (p : α → Bool) (l : List α) : Option ℕ :=
  l.foldl (fun o a => if p a then some 1 else o.map (· + 1)) none

/-- From each restart to the next the numbers are `0, 1, 2, …` modulo `m`. -/
def GapFree (l : List α) : Prop :=
  ∀ pre b mid post, l = pre ++ b :: (mid ++ post) → restart b = true →
    (∀ x ∈ mid, restart x = false) →
    (b :: mid).map value = (List.range (mid.length + 1)).map (· % m)

section FromLast

variable {p : α → Bool} {l : List α} {a : α}

@[simp] lemma fromLast_nil : fromLast p [] = none := rfl

lemma fromLast_snoc : fromLast p (l ++ [a]) =
    if p a then some 1 else (fromLast p l).map (· + 1) := by
  simp [fromLast, List.foldl_append]

/-- The last item that meets `p`, with the items after it. -/
lemma fromLast_eq_some {k : ℕ} : fromLast p l = some k ↔
    ∃ pre b mid, l = pre ++ b :: mid ∧ p b = true ∧ (∀ x ∈ mid, p x = false) ∧
      k = mid.length + 1 := by
  induction l using List.reverseRecOn generalizing k with
  | nil => simp
  | append_singleton l a ih =>
    rw [fromLast_snoc]
    refine ⟨?_, ?_⟩
    · intro h
      cases ha : p a with
      | true =>
        rw [ha, if_pos rfl] at h
        exact ⟨l, a, [], rfl, ha, by simp, (Option.some.inj h).symm⟩
      | false =>
        rw [ha, if_neg (by simp)] at h
        obtain ⟨j, hj, rfl⟩ := Option.map_eq_some_iff.mp h
        obtain ⟨pre, b, mid, rfl, hb, hmid, rfl⟩ := ih.mp hj
        refine ⟨pre, b, mid ++ [a], by simp, hb, ?_, by simp⟩
        intro x hx
        rcases List.mem_append.mp hx with hx | hx
        · exact hmid x hx
        · rwa [List.mem_singleton.mp hx]
    · rintro ⟨pre, b, mid, e, hb, hmid, rfl⟩
      rcases List.eq_nil_or_concat mid with rfl | ⟨mid, x, rfl⟩
      · obtain ⟨rfl, rfl⟩ := List.append_singleton_inj.mp e
        simp [hb]
      · have e' : l ++ [a] = (pre ++ b :: mid) ++ [x] := by simpa using e
        obtain ⟨rfl, rfl⟩ := List.append_singleton_inj.mp e'
        have hl : fromLast p (pre ++ b :: mid) = some (mid.length + 1) :=
          ih.mpr ⟨pre, b, mid, rfl, hb, fun y hy => hmid y (by simp [hy]), rfl⟩
        simp [hmid a (by simp), hl]

/-- If an item of a sublist meets `p`, an item of the list does. -/
lemma fromLast_isSome_of_sublist {k : List α} (h : k.Sublist l) {i : ℕ}
    (hi : fromLast p k = some i) : ∃ j, fromLast p l = some j := by
  obtain ⟨pre, b, mid, rfl, hb, -, -⟩ := fromLast_eq_some.mp hi
  have hmem : b ∈ l := h.subset (by simp)
  clear hi h
  induction l using List.reverseRecOn with
  | nil => cases hmem
  | append_singleton l a ih =>
    rw [fromLast_snoc]
    cases ha : p a with
    | true => exact ⟨1, rfl⟩
    | false =>
      rcases List.mem_append.mp hmem with hm | hm
      · obtain ⟨j, hj⟩ := ih hm
        exact ⟨j + 1, by simp [hj]⟩
      · rw [List.mem_singleton.mp hm, ha] at hb
        cases hb

end FromLast

/-! ### One item at a time -/

variable {m restart value}

/-- `GapFree`, one item at a time. -/
lemma gapFree_iff {l : List α} : GapFree m restart value l ↔
    ∀ pre x post, l = pre ++ x :: post →
      (restart x = true → value x = 0) ∧
      (restart x = false → ∀ k, fromLast restart pre = some k → value x = k % m) := by
  refine ⟨?_, ?_⟩
  · intro h pre x post e
    refine ⟨?_, ?_⟩
    · intro hx
      have := h pre x [] post (by simpa using e) hx (by simp)
      simpa using this
    · intro hx k hk
      obtain ⟨pre, b, mid, rfl, hb, hmid, rfl⟩ := fromLast_eq_some.mp hk
      have hall : ∀ y ∈ mid ++ [x], restart y = false := by
        intro y hy
        rcases List.mem_append.mp hy with hy | hy
        · exact hmid y hy
        · rwa [List.mem_singleton.mp hy]
      have := h pre b (mid ++ [x]) post (by simpa using e) hb hall
      rw [List.length_append, List.length_singleton, List.range_succ, List.map_append] at this
      rw [← List.cons_append, List.map_append] at this
      exact List.singleton_inj.mp (List.append_inj' this rfl).2
  · intro h pre b mid post e hb hmid
    subst e
    induction mid using List.reverseRecOn generalizing post with
    | nil => simpa using (h pre b post (by simp)).1 hb
    | append_singleton mid x ih =>
      have hlast : fromLast restart (pre ++ b :: mid) = some (mid.length + 1) :=
        fromLast_eq_some.mpr ⟨pre, b, mid, rfl, hb, fun y hy => hmid y (by simp [hy]), rfl⟩
      have hx := (h (pre ++ b :: mid) x post (by simp)).2 (hmid x (by simp)) _ hlast
      have ih := ih (x :: post) (fun y hy => hmid y (by simp [hy])) (by simpa using h)
      rw [List.length_append, List.length_singleton, List.range_succ, List.map_append,
        ← List.cons_append, List.map_append, ih, List.map_singleton, List.map_singleton, hx]

/-! ### What the counter says -/

lemma Counted.counter {s n : ℕ} {l : List α} (h : Counted m restart value s l n) {k : ℕ}
    (hk : fromLast restart l = some k) : n = k % m := by
  induction h generalizing k with
  | nil => cases hk
  | @snoc l n a _ ha ih =>
    rw [fromLast_snoc] at hk
    cases hr : restart a with
    | true =>
      rw [hr, if_pos rfl] at hk ha
      obtain rfl := Option.some.inj hk
      rw [ha]
    | false =>
      rw [hr, if_neg (by simp)] at hk ha
      obtain ⟨j, hj, rfl⟩ := Option.map_eq_some_iff.mp hk
      rw [ha, ih hj, Nat.mod_add_mod]

/-- Every initial part of a counted list is counted, and the next item gets its number. -/
lemma Counted.split {s n : ℕ} {pre post : List α} {x : α}
    (h : Counted m restart value s (pre ++ x :: post) n) :
    ∃ j, Counted m restart value s pre j ∧ value x = if restart x then 0 else j := by
  induction post using List.reverseRecOn generalizing n with
  | nil =>
    generalize e : pre ++ [x] = l at h
    cases h with
    | nil => simp at e
    | snoc h ha =>
      obtain ⟨rfl, rfl⟩ := List.append_singleton_inj.mp e
      exact ⟨_, h, ha⟩
  | append_singleton post y ih =>
    generalize e : pre ++ x :: (post ++ [y]) = l at h
    cases h with
    | nil => simp at e
    | @snoc l n a h ha =>
      have e' : (pre ++ x :: post) ++ [y] = l ++ [a] := by simpa using e
      obtain ⟨rfl, -⟩ := List.append_singleton_inj.mp e'
      exact ih h

/-- **The law of the counter**: the kept items of a counted list are numbered without a gap
exactly when, at each kept item that is not a restart, the number of items since the last
restart is the number of kept items since the last kept restart, modulo `m`. -/
theorem Counted.gapFree_filter_iff {kept : α → Bool} {s n : ℕ} {l : List α}
    (h : Counted m restart value s l n) : GapFree m restart value (l.filter kept) ↔
    ∀ pre x post, l = pre ++ x :: post → kept x = true → restart x = false →
      ∀ i k, fromLast restart pre = some i → fromLast restart (pre.filter kept) = some k →
        i ≡ k [MOD m] := by
  have hval : ∀ {pre x post i}, l = pre ++ x :: post → restart x = false →
      fromLast restart pre = some i → value x = i % m := by
    intro pre x post i e hx hi
    subst e
    obtain ⟨j, hj, hv⟩ := h.split
    rw [hv, hx, if_neg (by simp), hj.counter hi]
  rw [gapFree_iff]
  refine ⟨?_, ?_⟩
  · intro hg pre x post e hkept hx i k hi hk
    have hfil : l.filter kept = pre.filter kept ++ x :: post.filter kept := by
      rw [e, List.filter_append, List.filter_cons_of_pos hkept]
    have := (hg _ x _ hfil).2 hx k hk
    rwa [hval e hx hi] at this
  · intro hc pre' x post' e'
    obtain ⟨pre, rest, rfl, rfl, hrest⟩ := List.filter_eq_append_iff.mp e'
    obtain ⟨skip, post, rfl, hskip, hkept, -⟩ := List.filter_eq_cons_iff.mp hrest
    have hpre : (pre ++ skip).filter kept = pre.filter kept := by
      rw [List.filter_append, List.filter_eq_nil_iff.mpr hskip, List.append_nil]
    have e : pre ++ (skip ++ x :: post) = (pre ++ skip) ++ x :: post := by simp
    refine ⟨fun hx => ?_, fun hx k hk => ?_⟩
    · rw [e] at h
      obtain ⟨j, -, hv⟩ := h.split
      rw [hv, hx, if_pos rfl]
    · obtain ⟨i, hi⟩ : ∃ i, fromLast restart (pre ++ skip) = some i :=
        fromLast_isSome_of_sublist (by rw [← hpre]; exact List.filter_sublist) hk
      rw [hval e hx hi]
      exact hc _ x post e hkept hx i k hi (by rw [hpre, hk])

end Sparkplug.Counter
