import Mathlib.Data.List.Basic
import Mathlib.Data.List.Induction

/-!
Values that are set and published from time to time.

The history of an object says what it is to show: the value that was set last, whether a
value was changed since the last publish, and when a value was set last. An object that
keeps a value, a flag and a time can be held against it, call by call.
-/

namespace Sparkplug.Histories

/-- A value is set at a time, or what was set has been published. -/
inductive Use (α τ : Type*)
  | set (v : α) (now : τ)
  | published

variable {α β τ : Type*}

namespace Use

def value : Use α τ → Option α
  | set v _ => some v
  | published => none

def time : Use α τ → Option τ
  | set _ now => some now
  | published => none

def map (f : α → β) : Use α τ → Use β τ
  | set v now => set (f v) now
  | published => published

end Use

/-- The value that was set last, or the first one. -/
def last (initial : α) (us : List (Use α τ)) : α :=
  ((us.filterMap Use.value).getLast?).getD initial

/-- The time at which a value was set last. -/
def lastTime (us : List (Use α τ)) : Option τ := (us.filterMap Use.time).getLast?

/-- Since the last publish a value was set that was not the one there was. -/
def Changed (initial : α) (us : List (Use α τ)) : Prop :=
  ∃ before v now after, us = before ++ .set v now :: after ∧ .published ∉ after ∧
    v ≠ last initial before

section Calls

variable {initial v : α} {now : τ} {us : List (Use α τ)}

@[simp] lemma last_set : last initial (us ++ [.set v now]) = v := by
  simp [last, Use.value]

@[simp] lemma last_published : last initial (us ++ [.published]) = last initial us := by
  simp [last, Use.value]

@[simp] lemma lastTime_set : lastTime (us ++ [.set v now]) = some now := by
  simp [lastTime, Use.time]

lemma not_changed_nil : ¬Changed initial ([] : List (Use α τ)) := by
  rintro ⟨before, v, now, after, h, -⟩
  simp at h

/-- A call is the last one of a history or comes before the last one. -/
lemma snoc_split {us before after : List α} {u w : α} (h : us ++ [u] = before ++ w :: after) :
    (after = [] ∧ us = before ∧ u = w) ∨
      ∃ rest, after = rest ++ [u] ∧ us = before ++ w :: rest := by
  rcases after.eq_nil_or_concat' with rfl | ⟨rest, x, rfl⟩
  · obtain ⟨hus, hu⟩ := List.append_inj' h rfl
    exact .inl ⟨rfl, hus, (List.cons.inj hu).1⟩
  · rw [← List.cons_append, ← List.append_assoc] at h
    obtain ⟨hus, hu⟩ := List.append_inj' h rfl
    exact .inr ⟨rest, by rw [(List.cons.inj hu).1], hus⟩

lemma not_changed_published : ¬Changed initial (us ++ [.published]) := by
  rintro ⟨before, v, now, after, h, hafter, -⟩
  rcases snoc_split h with ⟨-, -, hu⟩ | ⟨rest, rfl, -⟩
  · cases hu
  · exact hafter (by simp)

/-- A value that is set is news unless it is the one there is. -/
lemma changed_set : Changed initial (us ++ [.set v now]) ↔
    Changed initial us ∨ v ≠ last initial us := by
  constructor
  · rintro ⟨before, w, t, after, h, hafter, hw⟩
    rcases snoc_split h with ⟨-, rfl, hu⟩ | ⟨rest, rfl, rfl⟩
    · obtain ⟨rfl, -⟩ := Use.set.inj hu
      exact .inr hw
    · exact .inl ⟨before, w, t, rest, rfl, fun hp => hafter (List.mem_append_left _ hp), hw⟩
  · rintro (⟨before, w, t, after, rfl, hafter, hw⟩ | hv)
    · exact ⟨before, w, t, after ++ [.set v now], by simp, by simp [hafter], hw⟩
    · exact ⟨us, v, now, [], rfl, by simp, hv⟩

end Calls

/-! ### Objects -/

/-- A value, a flag and a time are what they are to be after these calls. The time is that of
the last value set, as long as there is news. -/
structure Shows (initial : α) (us : List (Use α τ)) (x : α) (d : Bool) (t : τ) : Prop where
  value : x = last initial us
  dirty : d = true ↔ Changed initial us
  time : d = true → lastTime us = some t

namespace Shows

variable {initial x v : α} {us : List (Use α τ)} {d : Bool} {t now : τ}

lemma start (initial : α) (t : τ) : Shows initial [] initial false t :=
  ⟨rfl, iff_of_false (by simp) not_changed_nil, by simp⟩

/-- A value is set: there is news if there was any or the value is another one, and then the
time is noted. -/
lemma set (h : Shows initial us x d t) {d' : Bool} {t' : τ}
    (hd : d' = true ↔ d = true ∨ v ≠ x) (ht : d' = true → t' = now) :
    Shows initial (us ++ [.set v now]) v d' t' where
  value := last_set.symm
  dirty := by rw [hd, changed_set, h.dirty, h.value]
  time hd' := by rw [lastTime_set, ht hd']

lemma published (h : Shows initial us x d t) :
    Shows initial (us ++ [.published]) x false t where
  value := by rw [last_published, h.value]
  dirty := iff_of_false (by simp) not_changed_published
  time := by simp

end Shows

/-! ### Two representations of the values -/

section Map

variable {f : α → β} {initial : α} {us : List (Use α τ)}

lemma last_map : last (f initial) (us.map (Use.map f)) = f (last initial us) := by
  have hvalue : (Use.value ∘ Use.map f : Use α τ → Option β) = fun u => u.value.map f := by
    funext u
    cases u <;> rfl
  rw [last, last, List.filterMap_map, hvalue, ← List.map_filterMap, List.getLast?_map,
    Option.getD_map]

lemma lastTime_map : lastTime (us.map (Use.map f)) = lastTime us := by
  have htime : (Use.time ∘ Use.map f : Use α τ → Option τ) = Use.time := by
    funext u
    cases u <;> rfl
  rw [lastTime, lastTime, List.filterMap_map, htime]

lemma changed_map (hf : f.Injective) :
    Changed (f initial) (us.map (Use.map f)) ↔ Changed initial us := by
  induction us using List.reverseRecOn with
  | nil => exact iff_of_false not_changed_nil not_changed_nil
  | append_singleton us u ih =>
    rw [List.map_append, List.map_singleton]
    cases u with
    | set v now => rw [Use.map, changed_set, changed_set, ih, last_map, hf.ne_iff]
    | published => exact iff_of_false not_changed_published not_changed_published

/-- **Objects that are used in the same way show the same**, whatever the values are
represented by. -/
theorem Shows.agree (hf : f.Injective) {x : α} {y : β} {d d' : Bool} {t t' : τ}
    (h : Shows initial us x d t) (h' : Shows (f initial) (us.map (Use.map f)) y d' t') :
    y = f x ∧ d' = d ∧ (d = true → t' = t) := by
  have hdirty : d' = d := by
    rw [Bool.eq_iff_iff, h.dirty, h'.dirty, changed_map hf]
  refine ⟨by rw [h'.value, h.value, last_map], hdirty, fun hd => ?_⟩
  have htime := h'.time (hdirty.trans hd)
  rw [lastTime_map, h.time hd] at htime
  exact (Option.some.inj htime).symm

end Map

end Sparkplug.Histories
