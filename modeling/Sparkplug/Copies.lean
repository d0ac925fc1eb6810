import Mathlib.Data.List.Pairwise
import Mathlib.Data.List.Nodup
import Mathlib.Logic.Function.Basic

/-!
A copy of keyed values that is kept by messages.

The one side has values under keys and flags those that change; its messages carry all values
or the flagged ones. The other side reads the messages, and of several values under one key
the last one counts. The flags are cleared now and then, and the copy is right of all that is
not flagged as long as nothing has changed between a message and the clearing after it.
-/

namespace Sparkplug.Copies

variable {κ ν : Type*}

/-- A value under a key, with its flag. -/
structure Item (κ ν : Type*) where
  key : κ
  value : ν
  flag : Bool

def Item.cleared (x : Item κ ν) : Item κ ν := { x with flag := false }

/-- A message with all the values, or with the flagged ones. -/
def message (full : Bool) (xs : List (Item κ ν)) : List (κ × ν) :=
  (xs.filter fun x => x.flag || full).map fun x => (x.key, x.value)

lemma mem_message {full : Bool} {xs : List (Item κ ν)} {e : κ × ν} : e ∈ message full xs ↔
    ∃ x ∈ xs, (x.flag = true ∨ full = true) ∧ (x.key, x.value) = e := by
  simp [message, and_assoc]

section Read

variable [DecidableEq κ]

/-- What is known after a message has been read. -/
def read (copy : κ → Option ν) (es : List (κ × ν)) : κ → Option ν :=
  es.foldl (fun c e => Function.update c e.1 (some e.2)) copy

lemma read_cons (copy : κ → Option ν) (e : κ × ν) (es : List (κ × ν)) :
    read copy (e :: es) = read (Function.update copy e.1 (some e.2)) es := rfl

/-- A key has one of the values in the message, or it is not there and all is as before. -/
lemma read_cases (copy : κ → Option ν) (es : List (κ × ν)) (k : κ) :
    (∃ v, (k, v) ∈ es ∧ read copy es k = some v) ∨
      (∀ v, (k, v) ∉ es) ∧ read copy es k = copy k := by
  induction es generalizing copy with
  | nil => exact .inr ⟨by simp, rfl⟩
  | cons e es ih =>
    rw [read_cons]
    rcases ih (Function.update copy e.1 (some e.2)) with ⟨v, hv, h⟩ | ⟨hnone, h⟩
    · exact .inl ⟨v, List.mem_cons_of_mem _ hv, h⟩
    · by_cases hk : k = e.1
      · subst hk
        exact .inl ⟨e.2, List.mem_cons_self, by rw [h, Function.update_self]⟩
      · refine .inr ⟨fun v hv => ?_, by rw [h, Function.update_of_ne hk]⟩
        rcases List.mem_cons.mp hv with rfl | hv
        · exact hk rfl
        · exact hnone v hv

/-- What has been read is not forgotten. -/
lemma read_ne_none {copy : κ → Option ν} {es : List (κ × ν)} {k : κ}
    (h : copy k ≠ none ∨ ∃ v, (k, v) ∈ es) : read copy es k ≠ none := by
  induction es generalizing copy with
  | nil => simpa [read] using h
  | cons e es ih =>
    rw [read_cons]
    refine ih ?_
    by_cases hk : k = e.1
    · subst hk
      exact .inl (by simp)
    · rcases h with h | ⟨v, hv⟩
      · exact .inl (by rwa [Function.update_of_ne hk])
      · rcases List.mem_cons.mp hv with rfl | hv
        · exact absurd rfl hk
        · exact .inr ⟨v, hv⟩

end Read

/-! ### Both sides -/

/-- Both sides. `fresh` says that nothing has changed since the last message, and `complete`
that there has been a message with all the values. -/
structure Mirror (κ ν : Type*) where
  items : List (Item κ ν)
  copy : κ → Option ν
  fresh : Bool
  complete : Bool

namespace Mirror

/-- The copy does not have another value than the item. -/
def Agrees (m : Mirror κ ν) (x : Item κ ν) : Prop := ∀ v, m.copy x.key = some v → v = x.value

/-- What is known of the copy: it agrees on all that is not flagged, on everything when it is
fresh, and knows everything when it is complete. -/
structure Right (m : Mirror κ ν) : Prop where
  keys : (m.items.map Item.key).Nodup
  unflagged : ∀ x ∈ m.items, x.flag = false → m.Agrees x
  fresh : m.fresh = true → ∀ x ∈ m.items, m.Agrees x
  complete : m.complete = true → ∀ x ∈ m.items, m.copy x.key ≠ none

/-- The values are others, and what has changed is flagged. -/
def change (m : Mirror κ ν) (xs : List (Item κ ν)) : Mirror κ ν :=
  { m with items := xs, fresh := false }

/-- The flags are cleared. -/
def clear (m : Mirror κ ν) : Mirror κ ν := { m with items := m.items.map Item.cleared }

variable {m : Mirror κ ν}

lemma Right.change (h : m.Right) {xs : List (Item κ ν)}
    (hkeys : xs.map Item.key = m.items.map Item.key)
    (hflag : ∀ x ∈ xs, x.flag = false → x ∈ m.items) : (m.change xs).Right where
  keys := by
    rw [Mirror.change, hkeys]
    exact h.keys
  unflagged x hx hf := h.unflagged x (hflag x hx hf) hf
  fresh hf := by cases hf
  complete hc x hx := by
    have hkey : x.key ∈ m.items.map Item.key := hkeys ▸ List.mem_map_of_mem hx
    obtain ⟨y, hy, hxy⟩ := List.mem_map.mp hkey
    exact hxy ▸ h.complete hc y hy

/-- Flags may be cleared when the copy is fresh, and when there are none. -/
lemma Right.clear (h : m.Right) (hclear : m.fresh = true ∨ ∀ x ∈ m.items, x.flag = false) :
    m.clear.Right := by
  have hall : ∀ x ∈ m.items, m.Agrees x := by
    rcases hclear with hfresh | hflags
    · exact h.fresh hfresh
    · exact fun x hx => h.unflagged x hx (hflags x hx)
  have hitems : ∀ y ∈ m.clear.items, ∃ x ∈ m.items, x.cleared = y := fun y => List.mem_map.mp
  refine ⟨?_, fun y hy _ => ?_, fun _ y hy => ?_, fun hc y hy => ?_⟩
  · have hkeys : m.clear.items.map Item.key = m.items.map Item.key := by
      simp [Mirror.clear, Item.cleared, Function.comp_def]
    rw [hkeys]
    exact h.keys
  · obtain ⟨x, hx, rfl⟩ := hitems y hy
    exact hall x hx
  · obtain ⟨x, hx, rfl⟩ := hitems y hy
    exact hall x hx
  · obtain ⟨x, hx, rfl⟩ := hitems y hy
    exact h.complete hc x hx

/-- Of two items with one key there is only one. -/
lemma eq_of_key (h : (m.items.map Item.key).Nodup) {x y : Item κ ν} (hx : x ∈ m.items)
    (hy : y ∈ m.items) (hk : x.key = y.key) : x = y := List.inj_on_of_nodup_map h hx hy hk

variable [DecidableEq κ]

/-- A message is sent and read. -/
def send (m : Mirror κ ν) (full : Bool) : Mirror κ ν where
  items := m.items
  copy := read m.copy (message full m.items)
  fresh := true
  complete := m.complete || full

/-- **A message makes the copy fresh**: what it does not carry has been right before. -/
lemma Right.send (h : m.Right) (full : Bool) : (m.send full).Right := by
  have hall : ∀ x ∈ m.items, (m.send full).Agrees x := by
    intro x hx v hv
    rcases read_cases m.copy (message full m.items) x.key with ⟨w, hw, hread⟩ | ⟨hnone, hsame⟩
    · obtain ⟨y, hy, -, hyw⟩ := mem_message.mp hw
      obtain ⟨hkey, rfl⟩ := Prod.mk.inj hyw
      obtain rfl := eq_of_key h.keys hx hy hkey.symm
      exact (Option.some.inj (hread.symm.trans hv)).symm
    · -- an item that is flagged would be in the message
      have hflag : x.flag = false := by
        by_contra hf
        exact hnone x.value (mem_message.mpr ⟨x, hx, .inl (by simpa using hf), rfl⟩)
      exact h.unflagged x hx hflag v (hsame ▸ hv)
  refine ⟨h.keys, fun x hx _ => hall x hx, fun _ => hall, fun hc x hx => read_ne_none ?_⟩
  rcases Bool.or_eq_true_iff.mp hc with hc | hfull
  · exact .inl (h.complete hc x hx)
  · exact .inr ⟨x.value, mem_message.mpr ⟨x, hx, .inr hfull, rfl⟩⟩

lemma Right.sends (h : m.Right) (fulls : List Bool) : (fulls.foldl Mirror.send m).Right := by
  induction fulls generalizing m with
  | nil => exact h
  | cons full fulls ih => exact ih (h.send full)

/-- Messages one after the other. -/
lemma foldl_send (m : Mirror κ ν) (fulls : List Bool) : fulls.foldl send m =
    ⟨m.items, fulls.foldl (fun c full => read c (message full m.items)) m.copy,
      !fulls.isEmpty || m.fresh, m.complete || fulls.any id⟩ := by
  induction fulls generalizing m with
  | nil => simp
  | cons full fulls ih =>
    rw [List.foldl_cons, ih]
    simp [send, Bool.or_assoc]

end Mirror

end Sparkplug.Copies
