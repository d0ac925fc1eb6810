import Sparkplug.Metrics
import Sparkplug.Machine
import Sparkplug.Blocks

/-!
String metrics and string properties.

Their values are C strings in blocks of their own. Elsewhere a value is just its bytes; here
it is a pointer and a size, which the classes set in different ways, so every access can go
wrong.
-/

namespace Sparkplug

open Machine Blocks

/-- The fields of the base classes `Metric` and `Property` that the value takes part in. -/
structure StringValue where
  data : Pointer := none
  size : ℕ
  dirty : Bool := false
  changedTime : ℕ := 0

/-- The two classes of strings. -/
inductive StringKind
  | metric | property
  deriving DecidableEq

namespace StringValue

/-- `StringMetric::StringMetric`: the base class copies the string with its end. -/
def newMetric (data : Bytes) : Option StringValue := do
  let size := data.length + 1
  let bytes ← readBytes (cStr data) size
  return { data := some bytes, size := size }

/-- `StringProperty::StringProperty`: the base class is given the size without the end, and
for a size of zero it sets neither `data` nor `size`, which is then whatever was there. -/
def newProperty (unset : ℕ) (data : Bytes) : Option StringValue := do
  let size := data.length
  if 0 < size then
    let bytes ← readBytes (cStr data) size
    return { data := some bytes, size := size }
  else return { size := unset }

/-- What `setValue` of both classes does to the value. A dirty value is not compared. -/
def store (s : StringValue) (value : Bytes) : Option StringValue :=
  if s.size = value.length + 1 then do
    let dirty ← if s.dirty then some true else memcmp (cStr value) s.data s.size
    if dirty then
      let data ← memcpy s.data (cStr value) s.size
      return { s with data := data, dirty := true }
    else return { s with dirty := false }
  else do
    let data ← strdup (cStr value)
    return { s with data := data, size := value.length + 1, dirty := true }

def setMetric (s : StringValue) (value : Bytes) (now : ℕ) : Option StringValue := do
  let s ← s.store value
  return { s with changedTime := now }

def setProperty (s : StringValue) (value : Bytes) : Option StringValue := s.store value

def getValue (s : StringValue) : Option Bytes := cString s.data

/-- The constructors of the two classes. -/
def new (unset : ℕ) (data : Bytes) : StringKind → Option StringValue
  | .metric => newMetric data
  | .property => newProperty unset data

/-- `setValue` of the two classes. -/
def setValue (s : StringValue) (value : Bytes) (now : ℕ) : StringKind → Option StringValue
  | .metric => s.setMetric value now
  | .property => s.setProperty value

/-! ### What storing does -/

/-- The block is that of the string `v`, and `size` is its size. -/
structure Stores (v : Bytes) (s : StringValue) : Prop where
  data : s.data = cStr v
  size : s.size = v.length + 1

variable {s t : StringValue} {v w : Bytes}

/-- A string is read up to its first zero. -/
lemma Stores.getValue_iff (h : s.Stores v) : s.getValue = some v ↔ 0 ∉ v := by
  rw [getValue, h.data]
  exact cString_cStr_iff

/-- A string of the same size is written over the old one unless it is the same. -/
lemma store_in_place (h : s.Stores v) (hw : w.length = v.length) : s.store w =
    some (if s.dirty || w != v then { s with data := cStr w, dirty := true }
      else { s with dirty := false }) := by
  have hsize : s.size = w.length + 1 := by rw [h.size, hw]
  have hcmp : memcmp (cStr w) s.data s.size = some (w != v) := by
    rw [h.data, hsize]
    exact memcmp_cStr hw
  have hcpy : memcpy s.data (cStr w) s.size = some (cStr w) := by
    rw [h.data, hsize]
    exact memcpy_cStr (by simp [hw])
  unfold store
  rw [if_pos hsize, hcmp, hcpy]
  cases s.dirty <;> cases w != v <;> rfl

/-- Any other string gets a block of its own, which ends at its first zero. -/
lemma store_anew (h : s.size ≠ w.length + 1) : s.store w =
    some { s with data := cStr (w.takeWhile (· ≠ 0)), size := w.length + 1, dirty := true } := by
  unfold store
  rw [if_neg h, strdup, cString_cStr]
  rfl

lemma store_isSome (h : s.Stores v) (w : Bytes) : (s.store w).isSome = true := by
  by_cases hw : w.length = v.length
  · rw [store_in_place h hw]
    rfl
  · rw [store_anew (by rw [h.size]; omega)]
    rfl

/-- A string without zeros is stored, and the flag says whether it is another one. -/
lemma store_stores (h : s.Stores v) (hw : 0 ∉ w) :
    ∃ t, s.store w = some t ∧ t.Stores w ∧ t.dirty = (s.dirty || w != v) ∧
      t.changedTime = s.changedTime := by
  by_cases hlen : w.length = v.length
  · refine ⟨_, store_in_place h hlen, ?_⟩
    split
    · next hd => exact ⟨⟨rfl, by rw [hlen]; exact h.size⟩, hd.symm, rfl⟩
    · next hd =>
      rw [Bool.not_eq_true] at hd
      have hwv : w = v := by simp_all
      exact ⟨⟨hwv ▸ h.data, hwv ▸ h.size⟩, hd.symm, rfl⟩
  · refine ⟨_, store_anew (by rw [h.size]; omega), ⟨?_, rfl⟩, ?_, rfl⟩
    · rw [takeWhile_eq_self_iff.mpr hw]
    · have hne : (w != v) = true := by
        rw [bne_iff_ne]
        rintro rfl
        exact hlen rfl
      rw [hne, Bool.or_true]

/-! ### What is promised -/

/-- The block has exactly `size` bytes and holds the last value with its end, which
`getValue` returns; setting a value stays inside the blocks, and the last value leaves a
clean object clean. -/
structure Sound (kind : StringKind) (last : Bytes) (s : StringValue) : Prop where
  stores : s.Stores last
  get : s.getValue = some last
  inside : ∀ value now, (s.setValue value now kind).isSome = true
  clean : s.dirty = false → ∀ now, ∃ t, s.setValue last now kind = some t ∧ t.dirty = false

lemma Stores.sound {kind : StringKind} (h : s.Stores v) (hv : 0 ∉ v) : s.Sound kind v where
  stores := h
  get := h.getValue_iff.mpr hv
  inside w now := by
    have := store_isSome h w
    cases kind with
    | metric => simpa [setValue, setMetric, Option.isSome_bind] using this
    | property => exact this
  clean hd now := by
    obtain ⟨t, ht, -, htd, -⟩ := store_stores h hv
    have hclean : t.dirty = false := by simp [htd, hd]
    cases kind with
    | metric => exact ⟨{ t with changedTime := now }, by simp [setValue, setMetric, ht], hclean⟩
    | property => exact ⟨t, ht, hclean⟩

lemma Sound.no_zero {kind : StringKind} (h : s.Sound kind v) : 0 ∉ v :=
  h.stores.getValue_iff.mp h.get

end StringValue

/-- An object with the value last given to it; the fields are there until an access has gone
wrong. -/
structure StringObject where
  last : Bytes
  value : Option StringValue

namespace StringObject

open StringValue

/-- A new object, with `unset` in a field that is not initialised. -/
def new (kind : StringKind) (unset : ℕ) (initial : Bytes) : StringObject :=
  ⟨initial, StringValue.new unset initial kind⟩

/-- A value is set at a time. -/
def step (kind : StringKind) (o : StringObject) (a : Bytes × ℕ) : StringObject :=
  ⟨a.1, o.value.bind (·.setValue a.1 a.2 kind)⟩

def Sound (kind : StringKind) (o : StringObject) : Prop :=
  ∃ s, o.value = some s ∧ s.Sound kind o.last

lemma step_sound_iff {kind : StringKind} {o : StringObject} (h : o.Sound kind) (a : Bytes × ℕ) :
    (step kind o a).Sound kind ↔ 0 ∉ a.1 := by
  refine ⟨fun ⟨_, _, hs⟩ => hs.no_zero, fun ha => ?_⟩
  obtain ⟨s, hs, hsound⟩ := h
  obtain ⟨t, ht, hstores, -⟩ := store_stores hsound.stores ha
  cases kind with
  | metric =>
    exact ⟨{ t with changedTime := a.2 }, by simp [step, hs, StringValue.setValue, setMetric, ht],
      Stores.sound ⟨hstores.data, hstores.size⟩ ha⟩
  | property =>
    exact ⟨t, by simp [step, hs, StringValue.setValue, setProperty, ht], hstores.sound ha⟩

lemma new_metric_sound_iff (unset : ℕ) (v : Bytes) :
    (new .metric unset v).Sound .metric ↔ 0 ∉ v := by
  refine ⟨fun ⟨_, _, hs⟩ => hs.no_zero, fun hv => ?_⟩
  refine ⟨{ data := cStr v, size := v.length + 1 }, ?_, Stores.sound ⟨rfl, rfl⟩ hv⟩
  simp only [new, StringValue.new, newMetric, readBytes_cStr]
  rfl

/-- A new property has no room for the end of its value. -/
lemma new_property_not_sound (unset : ℕ) (v : Bytes) :
    ¬(new .property unset v).Sound .property := by
  rintro ⟨s, hs, hsound⟩
  have hdata := hsound.stores.data
  have hsize := hsound.stores.size
  simp only [new, StringValue.new, newProperty] at hs hsize
  split at hs
  · obtain ⟨block, -, hb⟩ := Option.bind_eq_some_iff.mp hs
    obtain rfl := Option.some.inj hb
    dsimp only at hsize
    omega
  · obtain rfl := Option.some.inj hs
    cases hdata

lemma along_sound_iff (kind : StringKind) (o : StringObject) (sets : List (Bytes × ℕ)) :
    Along (step kind) (Sound kind) o sets ↔ o.Sound kind ∧ ∀ a ∈ sets, 0 ∉ a.1 := by
  by_cases h0 : o.Sound kind
  · have hrun : Along (step kind) (Sound kind) o sets ↔
        Each (step kind) (fun _ a => 0 ∉ a.1) o sets :=
      along_iff_each (fun _ a h => step_sound_iff h a) h0
    rw [hrun, each_iff_forall]
    simp [h0]
  · exact iff_of_false (fun h => h0 h.head) fun h => h0 h.1

/-- **Strings are stored** as they are to be just in metrics whose values, the first one
included, have no zeros in them. -/
theorem stored_iff (kind : StringKind) (unset : ℕ) (initial : Bytes)
    (sets : List (Bytes × ℕ)) :
    Along (step kind) (Sound kind) (new kind unset initial) sets ↔
      kind = .metric ∧ 0 ∉ initial ∧ ∀ a ∈ sets, 0 ∉ a.1 := by
  rw [along_sound_iff]
  cases kind with
  | metric => rw [new_metric_sound_iff]; simp
  | property => simp [new_property_not_sound]

/-- A property is created with the value `a`: its block has room for one byte, and no end. -/
theorem newProperty_not_stored :
    ¬Along (step .property) (Sound .property) (new .property 0 [97]) [] := by
  rintro ⟨s, hs, hsound⟩
  obtain rfl := Option.some.inj (hs : some { data := some [97], size := 1 } = some s)
  exact absurd hsound.get (by decide)

end StringObject

end Sparkplug
