import Sparkplug.Publishable
import Mathlib.Data.List.Forall2

/-!
The content of a payload.

What a payload is to contain is said here without reference to how it is built: which
leaves of a property tree are included, and how the included properties of a set become
its keys and values. What `addToPayload` appends is shown to be just that.
-/

namespace Sparkplug

namespace Property

def name : Property → Str
  | leaf name _ _ _ => name
  | set name _ _ => name

/-! ### What is to be included -/

/-- The leaves of a property: itself, or those of the properties of a set. -/
inductive HasLeaf : Property → Property → Prop
  | self (name : Str) (dataType : ℕ) (dirty : Bool) (data : Bytes) :
    HasLeaf (leaf name dataType dirty data) (leaf name dataType dirty data)
  | within {name : Str} {dirty : Bool} {ps : List Property} {p l : Property} (hp : p ∈ ps)
    (h : HasLeaf p l) : HasLeaf (set name dirty ps) l

/-- A leaf is included in a birth, and otherwise when it is dirty; a set is included when one
of its leaves is. -/
def Included (isBirth : Bool) (p : Property) : Prop :=
  ∃ l, HasLeaf p l ∧ (isBirth = true ∨ l.isDirty = true)

/-- The keys and values of the included properties, in order. -/
inductive Encodes (isBirth : Bool) : List Property → List Str → List PropertyValue → Prop
  | nil : Encodes isBirth [] [] []
  | skip {p : Property} {ps : List Property} {ks : List Str} {vs : List PropertyValue}
    (h : ¬Included isBirth p) (hs : Encodes isBirth ps ks vs) : Encodes isBirth (p :: ps) ks vs
  | leaf {name : Str} {dataType : ℕ} {dirty : Bool} {data : Bytes} {ps : List Property}
    {ks : List Str} {vs : List PropertyValue}
    (h : Included isBirth (leaf name dataType dirty data)) (hs : Encodes isBirth ps ks vs) :
    Encodes isBirth (leaf name dataType dirty data :: ps) (name :: ks)
      (.scalar dataType data :: vs)
  | set {name : Str} {dirty : Bool} {qs ps : List Property} {ks ks' : List Str}
    {vs vs' : List PropertyValue} (h : Included isBirth (set name dirty qs))
    (hq : Encodes isBirth qs ks' vs') (hs : Encodes isBirth ps ks vs) :
    Encodes isBirth (set name dirty qs :: ps) (name :: ks) (.propertySet ks' vs' :: vs)

/-- The value of an included property. -/
def ValueOf (isBirth : Bool) : Property → PropertyValue → Prop
  | leaf _ dataType _ data, v => v = .scalar dataType data
  | set _ _ qs, v => ∃ ks vs, v = .propertySet ks vs ∧ Encodes isBirth qs ks vs

variable {isBirth : Bool}

lemma included_leaf {name : Str} {dataType : ℕ} {dirty : Bool} {data : Bytes} :
    Included isBirth (leaf name dataType dirty data) ↔ isBirth = true ∨ dirty = true := by
  refine ⟨?_, fun h => ⟨_, .self .., h⟩⟩
  rintro ⟨l, hl, h⟩
  cases hl
  exact h

lemma included_set {name : Str} {dirty : Bool} {qs : List Property} :
    Included isBirth (set name dirty qs) ↔ ∃ q ∈ qs, Included isBirth q := by
  refine ⟨?_, ?_⟩
  · rintro ⟨l, hl, h⟩
    cases hl with
    | within hq hl => exact ⟨_, hq, l, hl, h⟩
  · rintro ⟨q, hq, l, hl, h⟩
    exact ⟨l, .within hq hl, h⟩

/-- A property encoded in front of others. -/
lemma Encodes.cons {p : Property} {v : PropertyValue} {ps : List Property} {ks : List Str}
    {vs : List PropertyValue} (h : Included isBirth p) (hv : ValueOf isBirth p v)
    (hs : Encodes isBirth ps ks vs) : Encodes isBirth (p :: ps) (p.name :: ks) (v :: vs) := by
  cases p with
  | leaf name dataType dirty data =>
    obtain rfl : v = .scalar dataType data := hv
    exact .leaf h hs
  | set name dirty qs =>
    obtain ⟨ks', vs', rfl, hq⟩ := hv
    exact .set h hq hs

open Classical in
/-- **Keys and values correspond, position by position**: both are those of the included
properties, in the order of declaration. -/
theorem Encodes.positions {ps : List Property} {ks : List Str} {vs : List PropertyValue}
    (h : Encodes isBirth ps ks vs) :
    ks = (ps.filter (Included isBirth ·)).map name ∧
      List.Forall₂ (ValueOf isBirth) (ps.filter (Included isBirth ·)) vs := by
  induction h with
  | nil => exact ⟨rfl, .nil⟩
  | skip h _ ih => simpa [h] using ih
  | leaf h _ ih =>
    rw [List.filter_cons_of_pos (by simpa using h)]
    exact ⟨by rw [ih.1]; rfl, .cons rfl ih.2⟩
  | set h hq _ _ ih =>
    rw [List.filter_cons_of_pos (by simpa using h)]
    exact ⟨by rw [ih.1]; rfl, .cons ⟨_, _, rfl, hq⟩ ih.2⟩

lemma Encodes.length_eq {ps : List Property} {ks : List Str} {vs : List PropertyValue}
    (h : Encodes isBirth ps ks vs) : ks.length = vs.length := by
  obtain ⟨hk, hv⟩ := h.positions
  rw [hk, List.length_map, hv.length_eq]

/-! ### What is included -/

mutual

/-- An included property is added under its name, any other is not. -/
lemma addToPropertySet_spec (isBirth : Bool) : ∀ (p : Property) (s : PropertySet),
    (Included isBirth p → ∃ v, ValueOf isBirth p v ∧
      addToPropertySet isBirth p s = (s.add p.name v, true)) ∧
    (¬Included isBirth p → addToPropertySet isBirth p s = (s, false))
  | leaf name dataType dirty data, s => by
    rw [included_leaf]
    refine ⟨fun h => ⟨_, rfl, ?_⟩, fun h => ?_⟩
    · rw [addToPropertySet, if_pos (by simpa [or_comm] using h)]
      rfl
    · rw [addToPropertySet, if_neg (by simpa [and_comm] using h)]
  | set name dirty qs, s => by
    obtain ⟨ks, vs, henc, hset, hadded⟩ := addAllToPropertySet_spec isBirth qs {} false
    simp only [List.nil_append, Bool.false_eq_true, false_or] at hset hadded
    rw [included_set, ← hadded]
    refine ⟨fun h => ⟨.propertySet ks vs, ⟨ks, vs, rfl, henc⟩, ?_⟩, fun h => ?_⟩
    · simp only [addToPropertySet, h, if_true, hset]
      rfl
    · simp only [addToPropertySet]
      rw [if_neg h]

/-- The included properties of a list are added in order, and the flag says whether there
are any. -/
lemma addAllToPropertySet_spec (isBirth : Bool) : ∀ (ps : List Property) (s : PropertySet)
    (added : Bool), ∃ ks vs, Encodes isBirth ps ks vs ∧
      (addAllToPropertySet isBirth ps (s, added)).1 = ⟨s.keys ++ ks, s.values ++ vs⟩ ∧
      ((addAllToPropertySet isBirth ps (s, added)).2 = true ↔
        added = true ∨ ∃ p ∈ ps, Included isBirth p)
  | [], s, added => ⟨[], [], .nil, by simp [addAllToPropertySet], by simp [addAllToPropertySet]⟩
  | p :: ps, s, added => by
    obtain ⟨hpos, hneg⟩ := addToPropertySet_spec isBirth p s
    by_cases hp : Included isBirth p
    · obtain ⟨v, hv, hadd⟩ := hpos hp
      obtain ⟨ks, vs, henc, hset, hadded⟩ :=
        addAllToPropertySet_spec isBirth ps (s.add p.name v) (added || true)
      refine ⟨p.name :: ks, v :: vs, henc.cons hp hv, ?_, ?_⟩
      · simp only [addAllToPropertySet, hadd, hset]
        simp [PropertySet.add]
      · simp only [addAllToPropertySet, hadd, hadded]
        simp [hp]
    · obtain ⟨ks, vs, henc, hset, hadded⟩ := addAllToPropertySet_spec isBirth ps s (added || false)
      refine ⟨ks, vs, .skip hp henc, ?_, ?_⟩
      · simp only [addAllToPropertySet, hneg hp, hset]
      · simp only [addAllToPropertySet, hneg hp, hadded]
        simp [hp]

end

end Property

/-- The property sets of an encoded property set: itself and the nested ones. -/
inductive PropertySet.Has : PropertySet → PropertySet → Prop
  | self (s : PropertySet) : Has s s
  | nested {s u : PropertySet} {ks : List Str} {vs : List PropertyValue}
    (h : .propertySet ks vs ∈ s.values) (hu : Has ⟨ks, vs⟩ u) : Has s u

open Property

variable {isBirth : Bool} {now : ℕ}

/-- A nested set is encoded as well. -/
lemma Property.Encodes.nested {ps : List Property} {ks ks' : List Str}
    {vs vs' : List PropertyValue} (h : Encodes isBirth ps ks vs)
    (hmem : .propertySet ks' vs' ∈ vs) : ∃ qs, Encodes isBirth qs ks' vs' := by
  induction h with
  | nil => cases hmem
  | skip _ _ ih => exact ih hmem
  | leaf _ _ ih =>
    rcases List.mem_cons.mp hmem with h | h
    · cases h
    · exact ih h
  | set _ hq _ _ ih =>
    rcases List.mem_cons.mp hmem with h | h
    · cases h
      exact ⟨_, hq⟩
    · exact ih h

/-- In an encoded property set and in all sets within, every key has its value. -/
lemma Property.Encodes.has_length {s u : PropertySet} (hu : s.Has u) {ps : List Property}
    (h : Encodes isBirth ps s.keys s.values) : u.keys.length = u.values.length := by
  induction hu generalizing ps with
  | self s => exact h.length_eq
  | nested hmem _ ih =>
    obtain ⟨qs, hqs⟩ := h.nested hmem
    exact ih hqs

open Classical in
/-- The entry that a metric is to have in a payload. Its properties are there if a leaf of
them is included; keys and values then correspond to the included properties, in order, and
so they do in every nested set. -/
structure EntryFor (isBirth : Bool) (now : ℕ) (m : Metric) (e : PayloadMetric) : Prop where
  name : e.name = m.name
  metricAlias : e.metricAlias = m.metricAlias
  dataType : e.dataType = m.dataType
  timestamp : e.timestamp = if isBirth then now else m.changedTime
  value : e.value = m.data
  present : e.properties.isSome = true ↔ ∃ p ∈ m.properties, p.Included isBirth
  keys : ∀ s ∈ e.properties, s.keys = (m.properties.filter (·.Included isBirth)).map Property.name
  values : ∀ s ∈ e.properties,
    List.Forall₂ (ValueOf isBirth) (m.properties.filter (·.Included isBirth)) s.values
  lengths : ∀ s ∈ e.properties, ∀ u, s.Has u → u.keys.length = u.values.length

lemma entry_entryFor (m : Metric) (isBirth : Bool) (now : ℕ) :
    EntryFor isBirth now m (m.entry isBirth now) := by
  obtain ⟨ks, vs, henc, hset, hadded⟩ := addAllToPropertySet_spec isBirth m.properties {} false
  simp only [List.nil_append, Bool.false_eq_true, false_or] at hset hadded
  have hprops : (m.entry isBirth now).properties =
      if (addAllToPropertySet isBirth m.properties ({}, false)).2 then some ⟨ks, vs⟩ else none := by
    simp only [Metric.entry, hset]
  have hmem : ∀ s ∈ (m.entry isBirth now).properties, s = ⟨ks, vs⟩ := by
    intro s hs
    rw [hprops] at hs
    split at hs
    · exact (Option.mem_some_iff.mp hs).symm
    · cases hs
  refine ⟨rfl, rfl, rfl, rfl, rfl, ?_, fun s hs => ?_, fun s hs => ?_, fun s hs u hu => ?_⟩
  · rw [hprops, ← hadded]
    split <;> simp_all
  · rw [hmem s hs]
    exact henc.positions.1
  · rw [hmem s hs]
    exact henc.positions.2
  · obtain rfl := hmem s hs
    exact henc.has_length hu

lemma addMetrics_snd (isBirth : Bool) (now : ℕ) (ms : List Metric)
    (payload : List PayloadMetric) : (Publishable.addMetrics isBirth now ms payload).2 =
      payload ++ (ms.filter fun m => m.dirty || isBirth).map (·.entry isBirth now) := by
  induction ms generalizing payload with
  | nil => simp [Publishable.addMetrics]
  | cons m ms ih =>
    simp only [Publishable.addMetrics, ih, Metric.addToPayload, List.filter_cons]
    by_cases h : (m.dirty || isBirth) = true
    · simp [h]
    · simp [h]

/-- **The content of a payload.** What is appended is one entry for each dirty metric, in a
birth for each metric, in order. -/
theorem addToPayload_content (p : Publishable) (payload : List PayloadMetric) (isBirth : Bool)
    (now : ℕ) : ∃ es, (p.addToPayload payload isBirth now).2 = payload ++ es ∧
      List.Forall₂ (EntryFor isBirth now) (p.metrics.filter fun m => m.dirty || isBirth) es := by
  refine ⟨_, addMetrics_snd isBirth now p.metrics payload, ?_⟩
  rw [List.forall₂_map_right_iff]
  exact List.forall₂_same.mpr fun m _ => entry_entryFor m isBirth now

end Sparkplug
