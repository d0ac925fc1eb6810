import Mathlib.Data.List.Basic

/-!
Metrics and their properties: the values a publishable carries, the flags that say which
of them are still to be sent, and the entries they contribute to a payload.

A value is the block of bytes behind the `data` pointer; its size is its length. The
functions that append to a payload are taken to succeed.
-/

namespace Sparkplug

/-- A C++ string, as its characters. -/
abbrev Str := List Char

/-- The bytes behind a `data` pointer. -/
abbrev Bytes := List UInt8

/-- A property: a value of its own, or a named set of properties. A set inherits the
`dirty` flag of the base class, although it has no value. -/
inductive Property
  | leaf (name : Str) (dataType : ℕ) (dirty : Bool) (data : Bytes)
  | set (name : Str) (dirty : Bool) (properties : List Property)

/-- The value of one key of an encoded property set; keys and values are two arrays. -/
inductive PropertyValue
  | scalar (dataType : ℕ) (data : Bytes)
  | propertySet (keys : List Str) (values : List PropertyValue)

/-- An encoded property set under construction. -/
structure PropertySet where
  keys : List Str := []
  values : List PropertyValue := []

def PropertySet.add (s : PropertySet) (key : Str) (v : PropertyValue) : PropertySet :=
  { keys := s.keys ++ [key], values := s.values ++ [v] }

namespace Property

def isDirty : Property → Bool
  | leaf _ _ dirty _ => dirty
  | set _ dirty _ => dirty

/-- `Property::published` is not virtual: on a set it clears the flag of the set alone. -/
def published : Property → Property
  | leaf name dataType _ data => leaf name dataType false data
  | set name _ properties => set name false properties

def setValue (value : Bytes) : Property → Property
  | leaf name dataType dirty data =>
    let dirty := dirty || value != data
    leaf name dataType dirty (if dirty then value else data)
  | p => p

mutual

/-- The set with the property added, and whether anything was. -/
def addToPropertySet (isBirth : Bool) : Property → PropertySet → PropertySet × Bool
  | leaf name dataType dirty data, s =>
    if dirty || isBirth then (s.add name (.scalar dataType data), true) else (s, false)
  | set name _ properties, s =>
    let (nested, added) := addAllToPropertySet isBirth properties ({}, false)
    if added then (s.add name (.propertySet nested.keys nested.values), true) else (s, false)

/-- The loop `added |= property->addToPropertySet(..)`. -/
def addAllToPropertySet (isBirth : Bool) : List Property → PropertySet × Bool →
    PropertySet × Bool
  | [], acc => acc
  | p :: ps, (s, added) =>
    let (s, a) := addToPropertySet isBirth p s
    addAllToPropertySet isBirth ps (s, added || a)

end

/-- The flag at a path of positions in nested sets. -/
def dirtyAt : Property → List ℕ → Bool
  | p, [] => p.isDirty
  | leaf .., _ :: _ => false
  | set _ _ properties, k :: ks => (properties[k]?).elim false (dirtyAt · ks)

/-- `setValue` on the property at a path. -/
def setAt (value : Bytes) : Property → List ℕ → Property
  | p, [] => p.setValue value
  | leaf n t d v, _ :: _ => leaf n t d v
  | set name dirty properties, k :: ks =>
    set name dirty (properties.modify k (setAt value · ks))

/-- Setting a value clears no flag. -/
lemma dirtyAt_setAt {v : Bytes} {p : Property} {path place : List ℕ}
    (h : p.dirtyAt place = true) : (p.setAt v path).dirtyAt place = true := by
  induction path generalizing p place with
  | nil =>
    cases p with
    | leaf name dataType dirty data =>
      cases place with
      | nil => simp [setAt, setValue, dirtyAt, isDirty, show dirty = true from h]
      | cons k ks => cases h
    | set => exact h
  | cons j js ih =>
    cases p with
    | leaf => exact h
    | set name dirty properties =>
      cases place with
      | nil => exact h
      | cons k ks =>
        simp only [setAt, dirtyAt, List.getElem?_modify] at h ⊢
        cases hk : properties[k]? with
        | none => rw [hk] at h; cases h
        | some q =>
          rw [hk] at h
          by_cases hjk : j = k
          · simpa [hjk] using ih h
          · simpa [hjk] using h

/-- The flags inside a set are never cleared. -/
lemma published_dirtyAt (p : Property) (k : ℕ) (ks : List ℕ) :
    p.published.dirtyAt (k :: ks) = p.dirtyAt (k :: ks) := by
  cases p <;> rfl

end Property

/-- What the callback of a metric does with a command: the `Node Control/Rebirth` metric
of a node asks for a rebirth, any other is up to the application. -/
inductive Callback
  | rebirth
  | application
  deriving DecidableEq

/-- A metric. `carried` is a history variable, read by no function: the value in the last
payload that contained the metric. -/
structure Metric where
  name : Str
  metricAlias : ℕ := 0
  dataType : ℕ
  callback : Option Callback := none
  changedTime : ℕ := 0
  properties : List Property := []
  dirty : Bool := false
  data : Bytes
  carried : Option Bytes := none

/-- One metric of an encoded payload. -/
structure PayloadMetric where
  name : Str
  metricAlias : ℕ
  dataType : ℕ
  timestamp : ℕ
  value : Bytes
  properties : Option PropertySet

namespace Metric

/-- A metric as its constructor leaves it. -/
def constructed (m : Metric) : Metric :=
  { m with changedTime := 0, dirty := false, carried := none }

def isDirty (m : Metric) : Bool := m.dirty

/-- `setValue` at time `now`. -/
def setValue (m : Metric) (value : Bytes) (now : ℕ) : Metric :=
  if m.dirty || value != m.data then
    { m with dirty := true, data := value, changedTime := now }
  else m

def setProperty (m : Metric) (path : List ℕ) (value : Bytes) : Metric :=
  match path with
  | [] => m
  | k :: ks => { m with properties := m.properties.modify k (Property.setAt value · ks) }

def published (m : Metric) : Metric :=
  { m with dirty := false, properties := m.properties.map Property.published }

/-- The entry for the metric, when it is included at all. -/
def entry (m : Metric) (isBirth : Bool) (now : ℕ) : PayloadMetric where
  name := m.name
  metricAlias := m.metricAlias
  dataType := m.dataType
  timestamp := if isBirth then now else m.changedTime
  value := m.data
  properties :=
    let (s, added) := Property.addAllToPropertySet isBirth m.properties ({}, false)
    if added then some s else none

/-- The metric after `addToPayload`, which the source leaves as it is, and the payload. -/
def addToPayload (m : Metric) (payload : List PayloadMetric) (isBirth : Bool) (now : ℕ) :
    Metric × List PayloadMetric :=
  if m.dirty || isBirth then
    ({ m with carried := some m.data }, payload ++ [m.entry isBirth now])
  else (m, payload)

/-- The flag at a path: the metric's own for the empty path, else that of a property. -/
def dirtyAt (m : Metric) : List ℕ → Bool
  | [] => m.dirty
  | k :: ks => (m.properties[k]?).elim false (·.dirtyAt ks)

@[simp] lemma published_dirty (m : Metric) : m.published.dirty = false := rfl
@[simp] lemma published_data (m : Metric) : m.published.data = m.data := rfl
@[simp] lemma published_carried (m : Metric) : m.published.carried = m.carried := rfl

/-- Only the metric's own flag and those of its direct properties are ever cleared. -/
lemma published_dirtyAt (m : Metric) (j k : ℕ) (ks : List ℕ) :
    m.published.dirtyAt (j :: k :: ks) = m.dirtyAt (j :: k :: ks) := by
  simp only [dirtyAt, published, List.getElem?_map]
  cases m.properties[j]? with
  | none => rfl
  | some p => exact p.published_dirtyAt k ks

lemma dirtyAt_of_properties {m n : Metric} (h : n.properties = m.properties) (k : ℕ)
    (ks : List ℕ) : n.dirtyAt (k :: ks) = m.dirtyAt (k :: ks) := by
  simp only [dirtyAt, h]

lemma setValue_properties (m : Metric) (v : Bytes) (now : ℕ) :
    (m.setValue v now).properties = m.properties := by
  unfold setValue; split <;> rfl

lemma addToPayload_properties (m : Metric) (payload : List PayloadMetric) (b : Bool) (now : ℕ) :
    (m.addToPayload payload b now).1.properties = m.properties := by
  unfold addToPayload; split <;> rfl

lemma dirtyAt_setProperty {m : Metric} {v : Bytes} {path : List ℕ} {place : List ℕ}
    (h : m.dirtyAt place = true) : (m.setProperty path v).dirtyAt place = true := by
  cases path with
  | nil => exact h
  | cons j js =>
    cases place with
    | nil => exact h
    | cons k ks =>
      simp only [dirtyAt, setProperty, List.getElem?_modify] at h ⊢
      cases hk : m.properties[k]? with
      | none => rw [hk] at h; cases h
      | some q =>
        rw [hk] at h
        by_cases hjk : j = k
        · simpa [hjk] using Property.dirtyAt_setAt h
        · simpa [hjk] using h

/-- The history variable is right: it changes exactly when the metric is in the payload,
and then to the value the payload carries. -/
theorem addToPayload_carried (m : Metric) (payload : List PayloadMetric) (isBirth : Bool)
    (now : ℕ) :
    (∃ e, (m.addToPayload payload isBirth now).2 = payload ++ [e] ∧ e.value = m.data ∧
      (m.addToPayload payload isBirth now).1.carried = some e.value) ∨
    m.addToPayload payload isBirth now = (m, payload) := by
  unfold addToPayload
  split
  · exact .inl ⟨m.entry isBirth now, rfl, rfl, rfl⟩
  · exact .inr rfl

end Metric

end Sparkplug
