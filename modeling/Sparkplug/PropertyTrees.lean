import Sparkplug.Payload

/-!
The leaves of the property trees of a metric: what setting a value does to them, which of
them a payload carries, and which are still dirty after a publish.
-/

namespace Sparkplug

open Machine

/-- What a payload carries of a leaf, with the names of the sets it is in. -/
structure LeafValue where
  names : List Str
  dataType : ℕ
  data : Bytes

namespace Property

/-- The leaf at a path of positions in nested sets. -/
def leafAt : Property → List ℕ → Option LeafValue
  | leaf name dataType _ data, [] => some ⟨[name], dataType, data⟩
  | leaf .., _ :: _ => none
  | set .., [] => none
  | set name _ properties, k :: ks =>
    (properties[k]?).elim none fun p =>
      (p.leafAt ks).map fun l => { l with names := name :: l.names }

/-- A leaf is where there is one, and is dirty when it is included in a payload of data. -/
lemma leafAt_setAt (p : Property) (v : Bytes) (path place : List ℕ) :
    (p.setAt v path).leafAt place =
      if path = place then (p.leafAt place).map fun l => { l with data := v }
      else p.leafAt place := by
  induction path generalizing p place with
  | nil =>
    cases p with
    | leaf name dataType dirty data =>
      cases place with
      | nil =>
        by_cases hv : v = data
        · simp [setAt, setValue, leafAt, hv]
        · simp [setAt, setValue, leafAt, hv]
      | cons => rfl
    | set name dirty properties => cases place <;> rfl
  | cons j js ih =>
    cases p with
    | leaf name dataType dirty data => cases place <;> simp [setAt, leafAt]
    | set name dirty properties =>
      cases place with
      | nil => rfl
      | cons k ks =>
        by_cases hjk : j = k
        · subst hjk
          simp only [setAt, leafAt, List.getElem?_modify_eq, List.cons.injEq, true_and]
          cases properties[j]? with
          | none => simp
          | some q =>
            simp only [Option.map_eq_map, Option.map_some, Option.elim_some, ih]
            by_cases hks : js = ks
            · simp [hks, Function.comp_def]
            · simp [hks]
        · simp only [setAt, leafAt, List.getElem?_modify_ne _ _ hjk, List.cons.injEq, hjk,
            false_and, if_false]

/-- A leaf that is dirty after a value has been set was dirty before, or has changed. -/
lemma dirtyAt_of_setAt {p : Property} {v : Bytes} {path place : List ℕ} {l : LeafValue}
    (hl : p.leafAt place = some l) (h : (p.setAt v path).dirtyAt place = true) :
    p.dirtyAt place = true ∨ path = place ∧ v ≠ l.data := by
  induction path generalizing p place l with
  | nil =>
    cases p with
    | leaf name dataType dirty data =>
      cases place with
      | nil =>
        obtain rfl := Option.some.inj hl
        have hd : dirty = true ∨ v ≠ data := by
          simpa [setAt, setValue, dirtyAt, isDirty] using h
        exact hd.imp_right fun hv => ⟨rfl, hv⟩
      | cons => cases hl
    | set => exact .inl h
  | cons j js ih =>
    cases p with
    | leaf => exact .inl h
    | set name dirty properties =>
      cases place with
      | nil => cases hl
      | cons k ks =>
        simp only [setAt, dirtyAt, leafAt, List.getElem?_modify] at h hl ⊢
        cases hk : properties[k]? with
        | none => rw [hk] at hl; cases hl
        | some q =>
          rw [hk] at h hl
          by_cases hjk : j = k
          · obtain ⟨l', hl', rfl⟩ := Option.map_eq_some_iff.mp hl
            subst hjk
            rcases ih hl' (by simpa using h) with h | ⟨rfl, hv⟩
            · exact .inl h
            · exact .inr ⟨rfl, hv⟩
          · exact .inl (by simpa [hjk] using h)

end Property

/-! ### What a payload carries -/

/-- The leaf is in the property set with these keys and values. -/
inductive CarriesLeaf : List Str → List PropertyValue → LeafValue → Prop
  | scalar {ks : List Str} {vs : List PropertyValue} {name : Str} {dataType : ℕ} {data : Bytes}
    (h : (name, .scalar dataType data) ∈ ks.zip vs) : CarriesLeaf ks vs ⟨[name], dataType, data⟩
  | within {ks ks' : List Str} {vs vs' : List PropertyValue} {name : Str} {l : LeafValue}
    (h : (name, .propertySet ks' vs') ∈ ks.zip vs) (hl : CarriesLeaf ks' vs' l) :
    CarriesLeaf ks vs { l with names := name :: l.names }

def PayloadMetric.Carries (e : PayloadMetric) (l : LeafValue) : Prop :=
  ∃ s ∈ e.properties, CarriesLeaf s.keys s.values l

lemma carriesLeaf_cons {k : Str} {v : PropertyValue} {ks : List Str} {vs : List PropertyValue}
    {l : LeafValue} : CarriesLeaf (k :: ks) (v :: vs) l ↔
      CarriesLeaf [k] [v] l ∨ CarriesLeaf ks vs l := by
  refine ⟨fun h => ?_, ?_⟩
  · cases h with
    | scalar h =>
      rcases List.mem_cons.mp h with h | h
      · exact .inl (.scalar (by simp [h]))
      · exact .inr (.scalar h)
    | within h hl =>
      rcases List.mem_cons.mp h with h | h
      · exact .inl (.within (by simp [h]) hl)
      · exact .inr (.within h hl)
  · rintro (h | h)
    · cases h with
      | scalar h => exact .scalar (List.mem_cons.mpr (.inl (by simpa using h)))
      | within h hl => exact .within (List.mem_cons.mpr (.inl (by simpa using h))) hl
    · cases h with
      | scalar h => exact .scalar (List.mem_cons_of_mem _ h)
      | within h hl => exact .within (List.mem_cons_of_mem _ h) hl

namespace Property

variable {isBirth : Bool} {l : LeafValue}

/-- The leaf at the path is to be included. -/
def Sends (isBirth : Bool) (p : Property) (path : List ℕ) (l : LeafValue) : Prop :=
  p.leafAt path = some l ∧ (isBirth = true ∨ p.dirtyAt path = true)

lemma sends_leaf {name : Str} {dataType : ℕ} {dirty : Bool} {data : Bytes} {path : List ℕ} :
    Sends isBirth (leaf name dataType dirty data) path l ↔
      path = [] ∧ l = ⟨[name], dataType, data⟩ ∧ (isBirth = true ∨ dirty = true) := by
  cases path with
  | nil => simp [Sends, leafAt, dirtyAt, isDirty, eq_comm]
  | cons => simp [Sends, leafAt]

lemma sends_set {name : Str} {dirty : Bool} {qs : List Property} {path : List ℕ} :
    Sends isBirth (set name dirty qs) path l ↔ ∃ k ks q l', path = k :: ks ∧ qs[k]? = some q ∧
      Sends isBirth q ks l' ∧ l = { l' with names := name :: l'.names } := by
  cases path with
  | nil => simp [Sends, leafAt]
  | cons k ks =>
    simp only [Sends, leafAt, dirtyAt, List.cons.injEq]
    cases hk : qs[k]? with
    | none => simp [hk]
    | some q =>
      simp only [Option.elim_some, Option.map_eq_some_iff]
      refine ⟨?_, ?_⟩
      · rintro ⟨⟨l', hl', rfl⟩, h⟩
        exact ⟨k, ks, q, l', ⟨rfl, rfl⟩, hk, ⟨hl', h⟩, rfl⟩
      · rintro ⟨_, _, q', l', ⟨rfl, rfl⟩, hq, ⟨hl', h⟩, rfl⟩
        obtain rfl := Option.some.inj (hk.symm.trans hq)
        exact ⟨⟨l', hl', rfl⟩, h⟩

lemma Sends.included {p : Property} {path : List ℕ} (h : p.Sends isBirth path l) :
    p.Included isBirth := by
  induction path generalizing p l with
  | nil =>
    cases p with
    | leaf => exact included_leaf.mpr (sends_leaf.mp h).2.2
    | set =>
      obtain ⟨_, _, _, _, h, -⟩ := sends_set.mp h
      cases h
  | cons k ks ih =>
    cases p with
    | leaf => cases (sends_leaf.mp h).1
    | set =>
      obtain ⟨_, _, q, l', heq, hq, hs, -⟩ := sends_set.mp h
      cases heq
      exact included_set.mpr ⟨q, List.mem_of_getElem? hq, ih hs⟩

/-- **What an encoded property set carries** is the leaves to be included. -/
theorem Encodes.carries_iff {ps : List Property} {ks : List Str} {vs : List PropertyValue}
    (h : Encodes isBirth ps ks vs) :
    CarriesLeaf ks vs l ↔
      ∃ (k : ℕ) (p : Property) (path : List ℕ), ps[k]? = some p ∧ p.Sends isBirth path l := by
  induction h generalizing l with
  | nil =>
    refine iff_of_false (fun h => ?_) (by simp)
    cases h with
    | scalar h => cases h
    | within h => cases h
  | @skip p ps ks vs hp _ ih =>
    rw [ih]
    refine ⟨fun ⟨k, q, path, hq, hs⟩ => ⟨k + 1, q, path, by simpa using hq, hs⟩, ?_⟩
    rintro ⟨k, q, path, hq, hs⟩
    cases k with
    | zero =>
      obtain rfl := Option.some.inj hq
      exact absurd hs.included hp
    | succ k => exact ⟨k, q, path, by simpa using hq, hs⟩
  | @leaf name dataType dirty data ps ks vs hp _ ih =>
    rw [carriesLeaf_cons, ih]
    refine ⟨?_, ?_⟩
    · rintro (h | ⟨k, q, path, hq, hs⟩)
      · refine ⟨0, _, [], rfl, sends_leaf.mpr ⟨rfl, ?_, included_leaf.mp hp⟩⟩
        cases h with
        | scalar h => simpa using h
        | within h => simp at h
      · exact ⟨k + 1, q, path, by simpa using hq, hs⟩
    · rintro ⟨k, q, path, hq, hs⟩
      cases k with
      | zero =>
        obtain rfl := Option.some.inj hq
        obtain ⟨-, rfl, -⟩ := sends_leaf.mp hs
        exact .inl (.scalar (by simp))
      | succ k => exact .inr ⟨k, q, path, by simpa using hq, hs⟩
  | @set name dirty qs ps ks ks' vs vs' _ _ _ ihq ih =>
    rw [carriesLeaf_cons, ih]
    refine ⟨?_, ?_⟩
    · rintro (h | ⟨k, q, path, hq, hs⟩)
      · cases h with
        | scalar h => simp at h
        | within h hl =>
          simp only [List.zip_cons_cons, List.zip_nil_left, List.mem_singleton, Prod.mk.injEq,
            PropertyValue.propertySet.injEq] at h
          obtain ⟨rfl, rfl, rfl⟩ := h
          obtain ⟨k, q, path, hq, hs⟩ := ihq.mp hl
          exact ⟨0, _, k :: path, rfl, sends_set.mpr ⟨k, path, q, _, rfl, hq, hs, rfl⟩⟩
      · exact ⟨k + 1, q, path, by simpa using hq, hs⟩
    · rintro ⟨k, q, path, hq, hs⟩
      cases k with
      | zero =>
        obtain rfl := Option.some.inj hq
        obtain ⟨j, js, p, l', -, hp, hs', rfl⟩ := sends_set.mp hs
        exact .inl (.within (by simp) (ihq.mpr ⟨j, p, js, hp, hs'⟩))
      | succ k => exact .inr ⟨k, q, path, by simpa using hq, hs⟩

end Property

namespace Metric

/-- The leaf at a path; the first position is that of a property of the metric. -/
def leafAt (m : Metric) : List ℕ → Option LeafValue
  | [] => none
  | k :: ks => (m.properties[k]?).elim none (·.leafAt ks)

variable {m : Metric} {l : LeafValue}

lemma leafAt_cons {k : ℕ} {ks : List ℕ} (h : m.leafAt (k :: ks) = some l) :
    ∃ p, m.properties[k]? = some p ∧ p.leafAt ks = some l := by
  simp only [leafAt] at h
  cases hp : m.properties[k]? with
  | none => rw [hp] at h; cases h
  | some p => exact ⟨p, rfl, by simpa [hp] using h⟩

lemma leafAt_of_properties {n : Metric} (h : n.properties = m.properties) (path : List ℕ) :
    n.leafAt path = m.leafAt path := by
  cases path with
  | nil => rfl
  | cons k ks => simp only [leafAt, h]

lemma published_leafAt (m : Metric) (path : List ℕ) : m.published.leafAt path = m.leafAt path := by
  cases path with
  | nil => rfl
  | cons k ks =>
    simp only [leafAt, published, List.getElem?_map]
    cases m.properties[k]? with
    | none => rfl
    | some p => cases p <;> cases ks <;> rfl

/-- **The leaves that the entry of a metric carries.** -/
theorem entry_carries_iff (isBirth : Bool) (now : ℕ) :
    (m.entry isBirth now).Carries l ↔
      ∃ path, m.leafAt path = some l ∧ (isBirth = true ∨ m.dirtyAt path = true) := by
  obtain ⟨ks, vs, henc, hset, hadded⟩ :=
    Property.addAllToPropertySet_spec isBirth m.properties {} false
  simp only [List.nil_append, Bool.false_eq_true, false_or] at hset hadded
  have hpath : (∃ path, m.leafAt path = some l ∧ (isBirth = true ∨ m.dirtyAt path = true)) ↔
      ∃ (k : ℕ) (p : Property) (path : List ℕ), m.properties[k]? = some p ∧
        p.Sends isBirth path l := by
    refine ⟨?_, ?_⟩
    · rintro ⟨path, hl, h⟩
      cases path with
      | nil => cases hl
      | cons k ks =>
        obtain ⟨p, hp, hl⟩ := leafAt_cons hl
        exact ⟨k, p, ks, hp, hl, by simpa [dirtyAt, hp] using h⟩
    · rintro ⟨k, p, ks, hp, hl, h⟩
      exact ⟨k :: ks, by simpa [leafAt, hp] using hl, by simpa [dirtyAt, hp] using h⟩
  rw [hpath, ← henc.carries_iff]
  simp only [PayloadMetric.Carries, entry, hset]
  refine ⟨?_, fun h => ?_⟩
  · rintro ⟨s, hs, h⟩
    split at hs
    · obtain rfl := Option.mem_some_iff.mp hs
      exact h
    · cases hs
  · obtain ⟨k, p, path, hp, hs⟩ := henc.carries_iff.mp h
    rw [if_pos (hadded.mpr ⟨p, List.mem_of_getElem? hp, hs.included⟩)]
    exact ⟨_, rfl, h⟩

/-- What an entry in a payload carries. -/
lemma addToPayload_carries {isBirth : Bool} {now : ℕ} :
    (∃ e ∈ (m.addToPayload [] isBirth now).2, e.Carries l) ↔
      (m.dirty = true ∨ isBirth = true) ∧
        ∃ path, m.leafAt path = some l ∧ (isBirth = true ∨ m.dirtyAt path = true) := by
  rw [← entry_carries_iff (m := m) isBirth now]
  unfold addToPayload
  split
  · next h => simp [Bool.or_eq_true_iff.mp h]
  · next h => exact iff_of_false (by simp) fun hc => h (Bool.or_eq_true_iff.mpr hc.1)

/-! ### Setting values after a publish -/

/-- A value of the metric or of one of its properties is set. -/
inductive Setting
  | value (data : Bytes) (now : ℕ)
  | property (path : List ℕ) (data : Bytes)

def apply (m : Metric) : Setting → Metric
  | .value data now => m.setValue data now
  | .property path data => m.setProperty path data

/-- The setting gives the leaf at the path a new value. -/
def Changes (path : List ℕ) (m : Metric) : Setting → Prop
  | .value .. => False
  | .property place data => place = path ∧ ∃ l, m.leafAt path = some l ∧ data ≠ l.data

/-- One of the settings gave the leaf at the path a new value. -/
def Changed (path : List ℕ) (m : Metric) : List Setting → Prop
  | [] => False
  | a :: as => Changes path m a ∨ Changed path (m.apply a) as

lemma setProperty_leafAt_isSome (m : Metric) (path place : List ℕ) (data : Bytes) :
    ((m.setProperty path data).leafAt place).isSome = (m.leafAt place).isSome := by
  cases path with
  | nil => rfl
  | cons j js =>
    cases place with
    | nil => rfl
    | cons k ks =>
      simp only [leafAt, setProperty, List.getElem?_modify]
      cases hp : m.properties[k]? with
      | none => rfl
      | some p =>
        simp only [Option.map_eq_map, Option.map_some, Option.elim_some]
        split
        · rw [Property.leafAt_setAt]
          split <;> simp
        · rfl

/-- No setting makes or removes a leaf. -/
lemma apply_leafAt_isSome (m : Metric) (a : Setting) (path : List ℕ) :
    ((m.apply a).leafAt path).isSome = (m.leafAt path).isSome := by
  cases a with
  | value data now =>
    rw [apply, leafAt_of_properties (m.setValue_properties data now)]
  | property place data => exact m.setProperty_leafAt_isSome place path data

/-- A leaf that is dirty after a setting was dirty before, or has changed. -/
lemma dirtyAt_of_apply {path : List ℕ} (hl : m.leafAt path = some l) {a : Setting}
    (h : (m.apply a).dirtyAt path = true) : m.dirtyAt path = true ∨ Changes path m a := by
  cases path with
  | nil => cases hl
  | cons k ks =>
    cases a with
    | value data now =>
      rw [apply, dirtyAt_of_properties (m.setValue_properties data now)] at h
      exact .inl h
    | property place data =>
      cases place with
      | nil => exact .inl h
      | cons j js =>
        obtain ⟨p, hp, hl'⟩ := leafAt_cons hl
        simp only [apply, dirtyAt, setProperty, List.getElem?_modify, hp, Option.map_eq_map,
          Option.map_some, Option.elim_some] at h ⊢
        by_cases hjk : j = k
        · rw [if_pos hjk] at h
          rcases Property.dirtyAt_of_setAt hl' h with h | ⟨rfl, hv⟩
          · exact .inl h
          · exact .inr ⟨by rw [hjk], l, hl, hv⟩
        · rw [if_neg hjk] at h
          exact .inl h

/-- A leaf that is dirty after some settings was dirty before them, or has changed. -/
lemma dirtyAt_of_run {path : List ℕ} (as : List Setting)
    (hl : (m.leafAt path).isSome = true) (h : (run apply m as).dirtyAt path = true) :
    m.dirtyAt path = true ∨ Changed path m as := by
  induction as generalizing m with
  | nil => exact .inl h
  | cons a as ih =>
    obtain ⟨l, hl'⟩ := Option.isSome_iff_exists.mp hl
    rcases ih (m := m.apply a) (by rw [apply_leafAt_isSome, hl]) h with h | h
    · exact (dirtyAt_of_apply hl' h).imp_right .inl
    · exact .inr (.inr h)

lemma run_leafAt_isSome (m : Metric) (as : List Setting) (path : List ℕ) :
    ((run apply m as).leafAt path).isSome = (m.leafAt path).isSome :=
  run_invariant (P := fun n : Metric => (n.leafAt path).isSome = (m.leafAt path).isSome)
    (fun n a h => (n.apply_leafAt_isSome a path).trans h) rfl as

/-- No leaf is dirty. -/
def Clean (m : Metric) : Prop := ∀ path l, m.leafAt path = some l → m.dirtyAt path = false

/-- Whatever is set from here on, a payload of data then carries only leaves that have
changed. -/
def SendsOnlyChanged (m : Metric) : Prop :=
  ∀ (as : List Setting) (now : ℕ), ∀ e ∈ ((run apply m as).addToPayload [] false now).2,
    ∀ l, e.Carries l → ∃ path, (run apply m as).leafAt path = some l ∧ Changed path m as

/-- No leaf within a set is dirty. -/
def NestedClean (m : Metric) : Prop :=
  ∀ j k ks l, m.leafAt (j :: k :: ks) = some l → m.dirtyAt (j :: k :: ks) = false

lemma published_direct (m : Metric) (k : ℕ) : m.published.dirtyAt [k] = false := by
  simp only [dirtyAt, published, List.getElem?_map]
  cases m.properties[k]? with
  | none => rfl
  | some p => cases p <;> rfl

lemma Clean.sendsOnlyChanged (h : m.Clean) : m.SendsOnlyChanged := by
  intro as now e he l hl
  obtain ⟨-, path, hleaf, hd⟩ := addToPayload_carries.mp ⟨e, he, hl⟩
  have hsome : (m.leafAt path).isSome = true := by
    rw [← run_leafAt_isSome m as path, hleaf]
    rfl
  obtain ⟨l', hl'⟩ := Option.isSome_iff_exists.mp hsome
  rcases dirtyAt_of_run as hsome (hd.resolve_left (by simp)) with hd | hc
  · rw [h path l' hl'] at hd
    cases hd
  · exact ⟨path, hleaf, hc⟩

/-- **A publish clears the whole tree** of a metric exactly if no leaf within a set was
dirty. -/
theorem published_clean_iff (m : Metric) :
    (m.published.Clean ∧ m.published.SendsOnlyChanged) ↔ m.NestedClean := by
  refine ⟨?_, fun h => ?_⟩
  · rintro ⟨h, -⟩ j k ks l hl
    rw [← published_dirtyAt]
    exact h _ l ((m.published_leafAt _).trans hl)
  · have hclean : m.published.Clean := by
      intro path l hl
      rcases path with _ | ⟨j, _ | ⟨k, ks⟩⟩
      · cases hl
      · exact m.published_direct j
      · rw [published_dirtyAt]
        exact h j k ks l ((m.published_leafAt _).symm.trans hl)
    exact ⟨hclean, hclean.sendsOnlyChanged⟩

/-- A metric with a set of one property, which has been set. -/
def nestedSet : Metric where
  name := ['m']
  dataType := 3
  properties := [.set ['s'] false [.leaf ['p'] 3 true [1]]]
  dirty := true
  data := [0]

/-- The nested property is dirty after the publish. -/
theorem nestedSet_not_clean :
    ¬(nestedSet.published.Clean ∧ nestedSet.published.SendsOnlyChanged) := by
  rintro ⟨h, -⟩
  exact absurd (h [0, 0] ⟨[['s'], ['p']], 3, [1]⟩ rfl) (by decide)

end Metric

end Sparkplug
