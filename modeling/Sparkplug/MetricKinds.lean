import Sparkplug.StringValue
import Sparkplug.Histories
import Mathlib.Logic.Embedding.Basic

/-!
Metrics of a fixed size and string metrics.

`Metric::setValue` and `StringMetric::setValue` are two programs on the same fields. Both
are held here against the history of a metric: its flag, its value and the timestamp of its
entry in a payload.
-/

namespace Sparkplug

open Machine Blocks Histories

/-- The bytes of a value whose type has this size. -/
abbrev FixedBytes (size : ℕ) := {b : Bytes // b.length = size}

/-- A string without zeros. -/
abbrev Text := {s : Bytes // 0 ∉ s}

namespace StringValue

/-! ### The two kinds -/

/-- `Metric::Metric`: the value is copied into a block of its size. -/
def newFixed (data : Pointer) (size : ℕ) : Option StringValue := do
  let bytes ← readBytes data size
  return { data := some bytes, size := size }

/-- `Metric::setValue`. A dirty value is not compared. -/
def setFixed (s : StringValue) (data : Pointer) (now : ℕ) : Option StringValue := do
  let changed ← if s.dirty then some true else memcmp data s.data s.size
  if changed then
    let bytes ← memcpy s.data data s.size
    return { s with data := bytes, dirty := true, changedTime := now }
  else return s

/-- `Metric::published`. -/
def published (s : StringValue) : StringValue := { s with dirty := false }

def isDirty (s : StringValue) : Bool := s.dirty

/-- `SimpleMetric::getValue`: what is at the pointer is a value of the type. -/
def getFixed (s : StringValue) : Option Bytes := readBytes s.data s.size

/-- A metric with these fields, as payloads see it. -/
def metric (s : StringValue) (m : Metric) : Option Metric := do
  let data ← readBytes s.data s.size
  return { m with data := data, dirty := s.dirty, changedTime := s.changedTime }

def useFixed {size : ℕ} (s : StringValue) : Use (FixedBytes size) ℕ → Option StringValue
  | .set v now => s.setFixed (some v.val) now
  | .published => some s.published

def useText (s : StringValue) : Use Text ℕ → Option StringValue
  | .set v now => s.setMetric v.val now
  | .published => some s.published

/-- The metric of a fixed size after some calls. -/
def fixedAfter {size : ℕ} (initial : FixedBytes size) (us : List (Use (FixedBytes size) ℕ)) :
    Option StringValue :=
  run (fun s u => s.bind (useFixed · u)) (newFixed (some initial.val) size) us

/-- The string metric after some calls. -/
def textAfter (initial : Text) (us : List (Use Text ℕ)) : Option StringValue :=
  run (fun s u => s.bind (useText · u)) (newMetric initial.val) us

/-! ### What they are to show -/

/-- The flag says whether there is news, the block holds the value set last, and an entry in
a data payload has the time of the last call that set a value. -/
structure Tracks {α : Type} (bytes : α → Bytes) (initial : α) (us : List (Use α ℕ))
    (s : StringValue) : Prop where
  dirty : s.isDirty = true ↔ Changed initial us
  value : s.data = some (bytes (last initial us)) ∧ s.size = (bytes (last initial us)).length
  sent : ∀ m payload now, ∃ n es, s.metric m = some n ∧
    (n.addToPayload payload false now).2 = payload ++ es ∧
    ∀ e ∈ es, lastTime us = some e.timestamp

/-- The timestamps that the metric adds to a data payload. -/
def sentTimes (s : StringValue) (m : Metric) (now : ℕ) : Option (List ℕ) :=
  (s.metric m).map fun n => (n.addToPayload [] false now).2.map PayloadMetric.timestamp

/-! ### Blocks that hold a value -/

/-- The block is `b`, and `size` is its size. -/
structure Holds (b : Bytes) (s : StringValue) : Prop where
  data : s.data = some b
  size : s.size = b.length

section Holds

variable {s : StringValue} {b v : Bytes}

lemma Stores.holds (h : s.Stores v) : s.Holds (v ++ [0]) :=
  ⟨h.data, by simp [h.size]⟩

lemma Holds.read (h : s.Holds b) : readBytes s.data s.size = some b := by
  rw [h.data, h.size, readBytes_self]

lemma metric_eq (h : s.Holds b) (m : Metric) :
    s.metric m = some { m with data := b, dirty := s.dirty, changedTime := s.changedTime } := by
  simp [metric, h.read]

lemma setFixed_eq (h : s.Holds b) (hv : v.length = b.length) (now : ℕ) :
    s.setFixed (some v) now = some (if s.dirty || v != b then
      { s with data := some v, dirty := true, changedTime := now } else s) := by
  have hcmp : memcmp (some v) s.data s.size = some (v != b) := by
    rw [h.data, h.size, memcmp_block hv]
  have hcpy : memcpy s.data (some v) s.size = some (some v) := by
    rw [h.data, h.size, memcpy_block hv]
  unfold setFixed
  rw [hcmp, hcpy]
  cases s.dirty <;> cases v != b <;> rfl

/-- **A fixed-size metric is the metric of the payloads**, whose values are just bytes. -/
theorem setFixed_refines (h : s.Holds b) (hv : v.length = b.length) (m : Metric) (now : ℕ) :
    (s.setFixed (some v) now).bind (·.metric m) = (s.metric m).map (·.setValue v now) := by
  rw [setFixed_eq h hv, metric_eq h, Option.bind_some, Option.map_some, Metric.setValue]
  dsimp only
  split
  · exact metric_eq ⟨rfl, by rw [hv]; exact h.size⟩ m
  · exact metric_eq h m

/-- **A string metric is one as well**, but for the time, which it notes also when the value is
the one it has. -/
theorem setMetric_refines (h : s.Stores b) (hv : 0 ∉ v) (m : Metric) (now : ℕ) :
    (s.setMetric v now).bind (·.metric m) =
      (s.metric m).map fun n => { n.setValue (v ++ [0]) now with changedTime := now } := by
  obtain ⟨t, ht, hstores, hdirty, -⟩ := store_stores h hv
  have hset : s.setMetric v now = some { t with changedTime := now } := by simp [setMetric, ht]
  have hnew : ({ t with changedTime := now } : StringValue).Holds (v ++ [0]) :=
    ⟨hstores.data, by simp [hstores.size]⟩
  have hne : (v ++ [0] != b ++ [0]) = (v != b) := by
    rw [Bool.eq_iff_iff, bne_iff_ne, bne_iff_ne, ne_eq, List.append_left_inj]
  rw [hset, Option.bind_some, metric_eq hnew, metric_eq h.holds, Option.map_some]
  simp only [Metric.setValue, hdirty, hne]
  cases hd : s.dirty || v != b with
  | true => rfl
  | false =>
    obtain ⟨-, hvb⟩ := Bool.or_eq_false_iff.mp hd
    obtain rfl : v = b := by simpa using hvb
    simp_all

end Holds

/-! ### The history of a metric -/

section Runs

/-- What a metric adds to a data payload: an entry with the time that is noted, as long as it
is dirty. -/
lemma addToPayload_data (n : Metric) (payload : List PayloadMetric) (now : ℕ) :
    ∃ es, (n.addToPayload payload false now).2 = payload ++ es ∧
      es.map PayloadMetric.timestamp = if n.dirty then [n.changedTime] else [] := by
  unfold Metric.addToPayload
  cases n.dirty with
  | true => exact ⟨[n.entry false now], rfl, rfl⟩
  | false => exact ⟨[], by simp, rfl⟩

variable {α : Type} {initial x : α} {us : List (Use α ℕ)} {s : StringValue}

lemma Holds.tracks (bytes : α → Bytes) (h : s.Holds (bytes x))
    (hs : Shows initial us x s.dirty s.changedTime) : s.Tracks bytes initial us where
  dirty := hs.dirty
  value := hs.value ▸ ⟨h.data, h.size⟩
  sent m payload now := by
    obtain ⟨es, hes, htimes⟩ := addToPayload_data
      { m with data := bytes x, dirty := s.dirty, changedTime := s.changedTime } payload now
    refine ⟨_, es, metric_eq h m, hes, fun e he => ?_⟩
    have hmem : e.timestamp ∈ es.map PayloadMetric.timestamp := List.mem_map_of_mem he
    rw [htimes] at hmem
    cases hd : s.dirty with
    | true =>
      have htime : e.timestamp = s.changedTime := by simpa [hd] using hmem
      rw [htime]
      exact hs.time hd
    | false => simp [hd] at hmem

lemma sentTimes_eq {b : Bytes} (h : s.Holds b) (m : Metric) (now : ℕ) :
    s.sentTimes m now = some (if s.dirty then [s.changedTime] else []) := by
  obtain ⟨es, hes, htimes⟩ := addToPayload_data
    { m with data := b, dirty := s.dirty, changedTime := s.changedTime } [] now
  rw [sentTimes, metric_eq h, Option.map_some, hes, List.nil_append, htimes]

end Runs

/-- A value of a fixed size is set. -/
lemma setFixed_shows {size : ℕ} {initial x : FixedBytes size}
    {us : List (Use (FixedBytes size) ℕ)} {s : StringValue} (h : s.Holds x.val)
    (hs : Shows initial us x s.dirty s.changedTime) (v : FixedBytes size) (now : ℕ) :
    ∃ t, s.setFixed (some v.val) now = some t ∧ t.Holds v.val ∧
      Shows initial (us ++ [.set v now]) v t.dirty t.changedTime := by
  have hlen : v.val.length = x.val.length := by rw [v.property, x.property]
  refine ⟨_, setFixed_eq h hlen now, ?_⟩
  split
  · next hd =>
    refine ⟨⟨rfl, by rw [hlen]; exact h.size⟩, hs.set (iff_of_true rfl ?_) fun _ => rfl⟩
    simpa [Subtype.ext_iff] using hd
  · next hd =>
    obtain ⟨hclean, heq⟩ := Bool.or_eq_false_iff.mp (Bool.eq_false_iff.mpr hd)
    obtain rfl : v = x := Subtype.ext (by simpa using heq)
    refine ⟨h, hs.set (by simp [hclean]) fun hdirty => ?_⟩
    rw [hclean] at hdirty
    cases hdirty

/-- A string is set. -/
lemma setMetric_shows {initial x : Text} {us : List (Use Text ℕ)} {s : StringValue}
    (h : s.Stores x.val) (hs : Shows initial us x s.dirty s.changedTime) (v : Text) (now : ℕ) :
    ∃ t, s.setMetric v.val now = some t ∧ t.Stores v.val ∧
      Shows initial (us ++ [.set v now]) v t.dirty t.changedTime := by
  obtain ⟨t, ht, hstores, hdirty, -⟩ := store_stores h v.property
  refine ⟨{ t with changedTime := now }, by simp [setMetric, ht], ⟨hstores.data, hstores.size⟩,
    hs.set ?_ fun _ => rfl⟩
  simp [hdirty, Subtype.ext_iff]

lemma fixedAfter_shows {size : ℕ} (initial : FixedBytes size)
    (us : List (Use (FixedBytes size) ℕ)) : ∃ s x, fixedAfter initial us = some s ∧
      s.Holds (Subtype.val x) ∧ Shows initial us x s.dirty s.changedTime := by
  induction us using List.reverseRecOn with
  | nil =>
    have hread : readBytes (some initial.val) size = some initial.val := by
      simpa [initial.property] using readBytes_self initial.val
    refine ⟨{ data := some initial.val, size := size }, initial, ?_, ⟨rfl, ?_⟩, .start initial 0⟩
    · simp [fixedAfter, newFixed, hread]
    · exact initial.property.symm
  | append_singleton us u ih =>
    obtain ⟨s, x, hs, hholds, hshows⟩ := ih
    have hstep : fixedAfter initial (us ++ [u]) = useFixed s u := by
      rw [fixedAfter, run_snoc, ← fixedAfter, hs, Option.bind_some]
    rw [hstep]
    cases u with
    | set v now =>
      obtain ⟨t, ht, hnew⟩ := setFixed_shows hholds hshows v now
      exact ⟨t, v, ht, hnew⟩
    | published =>
      exact ⟨s.published, x, rfl, ⟨hholds.data, hholds.size⟩, hshows.published⟩

lemma textAfter_shows (initial : Text) (us : List (Use Text ℕ)) :
    ∃ s x, textAfter initial us = some s ∧ s.Stores (Subtype.val x) ∧
      Shows initial us x s.dirty s.changedTime := by
  induction us using List.reverseRecOn with
  | nil =>
    refine ⟨{ data := cStr initial.val, size := initial.val.length + 1 }, initial, ?_, ⟨rfl, rfl⟩,
      .start initial 0⟩
    simp only [textAfter, run_nil, newMetric, readBytes_cStr]
    rfl
  | append_singleton us u ih =>
    obtain ⟨s, x, hs, hstores, hshows⟩ := ih
    have hstep : textAfter initial (us ++ [u]) = useText s u := by
      rw [textAfter, run_snoc, ← textAfter, hs, Option.bind_some]
    rw [hstep]
    cases u with
    | set v now =>
      obtain ⟨t, ht, hnew⟩ := setMetric_shows hstores hshows v now
      exact ⟨t, v, ht, hnew⟩
    | published =>
      exact ⟨s.published, x, rfl, ⟨hstores.data, hstores.size⟩, hshows.published⟩

/-- **Both kinds of metrics keep track of their values**, and where they are used in the same
way they show the same: the flag, the value, and the timestamps in data payloads. -/
theorem kinds_agree :
    (∀ (size : ℕ) (initial : FixedBytes size) (us : List (Use (FixedBytes size) ℕ)),
      ∃ s, fixedAfter initial us = some s ∧ s.getFixed = some (last initial us).val ∧
        s.Tracks Subtype.val initial us) ∧
    (∀ (initial : Text) (us : List (Use Text ℕ)),
      ∃ s, textAfter initial us = some s ∧ s.getValue = some (last initial us).val ∧
        s.Tracks (fun v => v.val ++ [0]) initial us) ∧
    ∀ (size : ℕ) (f : FixedBytes size ↪ Text) (initial : FixedBytes size)
      (us : List (Use (FixedBytes size) ℕ)), ∃ s t, fixedAfter initial us = some s ∧
        textAfter (f initial) (us.map (Use.map f)) = some t ∧ t.isDirty = s.isDirty ∧
        (∃ v, s.getFixed = some v.val ∧ t.getValue = some (f v).val) ∧
        ∀ m now, t.sentTimes m now = s.sentTimes m now := by
  have hget : ∀ {s : StringValue} {x : Text}, s.Stores x.val → s.getValue = some x.val := by
    intro s x h
    exact h.getValue_iff.mpr x.property
  refine ⟨fun size initial us => ?_, fun initial us => ?_, fun size f initial us => ?_⟩
  · obtain ⟨s, x, hs, hholds, hshows⟩ := fixedAfter_shows initial us
    exact ⟨s, hs, hshows.value ▸ hholds.read, hholds.tracks Subtype.val hshows⟩
  · obtain ⟨s, x, hs, hstores, hshows⟩ := textAfter_shows initial us
    exact ⟨s, hs, hshows.value ▸ hget hstores,
      hstores.holds.tracks (fun v : Text => v.val ++ [0]) hshows⟩
  · obtain ⟨s, x, hs, hholds, hshows⟩ := fixedAfter_shows initial us
    obtain ⟨t, y, ht, hstores, hshows'⟩ := textAfter_shows (f initial) (us.map (Use.map f))
    obtain ⟨rfl, hdirty, htime⟩ := hshows.agree f.injective hshows'
    refine ⟨s, t, hs, ht, hdirty, ⟨x, hholds.read, hget hstores⟩, fun m now => ?_⟩
    rw [sentTimes_eq hholds, sentTimes_eq hstores.holds, hdirty]
    cases hd : s.dirty with
    | true => rw [htime hd]
    | false => rfl

end StringValue

end Sparkplug
