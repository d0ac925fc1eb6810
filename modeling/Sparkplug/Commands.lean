import Sparkplug.NodeSteps

/-!
The dispatch of commands.

What `handleCommand` does with a decoded command is said here by positions: which metric of
the command is given to which metric of the publishable. The names in a command are
optional, the names of metrics are not.
-/

namespace Sparkplug

open Machine

/-- What comes of looking for the metric a command is for. The names are compared with
`strcmp`, also with a name that is absent. -/
inductive Lookup
  | absent
  | unknown
  | found (k : ℕ)
  deriving DecidableEq

/-- What a command has come to: the calls of `onCommand`, each with the position in the
command and that of the metric, and whether an absent name was compared with. -/
structure Dispatch where
  faulted : Bool := false
  calls : List (ℕ × ℕ) := []
  deriving DecidableEq

def CommandMetric.lookup (c : CommandMetric) (ms : List Metric) : Lookup :=
  match c.name with
  | none => if ms = [] then .unknown else .absent
  | some name =>
    match ms.findIdx? (fun m => m.name = name) with
    | some k => .found k
    | none => .unknown

namespace Publishable

/-- The loop of `handleCommand`, on the command in reverse: the position of a metric is the
number of those before it. -/
def handleMetrics (ms : List Metric) : List CommandMetric → Dispatch
  | [] => {}
  | c :: rest =>
    match c.lookup ms with
    | .absent => { faulted := true }
    | .unknown => handleMetrics ms rest
    | .found k =>
      let d := handleMetrics ms rest
      { d with calls := (rest.length, k) :: d.calls }

def handleCommand (p : Publishable) (decodePayload : Str → Option (List CommandMetric))
    (payload : Str) : Dispatch :=
  match decodePayload payload with
  | none => {}
  | some command => handleMetrics p.metrics command.reverse

end Publishable

/-- No absent name is compared with, and every metric of the command with the name of one of
the metrics is given to that one, the last first and each once; no other is given to any. -/
structure Exact (ms : List Metric) (command : List CommandMetric) (d : Dispatch) : Prop where
  present : d.faulted = false
  order : d.calls.Pairwise fun a b => b.1 < a.1
  calls : ∀ i k, (i, k) ∈ d.calls ↔
    ∃ c m, command[i]? = some c ∧ ms[k]? = some m ∧ c.name = some m.name

/-- Every name that is compared with is there. -/
def AllNamed (ms : List Metric) (command : List CommandMetric) : Prop :=
  ms = [] ∨ ∀ c ∈ command, c.name ≠ none

section Lookup

variable {ms : List Metric} {c : CommandMetric}

lemma findIdx_name (hd : (ms.map Metric.name).Nodup) {name : Str} {k : ℕ} :
    ms.findIdx? (fun m => m.name = name) = some k ↔ ∃ m, ms[k]? = some m ∧ m.name = name := by
  simp only [List.findIdx?_eq_some_iff_getElem, decide_eq_true_eq]
  refine ⟨fun ⟨hk, hname, _⟩ => ⟨ms[k], List.getElem?_eq_getElem hk, hname⟩, ?_⟩
  rintro ⟨m, hm, rfl⟩
  obtain ⟨hk, rfl⟩ := List.getElem?_eq_some_iff.mp hm
  refine ⟨hk, rfl, fun j hj hname => ?_⟩
  -- two positions with one name
  have heq : (ms.map Metric.name)[j]? = (ms.map Metric.name)[k]? := by
    rw [List.getElem?_map, List.getElem?_map, hm, List.getElem?_eq_getElem (by omega)]
    simpa using hname
  have := (List.getElem?_inj (by simp; omega) hd).mp heq
  omega

lemma lookup_found (hd : (ms.map Metric.name).Nodup) {k : ℕ} :
    c.lookup ms = .found k ↔ ∃ m, ms[k]? = some m ∧ c.name = some m.name := by
  unfold CommandMetric.lookup
  cases hc : c.name with
  | none => split_ifs <;> simp
  | some name =>
    simp only [Option.some.injEq]
    rw [show (∃ m, ms[k]? = some m ∧ name = m.name) ↔ ∃ m, ms[k]? = some m ∧ m.name = name by
      simp only [eq_comm], ← findIdx_name hd]
    cases ms.findIdx? (fun m => m.name = name) <;> simp

lemma lookup_absent : c.lookup ms = .absent ↔ ms ≠ [] ∧ c.name = none := by
  unfold CommandMetric.lookup
  cases hc : c.name with
  | none => by_cases h : ms = [] <;> simp [h]
  | some name => cases hk : ms.findIdx? (fun m => m.name = name) <;> simp [hk]

end Lookup

namespace Publishable

variable {ms : List Metric}

lemma getElem?_snoc {α : Type*} {l : List α} {a b : α} {i : ℕ} :
    (l ++ [a])[i]? = some b ↔ l[i]? = some b ∨ i = l.length ∧ b = a := by
  rcases Nat.lt_trichotomy i l.length with h | rfl | h
  · rw [List.getElem?_append_left h]
    simp [h.ne]
  · simp [eq_comm]
  · rw [List.getElem?_eq_none (by simp; omega), List.getElem?_eq_none h.le]
    simp [h.ne']

lemma handleMetrics_exact (hd : (ms.map Metric.name).Nodup) :
    ∀ rest : List CommandMetric, (∀ c ∈ rest, ¬(ms ≠ [] ∧ c.name = none)) →
      Exact ms rest.reverse (handleMetrics ms rest)
  | [], _ => ⟨rfl, .nil, by simp [handleMetrics]⟩
  | c :: rest, h => by
    obtain ⟨hpresent, horder, hcalls⟩ :=
      handleMetrics_exact hd rest fun c hc => h c (List.mem_cons_of_mem _ hc)
    have hlt : ∀ i k, (i, k) ∈ (handleMetrics ms rest).calls → i < rest.length := by
      intro i k hik
      obtain ⟨c, -, hc, -⟩ := (hcalls i k).mp hik
      simpa using (List.getElem?_eq_some_iff.mp hc).1
    -- the metrics before `c` keep their positions, and `c` comes after them
    have hpos : ∀ i k, (∃ d m, (rest.reverse ++ [c])[i]? = some d ∧ ms[k]? = some m ∧
        d.name = some m.name) ↔
          (i = rest.length ∧ c.lookup ms = .found k) ∨ (i, k) ∈ (handleMetrics ms rest).calls := by
      intro i k
      rw [hcalls, lookup_found hd]
      simp only [getElem?_snoc, List.length_reverse]
      refine ⟨?_, ?_⟩
      · rintro ⟨d, m, hd | ⟨rfl, rfl⟩, hm, hname⟩
        · exact .inr ⟨d, m, hd, hm, hname⟩
        · exact .inl ⟨rfl, m, hm, hname⟩
      · rintro (⟨rfl, m, hm, hname⟩ | ⟨d, m, hd, hm, hname⟩)
        · exact ⟨c, m, .inr ⟨rfl, rfl⟩, hm, hname⟩
        · exact ⟨d, m, .inl hd, hm, hname⟩
    rw [List.reverse_cons]
    unfold handleMetrics
    cases hk : c.lookup ms with
    | absent => exact absurd (lookup_absent.mp hk) (h c List.mem_cons_self)
    | unknown =>
      refine ⟨hpresent, horder, fun i k => ?_⟩
      rw [hpos, hk]
      simp
    | found j =>
      refine ⟨hpresent, List.pairwise_cons.mpr ⟨fun a ha => hlt a.1 a.2 ha, horder⟩, fun i k => ?_⟩
      rw [hpos, hk]
      simp [eq_comm]

lemma handleMetrics_faulted (rest : List CommandMetric)
    (h : ∃ c ∈ rest, ms ≠ [] ∧ c.name = none) : (handleMetrics ms rest).faulted = true := by
  induction rest with
  | nil => simp at h
  | cons c rest ih =>
    unfold handleMetrics
    by_cases hc : ms ≠ [] ∧ c.name = none
    · rw [lookup_absent.mpr hc]
    · have hrest : (handleMetrics ms rest).faulted = true := by
        refine ih ?_
        obtain ⟨d, hd, h⟩ := h
        rcases List.mem_cons.mp hd with rfl | hd
        · exact absurd h hc
        · exact ⟨d, hd, h⟩
      cases c.lookup ms with
      | absent => rfl
      | unknown => exact hrest
      | found k => exact hrest

/-- **The dispatch is exact** just when every name that is compared with is there. -/
theorem handleCommand_exact_iff {p : Publishable} (hd : (p.metrics.map Metric.name).Nodup)
    {decodePayload : Str → Option (List CommandMetric)} {payload : Str}
    {command : List CommandMetric} (h : decodePayload payload = some command) :
    Exact p.metrics command (p.handleCommand decodePayload payload) ↔
      AllNamed p.metrics command := by
  rw [handleCommand, h]
  refine ⟨fun h => ?_, fun h => ?_⟩
  · by_contra hno
    simp only [AllNamed, not_or, not_forall, not_not] at hno
    obtain ⟨hms, c, hc, hname⟩ := hno
    have hf : (handleMetrics p.metrics command.reverse).faulted = true :=
      handleMetrics_faulted _ ⟨c, List.mem_reverse.mpr hc, hms, hname⟩
    rw [h.present] at hf
    cases hf
  · have hexact := handleMetrics_exact hd command.reverse fun c hc hno =>
      h.elim hno.1 fun h => h c (List.mem_reverse.mp hc) hno.2
    rwa [List.reverse_reverse] at hexact

/-- A publishable with two metrics. -/
def twoNames : Publishable where
  metrics := [{ name := ['a'], dataType := 3, data := [0] },
    { name := ['b'], dataType := 3, data := [0] }]

/-- A command with a repeated name and an unknown one. -/
theorem repeated_exact : Exact twoNames.metrics
    [⟨some ['b'], true⟩, ⟨some ['c'], true⟩, ⟨some ['b'], false⟩, ⟨some ['a'], true⟩]
    (twoNames.handleCommand (fun _ => some [⟨some ['b'], true⟩, ⟨some ['c'], true⟩,
      ⟨some ['b'], false⟩, ⟨some ['a'], true⟩]) []) :=
  (handleCommand_exact_iff (p := twoNames) (by decide) rfl).mpr (.inr (by decide))

/-- A command with a metric that is given by its alias alone. -/
theorem unnamed_not_exact : ¬Exact twoNames.metrics [⟨none, true⟩]
    (twoNames.handleCommand (fun _ => some [⟨none, true⟩]) []) :=
  fun h => absurd h.present (by decide)

end Publishable

/-! ### The commands of a node -/

/-- What a command depends on of a metric. -/
def Metric.face (m : Metric) : Str × Option Callback := (m.name, m.callback)

lemma map_modify {f : Metric → Metric} (hf : ∀ m, (f m).face = m.face) (ms : List Metric)
    (i : ℕ) : (ms.modify i f).map Metric.face = ms.map Metric.face := by
  refine List.ext_getElem? fun k => ?_
  rw [List.getElem?_map, List.getElem?_map, List.getElem?_modify]
  cases ms[k]? with
  | none => rfl
  | some m =>
    simp only [Option.map_eq_map, Option.map_some]
    split
    · rw [hf]
    · rfl

lemma step_faces (p : Publishable) (a : PublishableCall) :
    (p.step a).metrics.map Metric.face = p.metrics.map Metric.face := by
  cases a with
  | setValue i value now =>
    refine map_modify (fun m => ?_) p.metrics i
    unfold Metric.setValue
    split <;> rfl
  | setProperty i path value =>
    refine map_modify (fun m => ?_) p.metrics i
    cases path <;> rfl
  | update elapsed => rw [Publishable.step, Publishable.update_metrics]
  | publishing => rfl
  | published => simp [Publishable.step, Publishable.published, Metric.face, Metric.published]
  | addToPayload b now =>
    rw [Publishable.step, Publishable.addToPayload_metrics, List.map_map]
    refine List.map_congr_left fun m _ => ?_
    simp only [Function.comp_apply, Metric.addToPayload]
    split <;> rfl

lemma lookup_faces {ms ns : List Metric} (h : ns.map Metric.face = ms.map Metric.face)
    (c : CommandMetric) : c.lookup ns = c.lookup ms := by
  have hnil : ns = [] ↔ ms = [] := by
    rw [← List.map_eq_nil_iff (f := Metric.face), h, List.map_eq_nil_iff]
  have hfind : ∀ (ls : List Metric) (name : Str), ls.findIdx? (fun m => m.name = name) =
      (ls.map Metric.face).findIdx? (fun f => f.1 = name) := by
    intro ls name
    rw [List.findIdx?_map]
    rfl
  unfold CommandMetric.lookup
  simp only [hnil, hfind, h]

namespace Node

lemma onCommand_congr (n : Node) {m m' : Metric} (h : m.face = m'.face) (c : CommandMetric) :
    n.onCommand m c = n.onCommand m' c := by
  have hcallback : m.callback = m'.callback := congrArg Prod.snd h
  rw [onCommand, onCommand, hcallback]

/-- The call of `onCommand` at two positions. -/
def onCommandAt (ms : List Metric) (command : List CommandMetric) (n : Node) (a : ℕ × ℕ) : Node :=
  match command[a.1]?, ms[a.2]? with
  | some c, some m => n.onCommand m c
  | _, _ => n

/-- One round, by what comes of the lookup. -/
lemma commandMetric_eq {n : Node} {p : PubId} {ms : List Metric}
    (h : (n.pub p).cur.metrics.map Metric.face = ms.map Metric.face) (c : CommandMetric) :
    n.commandMetric p c =
      match c.lookup ms with
      | .absent => { n with faulted := true }
      | .unknown => n
      | .found k => (ms[k]?).elim n (n.onCommand · c) := by
  rw [← lookup_faces h, commandMetric, CommandMetric.lookup]
  cases c.name with
  | none => split_ifs <;> rfl
  | some name =>
    simp only [List.find?_eq_bind_findIdx?_getElem?]
    cases (n.pub p).cur.metrics.findIdx? (fun m => m.name = name) with
    | none => rfl
    | some k =>
      have hk := congrArg (·[k]?) h
      simp only [List.getElem?_map] at hk
      cases hm : (n.pub p).cur.metrics[k]? <;> cases hm' : ms[k]? <;>
        simp only [hm, hm', Option.map_none, Option.map_some, Option.some.injEq, reduceCtorEq] at hk
      · simp [hm, hm']
      · simpa [hm, hm'] using n.onCommand_congr hk c

lemma faces_stable (x : PubId → List (Str × Option Callback)) :
    Stable fun n => ∀ p, (n.pub p).cur.metrics.map Metric.face = x p where
  client n i a hn p := by
    rw [callClient_pub, foldl_act_cur]
    exact run_invariant (P := fun q : Publishable => q.metrics.map Metric.face = x p)
      (fun q a hq => (step_faces q a).trans hq) (hn p) _
  pub n q a hn p := by
    rw [callPub_pub]
    split
    · next h => rw [Traced.act_cur, step_faces, h, hn]
    · exact hn p
  free hn _ hp p := hp ▸ hn p

lemma onCommand_faces {n : Node} {x : PubId → List (Str × Option Callback)}
    (h : ∀ p, (n.pub p).cur.metrics.map Metric.face = x p) (m : Metric) (c : CommandMetric) :
    ∀ p, ((n.onCommand m c).pub p).cur.metrics.map Metric.face = x p :=
  onCommand_kept (P := fun n => ∀ p, (n.pub p).cur.metrics.map Metric.face = x p)
    (fun n p hn => (faces_stable x).eventKept.publish n p true hn) h m c

/-- The rounds over the part `rest` of a command that is not handled yet. -/
lemma foldl_commandMetric {p : PubId} {ms : List Metric} {command : List CommandMetric} :
    ∀ (rest : List CommandMetric) {n : Node}, rest.reverse <+: command →
      (n.pub p).cur.metrics.map Metric.face = ms.map Metric.face →
      (Publishable.handleMetrics ms rest).faulted = false →
      rest.foldl (commandMetric · p ·) n =
        (Publishable.handleMetrics ms rest).calls.foldl (onCommandAt ms command) n
  | [], _, _, _, _ => rfl
  | c :: rest, n, hpre, hn, hf => by
    rw [List.reverse_cons] at hpre
    have hpre' : rest.reverse <+: command := (List.prefix_append ..).trans hpre
    have hc : command[rest.length]? = some c := by
      obtain ⟨t, rfl⟩ := hpre
      simp [List.append_assoc]
    rw [List.foldl_cons, commandMetric_eq hn]
    unfold Publishable.handleMetrics at hf ⊢
    cases hk : c.lookup ms with
    | absent => simp [hk] at hf
    | unknown =>
      simp only [hk] at hf ⊢
      exact foldl_commandMetric rest hpre' hn hf
    | found k =>
      simp only [hk, List.foldl_cons, onCommandAt, hc] at hf ⊢
      cases hm : ms[k]? with
      | none => exact foldl_commandMetric rest hpre' hn hf
      | some m =>
        refine foldl_commandMetric rest hpre' ?_ hf
        have hall := onCommand_faces (n := n) (fun _ => rfl) m c
        exact (hall p).trans hn

/-- **The commands of a node are dispatched so**: as long as no absent name is compared with,
handling a command is calling `onCommand` as the dispatch says. -/
theorem handleCommand_eq {n : Node} {p : PubId} {payload : Str} {command : List CommandMetric}
    (h : n.decodePayload payload = some command)
    (hf : ((n.pub p).cur.handleCommand n.decodePayload payload).faulted = false) :
    n.handleCommand p payload =
      ((n.pub p).cur.handleCommand n.decodePayload payload).calls.foldl
        (onCommandAt (n.pub p).cur.metrics command) n := by
  simp only [handleCommand, Publishable.handleCommand, h] at hf ⊢
  exact foldl_commandMetric command.reverse (by simp) rfl hf

end Node

end Sparkplug
