import Sparkplug.EventLoop

/-!
The whole of `execute`.

`execute` first lets the clients and the events have their turn, which can leave the node
without an active client, and goes on only with one. The active client then stays, so the
turns of the publishables are rounds of their own.
-/

namespace Sparkplug

open Machine

namespace Node

/-! ### `execute` -/

def executeIdleDelay : ℤ := 1

/-- `execute` of all clients. -/
def executeClients (n : Node) : Node := n.clients.foldl (fun n i => n.callClient i .execute) n

def sync (n : Node) : Node := n.executeClients.processEvents

/-- `connected` is what the active client answers to `isConnected`. -/
def isActive (n : Node) (connected : Bool) : Bool × Node :=
  if n.enabled = false then (false, n)
  else (n.sync.activeClient.isSome && connected, n.sync)

/-- A publishable's turn, with the time until its next one. -/
def takeTurn (n : Node) (p : PubId) (elapsed : ℤ) : ℤ × Node :=
  let next := ((n.pub p).cur.update elapsed).1
  let n := n.callPub p (.update elapsed)
  (next, if (n.pub p).cur.canPublish then n.publish p false else n)

def takeTurns (elapsed next : ℤ) : Node → List PubId → ℤ × Node
  | n, [] => (next, n)
  | n, p :: ps => takeTurns elapsed (min (n.takeTurn p elapsed).1 next) (n.takeTurn p elapsed).2 ps

/-- The node and its devices. -/
def publishables (n : Node) : List PubId := .node :: n.devices.map .device

/-- A fault in `isActive` ends it. -/
def execute (n : Node) (elapsed : ℤ) (connected : Bool) : ℤ × Node :=
  if n.enabled = false then (-1, n)
  else
    let (active, n) := n.isActive connected
    if active = false ∨ n.faulted = true then (executeIdleDelay, n)
    else takeTurns elapsed 0xFFFF n n.publishables

/-- Everything that is as it is to be for the turns. -/
structure Executing (ds : List ℕ) (n : Node) : Prop where
  enabled : n.enabled = true
  active : n.activeClient ≠ none
  faulted : n.faulted = false
  devices : n.devices = ds

section Turns

variable {n : Node} {ds : List ℕ}

lemma publish_executing (h : n.Executing ds) (p : PubId) (b : Bool) :
    (n.publish p b).Executing ds := by
  have hunmoved : Unmoved fun m => m.enabled = true ∧ m.devices = ds :=
    ⟨fun _ _ _ _ _ _ _ _ _ hm => hm⟩
  obtain ⟨henabled, hdevices⟩ := hunmoved.publish ⟨h.enabled, h.devices⟩ p b
  exact ⟨henabled, publish_active h.active p b, (publish_faulted h.active p b).trans h.faulted,
    hdevices⟩

lemma takeTurn_executing (h : n.Executing ds) (p : PubId) (elapsed : ℤ) :
    (n.takeTurn p elapsed).2.Executing ds := by
  have hupdate : (n.callPub p (.update elapsed)).Executing ds :=
    ⟨h.enabled, h.active, h.faulted, h.devices⟩
  simp only [takeTurn]
  split
  · exact publish_executing hupdate p false
  · exact hupdate

lemma takeTurns_executing (elapsed : ℤ) (ps : List PubId) (next : ℤ)
    (h : n.Executing ds) : (takeTurns elapsed next n ps).2.Executing ds := by
  induction ps generalizing n next with
  | nil => exact h
  | cons p ps ih => exact ih _ (takeTurn_executing h p elapsed)

/-- The active client stays, so a turn is a round of its own. -/
lemma takeTurn_eq_poll (h : n.Executing ds) {p : PubId} (hp : n.owns p = true) (elapsed : ℤ) :
    (n.takeTurn p elapsed).2 = n.step (.poll p elapsed) := by
  have hactive : n.activeClient.isSome = true := Option.isSome_iff_ne_none.mpr h.active
  rw [step, if_neg (by simp [h.faulted]), handle, poll, if_pos (by simp [h.enabled, hactive, hp])]
  rfl

lemma takeTurns_eq_run (elapsed : ℤ) (ps : List PubId) {n : Node} (next : ℤ) (h : n.Executing ds)
    (hps : ∀ p ∈ ps, n.owns p = true) :
    (takeTurns elapsed next n ps).2 = run step n (ps.map (.poll · elapsed)) := by
  induction ps generalizing n next with
  | nil => rfl
  | cons p ps ih =>
    rw [List.forall_mem_cons] at hps
    have hnext := takeTurn_executing h p elapsed
    have howns : ∀ q, (n.takeTurn p elapsed).2.owns q = n.owns q := by
      intro q
      cases q with
      | node => rfl
      | device d => rw [owns, owns, hnext.devices, h.devices]
    rw [takeTurns, ih _ hnext fun q hq => (howns q).trans (hps.2 q hq), takeTurn_eq_poll h hps.1]
    rfl

end Turns

/-! ### `execute` as a run -/

lemma enabled_unmoved (b : Bool) : Unmoved fun n => n.enabled = b where
  free _ _ _ _ _ _ _ _ _ h := h

/-- What the execution of a client and the processing of an event keep, `sync` keeps. -/
lemma sync_kept {P : Node → Prop} (hclient : ∀ n i, P n → P (n.callClient i .execute))
    (hevent : ∀ n, P n → P (n.step .processEvent)) {n : Node} (h : P n) : P n.sync := by
  have hclients : P n.executeClients :=
    List.foldlRecOn n.clients _ h fun m hm i _ => hclient m i hm
  obtain ⟨k, hk⟩ := n.executeClients.processEvents_eq_rounds
  rw [sync, hk]
  exact rounds_invariant hevent hclients k

lemma Unmoved.sync {P : Node → Prop} (h : Unmoved P) {n : Node} (hn : P n) : P n.sync :=
  sync_kept (P := P) (fun _ i hm => h.callClient hm i _) (fun _ hm => h.rounds hm 1) hn

lemma sync_enabled (n : Node) : n.sync.enabled = n.enabled :=
  (enabled_unmoved n.enabled).sync rfl

/-- When `isActive` is true, the turns can begin. -/
lemma sync_executing {n : Node} {connected : Bool} (he : ¬n.enabled = false)
    (hgo : ¬((n.sync.activeClient.isSome && connected) = false ∨ n.sync.faulted = true)) :
    n.sync.Executing n.sync.devices := by
  simp only [not_or, Bool.not_eq_false, Bool.and_eq_true, Bool.not_eq_true] at hgo
  refine ⟨?_, Option.isSome_iff_ne_none.mp hgo.1.1, hgo.2, rfl⟩
  rw [sync_enabled]
  simpa using he

lemma foldl_execute_eq_run (is : List ClientId) {n : Node} (hf : n.faulted = false)
    (hin : ∀ i ∈ is, i ∈ n.clients) : is.foldl (fun n i => n.callClient i .execute) n =
      run step n (is.map .executeClient) := by
  induction is generalizing n with
  | nil => rfl
  | cons i is ih =>
    rw [List.forall_mem_cons] at hin
    have hstep : n.step (.executeClient i) = n.callClient i .execute := by
      rw [step, if_neg (by simp [hf]), handle, if_pos hin.1]
    have hclients : (n.callClient i .execute).clients = n.clients := by
      rw [callClient_eq]
      rfl
    rw [List.foldl_cons, List.map_cons, run_cons, hstep]
    exact ih (by simp [hf]) fun j hj => hclients ▸ hin.2 j hj

lemma sync_eq_run {n : Node} (hf : n.faulted = false) : ∃ calls, n.sync = run step n calls := by
  obtain ⟨k, hk⟩ := processEvents_eq_rounds n.executeClients
  refine ⟨n.clients.map .executeClient ++ List.replicate k .processEvent, ?_⟩
  rw [run_append, ← foldl_execute_eq_run n.clients hf fun i hi => hi, sync, hk]
  rfl

/-- **The whole of `execute` is a run of its rounds**: what holds in every run of rounds holds
also where `execute` is taken as one. -/
theorem execute_eq_run {n : Node} (hf : n.faulted = false) (elapsed : ℤ) (connected : Bool) :
    ∃ calls, (n.execute elapsed connected).2 = run step n calls := by
  by_cases he : n.enabled = false
  · exact ⟨[], by simp [execute, he]⟩
  obtain ⟨calls, hsync⟩ := sync_eq_run hf
  simp only [execute, isActive, if_neg he]
  split
  · exact ⟨calls, hsync⟩
  · next hgo =>
    refine ⟨calls ++ n.sync.publishables.map (.poll · elapsed), ?_⟩
    rw [run_append, ← hsync]
    refine takeTurns_eq_run elapsed _ _ (sync_executing he hgo) fun p hp => ?_
    rcases List.mem_cons.mp hp with rfl | hp
    · rfl
    · obtain ⟨d, hd, rfl⟩ := List.mem_map.mp hp
      exact decide_eq_true hd

end Node

end Sparkplug
