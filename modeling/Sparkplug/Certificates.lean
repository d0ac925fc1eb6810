import Sparkplug.Connecting
import Sparkplug.Sequence

/-!
Death and birth certificates.

The death certificate of a connection is the will registered with the library when the
connection is asked for, a birth certificate is an NBIRTH. Both carry a `bdSeq` by which a
host matches them. The client counts it up in `configureClient` and nowhere else, so the
certificates match as long as the client is configured once before each connection.
-/

namespace Sparkplug

open Machine Client

/-- The client is configured. -/
def ClientCall.configures : ClientCall → Bool
  | .configure _ => true
  | _ => false

/-- The library reports a new connection. -/
def ClientCall.opens : ClientCall → Bool
  | .library .onConnect => true
  | _ => false

/-- The library reports the end of the connection. -/
def ClientCall.closes : ClientCall → Bool
  | .library .onDisconnect => true
  | _ => false

/-- The `bdSeq` of a certificate, and how often the client had been configured when it was
made. -/
structure Certificate where
  bdSeq : ℕ
  configured : ℕ
  deriving DecidableEq

/-- A `CppMqttClient` and its certificates: the will sent with the last attempt to connect,
the will of the present connection, those of all connections, and each birth published in
a connection with the will of that connection. -/
structure Certified where
  client : Client := { kind := .cppMqtt }
  configured : ℕ := 0
  offered : Option Certificate := none
  will : Option Certificate := none
  wills : List Certificate := []
  births : List (Certificate × Certificate) := []

namespace Certified

open Ledger Sequence

/-- The operation makes the library connect, with the will it was given last. -/
def connectsNow (c : Client) : ClientCall → Bool
  | .execute => c.state = .disconnected && c.configured && c.returnCode ≠ -1
  | _ => false

/-- The `bdSeq`s of the NBIRTHs that the library has accepted between `c` and `d`. -/
def publishedBirths (c d : Client) : List ℕ :=
  ((acceptedMessages (effects c d)).filter Attempt.isNodeBirth).filterMap Attempt.bdSeq

/-- A certificate made now. -/
def now (s : Certified) (bdSeq : ℕ) : Certificate := ⟨bdSeq, s.configured⟩

/-- One operation of the client. A connection begins with `onConnect`, under the will of
the last attempt, and ends with `onDisconnect`. -/
def step (s : Certified) (a : ClientCall) : Certified where
  client := s.client.step a
  configured := if a.configures then s.configured + 1 else s.configured
  offered := if connectsNow s.client a then some (s.now s.client.bdSeq) else s.offered
  will := if a.opens then s.offered else if a.closes then none else s.will
  wills := if a.opens then s.wills ++ s.offered.toList else s.wills
  births := s.births ++ s.will.toList.flatMap fun w =>
    (publishedBirths s.client (s.client.step a)).map fun b => (s.now b, w)

/-- Every birth carries the `bdSeq` of the will of its connection, and the wills of the
connections are numbered from zero on, modulo 256. -/
structure CertificatesMatch (s : Certified) : Prop where
  births : ∀ p ∈ s.births, p.1.bdSeq = p.2.bdSeq
  wills : s.wills.map Certificate.bdSeq = (List.range s.wills.length).map (· % 256)

instance (s : Certified) : Decidable (CertificatesMatch s) :=
  decidable_of_iff ((∀ p ∈ s.births, p.1.bdSeq = p.2.bdSeq) ∧
    s.wills.map Certificate.bdSeq = (List.range s.wills.length).map (· % 256))
    ⟨fun ⟨h1, h2⟩ => ⟨h1, h2⟩, fun ⟨h1, h2⟩ => ⟨h1, h2⟩⟩

/-- When a connection begins, the client had been configured once for each connection so
far before it was asked for; when an NBIRTH is published, the client has not been
configured since the connection was asked for. Both up to multiples of 256. -/
structure ConfiguredInTime (s : Certified) (a : ClientCall) : Prop where
  connection : a.opens = true → ∀ w ∈ s.offered, w.configured ≡ s.wills.length + 1 [MOD 256]
  birth : publishedBirths s.client (s.client.step a) ≠ [] →
    ∀ w ∈ s.will, s.configured ≡ w.configured [MOD 256]

/-! ### The `bdSeq` of the client -/

@[simp] lemma asked_bdSeq (c : Client) (q : Question) : (c.asked q).bdSeq = c.bdSeq := by
  cases q <;> rfl

@[simp] lemma setState_bdSeq (c : Client) (s : ClientState) : (c.setState s).bdSeq = c.bdSeq := by
  unfold setState; split
  · rfl
  · cases s <;> rfl

/-- From `c` to `d` the `bdSeq` has not changed, and every NBIRTH built carries it. -/
def Carries (c d : Client) : Prop :=
  d.bdSeq = c.bdSeq ∧ ∃ l, d.log = c.log ++ l ∧ ∀ a ∈ attempts l, ∀ b ∈ a.bdSeq, b = c.bdSeq

lemma Carries.refl (c : Client) : Carries c c := ⟨rfl, [], by simp, by simp [attempts]⟩

lemma Carries.trans {b c d : Client} (h : Carries b c) (k : Carries c d) : Carries b d := by
  obtain ⟨hb, l, hl, h⟩ := h
  obtain ⟨kb, m, hm, k⟩ := k
  refine ⟨kb.trans hb, l ++ m, by rw [hm, hl, List.append_assoc], fun a ha b hab => ?_⟩
  rw [attempts_append, List.mem_append] at ha
  rcases ha with ha | ha
  · exact h a ha b hab
  · exact (k a ha b hab).trans hb

/-- A step that builds no payload. -/
lemma Carries.of_quiet {c d : Client} (l : List Effect) (hl : d.log = c.log ++ l)
    (hb : d.bdSeq = c.bdSeq) (hatt : attempts l = []) : Carries c d :=
  ⟨hb, l, hl, by simp [hatt]⟩

lemma emit_carries (c : Client) {e : Effect} (he : attempts [e] = []) : Carries c (c.emit e) :=
  .of_quiet [e] rfl rfl he

lemma asked_carries (c : Client) (q : Question) : Carries c (c.asked q) :=
  .of_quiet [] (by simp) (by simp) rfl

lemma setState_carries (c : Client) (s : ClientState) : Carries c (c.setState s) :=
  .of_quiet [] (by simp) (by simp) rfl

lemma publishStep_carries {A : Scope} {c d : Client} (h : PublishStep A c d) : Carries c d := by
  cases h with
  | asked q => exact asked_carries c q
  | access id => exact emit_carries c rfl
  | skipped r => exact emit_carries c rfl
  | idle => exact setState_carries c _
  | @tried r _ o =>
    refine ⟨rfl, attemptLog c r o, rfl, fun a ha b hb => ?_⟩
    obtain rfl : a = _ := List.mem_singleton.mp ha
    cases hr : r.isNodeBirth <;> simp [hr] at hb
    exact hb.symm
  | giveUp => exact .of_quiet [.undelivered _] rfl rfl rfl
  | retry => exact .of_quiet [] (by simp [modifyFront]) rfl rfl

lemma publishes_carries {c d : Client} (h : Publishes {} c d) : Carries c d := by
  induction h with
  | refl => exact .refl c
  | tail _ hs ih => exact ih.trans (publishStep_carries hs)

lemma onDisconnect_carries (c : Client) : Carries c c.onDisconnect := by
  refine .of_quiet _ (onDisconnect_log c) ?_ ?_
  · rw [onDisconnect, dumpQueue_eq]
    exact setState_bdSeq _ _
  · simp [attempts, List.filterMap_map, Effect.payload, Function.comp_def]

lemma connected_carries (c : Client) : Carries c c.connected := by
  refine .of_quiet _ (connected_log c) ?_ rfl
  simp only [Client.connected]
  split <;> simp [subscribeToPrimaryHost, emit]

lemma activated_carries (c : Client) : Carries c c.activated := by
  unfold activated
  split
  · exact emit_carries c rfl
  · exact .refl c

lemma setPrimary_carries (c : Client) (b : Bool) : Carries c (c.setPrimary b) :=
  .of_quiet [] (by simp [setPrimary]) rfl rfl

lemma subscribeToCommands_carries (c : Client) : Carries c c.subscribeToCommands.2 := by
  have hres : ∀ accepted, Carries c ((c.asked .code).commandsResult accepted) :=
    fun accepted => .of_quiet [.subscribed accepted] rfl rfl rfl
  simp only [subscribeToCommands]
  split <;> split
  · exact hres false
  · exact (hres true).trans (activated_carries _)
  · exact hres false
  · exact hres true
  · exact hres false
  · exact (hres true).trans (.of_quiet [] (by simp) rfl rfl)

lemma activate_carries (c : Client) : Carries c c.activate.2 := by
  have h := (setPrimary_carries c true).trans (subscribeToCommands_carries _)
  simp only [activate]
  split
  · exact .refl c
  · split
    · exact h.trans (setPrimary_carries _ false)
    · exact h

section CppMqtt

variable {c : Client} (hk : c.kind = .cppMqtt)

include hk

lemma deactivate_carries : Carries c c.deactivate.2 := by
  simp only [deactivate, unsubscribeToCommands, hk]
  split
  · exact .refl c
  · exact setPrimary_carries c false

lemma disconnect_carries : Carries c c.disconnect := by
  simp only [disconnect, clientDisconnect, hk]
  repeat' split
  · exact .refl c
  · exact ((asked_carries c _).trans (setState_carries _ _)).trans (asked_carries _ _)
  · exact asked_carries c _

lemma execute_carries : Carries c c.execute := by
  have hne : ∀ d : Client, d.kind = .cppMqtt → d.kind ≠ .pahoSync := by
    intro d hd
    simp [hd]
  have hconnect : Carries c c.connect.2 := by
    refine connect_of (.refl c) (fun _ => ?_) fun d hd => hd.trans (setState_carries d _)
    simp only [clientConnect, hk]
    split <;> exact asked_carries c .code
  simp only [execute]
  split
  · rwa [sync_of_ne (hne _ ((connect_kind c).trans hk))]
  · rw [sync_of_ne (hne c hk)]
    exact .refl c

end CppMqtt

lemma request_carries (c : Client) (r : PublishRequest) : Carries c (c.request r) := by
  have h0 : Carries c (c.enqueue r) := .of_quiet [] (by simp [enqueue]) rfl rfl
  simp only [request]
  repeat' split
  · exact (h0.trans (asked_carries _ _)).trans (publishes_carries (publishFromQueue_publishes _))
  · exact h0.trans (asked_carries _ _)
  · exact h0

lemma onDelivery_carries (c : Client) (token : ℤ) : Carries c (c.onDelivery token) := by
  have h0 : Carries c (c.calledBack token) := .of_quiet [] (by simp [calledBack]) rfl rfl
  simp only [onDelivery]
  split
  · exact h0.trans (emit_carries _ (e := .emptyFront) rfl)
  · next r rest hq =>
    have h1 := h0.trans (emit_carries _ (e := .access r.id) rfl)
    split
    · have h2 : Carries ((c.calledBack token).emit (.access r.id))
          (((c.calledBack token).emit (.access r.id)).resolveFront (.delivered r)) :=
        .of_quiet [.delivered r] rfl rfl rfl
      exact (h1.trans h2).trans (publishes_carries (publishFromQueue_publishes _))
    · exact h1

lemma handle_carries (c : Client) (l : LibraryCall) : Carries c (c.handle l) := by
  cases l with
  | answers l => exact .of_quiet [] (by simp [handle]) rfl rfl
  | link up => exact .of_quiet [] (by simp [handle]) rfl rfl
  | onDelivery token => exact onDelivery_carries c token
  | onDeliveryFailure token =>
    have h0 : Carries c (c.calledBack token) := .of_quiet [] (by simp [calledBack]) rfl rfl
    exact h0.trans (publishes_carries (onDeliveryFailure_publishes_all _ _))
  | onMessage topic payload => exact emit_carries c rfl
  | onDisconnect => exact onDisconnect_carries c
  | onConnect => exact connected_carries c
  | onConnectFailure => exact setState_carries c _
  | onCommandSubscription => exact activated_carries c
  | onCommandSubscribeFailure => exact .of_quiet [] (by simp [handle]) rfl rfl
  | onSubscribeResult token reasonCodes =>
    have h0 : Carries c { c with commands := some false } := .of_quiet [] (by simp) rfl rfl
    simp only [handle, onSubscribeResult]
    repeat' split
    · exact h0.trans (activated_carries _)
    · exact activated_carries c
    · exact .refl c

/-- Only `configure` changes the `bdSeq`. -/
lemma step_carries {c : Client} (hk : c.kind = .cppMqtt) {a : ClientCall}
    (ha : a.configures = false) : Carries c (c.step a) := by
  cases a with
  | configure topics => cases ha
  | activate => exact activate_carries c
  | deactivate => exact deactivate_carries hk
  | request r => exact request_carries c r
  | disconnect => exact disconnect_carries hk
  | execute => exact execute_carries hk
  | library l =>
    simp only [Client.step, callback]
    split
    · exact handle_carries c l
    · exact .refl c

lemma configure_bdSeq {c : Client} (hk : c.kind = .cppMqtt) (topics : ClientTopicOptions) :
    (c.configure topics).2.bdSeq = (if c.bdSeq = 255 then 0 else c.bdSeq + 1) ∧
      (c.configure topics).2.log = c.log := by
  simp [configure, configureClient, hk, incrementBdSeq]

lemma step_of_configures {a : ClientCall} (ha : a.configures = true) :
    ∃ topics, a = .configure topics := by
  cases a <;> first | exact ⟨_, rfl⟩ | cases ha

lemma mem_publishedBirths {c : Client} (hk : c.kind = .cppMqtt) (a : ClientCall) {b : ℕ}
    (hb : b ∈ publishedBirths c (c.step a)) : b = c.bdSeq := by
  simp only [publishedBirths, acceptedMessages, List.mem_filterMap, List.mem_filter] at hb
  obtain ⟨x, ⟨⟨hx, -⟩, -⟩, hxb⟩ := hb
  cases ha : a.configures with
  | true =>
    obtain ⟨topics, rfl⟩ := step_of_configures ha
    have hnone : effects c (c.step (.configure topics)) = [] :=
      effects_eq (by simpa [Client.step] using (configure_bdSeq hk topics).2)
    simp [hnone, attempts] at hx
  | false =>
    obtain ⟨-, l, hl, h⟩ := step_carries hk ha
    rw [effects_eq hl] at hx
    exact h x hx b hxb

/-! ### The certificates -/

/-- The `bdSeq` of a client that has been configured `k` times. -/
def bdSeqAfter (k : ℕ) : ℕ := (255 + k) % 256

lemma bdSeqAfter_eq_iff {j k : ℕ} : bdSeqAfter j = bdSeqAfter k ↔ j ≡ k [MOD 256] := by
  unfold bdSeqAfter Nat.ModEq
  omega

lemma bdSeqAfter_eq_mod {j k : ℕ} : bdSeqAfter j = k % 256 ↔ j ≡ k + 1 [MOD 256] := by
  unfold bdSeqAfter Nat.ModEq
  omega

lemma bdSeqAfter_succ (k : ℕ) :
    bdSeqAfter (k + 1) = if bdSeqAfter k = 255 then 0 else bdSeqAfter k + 1 := by
  unfold bdSeqAfter
  split <;> omega

/-- The `bdSeq` of the client and of every certificate is the number of configurations. -/
structure Counted (s : Certified) : Prop where
  kind : s.client.kind = .cppMqtt
  client : s.client.bdSeq = bdSeqAfter s.configured
  offered : ∀ w ∈ s.offered, w.bdSeq = bdSeqAfter w.configured
  will : ∀ w ∈ s.will, w.bdSeq = bdSeqAfter w.configured

lemma step_counted {s : Certified} (h : Counted s) (a : ClientCall) : Counted (s.step a) where
  kind := (step_kind _ a).trans h.kind
  client := by
    cases ha : a.configures with
    | true =>
      obtain ⟨topics, rfl⟩ := step_of_configures ha
      have hb := (configure_bdSeq h.kind topics).1
      rw [h.client, ← bdSeqAfter_succ] at hb
      exact hb
    | false =>
      have hb := (step_carries h.kind ha).1.trans h.client
      simpa [step, ha] using hb
  offered := by
    simp only [step]
    split
    · intro w hw
      obtain rfl := Option.some.inj hw
      exact h.client
    · exact h.offered
  will := by
    simp only [step]
    repeat' split
    · exact h.offered
    · simp
    · exact h.will

/-- The births published in a step match the will exactly when the client has not been
configured in between. -/
lemma births_match_iff {s : Certified} (h : Counted s) (hm : CertificatesMatch s)
    (a : ClientCall) : (∀ p ∈ (s.step a).births, p.1.bdSeq = p.2.bdSeq) ↔
      (publishedBirths s.client (s.client.step a) ≠ [] →
        ∀ w ∈ s.will, s.configured ≡ w.configured [MOD 256]) := by
  have hiff : ∀ w ∈ s.will, ∀ b ∈ publishedBirths s.client (s.client.step a),
      (b = w.bdSeq ↔ s.configured ≡ w.configured [MOD 256]) := by
    intro w hw b hb
    rw [mem_publishedBirths h.kind a hb, h.client, h.will w hw, bdSeqAfter_eq_iff]
  simp only [step, List.mem_append, List.mem_flatMap, List.mem_map, Option.mem_toList]
  refine ⟨?_, ?_⟩
  · intro hall hne w hw
    obtain ⟨b, hb⟩ := List.exists_mem_of_ne_nil _ hne
    exact (hiff w hw b hb).mp (hall (s.now b, w) (.inr ⟨w, hw, b, hb, rfl⟩))
  · rintro hc p (hp | ⟨w, hw, b, hb, rfl⟩)
    · exact hm.births p hp
    · exact (hiff w hw b hb).mpr (hc (List.ne_nil_of_mem hb) w hw)

/-- The wills stay numbered exactly when the will of a new connection is the next one. -/
lemma wills_match_iff {s : Certified} (h : Counted s) (hm : CertificatesMatch s)
    (a : ClientCall) : (s.step a).wills.map Certificate.bdSeq =
      (List.range (s.step a).wills.length).map (· % 256) ↔
      (a.opens = true → ∀ w ∈ s.offered, w.configured ≡ s.wills.length + 1 [MOD 256]) := by
  cases ha : a.opens with
  | true =>
    simp only [step, ha, if_true, forall_const]
    cases ho : s.offered with
    | none => simpa using hm.wills
    | some w =>
      have hw := h.offered w (by simp [ho])
      simp [hm.wills, List.range_succ, hw, bdSeqAfter_eq_mod]
  | false =>
    have hsame : (s.step a).wills = s.wills := by simp [step, ha]
    rw [hsame]
    exact iff_of_true hm.wills (by simp)

/-- **Death and birth certificates match** along a run exactly when the client is configured
in time. -/
theorem certificatesMatch_iff (calls : List ClientCall) :
    Along step CertificatesMatch {} calls ↔ Each step ConfiguredInTime {} calls := by
  refine along_iff_each_of (I := Counted) (fun _ a h => step_counted h a) ?_ ?_ ?_
  · intro s a h hm
    refine ⟨fun k => ⟨(wills_match_iff h hm a).mp k.wills, (births_match_iff h hm a).mp k.births⟩,
      fun k => ⟨(births_match_iff h hm a).mpr k.birth, (wills_match_iff h hm a).mpr k.connection⟩⟩
  · exact ⟨rfl, rfl, by simp, by simp⟩
  · exact ⟨by simp, rfl⟩

/-- A client connects, loses the connection and connects again. -/
def connectedTwice : List ClientCall :=
  [.configure {}, .execute, .library .onConnect, .library .onDisconnect, .execute,
    .library .onConnect]

/-- Both connections have the `bdSeq` zero. -/
theorem connectedTwice_not_match : ¬CertificatesMatch (run step {} connectedTwice) := by
  decide

end Certified

end Sparkplug
