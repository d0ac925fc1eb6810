import Sparkplug.Primary
import Sparkplug.Node

/-!
Failures of the library.

The base class takes a negative code for a failure, and the Paho clients return
`EXIT_FAILURE`, which is positive. So only the `CppMqttClient` reports the failures of its
library.
-/

namespace Sparkplug

namespace Client

/-- The operations that ask the library for something. -/
inductive Operation
  | configure (topics : ClientTopicOptions)
  | connect
  | activate
  | deactivate

/-- What the operation returns, and the client after it. -/
def perform (c : Client) : Operation → ℤ × Client
  | .configure topics => c.configure topics
  | .connect => c.connect
  | .activate => c.activate
  | .deactivate => c.deactivate

/-- A library call with this answer failed: the C++ library returns a token or `-1`. -/
def failed (kind : ClientKind) (code : ℤ) : Bool :=
  match kind with
  | .pahoSync | .pahoAsync => code ≠ mqttSuccess
  | .cppMqtt => code = -1

/-- The operation gets to its library call, and that fails. A `PahoAsyncClient` is created
and then given its callbacks; a `CppMqttClient` asks nothing of its library to be configured
or deactivated. -/
def LibraryFails (c : Client) : Operation → Prop
  | .configure _ =>
    match c.kind with
    | .pahoSync => failed .pahoSync c.returnCode = true
    | .pahoAsync => failed .pahoAsync c.returnCode = true ∨
        failed .pahoAsync (c.asked .code).returnCode = true
    | .cppMqtt => False
  | .connect => c.state = .disconnected ∧ c.configured = true ∧ failed c.kind c.returnCode = true
  | .activate => c.isPrimary = false ∧ failed c.kind c.returnCode = true
  | .deactivate => c.isPrimary = true ∧ c.kind ≠ .cppMqtt ∧ failed c.kind c.returnCode = true

/-- What the operation was to change is as it was before. -/
def AsBefore (c : Client) : Operation → Prop
  | .configure topics => (c.configure topics).2.configured = c.configured
  | .connect => c.connect.2.state = .disconnected
  | .activate => c.activate.2.isPrimary = false
  | .deactivate => c.deactivate.2.isPrimary = true

/-- A failure of the library is reported, and the client is as it was. -/
def Reported (c : Client) (op : Operation) : Prop :=
  LibraryFails c op → (c.perform op).1 ≠ 0 ∧ AsBefore c op

/-- Whatever the library answers, `configure` returns success. -/
lemma configure_code (c : Client) (topics : ClientTopicOptions) : (c.configure topics).1 = 0 := by
  have h : ¬({ c with topics := topics }.configureClient).1 < 0 := by
    simp only [configureClient]
    split
    · split <;> simp [exitFailure]
    · repeat' split
      all_goals simp [exitFailure]
    · simp
  simp only [configure]
  rw [if_neg h]

/-- A Paho client returns success for every operation but a connection attempt of an
unconfigured client. -/
lemma paho_code {c : Client} (hk : c.kind ≠ .cppMqtt) {op : Operation} (h : LibraryFails c op) :
    (c.perform op).1 = 0 := by
  cases op with
  | configure topics => exact configure_code c topics
  | connect =>
    obtain ⟨hs, hc, -⟩ := h
    have hcode : ¬c.clientConnect.1 < 0 := by
      cases hkind : c.kind with
      | cppMqtt => exact absurd hkind hk
      | pahoSync | pahoAsync =>
        by_cases hcode : c.returnCode = mqttSuccess <;>
          simp [clientConnect, hkind, hs, hcode, exitFailure]
    simp [perform, connect, hs, hc, hcode]
  | activate =>
    obtain ⟨hp, -⟩ := h
    have hcode := (subscribeToCommands_cases (c.setPrimary true)).2.2.2.1
    have hneg : ¬(c.setPrimary true).subscribeToCommands.1 < 0 := fun hlt => hk (hcode.mp hlt).1
    simp [perform, activate, hp, hneg]
  | deactivate =>
    obtain ⟨hp, -⟩ := h
    have hcode : ¬c.unsubscribeToCommands.1 < 0 := by
      unfold unsubscribeToCommands
      split <;> try split
      all_goals simp [exitFailure]
    simp [perform, deactivate, hp, hcode]

/-- A `CppMqttClient` reports every failure. -/
lemma cppMqtt_reported {c : Client} (hk : c.kind = .cppMqtt) (op : Operation) : Reported c op := by
  intro h
  cases op with
  | configure topics => simp [LibraryFails, hk] at h
  | connect =>
    obtain ⟨hs, hc, hf⟩ := h
    have hcode : c.returnCode = -1 := by simpa [failed, hk] using hf
    simp [perform, AsBefore, connect, clientConnect, hs, hc, hk, hcode]
  | activate =>
    obtain ⟨hp, hf⟩ := h
    have hcode : c.returnCode = -1 := by simpa [failed, hk] using hf
    have hneg : (c.setPrimary true).subscribeToCommands.1 < 0 :=
      (subscribeToCommands_cases _).2.2.2.1.mpr ⟨hk, hcode⟩
    simp only [perform, AsBefore, activate, hp, Bool.false_eq_true, if_false, hneg, if_true]
    exact ⟨Int.ne_of_lt hneg, rfl⟩
  | deactivate => exact absurd hk h.2.1

/-- The failures of an operation are reported exactly by a `CppMqttClient`. -/
lemma reported_iff (c : Client) (op : Operation) :
    Reported c op ↔ (LibraryFails c op → c.kind = .cppMqtt) := by
  refine ⟨fun h hf => ?_, fun h hf => cppMqtt_reported (h hf) op hf⟩
  by_contra hk
  exact (h hf).1 (paho_code hk hf)

end Client

namespace Node

open Client

/-- A node is enabled only if the library has configured all its clients. -/
def EnabledConfigured (n : Node) : Prop :=
  n.enable.1 = 0 → ∀ i ∈ n.clients, ¬LibraryFails (n.client i).cur (.configure n.clientTopics)

lemma configureClients_code (n : Node) (is : List ClientId) : (n.configureClients is).1 = true := by
  induction is generalizing n with
  | nil => rfl
  | cons i is ih =>
    unfold configureClients
    rw [if_pos (configure_code _ _)]
    exact ih _

/-- A node with topics and clients is enabled. -/
lemma enable_code (n : Node) :
    n.enable.1 = 0 ↔ n.topicsConfigured = true ∧ n.clients ≠ [] := by
  have hconf := configureClients_code n n.clients
  unfold enable
  by_cases ht : n.topicsConfigured = false
  · simp [ht]
  · by_cases hc : n.clients = []
    · simp [ht, hc]
    · simp [hconf, ht, hc]

lemma enabledConfigured_iff (n : Node) : EnabledConfigured n ↔ (n.topicsConfigured = true →
    ∀ i ∈ n.clients, LibraryFails (n.client i).cur (.configure n.clientTopics) →
      (n.client i).cur.kind = .cppMqtt) := by
  have hcpp : ∀ c : Client, LibraryFails c (.configure n.clientTopics) → c.kind ≠ .cppMqtt := by
    intro c h hk
    simp [LibraryFails, hk] at h
  unfold EnabledConfigured
  rw [enable_code]
  refine ⟨fun h ht i hi hf => ?_, fun h ⟨ht, _⟩ i hi hf => hcpp _ hf (h ht i hi hf)⟩
  exact absurd hf (h ⟨ht, List.ne_nil_of_mem hi⟩ i hi)

/-- **Failures of the library are reported** by a `CppMqttClient` and by no other, and a node
is enabled on failures just as well. -/
theorem reported_iff_cppMqtt (c : Client) (op : Operation) (n : Node) :
    (Reported c op ↔ (LibraryFails c op → c.kind = .cppMqtt)) ∧
    (EnabledConfigured n ↔ (n.topicsConfigured = true →
      ∀ i ∈ n.clients, LibraryFails (n.client i).cur (.configure n.clientTopics) →
        (n.client i).cur.kind = .cppMqtt)) :=
  ⟨reported_iff c op, enabledConfigured_iff n⟩

/-- The library of a `PahoAsyncClient` refuses the subscription, and `activate` returns zero. -/
theorem refused_not_reported :
    ¬Reported { kind := .pahoAsync, state := .connected, lib := { code := .const 1 } } .activate := by
  intro h
  exact (h ⟨rfl, by decide⟩).1 (by decide)

end Node

end Sparkplug
