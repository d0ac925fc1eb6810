import Sparkplug.Ledger
import Sparkplug.Primary

/-!
Acknowledgements that come too late, or are for something else.

The library may report the delivery of a message whose request is no longer at the front of
the queue, or when there is no queue any more.
-/

namespace Sparkplug.Client

open Machine Ledger

/-- The token is not that of the front request. -/
def Foreign (c : Client) (token : ℤ) : Prop := ∀ r ∈ c.publishQueue.head?, r.token ≠ token

instance (c : Client) (token : ℤ) : Decidable (c.Foreign token) :=
  inferInstanceAs (Decidable (∀ r ∈ c.publishQueue.head?, r.token ≠ token))

/-- From `c` to `d` nothing was read that is not there, no event was raised, and nothing has
changed. The queue is that of the requests with their tokens and retry counts. -/
structure Harmless (c d : Client) : Prop where
  present : .emptyFront ∉ effects c d
  silent : (effects c d).filterMap Effect.raised = []
  queue : d.publishQueue = c.publishQueue
  sequence : d.payloadSequence = c.payloadSequence
  state : d.state = c.state
  primary : d.isPrimary = c.isPrimary

lemma onDelivery_harmless_iff {c : Client} {token : ℤ} (h : c.Foreign token) :
    Harmless c (c.onDelivery token) ↔ c.publishQueue ≠ [] := by
  unfold onDelivery
  rcases hq : c.publishQueue with _ | ⟨r, rest⟩
  · have heff : effects c ((c.calledBack token).emit .emptyFront) = [.emptyFront] :=
      effects_eq rfl
    exact iff_of_false (fun hh => hh.present (by simp [heff])) (by simp)
  · have hne : r.token ≠ token := h r (by simp [hq])
    have heff : effects c ((c.calledBack token).emit (.access r.id)) = [.access r.id] :=
      effects_eq rfl
    simp only [hne, if_false]
    refine iff_of_true ⟨?_, ?_, rfl, rfl, rfl, rfl⟩ (by simp)
    · simp [heff]
    · simp [heff, Effect.raised]

/-- **Acknowledgements of something else are harmless** just while the queue is not empty: in
every state a client can be in, `PahoAsyncClient::onDelivery` and
`CppMqttClient::onDeliveryComplete` read the front of the queue without asking whether there
is one. -/
theorem foreign_harmless_iff {kind : ClientKind} (hk : kind ≠ .pahoSync)
    (calls : List ClientCall) {token : ℤ} (h : (run step { kind } calls).Foreign token) :
    Harmless (run step { kind } calls)
        ((run step { kind } calls).step (.library (.onDelivery token))) ↔
      (run step { kind } calls).publishQueue ≠ [] := by
  have hkind : (run step ({ kind } : Client) calls).kind = kind := run_kind _ calls
  have hreg : registers kind (.onDelivery token) = true := by
    cases kind with
    | pahoSync => exact absurd rfl hk
    | pahoAsync | cppMqtt => rfl
  rw [step, callback, hkind, hreg, if_pos rfl]
  exact onDelivery_harmless_iff h

/-- A client with a request in flight. -/
def inFlight : List ClientCall :=
  [.configure {}, .execute, .library .onConnect, .activate,
    .request { id := 0, isBirth := true, publisher := .node, topic := [] }]

/-- The request in flight has token 1; an acknowledgement for 2 does nothing. -/
theorem otherToken_harmless : Harmless (run step { kind := .pahoAsync } inFlight)
    ((run step { kind := .pahoAsync } inFlight).step (.library (.onDelivery 2))) :=
  (foreign_harmless_iff (by decide) inFlight (by decide)).mpr (by decide)

/-- The connection is lost, and then the acknowledgement comes. -/
theorem late_not_harmless :
    (run step { kind := .pahoAsync } (inFlight ++ [.library .onDisconnect])).Foreign 1 ∧
      ¬Harmless (run step { kind := .pahoAsync } (inFlight ++ [.library .onDisconnect]))
        ((run step { kind := .pahoAsync } (inFlight ++ [.library .onDisconnect])).step
          (.library (.onDelivery 1))) :=
  ⟨by decide, fun h => h.present (by decide)⟩

end Sparkplug.Client
