import Sparkplug.NodeSteps
import Sparkplug.Subscription
import Sparkplug.Outstanding

/-!
The clients of a node.

Whatever the node, the application and the libraries do, what is done to one client is a
run of that client. So what was said about the runs of a client holds for each client of a
node, in every run of the node.
-/

namespace Sparkplug.Node

open Machine Client

variable (s : NodeSetup) (calls : List NodeCall) (i : ClientId)

/-- Everything done to client `i` in a run of a new node. -/
def clientRun : Traced Client.step := (run step (create s) calls).client i

lemma clientRun_init : (clientRun s calls i).init = { kind := s.kind i } :=
  client_init (create s) calls i

/-! ### No requests without being primary -/

/-- **Clients that are not primary hold no requests**, and the requests they drop are
reported, exactly in those runs whose operations empty the queue where they have to. -/
theorem dumped_iff_emptiesQueue :
    Along Client.step Dumped (clientRun s calls i).init (clientRun s calls i).hist ∧
      Each Client.step ReportsDumped (clientRun s calls i).init (clientRun s calls i).hist ↔
    Each Client.step EmptiesQueue (clientRun s calls i).init (clientRun s calls i).hist := by
  rw [clientRun_init]
  exact along_dumped_iff (fun _ => rfl) _

/-- An asynchronous client connects, is activated and gets the first birth, and the node is
stopped before the delivery. -/
def stoppedEarly : List NodeCall :=
  [.addClient, .enable, .executeClient 0, .library 0 .onConnect, .processEvent,
    .library 0 .onCommandSubscription, .processEvent, .stopClient 0]

/-- The birth is still in the queue, and nobody has been told. -/
theorem stoppedEarly_not_dumped :
    ¬Along Client.step Dumped (clientRun (.plain .pahoAsync) stoppedEarly 0).init
      (clientRun (.plain .pahoAsync) stoppedEarly 0).hist := by
  intro h
  have hlast := h.last
  rw [Traced.replay] at hlast
  exact absurd (hlast (by decide)) (by decide)

/-! ### Subscriptions -/

/-- `activate` on a primary client returns at once, and there is a subscription. -/
def SkipsNothing (c : Client) (a : ClientCall) : Prop :=
  a = .activate → c.isPrimary = true → c.activate = (0, c) ∧ c.commands = some true

/-- **Primary clients are subscribed** exactly in those runs whose operations leave them
so. -/
theorem subscribed_iff_keepsSubscription :
    Along Client.step Subscribed (clientRun s calls i).init (clientRun s calls i).hist ∧
      Each Client.step SkipsNothing (clientRun s calls i).init (clientRun s calls i).hist ↔
    Each Client.step KeepsSubscription (clientRun s calls i).init (clientRun s calls i).hist := by
  rw [clientRun_init]
  have h0 : Subscribed { kind := s.kind i } := subscribed_of_notPrimary rfl
  rw [← along_subscribed_iff h0]
  refine ⟨fun h => h.1, fun h => ⟨h, h.each.mono fun c a hc _ hp => ⟨?_, (hc hp).2⟩⟩⟩
  simp [Client.activate, hp]

/-- A client of the synchronous class connects, and its broker refuses the subscription. -/
def refusedSubscription : List NodeCall :=
  [.addClient, .enable, .executeClient 0,
    .library 0 (.answers { code := .const 1 }), .processEvent]

/-- The client is primary all the same. -/
theorem refusedSubscription_not_subscribed :
    ¬Along Client.step Subscribed (clientRun (.plain .pahoSync) refusedSubscription 0).init
      (clientRun (.plain .pahoSync) refusedSubscription 0).hist := by
  intro h
  have hlast := h.last
  rw [Traced.replay] at hlast
  exact absurd (hlast (by decide)).2 (by decide)

/-! ### Outstanding callbacks -/

/-- **The queue of an asynchronous client keeps flowing** in every run none of whose
operations stalls. -/
theorem flowing_of_keepsFlowing (hk : s.kind i ≠ .pahoSync)
    (h : Each Client.step KeepsFlowing (clientRun s calls i).init (clientRun s calls i).hist) :
    Along Client.step Flowing (clientRun s calls i).init (clientRun s calls i).hist := by
  rw [clientRun_init] at h ⊢
  exact (along_flowing hk (flowing_of_nil rfl) _ h).mono fun _ hc => hc.2

/-- An asynchronous client connects, is activated, gets a birth and a rebirth, and the
library reports both as delivered. -/
def deliveredTwice : List NodeCall :=
  [.addClient, .enable, .executeClient 0, .library 0 .onConnect, .processEvent,
    .library 0 .onCommandSubscription, .processEvent, .requestPublish .node true,
    .library 0 (.onDelivery 1), .library 0 (.onDelivery 1)]

theorem deliveredTwice_flowing :
    Along Client.step Flowing (clientRun (.plain .pahoAsync) deliveredTwice 0).init
      (clientRun (.plain .pahoAsync) deliveredTwice 0).hist :=
  flowing_of_keepsFlowing (.plain .pahoAsync) deliveredTwice 0 (by decide) (by decide)

/-- An asynchronous client connects and is activated, and the library refuses the birth. -/
def refusedBirth : List NodeCall :=
  [.addClient, .enable, .executeClient 0, .library 0 .onConnect, .processEvent,
    .library 0 .onCommandSubscription, .library 0 (.answers { send := .const ⟨-1, 0⟩ }),
    .processEvent]

/-- The birth stays at the front of the queue, and nothing will ever happen to it. -/
theorem refusedBirth_not_flowing :
    ¬Along Client.step Flowing (clientRun (.plain .pahoAsync) refusedBirth 0).init
      (clientRun (.plain .pahoAsync) refusedBirth 0).hist := by
  intro h
  have hlast := h.last
  rw [Traced.replay] at hlast
  exact absurd hlast (by decide)

end Sparkplug.Node
