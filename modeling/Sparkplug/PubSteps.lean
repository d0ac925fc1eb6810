import Sparkplug.NodeSteps

/-!
What the actions of a node do to its publishables.

Publishing tells a publishable that it is being published, clients have it add to payloads, and
everything else an action tells a publishable can be read off the action and the front of the
event queue. What such calls keep holds after the action.
-/

namespace Sparkplug

open Machine

namespace Node

/-- What an action tells a publishable directly, other than by publishing. -/
def tells (n : Node) : NodeCall → List (PubId × PublishableCall)
  | .setValue p k value => [(p, .setValue k value n.time)]
  | .setProperty p k path value => [(p, .setProperty k path value)]
  | .poll p elapsed | .update p elapsed => [(p, .update elapsed)]
  | .processEvent =>
    ((n.eventQueue.head?.bind fun x => reportOf x.2).map fun p => (p, .published)).toList
  | _ => []

/-- Every publishable has the property. -/
def AllPubs (R : PubId → Traced Publishable.step → Prop) (n : Node) : Prop := ∀ q, R q (n.pub q)

/-- What holds of the publishables whatever calls there are among those allowed, which include
the ones made by publishing. -/
structure Lasts (C : PubId → PublishableCall → Prop)
    (R : PubId → Traced Publishable.step → Prop) : Prop where
  publishing : ∀ q, C q .publishing
  addToPayload : ∀ q b time, C q (.addToPayload b time)
  act : ∀ q t a, C q a → R q t → R q (t.act a)

section AllPubs

variable {C : PubId → PublishableCall → Prop} {R : PubId → Traced Publishable.step → Prop}
  {n : Node}

lemma callPub_allPubs (hR : Lasts C R) (h : AllPubs R n) (p : PubId) {a : PublishableCall}
    (ha : C p a) : AllPubs R (n.callPub p a) := by
  intro q
  rw [callPub_pub]
  split
  · next hq =>
    subst hq
    exact hR.act q _ a ha (h q)
  · exact h q

lemma callClient_allPubs (hR : Lasts C R) (h : AllPubs R n) (i : ClientId) (a : ClientCall) :
    AllPubs R (n.callClient i a) := by
  intro q
  rw [callClient_pub]
  have hall : ∀ b ∈ payloadCalls n.time q (n.clientEffects i a), C q b := by
    intro b hb
    obtain ⟨e, -, he⟩ := List.mem_filterMap.mp hb
    cases e <;> simp at he
    rw [← he.2]
    exact hR.addToPayload q _ _
  have hq := h q
  generalize payloadCalls n.time q (n.clientEffects i a) = as at hall
  generalize n.pub q = t at hq
  induction as generalizing t with
  | nil => exact hq
  | cons b as ih =>
    rw [List.forall_mem_cons] at hall
    exact ih hall.2 _ (hR.act q t b hall.1 hq)

lemma publish_allPubs (hR : Lasts C R) (h : AllPubs R n) (p : PubId) (b : Bool) :
    AllPubs R (n.publish p b) := by
  have hpublishing : AllPubs R (n.callPub p .publishing) :=
    callPub_allPubs hR h p (hR.publishing p)
  rcases publish_cases n p b with ⟨e, -⟩ | ⟨e, -⟩ | ⟨i, -, e⟩
  · rwa [e]
  · rw [e]
    exact hpublishing
  · rw [e, requested]
    refine callClient_allPubs hR (fun q => ?_) i _
    rw [prepared_pub]
    exact hpublishing q

lemma allPubs_handled (hR : Lasts C R) : HandleKept (AllPubs R) where
  publish _ p b h := publish_allPubs hR h p b
  deactivate _ i h := callClient_allPubs hR h i _
  activate _ i h := callClient_allPubs hR h i _
  hostStates _ _ h := h
  activeClient _ _ h := h
  fault _ h := h

lemma processEvent_allPubs (hR : Lasts C R) (h : AllPubs R n)
    (ha : ∀ x ∈ n.tells .processEvent, C x.1 x.2) : AllPubs R n.processEvent := by
  unfold processEvent
  split
  · exact h
  next i e rest hq =>
  have hpop : AllPubs R { n with eventQueue := rest } := h
  cases e with
  | delivered p | undelivered p =>
    exact callPub_allPubs hR hpop p (ha (p, .published) (by simp [tells, hq, reportOf]))
  | _ => exact handleEvent_kept (allPubs_handled hR) hpop i rfl

/-- **The rule for publishables**: what lasts is kept by an action that tells them nothing but
what is allowed. -/
theorem step_allPubs (hR : Lasts C R) (h : AllPubs R n) {a : NodeCall}
    (ha : ∀ x ∈ n.tells a, C x.1 x.2) : AllPubs R (n.step a) := by
  unfold step
  split
  · exact h
  cases a with
  | addClient | addDevice | setTime => exact h
  | enable =>
    have hc : AllPubs R (n.configureClients n.clients).2 :=
      configureClients_kept (P := AllPubs R) (fun _ i _ hm => callClient_allPubs hR hm i _) h
    simp only [handle, enable]
    repeat' split
    · exact h
    · exact h
    · exact hc
    · exact hc
  | processEvent => exact processEvent_allPubs hR h ha
  | poll p elapsed =>
    have hupdate := callPub_allPubs hR h p (ha _ List.mem_cons_self)
    simp only [handle, poll]
    repeat' split
    · exact publish_allPubs hR hupdate p false
    · exact hupdate
    · exact h
  | requestPublish p b =>
    simp only [handle, requestPublish]
    split
    · exact publish_allPubs hR h p b
    · exact h
  | update p elapsed => exact callPub_allPubs hR h p (ha _ List.mem_cons_self)
  | setValue p k value => exact callPub_allPubs hR h p (ha _ List.mem_cons_self)
  | setProperty p k path value => exact callPub_allPubs hR h p (ha _ List.mem_cons_self)
  | executeClient i | stopClient i | library i l =>
    simp only [handle]
    split
    · first
      | exact callClient_allPubs hR h i _
      | exact callClient_allPubs hR (callClient_allPubs hR h i _) i _
    · exact h

end AllPubs

end Node

end Sparkplug
