import Mathlib.Data.List.Basic

/-!
One queue with many senders.

What a sender has sent is what was received from it and what is still under way, in the
order in which it was sent. Behind a sender there may be a stage of its own: what it was
asked for and has not sent yet.
-/

namespace Sparkplug.Channels

variable {ι α β : Type*}

/-! ### Sums over senders -/

/-- The sum of `f` over the senders. -/
def total (f : ι → ℕ) : List ι → ℕ
  | [] => 0
  | i :: is => f i + total f is

section Total

variable {f g : ι → ℕ} {is : List ι}

lemma total_congr (h : ∀ i ∈ is, f i = g i) : total f is = total g is := by
  induction is with
  | nil => rfl
  | cons i is ih =>
    rw [List.forall_mem_cons] at h
    rw [total, total, h.1, ih h.2]

lemma total_add (f g : ι → ℕ) (is : List ι) :
    total (fun i => f i + g i) is = total f is + total g is := by
  induction is with
  | nil => rfl
  | cons i is ih =>
    rw [total, ih, total, total]
    omega

lemma total_append (f : ι → ℕ) (is js : List ι) :
    total f (is ++ js) = total f is + total f js := by
  induction is with
  | nil => simp [total]
  | cons i is ih => rw [List.cons_append, total, ih, total, Nat.add_assoc]

/-- What changes with one sender changes the sum. -/
lemma total_change {i : ι} (hnodup : is.Nodup) (hi : i ∈ is) (h : ∀ j ≠ i, g j = f j) :
    total g is + f i = total f is + g i := by
  induction is with
  | nil => cases hi
  | cons j is ih =>
    rw [List.nodup_cons] at hnodup
    rw [total, total]
    rcases List.mem_cons.mp hi with rfl | hi
    · -- the other senders are as before
      rw [total_congr fun j hj => h j fun hji => hnodup.1 (hji ▸ hj)]
      omega
    · have hj : j ≠ i := fun hji => hnodup.1 (hji ▸ hi)
      have hrest := ih hnodup.2 hi
      rw [h j hj]
      omega

end Total

/-! ### Senders -/

variable [DecidableEq ι]

/-- What comes from the sender `i`, in order. -/
def ofSender (i : ι) (l : List (ι × α)) : List α :=
  (l.filter fun x => x.1 = i).map (·.2)

section OfSender

variable (i j : ι) (x : ι × α) (l m : List (ι × α)) (as : List α)

@[simp] lemma ofSender_nil : ofSender i ([] : List (ι × α)) = [] := rfl

@[simp] lemma ofSender_append : ofSender i (l ++ m) = ofSender i l ++ ofSender i m := by
  simp [ofSender]

lemma ofSender_cons :
    ofSender i (x :: l) = if x.1 = i then x.2 :: ofSender i l else ofSender i l := by
  by_cases h : x.1 = i <;> simp [ofSender, h]

/-- One sender sends several times. -/
lemma ofSender_map : ofSender j (as.map fun a => (i, a)) = if j = i then as else [] := by
  induction as with
  | nil => simp
  | cons a as ih =>
    rw [List.map_cons, ofSender_cons, ih]
    by_cases h : j = i
    · simp [h]
    · simp [h, Ne.symm h]

end OfSender

/-- What each sender has sent has been received or is under way, in order. -/
structure Delivers (sent : ι → List α) (received pending : List (ι × α)) : Prop where
  sent_eq : ∀ i, sent i = ofSender i received ++ ofSender i pending

section Delivers

variable {sent : ι → List α} {received pending : List (ι × α)}

lemma delivers_nil : Delivers (fun _ : ι => ([] : List α)) [] [] := ⟨fun _ => rfl⟩

/-- A sender sends to the end of the queue. -/
lemma Delivers.send (h : Delivers sent received pending) (i : ι) (as : List α) :
    Delivers (fun j => if j = i then sent i ++ as else sent j) received
      (pending ++ as.map fun a => (i, a)) := by
  refine ⟨fun j => ?_⟩
  rw [ofSender_append, ofSender_map, ← List.append_assoc, ← h.sent_eq]
  by_cases hj : j = i <;> simp [hj]

/-- The front of the queue is received. -/
lemma Delivers.receive {x : ι × α} {rest : List (ι × α)}
    (h : Delivers sent received (x :: rest)) : Delivers sent (received ++ [x]) rest := by
  refine ⟨fun i => ?_⟩
  rw [h.sent_eq, ← List.singleton_append, ofSender_append, ofSender_append, List.append_assoc]

/-- **Two stages in a row**: what a sender was asked for has been received, is under way, or
waits to be sent. -/
theorem Delivers.pipeline (h : Delivers sent received pending) (f : α → Option β) {i : ι}
    {asked waiting : List β} (hi : asked = (sent i).filterMap f ++ waiting) :
    asked = (ofSender i received).filterMap f ++ (ofSender i pending).filterMap f ++ waiting := by
  rw [hi, h.sent_eq, List.filterMap_append]

end Delivers

/-! ### Counting -/

/-- What is counted sender by sender is all there is. -/
lemma total_countP_ofSender (P : α → Bool) {is : List ι} (hnodup : is.Nodup)
    {l : List (ι × α)} (hl : ∀ x ∈ l, x.1 ∈ is) :
    total (fun i => (ofSender i l).countP P) is = l.countP fun x => P x.2 := by
  induction l with
  | nil =>
    clear hnodup hl
    induction is with
    | nil => rfl
    | cons i is ih => rw [total, ih]; rfl
  | cons x l ih =>
    rw [List.forall_mem_cons] at hl
    have hother : ∀ j ≠ x.1, (ofSender j (x :: l)).countP P = (ofSender j l).countP P := by
      intro j hj
      rw [ofSender_cons, if_neg (Ne.symm hj)]
    have hself : (ofSender x.1 (x :: l)).countP P =
        (ofSender x.1 l).countP P + if P x.2 then 1 else 0 := by
      rw [ofSender_cons, if_pos rfl, List.countP_cons]
    have hchange := total_change hnodup hl.1 hother
    rw [List.countP_cons, ← ih hl.2]
    omega

end Sparkplug.Channels
