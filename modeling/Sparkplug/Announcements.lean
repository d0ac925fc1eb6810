import Mathlib.Data.Set.Insert
import Mathlib.Data.List.Basic
import Mathlib.Data.List.Induction

/-!
Streams in which names are announced before they are used.

A root entry begins an epoch, in which names are announced and used; the names of earlier
epochs are forgotten. What matters about the past of a stream is the set of names known, so
a stream is in order exactly when it can be read from the beginning with that set in hand.
-/

namespace Sparkplug.Announcements

inductive Entry (δ : Type*)
  | root
  | announce (d : δ)
  /-- The use of a name, or of the root itself. -/
  | use (d : Option δ)
  deriving DecidableEq

variable {δ : Type*}

/-- The name was announced, and no epoch has begun since. -/
def Announced (d : δ) (l : List (Entry δ)) : Prop :=
  ∃ k m, l = k ++ .announce d :: m ∧ .root ∉ m

/-- The first entry is a root, and every name used was announced in its epoch. -/
def InOrder (l : List (Entry δ)) : Prop :=
  (∀ e ∈ l.head?, e = .root) ∧ ∀ k d m, l = k ++ .use (some d) :: m → Announced d k

/-! ### Reading a stream -/

/-- The names known, once an epoch has begun. -/
abbrev Known (δ : Type*) := Option (Set δ)

namespace Known

def next : Known δ → Entry δ → Known δ
  | _, .root => some ∅
  | some K, .announce d => some (insert d K)
  | none, .announce _ => none
  | k, .use _ => k

def Allows : Known δ → Entry δ → Prop
  | _, .root => True
  | some _, .announce _ | some _, .use none => True
  | some K, .use (some d) => d ∈ K
  | none, _ => False

def after (k : Known δ) (l : List (Entry δ)) : Known δ := l.foldl next k

/-- The stream can be read from here on. -/
def Reads : Known δ → List (Entry δ) → Prop
  | _, [] => True
  | k, e :: l => k.Allows e ∧ (k.next e).Reads l

@[simp] lemma after_nil (k : Known δ) : k.after [] = k := rfl

@[simp] lemma after_cons (k : Known δ) (e : Entry δ) (l : List (Entry δ)) :
    k.after (e :: l) = (k.next e).after l := rfl

@[simp] lemma after_append (k : Known δ) (l m : List (Entry δ)) :
    k.after (l ++ m) = (k.after l).after m := List.foldl_append ..

lemma reads_append {k : Known δ} {l m : List (Entry δ)} :
    k.Reads (l ++ m) ↔ k.Reads l ∧ (k.after l).Reads m := by
  induction l generalizing k with
  | nil => simp [Reads]
  | cons e l ih => simp [Reads, ih, and_assoc]

/-- Reading an entry once more changes nothing. -/
lemma next_next (k : Known δ) (e : Entry δ) : (k.next e).next e = k.next e := by
  cases e with
  | root => rfl
  | announce d => cases k <;> simp [next]
  | use d => rfl

lemma next_allows {k : Known δ} {e : Entry δ} (h : k.Allows e) : (k.next e).Allows e := by
  cases e with
  | root => trivial
  | announce d => cases k <;> trivial
  | use d => exact h

/-- Leaving out a use changes nothing for the rest. -/
@[simp] lemma next_use (k : Known δ) (d : Option δ) : k.next (.use d) = k := by
  cases k <;> rfl

end Known

/-- What is known after a stream. -/
def known (l : List (Entry δ)) : Known δ := Known.after none l

lemma known_snoc (l : List (Entry δ)) (e : Entry δ) : known (l ++ [e]) = (known l).next e :=
  Known.after_append none l [e]

lemma known_isSome {l : List (Entry δ)} (h : .root ∈ l) : (known l).isSome := by
  induction l using List.reverseRecOn with
  | nil => cases h
  | append_singleton l e ih =>
    rw [known_snoc]
    rcases List.mem_append.mp h with h | h
    · obtain ⟨K, hK⟩ := Option.isSome_iff_exists.mp (ih h)
      rw [hK]
      cases e <;> rfl
    · rw [← List.mem_singleton.mp h]
      rfl

lemma announced_snoc {d : δ} {l : List (Entry δ)} {e : Entry δ} :
    Announced d (l ++ [e]) ↔ e = .announce d ∨ Announced d l ∧ e ≠ .root := by
  refine ⟨?_, ?_⟩
  · rintro ⟨k, m, h, hroot⟩
    rcases List.eq_nil_or_concat' m with rfl | ⟨m, x, rfl⟩
    · exact .inl (List.append_inj_right' h rfl |> List.singleton_inj.mp)
    · rw [← List.cons_append, ← List.append_assoc] at h
      obtain ⟨rfl, hx⟩ := List.append_inj' h rfl
      obtain rfl := List.singleton_inj.mp hx
      refine .inr ⟨⟨k, m, rfl, fun h => hroot (by simp [h])⟩, fun h => hroot (by simp [h])⟩
  · rintro (rfl | ⟨⟨k, m, rfl, hroot⟩, he⟩)
    · exact ⟨l, [], rfl, by simp⟩
    · exact ⟨k, m ++ [e], by simp, by simp [hroot, he.symm]⟩

/-- The names known are those announced. -/
lemma mem_known {l : List (Entry δ)} {K : Set δ} (h : known l = some K) (d : δ) :
    d ∈ K ↔ Announced d l := by
  induction l using List.reverseRecOn generalizing K with
  | nil => cases h
  | append_singleton l e ih =>
    rw [known_snoc] at h
    rw [announced_snoc]
    cases e with
    | root =>
      obtain rfl : ∅ = K := Option.some.inj h
      simp
    | announce x =>
      cases hl : known l with
      | none => simp [hl, Known.next] at h
      | some L =>
        obtain rfl : insert x L = K := by simpa [hl, Known.next] using h
        simp [ih hl, eq_comm]
    | use x =>
      rw [Known.next_use] at h
      simp [ih h]

lemma inOrder_nil : InOrder ([] : List (Entry δ)) := ⟨by simp, fun k d m h => by simp at h⟩

lemma uses_snoc {l : List (Entry δ)} {e : Entry δ} :
    (∀ k d m, l ++ [e] = k ++ .use (some d) :: m → Announced d k) ↔
      (∀ k d m, l = k ++ .use (some d) :: m → Announced d k) ∧
        ∀ d, e = .use (some d) → Announced d l := by
  refine ⟨?_, ?_⟩
  · intro h
    refine ⟨fun k d m hl => h k d (m ++ [e]) (by simp [hl]), ?_⟩
    rintro d rfl
    exact h l d [] rfl
  · rintro ⟨hl, he⟩ k d m h
    rcases List.eq_nil_or_concat' m with rfl | ⟨m, x, rfl⟩
    · obtain ⟨rfl, hx⟩ := List.append_inj' h rfl
      exact he d (List.singleton_inj.mp hx)
    · rw [← List.cons_append, ← List.append_assoc] at h
      exact hl k d m (List.append_inj' h rfl).1

/-- **What a stream in order can go on with.** -/
theorem inOrder_snoc {l : List (Entry δ)} {e : Entry δ} :
    InOrder (l ++ [e]) ↔ InOrder l ∧ (known l).Allows e := by
  rw [InOrder, uses_snoc, InOrder]
  cases l with
  | nil => cases e with
    | use d => cases d <;> simp [known, Known.Allows]
    | _ => simp [known, Known.Allows]
  | cons x l =>
    have hallows : x = .root → ((∀ d, e = .use (some d) → Announced d (x :: l)) ↔
        (known (x :: l)).Allows e) := by
      rintro rfl
      obtain ⟨K, hK⟩ := Option.isSome_iff_exists.mp (known_isSome (l := .root :: l) (by simp))
      rw [hK]
      cases e with
      | use d => cases d <;> simp [Known.Allows, mem_known hK]
      | _ => simp [Known.Allows]
    simp only [List.cons_append, List.head?_cons, Option.mem_some_iff, forall_eq']
    refine ⟨?_, ?_⟩
    · rintro ⟨hx, hl, he⟩
      exact ⟨⟨hx, hl⟩, (hallows hx).mp he⟩
    · rintro ⟨⟨hx, hl⟩, he⟩
      exact ⟨hx, hl, (hallows hx).mpr he⟩

/-- The last entry may be repeated, and nothing more is known. -/
lemma repeat_last {l : List (Entry δ)} {e : Entry δ} (h : InOrder l) (hl : l.getLast? = some e) :
    InOrder (l ++ [e]) ∧ known (l ++ [e]) = known l := by
  obtain ⟨l, rfl⟩ := List.getLast?_eq_some_iff.mp hl
  have hallows := (inOrder_snoc.mp h).2
  rw [inOrder_snoc, known_snoc (l ++ [e]), known_snoc l]
  exact ⟨⟨h, Known.next_allows hallows⟩, Known.next_next _ e⟩

end Sparkplug.Announcements
