import Mathlib.Data.List.Basic

/-!
JSON texts.

The tokens are read by functions, each as long as it can be; white space is passed over
before a token. What a text is, is then a relation with one rule for each form of a value,
and since the first character of a token tells the forms apart a text is one value at most.
-/

namespace Sparkplug.Json

abbrev Text := List Char

/-- A value. The names and strings are in UTF-16, as the escapes are, and nothing is kept of
a number. -/
inductive Value
  | null
  | bool (b : Bool)
  | number
  | string (units : List ℕ)
  | array (elements : List Value)
  | object (members : List (List ℕ × Value))

/-! ### Tokens -/

def isSpace (c : Char) : Bool := c ∈ [' ', '\t', '\n', '\r']

/-- The text from the next token on. -/
def skip (t : Text) : Text := t.dropWhile isSpace

/-- The code units of a character. -/
def units (c : Char) : List ℕ :=
  if c.toNat < 0x10000 then [c.toNat]
  else [0xD800 + (c.toNat - 0x10000) / 0x400, 0xDC00 + (c.toNat - 0x10000) % 0x400]

def hexDigit (c : Char) : Option ℕ :=
  if c.isDigit then some (c.toNat - 48)
  else if 'a' ≤ c ∧ c ≤ 'f' then some (c.toNat - 87)
  else if 'A' ≤ c ∧ c ≤ 'F' then some (c.toNat - 55)
  else none

/-- The escapes other than `\u`. -/
def escape : Char → Option ℕ
  | '"' => some 0x22
  | '\\' => some 0x5C
  | '/' => some 0x2F
  | 'b' => some 0x08
  | 'f' => some 0x0C
  | 'n' => some 0x0A
  | 'r' => some 0x0D
  | 't' => some 0x09
  | _ => none

/-- A string, after its first quote, and what follows its last one. -/
def readString : Text → Option (List ℕ × Text)
  | [] => none
  | '"' :: r => some ([], r)
  | '\\' :: 'u' :: a :: b :: c :: d :: s => do
    let a ← hexDigit a
    let b ← hexDigit b
    let c ← hexDigit c
    let d ← hexDigit d
    let (us, r) ← readString s
    return ((((a * 16 + b) * 16 + c) * 16 + d) :: us, r)
  | '\\' :: e :: s => do
    let u ← escape e
    let (us, r) ← readString s
    return (u :: us, r)
  | c :: s => do
    if c.toNat < 0x20 then none
    else
      let (us, r) ← readString s
      return (units c ++ us, r)

def readDigits (t : Text) : Option Text :=
  if t.takeWhile Char.isDigit = [] then none else some (t.dropWhile Char.isDigit)

/-- No number begins with a zero and another digit. -/
def readInteger : Text → Option Text
  | '-' :: '0' :: t | '0' :: t => some t
  | '-' :: t => readDigits t
  | t => readDigits t

def readFraction : Text → Option Text
  | '.' :: t => readDigits t
  | t => some t

def readExponent : Text → Option Text
  | 'e' :: '+' :: t | 'e' :: '-' :: t | 'E' :: '+' :: t | 'E' :: '-' :: t => readDigits t
  | 'e' :: t | 'E' :: t => readDigits t
  | t => some t

/-- What follows a number. -/
def readNumber (t : Text) : Option Text := do
  let t ← readInteger t
  let t ← readFraction t
  readExponent t

def startsNumber (c : Char) : Bool := c = '-' || c.isDigit

/-! ### Values -/

/-- What is read: a value, or what is left of an array or an object, its end included. -/
inductive Form
  | value
  | elements
  | members

/-- From the text on the left a value of this form is read, and the one on the right is
left. -/
inductive Reads : Form → Text → Value → Text → Prop
  | null {t r : Text} (h : skip t = 'n' :: 'u' :: 'l' :: 'l' :: r) : Reads .value t .null r
  | true {t r : Text} (h : skip t = 't' :: 'r' :: 'u' :: 'e' :: r) :
    Reads .value t (.bool .true) r
  | false {t r : Text} (h : skip t = 'f' :: 'a' :: 'l' :: 's' :: 'e' :: r) :
    Reads .value t (.bool .false) r
  | number {t s r : Text} {c : Char} (h : skip t = c :: s) (hc : startsNumber c = .true)
    (hr : readNumber (c :: s) = some r) : Reads .value t .number r
  | string {t s r : Text} {us : List ℕ} (h : skip t = '"' :: s)
    (hs : readString s = some (us, r)) : Reads .value t (.string us) r
  | noElements {t s r : Text} (h : skip t = '[' :: s) (hs : skip s = ']' :: r) :
    Reads .value t (.array []) r
  | array {t s r : Text} {vs : List Value} (h : skip t = '[' :: s)
    (hs : Reads .elements s (.array vs) r) : Reads .value t (.array vs) r
  | lastElement {t s r : Text} {v : Value} (h : Reads .value t v s) (hs : skip s = ']' :: r) :
    Reads .elements t (.array [v]) r
  | element {t s s' r : Text} {v : Value} {vs : List Value} (h : Reads .value t v s)
    (hs : skip s = ',' :: s') (hr : Reads .elements s' (.array vs) r) :
    Reads .elements t (.array (v :: vs)) r
  | noMembers {t s r : Text} (h : skip t = '\x7b' :: s) (hs : skip s = '\x7d' :: r) :
    Reads .value t (.object []) r
  | object {t s r : Text} {ms : List (List ℕ × Value)} (h : skip t = '\x7b' :: s)
    (hs : Reads .members s (.object ms) r) : Reads .value t (.object ms) r
  | lastMember {t k s s' u r : Text} {us : List ℕ} {v : Value} (h : skip t = '"' :: k)
    (hk : readString k = some (us, s)) (hs : skip s = ':' :: s') (hv : Reads .value s' v u)
    (hu : skip u = '\x7d' :: r) : Reads .members t (.object [(us, v)]) r
  | member {t k s s' u u' r : Text} {us : List ℕ} {v : Value} {ms : List (List ℕ × Value)}
    (h : skip t = '"' :: k) (hk : readString k = some (us, s)) (hs : skip s = ':' :: s')
    (hv : Reads .value s' v u) (hu : skip u = ',' :: u') (hr : Reads .members u' (.object ms) r) :
    Reads .members t (.object ((us, v) :: ms)) r

/-- No value begins with the end of an array or object. -/
lemma Reads.first {f : Form} {t r : Text} {v : Value} (h : Reads f t v r) :
    (skip t).head? ≠ some ']' ∧ (skip t).head? ≠ some '\x7d' := by
  induction h with
  | number h hc _ =>
    rw [h]
    refine ⟨?_, ?_⟩ <;> rintro h <;> cases h <;> cases hc
  | lastElement _ _ ih => exact ih
  | element _ _ _ ih => exact ih
  | _ => simp_all

/-- The name of a member is read in one way, and so is its colon. -/
lemma name_unique {t k k' s s' q q' : Text} {us us' : List ℕ} (h : skip t = '"' :: k)
    (hk : readString k = some (us, s)) (hs : skip s = ':' :: q) (h' : skip t = '"' :: k')
    (hk' : readString k' = some (us', s')) (hs' : skip s' = ':' :: q') : us = us' ∧ q = q' := by
  obtain rfl := (List.cons.inj (h.symm.trans h')).2
  obtain ⟨rfl, rfl⟩ := Prod.mk.inj (Option.some.inj (hk.symm.trans hk'))
  exact ⟨rfl, (List.cons.inj (hs.symm.trans hs')).2⟩

/-- **A text is one value at most.** -/
theorem Reads.unique {f : Form} {t r r' : Text} {v v' : Value} (h : Reads f t v r)
    (h' : Reads f t v' r') : v = v' ∧ r = r' := by
  induction h generalizing v' r' with
  | null h | true h | false h | string h hs => cases h' <;> simp_all +decide
  | number h hc hr =>
    cases h' with
    | number h' hc' hr' => simp_all
    | null h' | true h' | false h' | string h' | noElements h' | array h' | noMembers h'
    | object h' =>
      obtain ⟨rfl, -⟩ := List.cons.inj (h.symm.trans h')
      exact absurd hc (by decide)
  | noElements h hs =>
    cases h' with
    | array h' hs' => exact absurd (by simp_all) hs'.first.1
    | _ => simp_all +decide
  | array h hs ih =>
    cases h' with
    | noElements h' hs' => exact absurd (by simp_all) hs.first.1
    | array h' hs' =>
      obtain rfl := (List.cons.inj (h.symm.trans h')).2
      exact ih hs'
    | _ => simp_all +decide
  | lastElement h hs ih =>
    cases h' with
    | lastElement h' hs' | element h' hs' =>
      obtain ⟨rfl, rfl⟩ := ih h'
      simp_all
  | element h hs hr ih ihr =>
    cases h' with
    | lastElement h' hs' =>
      obtain ⟨rfl, rfl⟩ := ih h'
      simp_all
    | element h' hs' hr' =>
      obtain ⟨rfl, rfl⟩ := ih h'
      obtain rfl := (List.cons.inj (hs.symm.trans hs')).2
      obtain ⟨hv, rfl⟩ := ihr hr'
      simp_all
  | noMembers h hs =>
    cases h' with
    | object h' hs' => exact absurd (by simp_all) hs'.first.2
    | _ => simp_all +decide
  | object h hs ih =>
    cases h' with
    | noMembers h' hs' => exact absurd (by simp_all) hs.first.2
    | object h' hs' =>
      obtain rfl := (List.cons.inj (h.symm.trans h')).2
      exact ih hs'
    | _ => simp_all +decide
  | lastMember h hk hs hv hu ih =>
    cases h' with
    | lastMember h' hk' hs' hv' hu' | member h' hk' hs' hv' hu' =>
      obtain ⟨rfl, rfl⟩ := name_unique h hk hs h' hk' hs'
      obtain ⟨rfl, rfl⟩ := ih hv'
      simp_all
  | member h hk hs hv hu hr ih ihr =>
    cases h' with
    | lastMember h' hk' hs' hv' hu' =>
      obtain ⟨rfl, rfl⟩ := name_unique h hk hs h' hk' hs'
      obtain ⟨rfl, rfl⟩ := ih hv'
      simp_all
    | member h' hk' hs' hv' hu' hr' =>
      obtain ⟨rfl, rfl⟩ := name_unique h hk hs h' hk' hs'
      obtain ⟨rfl, rfl⟩ := ih hv'
      obtain rfl := (List.cons.inj (hu.symm.trans hu')).2
      obtain ⟨hv, rfl⟩ := ihr hr'
      simp_all

end Sparkplug.Json
