import Mathlib.Data.List.TakeWhile

/-!
Blocks of memory and the strings in them.

A pointer is null or the start of an allocated block, whose bytes are known. The functions
of the C library are there for the accesses that stay inside their blocks; any other access
has no result. A C string is what stands before the first zero of its block.
-/

namespace Sparkplug.Blocks

/-- A pointer to the start of a block, or a null pointer. -/
abbrev Pointer := Option (List UInt8)

/-- The first `n` bytes of a block. -/
def readBytes (p : Pointer) (n : ℕ) : Option (List UInt8) :=
  p.bind fun block => if n ≤ block.length then some (block.take n) else none

/-- `memcmp(..) != 0`. -/
def memcmp (p q : Pointer) (n : ℕ) : Option Bool := do
  let x ← readBytes p n
  let y ← readBytes q n
  return x != y

/-- `memcpy`: the block at `p` afterwards. -/
def memcpy (p q : Pointer) (n : ℕ) : Option Pointer := do
  let block ← p
  let x ← readBytes q n
  if n ≤ block.length then some (some (x ++ block.drop n)) else none

/-- The characters of a C string. -/
def cString (p : Pointer) : Option (List UInt8) :=
  p.bind fun block => if 0 ∈ block then some (block.takeWhile (· ≠ 0)) else none

/-- `strdup`: a new block, of the size of the string and its end. -/
def strdup (p : Pointer) : Option Pointer := (cString p).map fun s => some (s ++ [0])

/-- The block of a string of the C++ library, which its `c_str` points to. -/
def cStr (s : List UInt8) : Pointer := some (s ++ [0])

variable {s t : List UInt8}

@[simp] lemma readBytes_cStr : readBytes (cStr s) (s.length + 1) = some (s ++ [0]) := by
  have hlen : s.length + 1 = (s ++ [0]).length := by simp
  rw [readBytes, cStr, Option.bind_some, if_pos hlen.le, hlen, List.take_length]

lemma readBytes_self (block : List UInt8) : readBytes (some block) block.length = some block := by
  simp [readBytes]

lemma takeWhile_cStr (s : List UInt8) :
    (s ++ [0]).takeWhile (· ≠ 0) = s.takeWhile (· ≠ 0) := by
  rw [List.takeWhile_append]
  split
  · next h =>
    rw [(List.takeWhile_prefix _).eq_of_length h]
    simp
  · rfl

@[simp] lemma cString_cStr (s : List UInt8) :
    cString (cStr s) = some (s.takeWhile (· ≠ 0)) := by
  rw [cString, cStr, Option.bind_some, if_pos (by simp), takeWhile_cStr]

lemma takeWhile_eq_self_iff : s.takeWhile (· ≠ 0) = s ↔ 0 ∉ s := by
  rw [List.takeWhile_eq_self_iff]
  refine ⟨fun h hmem => by simpa using h 0 hmem, fun h b hb => ?_⟩
  simp only [ne_eq, decide_not, Bool.not_eq_true', decide_eq_false_iff_not]
  rintro rfl
  exact h hb

/-- A string without zeros is the C string of its block. -/
lemma cString_cStr_iff : cString (cStr s) = some s ↔ 0 ∉ s := by
  rw [cString_cStr, Option.some.injEq, takeWhile_eq_self_iff]

/-- A block is compared with one of its size. -/
lemma memcmp_block {a b : List UInt8} (h : a.length = b.length) :
    memcmp (some a) (some b) b.length = some (a != b) := by
  have ha : readBytes (some a) b.length = some a := h ▸ readBytes_self a
  simp [memcmp, ha, readBytes_self]

/-- A block is written over with one of its size. -/
lemma memcpy_block {a b : List UInt8} (h : a.length = b.length) :
    memcpy (some b) (some a) b.length = some (some a) := by
  have ha : readBytes (some a) b.length = some a := h ▸ readBytes_self a
  simp [memcpy, ha]

/-- Strings of one size are compared and copied with their ends. -/
lemma memcmp_cStr (h : s.length = t.length) :
    memcmp (cStr s) (cStr t) (s.length + 1) = some (s != t) := by
  have hne : (s ++ [0] != t ++ [0]) = (s != t) := by
    rw [Bool.eq_iff_iff, bne_iff_ne, bne_iff_ne, ne_eq, List.append_left_inj]
  have hlen : s.length + 1 = (t ++ [0]).length := by simp [h]
  rw [cStr, cStr, hlen, memcmp_block (by simp [h]), hne]

lemma memcpy_cStr {block : List UInt8} (h : s.length + 1 = block.length) :
    memcpy (some block) (cStr s) (s.length + 1) = some (cStr s) := by
  rw [cStr, h, memcpy_block (by simp [h])]

end Sparkplug.Blocks
