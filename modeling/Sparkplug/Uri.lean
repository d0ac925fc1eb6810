import Sparkplug.ClientState
import Sparkplug.Substrings
import Mathlib.Data.List.TakeWhile

/-!
Addresses of brokers: how they are read and written, and what the three classes of clients
hand to their libraries.
-/

namespace Sparkplug

open Substrings

/-! ### Numbers in strings -/

def intMin : ℤ := -2147483648
def intMax : ℤ := 2147483647

/-- The white space that `stoi` passes over. -/
def isSpace (c : Char) : Bool := c ∈ [' ', '\t', '\n', '\x0b', '\x0c', '\r']

/-- An optional sign. -/
def readSign : Str → Bool × Str
  | '-' :: s => (true, s)
  | '+' :: s => (false, s)
  | s => (false, s)

/-- A number that is an `int`. -/
def toInt (n : ℤ) : Option ℤ := if intMin ≤ n ∧ n ≤ intMax then some n else none

/-- `std::stoi`: the number a string begins with. It throws when there is none and when it is
no `int`. -/
def stoi (s : Str) : Option ℤ :=
  let (negative, s) := readSign (s.dropWhile isSpace)
  let digits := s.takeWhile Char.isDigit
  if digits = [] then none
  else
    let n : ℤ := Nat.ofDigitChars 10 digits 0
    toInt (if negative then -n else n)

/-- `std::to_string` of a number that is not negative. -/
def toStr (n : ℕ) : Str := Nat.toDigits 10 n

/-- A numeral: digits, with any number of zeros before them. -/
structure Numeral (d : Str) (n : ℕ) : Prop where
  ne_nil : d ≠ []
  digits : ∀ c ∈ d, c.isDigit = true
  value : Nat.ofDigitChars 10 d 0 = n

lemma numeral_toStr (n : ℕ) : Numeral (toStr n) n where
  ne_nil := Nat.toDigits_ne_nil
  digits _ hc := Nat.isDigit_of_mem_toDigits (by decide) (by decide) hc
  value := Nat.ofDigitChars_ten_toDigits

/-- What is no digit is not in a numeral. -/
lemma Numeral.not_mem {d : Str} {n : ℕ} (h : Numeral d n) {c : Char} (hc : c.isDigit = false) :
    c ∉ d := by
  intro hmem
  rw [h.digits c hmem] at hc
  cases hc

lemma stoi_numeral {d : Str} {n : ℕ} (h : Numeral d n) (hn : (n : ℤ) ≤ intMax) :
    stoi d = some (n : ℤ) := by
  obtain ⟨c, d', rfl⟩ := List.exists_cons_of_ne_nil h.ne_nil
  have hc : c.isDigit = true := h.digits c List.mem_cons_self
  have hspace : isSpace c = false := by
    rw [isSpace, decide_eq_false_iff_not]
    intro hmem
    simp only [List.mem_cons, List.not_mem_nil, or_false] at hmem
    rcases hmem with rfl | rfl | rfl | rfl | rfl | rfl <;> exact absurd hc (by decide)
  have hdrop : (c :: d').dropWhile isSpace = c :: d' := by
    rw [List.dropWhile_cons, hspace]
    rfl
  have hsign : readSign (c :: d') = (false, c :: d') := by
    unfold readSign
    split
    · exact absurd hc (by simp_all)
    · exact absurd hc (by simp_all)
    · rfl
  have htake : (c :: d').takeWhile Char.isDigit = c :: d' :=
    List.takeWhile_eq_self_iff.mpr h.digits
  have hint : toInt n = some (n : ℤ) := if_pos ⟨by unfold intMin; omega, hn⟩
  simp only [stoi, hdrop, hsign, htake, h.value]
  simpa using hint

lemma toInt_le {m n : ℤ} (h : toInt m = some n) : n ≤ intMax := by
  unfold toInt at h
  split at h
  · next hm =>
    obtain rfl := Option.some.inj h
    exact hm.2
  · cases h

lemma stoi_le {s : Str} {n : ℤ} (h : stoi s = some n) : n ≤ intMax := by
  simp only [stoi] at h
  split at h
  · cases h
  · exact toInt_le h

/-! ### Addresses -/

structure Uri where
  protocol : Str := []
  address : Str := []
  port : ℤ := -1
  deriving DecidableEq

namespace Uri

def protocolIdentifier : Str := "://".toList
def portSeparator : Str := ":".toList

/-- `init` on the part of `uri` from `addressStart` on. -/
def initAddress (u : Uri) (uri : Str) (addressStart : ℕ) : Option Uri :=
  match find uri portSeparator addressStart with
  | none => some { u with address := uri.drop addressStart, port := -1 }
  | some k =>
    let portStart := k + portSeparator.length
    (stoi (uri.drop portStart)).map fun port =>
      { u with address := substr uri addressStart (portStart - addressStart - 1), port := port }

/-- `init`, and with it the constructor from a string. It throws when `stoi` does. -/
def init (uri : Str) : Option Uri :=
  match find uri protocolIdentifier 0 with
  | none => ({} : Uri).initAddress uri 0
  | some k =>
    let addressStart := k + protocolIdentifier.length
    ({ protocol := substr uri 0 addressStart } : Uri).initAddress uri addressStart

def toString (u : Uri) : Str :=
  if 0 < u.port then u.protocol ++ u.address ++ portSeparator ++ toStr u.port.toNat
  else u.protocol ++ u.address

/-! ### Reading what was written -/

/-- Nothing, or what ends in the first protocol identifier in it. -/
def IsProtocol (p : Str) : Prop :=
  p = [] ∨ ∃ k, find p protocolIdentifier 0 = some k ∧ k + protocolIdentifier.length = p.length

/-- The parts of an address: none of them is taken for another one. -/
structure WellFormed (u : Uri) : Prop where
  protocol : IsProtocol u.protocol
  address : ':' ∉ u.address
  port : u.port = -1 ∨ 1 ≤ u.port ∧ u.port ≤ intMax

/-- Without a `:` there is no protocol identifier, nor with one that is followed by digits. -/
lemma find_protocolIdentifier_none {a d : Str} (ha : ':' ∉ a) (hd : ∀ c ∈ d, c.isDigit = true) :
    find a protocolIdentifier 0 = none ∧
      find (a ++ ':' :: d) protocolIdentifier 0 = none := by
  have hstep : ∀ s : Str, ':' ∉ s → ∀ j, ¬protocolIdentifier <+: s.drop j := by
    intro s hs j h
    exact hs (List.mem_of_mem_drop (h.subset (by decide)))
  refine ⟨find_eq_none_iff.mpr fun j _ _ => hstep a ha j, find_eq_none_iff.mpr fun j _ hj h => ?_⟩
  have hdc : ':' ∉ d := fun hmem => absurd (hd _ hmem) (by decide)
  rcases Nat.lt_trichotomy j a.length with hlt | rfl | hgt
  · -- an occurrence within `a` begins with a `:`
    have hhead : ((a ++ ':' :: d).drop j).head? = some ':' := by
      obtain ⟨t, ht⟩ := h
      rw [← ht]
      rfl
    rw [List.head?_drop, List.getElem?_append_left hlt] at hhead
    exact ha (List.mem_of_getElem? hhead)
  · -- the `:` before the port is followed by no `/`
    rw [List.drop_left] at h
    have hslash : '/' ∈ ':' :: d := h.subset (by decide)
    rcases List.mem_cons.mp hslash with h | h
    · exact absurd h (by decide)
    · exact absurd (hd _ h) (by decide)
  · refine hstep d hdc (j - (a.length + 1)) ?_
    have hdrop : (a ++ ':' :: d).drop j = d.drop (j - (a.length + 1)) := by
      rw [List.drop_append, List.drop_eq_nil_of_le (by omega), List.nil_append,
        show j - a.length = j - (a.length + 1) + 1 by omega, List.drop_succ_cons]
    rwa [hdrop] at h

lemma init_append {p rest : Str} (hp : IsProtocol p)
    (hrest : find rest protocolIdentifier 0 = none) :
    init (p ++ rest) = ({ protocol := p } : Uri).initAddress (p ++ rest) p.length := by
  rcases hp with rfl | ⟨k, hk, hlen⟩
  · simp only [init, List.nil_append, hrest, List.length_nil]
  · have hfind := find_append (t := rest) hk hlen.le
    have hsub : substr (p ++ rest) 0 p.length = p := by simp [substr]
    simp only [init, hfind, hlen, hsub]

/-- An address without a port. -/
lemma init_address {p a : Str} (hp : IsProtocol p) (ha : ':' ∉ a) :
    init (p ++ a) = some { protocol := p, address := a } := by
  have hrest := (find_protocolIdentifier_none (d := []) ha (by simp)).1
  have hport : find (p ++ a) portSeparator p.length = none := find_singleton_none ha
  rw [init_append hp hrest, initAddress, hport]
  simp

/-- An address with a port, written with any numeral. -/
lemma init_port {p a d : Str} {n : ℕ} (hp : IsProtocol p) (ha : ':' ∉ a) (hd : Numeral d n)
    (hn : (n : ℤ) ≤ intMax) :
    init (p ++ a ++ portSeparator ++ d) = some { protocol := p, address := a, port := n } := by
  have hrest := (find_protocolIdentifier_none ha hd.digits).2
  have hport : find (p ++ (a ++ ':' :: d)) portSeparator p.length = some (p.length + a.length) := by
    rw [← List.append_assoc]
    exact find_singleton ha
  have hlist : p ++ a ++ portSeparator ++ d = p ++ (a ++ ':' :: d) := by
    simp [portSeparator]
  have hdrop : (p ++ (a ++ ':' :: d)).drop (p.length + a.length + portSeparator.length) = d := by
    rw [← hlist]
    exact List.drop_left' (by simp [Nat.add_assoc])
  have hsub : substr (p ++ (a ++ ':' :: d)) p.length
      (p.length + a.length + portSeparator.length - p.length - 1) = a := by
    rw [substr, List.drop_left]
    exact List.take_left' (by simp [portSeparator]; omega)
  rw [hlist, init_append hp hrest, initAddress, hport]
  simp only [hdrop, hsub, stoi_numeral hd hn, Option.map_some]

/-- What is written is read back. -/
lemma init_toString {u : Uri} (h : u.WellFormed) : init u.toString = some u := by
  obtain ⟨p, a, port⟩ := u
  obtain ⟨hp, ha, hport⟩ := h
  unfold toString
  dsimp only at hp ha hport ⊢
  split
  · next hpos =>
    have hcast : ((port.toNat : ℕ) : ℤ) = port := Int.toNat_of_nonneg (by omega)
    have := init_port hp ha (numeral_toStr port.toNat) (by rw [hcast]; omega)
    rwa [hcast] at this
  · next hpos =>
    obtain rfl : port = -1 := by omega
    exact init_address hp ha

/-- The parts that are read are the parts of an address, with the port an `int`. -/
lemma init_parts {s : Str} {u : Uri} (h : init s = some u) :
    IsProtocol u.protocol ∧ ':' ∉ u.address ∧ u.port ≤ intMax := by
  have haddr : ∀ (v : Uri) (start : ℕ), v.initAddress s start = some u →
      u.protocol = v.protocol ∧ ':' ∉ u.address ∧ u.port ≤ intMax := by
    intro v start hv
    unfold initAddress at hv
    split at hv
    · next hnone =>
      obtain rfl := Option.some.inj hv
      exact ⟨rfl, not_mem_drop hnone, (by decide : (-1 : ℤ) ≤ intMax)⟩
    · next k hsome =>
      obtain ⟨port, hport, rfl⟩ := Option.map_eq_some_iff.mp hv
      refine ⟨rfl, ?_, stoi_le hport⟩
      have hlen : k + portSeparator.length - start - 1 = k - start := by
        have : portSeparator.length = 1 := by decide
        omega
      dsimp only
      rw [hlen]
      exact not_mem_substr hsome
  unfold init at h
  split at h
  · obtain ⟨hp, ha, hport⟩ := haddr _ _ h
    exact ⟨hp ▸ .inl rfl, ha, hport⟩
  · next k hk =>
    obtain ⟨hp, ha, hport⟩ := haddr _ _ h
    have hsub : substr s 0 (k + protocolIdentifier.length) =
        s.take (k + protocolIdentifier.length) := by
      simp [substr]
    refine ⟨.inr ⟨k, ?_, ?_⟩, ha, hport⟩
    · rw [hp, hsub]
      exact find_take hk
    · rw [hp, hsub, List.length_take]
      have := find_le hk
      omega

/-- **Reading and writing are inverse**: the parts of an address are read back from what is
written, and what is written of an address that was read is read and written as it is. -/
theorem init_toString_inverse {u v : Uri} {s : Str} (hu : u.WellFormed) (hs : init s = some v) :
    init u.toString = some u ∧
      ∃ w, init v.toString = some w ∧ w.toString = v.toString := by
  refine ⟨init_toString hu, ?_⟩
  obtain ⟨hp, ha, hport⟩ := init_parts hs
  by_cases hpos : 0 < v.port
  · exact ⟨v, init_toString ⟨hp, ha, .inr ⟨hpos, hport⟩⟩, rfl⟩
  · -- a port that is not positive is not written
    have hv : v.toString = v.protocol ++ v.address := if_neg hpos
    exact ⟨_, hv ▸ init_address hp ha, hv.symm ▸ rfl⟩

/-- An address with a port, and one with a negative port. -/
theorem brokers_inverse :
    init (toString ⟨"tcp://".toList, "localhost".toList, 1883⟩) =
        some ⟨"tcp://".toList, "localhost".toList, 1883⟩ ∧
      ∃ w, init (toString ⟨[], "localhost".toList, -5⟩) = some w ∧
        w.toString = toString ⟨[], "localhost".toList, -5⟩ :=
  init_toString_inverse (s := "localhost:-5".toList)
    ⟨.inr ⟨3, by decide, by decide⟩, by decide, .inr ⟨by decide, by decide⟩⟩ (by decide)

end Uri

/-! ### What the libraries are given -/

/-- A broker as the MQTT libraries take it: as the string of a server URI, or as a host and a
port. -/
inductive Endpoint
  | serverUri (uri : Str)
  | hostPort (host : Str) (port : ℤ)
  deriving DecidableEq

/-- A library reads a C string up to its end. -/
def untilNul (s : Str) : Str := s.takeWhile (· ≠ '\x00')

/-- What `MQTTClient_create` and `MQTTAsync_create` are given in `configureClient`, and
`client.connect` in `clientConnect`. -/
def endpoint (address : Uri) : ClientKind → Endpoint
  | .pahoSync | .pahoAsync => .serverUri (untilNul address.address)
  | .cppMqtt => .hostPort (untilNul address.address) address.port

/-- The endpoint is this port of this host. A server URI is read as addresses are. -/
def Endpoint.Denotes (host : Str) (port : ℤ) : Endpoint → Prop
  | serverUri uri => ∃ u, Uri.init uri = some u ∧ u.address = host ∧ u.port = port
  | hostPort h p => h = host ∧ p = port

/-- The library connects to the given port of the given host, for the address `uri`. -/
def Connects (kind : ClientKind) (uri host : Str) (port : ℤ) : Prop :=
  ∃ u, Uri.init uri = some u ∧ (endpoint u kind).Denotes host port

lemma untilNul_eq_self_iff {s : Str} : untilNul s = s ↔ '\x00' ∉ s := by
  rw [untilNul, List.takeWhile_eq_self_iff]
  refine ⟨fun h hmem => by simpa using h _ hmem, fun h c hc => ?_⟩
  simp only [ne_eq, decide_not, Bool.not_eq_true', decide_eq_false_iff_not]
  rintro rfl
  exact h hc

/-- A host alone is read as an address without a port. -/
lemma init_host {host : Str} (hh : ':' ∉ host) :
    Uri.init (untilNul host) = some { address := untilNul host } := by
  have hc : ':' ∉ untilNul host := fun hmem => hh (List.takeWhile_subset _ hmem)
  simpa using Uri.init_address (.inl rfl) hc

/-- **The port gets lost** in the server URI of the Paho clients, whatever it is; the third
class of clients connects to every host that is a C string. -/
theorem connects_iff (kind : ClientKind) (scheme host digits : Str) (port : ℕ)
    (hs : Uri.IsProtocol (scheme ++ Uri.protocolIdentifier)) (hh : ':' ∉ host)
    (hd : Numeral digits port) (hport : 1 ≤ port ∧ port ≤ 65535) :
    Connects kind (scheme ++ Uri.protocolIdentifier ++ host ++ Uri.portSeparator ++ digits)
      host port ↔ kind = .cppMqtt ∧ '\x00' ∉ host := by
  have hmax : (port : ℤ) ≤ intMax := by
    unfold intMax
    omega
  rw [Connects, Uri.init_port hs hh hd hmax]
  cases kind with
  | pahoSync | pahoAsync =>
    refine iff_of_false ?_ (by simp)
    rintro ⟨u, hu, v, hv, -, hp⟩
    obtain rfl := Option.some.inj hu
    obtain rfl := Option.some.inj ((init_host hh).symm.trans hv)
    have : (-1 : ℤ) = port := hp
    omega
  | cppMqtt =>
    simp only [Option.some.injEq, exists_eq_left', endpoint, Endpoint.Denotes, and_true,
      untilNul_eq_self_iff, true_and]

def localBroker : Str := "tcp://localhost:1884".toList

/-- The third class connects to the broker. -/
theorem cppMqtt_connects : Connects .cppMqtt localBroker "localhost".toList 1884 :=
  (connects_iff .cppMqtt "tcp".toList "localhost".toList "1884".toList 1884
    (.inr ⟨3, by decide, by decide⟩) (by decide)
    ⟨by decide, List.all_eq_true.mp (by decide), by decide⟩
    ⟨by decide, by decide⟩).mpr ⟨rfl, by decide⟩

/-- The Paho clients are given the host alone. -/
theorem paho_not_connects : ¬Connects .pahoSync localBroker "localhost".toList 1884 := by
  rintro ⟨u, hu, v, hv, -, hp⟩
  obtain rfl := Option.some.inj ((by decide : Uri.init localBroker =
    some ⟨"tcp://".toList, "localhost".toList, 1884⟩).symm.trans hu)
  obtain rfl := Option.some.inj ((by decide : Uri.init "localhost".toList =
    some ⟨[], "localhost".toList, -1⟩).symm.trans hv)
  exact absurd hp (by decide)

end Sparkplug
