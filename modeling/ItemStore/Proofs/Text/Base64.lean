import Mathlib.Data.Nat.Bitwise
import ItemStore.Text.Base64

/-!
# What is base64

A text is in base64 when its digits carry the bits of some bytes: six bits each, the first bit
first, and behind the last byte only as many zeros as its digit has room for.  Equals signs fill the
text up to a multiple of four characters.  `Spells` says so without a word about groups of bytes.

Bytes have one text (`Spells.unique`), which is what writing produces (`spells_encodeChars`), and
reading undoes writing (`decodeChars_encodeChars`, `encodeChars_of_decodeChars`).  So what reading
accepts is base64 and nothing else (`decode?_eq_some_iff`).
-/

namespace ItemStore

namespace Base64

/-! ## Bits -/

/-- The lowest bits of a number, the highest of them first. -/
def bits : (width : Nat) → Nat → List Bool
  | 0, _ => []
  | width + 1, n => n.testBit width :: bits width n

@[simp] theorem length_bits (width n : Nat) : (bits width n).length = width := by
  induction width with
  | zero => rfl
  | succ width ih => rw [bits, List.length_cons, ih]

theorem bits_zero (width : Nat) : bits width 0 = List.replicate width false := by
  induction width with
  | zero => rfl
  | succ width ih => rw [bits, ih, Nat.zero_testBit, List.replicate_succ]

/-- The upper bits and the lower ones. -/
theorem bits_add (k m n : Nat) : bits (k + m) n = bits k (n / 2 ^ m) ++ bits m n := by
  induction k with
  | zero => simp [bits]
  | succ k ih =>
    rw [Nat.succ_add, bits, bits, ih, Nat.testBit_div_two_pow, List.cons_append, Nat.add_comm]

theorem bits_congr {width m n : Nat} (h : ∀ i < width, m.testBit i = n.testBit i) :
    bits width m = bits width n := by
  induction width with
  | zero => rfl
  | succ width ih =>
    rw [bits, bits, h width (Nat.lt_succ_self _), ih fun i hi => h i (Nat.lt_succ_of_lt hi)]

/-- Higher bits do not matter. -/
theorem bits_mod (width n : Nat) : bits width (n % 2 ^ width) = bits width n := by
  refine bits_congr fun i hi => ?_
  simp [Nat.testBit_mod_two_pow, hi]

/-- The bits of a number that is taken apart. -/
theorem bits_split (k m n : Nat) :
    bits (k + m) n = bits k (n / 2 ^ m) ++ bits m (n % 2 ^ m) := by
  rw [bits_add, bits_mod]

/-- The bits of a number that is put together. -/
theorem bits_join {m n : Nat} (k x : Nat) (h : n < 2 ^ m) :
    bits (k + m) (x * 2 ^ m + n) = bits k x ++ bits m n := by
  have hupper : (x * 2 ^ m + n) / 2 ^ m = x := by
    rw [Nat.mul_comm, Nat.mul_add_div (Nat.two_pow_pos m), Nat.div_eq_of_lt h, Nat.add_zero]
  have hlower : (x * 2 ^ m + n) % 2 ^ m = n := by
    rw [Nat.mul_comm, Nat.mul_add_mod, Nat.mod_eq_of_lt h]
  rw [bits_add, hupper, ← bits_mod m (x * 2 ^ m + n), hlower]

theorem bits_shift (k m x : Nat) :
    bits (k + m) (x * 2 ^ m) = bits k x ++ List.replicate m false := by
  have hjoin := bits_join k x (Nat.two_pow_pos m)
  rwa [Nat.add_zero, bits_zero] at hjoin

theorem testBit_of_bits_eq {width m n : Nat} (h : bits width m = bits width n) :
    ∀ i < width, m.testBit i = n.testBit i := by
  induction width with
  | zero => simp
  | succ width ih =>
    obtain ⟨hfirst, hrest⟩ := List.cons.inj h
    intro i hi
    rcases Nat.lt_succ_iff_lt_or_eq.1 hi with hi | rfl
    · exact ih hrest i hi
    · exact hfirst

/-- A number is known by its bits. -/
theorem eq_of_bits_eq {width m n : Nat} (hm : m < 2 ^ width) (hn : n < 2 ^ width)
    (h : bits width m = bits width n) : m = n := by
  refine Nat.eq_of_testBit_eq fun i => ?_
  rcases Nat.lt_or_ge i width with hi | hi
  · exact testBit_of_bits_eq h i hi
  · have hpow : 2 ^ width ≤ 2 ^ i := Nat.pow_le_pow_right (by omega) hi
    rw [Nat.testBit_lt_two_pow (hm.trans_le hpow), Nat.testBit_lt_two_pow (hn.trans_le hpow)]

/-! ## Digits -/

/-- The digits, in the order of their values. -/
def alphabet : List Char :=
  "ABCDEFGHIJKLMNOPQRSTUVWXYZabcdefghijklmnopqrstuvwxyz0123456789+/".toList

/-- The digit of a value. -/
def symbol (n : Fin 64) : Char := alphabet.get ⟨n, n.isLt⟩

/-- The bits that digits carry. -/
def digitBits (digits : List (Fin 64)) : List Bool := digits.flatMap fun n => bits 6 n.val

/-- The bits of bytes. -/
def byteBits (bytes : List UInt8) : List Bool := bytes.flatMap fun b => bits 8 b.toNat

/-- A text is base64 for bytes. -/
structure Spells (text : List Char) (bytes : List UInt8) : Prop where
  /-- The text is digits and a filling, and the digits carry the bits of the bytes and then less
  zeros than another digit would carry. -/
  carries : ∃ (digits : List (Fin 64)) (zeros filling : Nat), zeros < 6 ∧ filling < 4 ∧
    text = digits.map symbol ++ List.replicate filling '=' ∧
    digitBits digits = byteBits bytes ++ List.replicate zeros false
  /-- The text has a multiple of four characters. -/
  full : 4 ∣ text.length

/-! ## One text for bytes -/

theorem length_flatMap_bits {α : Type} (width : Nat) (f : α → Nat) (l : List α) :
    (l.flatMap fun x => bits width (f x)).length = width * l.length := by
  induction l with
  | nil => rfl
  | cons x l ih =>
    rw [List.flatMap_cons, List.length_append, length_bits, ih, List.length_cons, Nat.mul_succ,
      Nat.add_comm]

theorem length_digitBits (digits : List (Fin 64)) :
    (digitBits digits).length = 6 * digits.length :=
  length_flatMap_bits 6 Fin.val digits

theorem length_byteBits (bytes : List UInt8) : (byteBits bytes).length = 8 * bytes.length :=
  length_flatMap_bits 8 UInt8.toNat bytes

/-- Digits are known by the bits that they carry. -/
theorem digits_eq_of_bits_eq {xs ys : List (Fin 64)} (h : digitBits xs = digitBits ys) :
    xs = ys := by
  have hlength : xs.length = ys.length := by
    have hbits := congrArg List.length h
    rw [length_digitBits, length_digitBits] at hbits
    omega
  induction xs generalizing ys with
  | nil => exact (List.length_eq_zero_iff.1 hlength.symm).symm
  | cons x xs ih =>
    cases ys with
    | nil => cases hlength
    | cons y ys =>
      obtain ⟨hfirst, hrest⟩ := List.append_inj h (by rw [length_bits, length_bits])
      have hxy : x = y := Fin.ext (eq_of_bits_eq x.isLt y.isLt hfirst)
      rw [hxy, ih hrest (Nat.succ.inj hlength)]

/-- Bytes have one text. -/
theorem Spells.unique {text text' : List Char} {bytes : List UInt8} (h : Spells text bytes)
    (h' : Spells text' bytes) : text = text' := by
  obtain ⟨⟨digits, zeros, filling, hzeros, hfilling, rfl, hbits⟩, hfull⟩ := h
  obtain ⟨⟨digits', zeros', filling', hzeros', hfilling', rfl, hbits'⟩, hfull'⟩ := h'
  have hlength := congrArg List.length hbits
  have hlength' := congrArg List.length hbits'
  simp only [length_digitBits, length_byteBits, List.length_append, List.length_replicate]
    at hlength hlength'
  -- both stand for the same bits, and less than a digit's bits are zeros
  have hsame : zeros = zeros' := by omega
  subst hsame
  have hdigits : digits = digits' := digits_eq_of_bits_eq (hbits.trans hbits'.symm)
  subst hdigits
  simp only [List.length_append, List.length_map, List.length_replicate] at hfull hfull'
  -- the digits are the same, and less than four signs fill them up to a multiple of four
  have hfill : filling = filling' := by omega
  rw [hfill]

/-! ## Digits of the alphabet -/

theorem digit_eq_symbol (n : Fin 64) : digit n = symbol n := by
  revert n
  decide

theorem digitValue?_digit {n : Nat} (h : n < 64) : digitValue? (digit n) = some n := by
  have hall : ∀ n : Fin 64, digitValue? (digit n) = some n.val := by decide
  exact hall ⟨n, h⟩

theorem digit_ne_filling {n : Nat} (h : n < 64) : digit n ≠ '=' := by
  have hall : ∀ n : Fin 64, digit n ≠ '=' := by decide
  exact hall ⟨n, h⟩

/-- The character so many places behind another one. -/
theorem ofNat_add_sub {c : Char} {low : Nat} (h : low ≤ c.toNat) :
    Char.ofNat (low + (c.toNat - low)) = c := by
  rw [Nat.add_sub_cancel' h, Char.ofNat_toNat]

/-- A character with a value is the digit of that value. -/
theorem digit_of_digitValue? {c : Char} {n : Nat} (h : digitValue? c = some n) :
    n < 64 ∧ digit n = c := by
  unfold digitValue? at h
  split at h
  · rename_i hc
    have hlow : 65 ≤ c.toNat := hc.1
    have hhigh : c.toNat ≤ 90 := hc.2
    obtain rfl : c.toNat - 65 = n := Option.some.inj h
    refine ⟨by omega, ?_⟩
    rw [digit, if_pos (by omega)]
    exact ofNat_add_sub hlow
  split at h
  · rename_i hc
    have hlow : 97 ≤ c.toNat := hc.1
    have hhigh : c.toNat ≤ 122 := hc.2
    obtain rfl : c.toNat - 97 + 26 = n := Option.some.inj h
    refine ⟨by omega, ?_⟩
    rw [digit, if_neg (by omega), if_pos (by omega), Nat.add_sub_cancel]
    exact ofNat_add_sub hlow
  split at h
  · rename_i hc
    have hlow : 48 ≤ c.toNat := hc.1
    have hhigh : c.toNat ≤ 57 := hc.2
    obtain rfl : c.toNat - 48 + 52 = n := Option.some.inj h
    refine ⟨by omega, ?_⟩
    rw [digit, if_neg (by omega), if_neg (by omega), if_pos (by omega), Nat.add_sub_cancel]
    exact ofNat_add_sub hlow
  split at h
  · rename_i hc
    cases h
    exact ⟨by decide, hc.symm⟩
  split at h
  · rename_i hc
    cases h
    exact ⟨by decide, hc.symm⟩
  · cases h

/-! ## Reading what was written -/

section Groups

variable {a b c d : Nat} (ha : a < 64) (hb : b < 64) (hc : c < 64) (hd : d < 64)
include ha hb

theorem lastByte?_digit (hzeros : b % 16 = 0) :
    lastByte? (digit a) (digit b) = some [UInt8.ofNat (a * 4 + b / 16)] := by
  simp [lastByte?, digitValue?_digit ha, digitValue?_digit hb, hzeros]

include hc

theorem lastBytes?_digit (hzeros : c % 4 = 0) :
    lastBytes? (digit a) (digit b) (digit c) =
      some [UInt8.ofNat (a * 4 + b / 16), UInt8.ofNat (b % 16 * 16 + c / 4)] := by
  simp [lastBytes?, digitValue?_digit ha, digitValue?_digit hb, digitValue?_digit hc, hzeros]

include hd

theorem group?_digit :
    group? (digit a) (digit b) (digit c) (digit d) =
      some [UInt8.ofNat (a * 4 + b / 16), UInt8.ofNat (b % 16 * 16 + c / 4),
        UInt8.ofNat (c % 4 * 64 + d)] := by
  simp [group?, digitValue?_digit ha, digitValue?_digit hb, digitValue?_digit hc,
    digitValue?_digit hd]

end Groups

/-- A group that is not filled up is read on its own. -/
theorem decodeChars_group {p q r s : Char} (hs : s ≠ '=') (rest : List Char) :
    decodeChars (p :: q :: r :: s :: rest) =
      (group? p q r s).bind fun bytes => (decodeChars rest).map (bytes ++ ·) := by
  rw [decodeChars]
  · cases group? p q r s <;> cases decodeChars rest <;> rfl
  · intro _ h
    exact absurd h hs
  · intro h
    exact absurd h hs

theorem ofNat_eq {b : UInt8} {n : Nat} (h : n = b.toNat) : UInt8.ofNat n = b := by
  rw [h, UInt8.ofNat_toNat]

/-- Reading undoes writing. -/
theorem decodeChars_encodeChars (bytes : List UInt8) :
    decodeChars (encodeChars bytes) = some bytes := by
  induction bytes using encodeChars.induct with
  | case1 => rfl
  | case2 a =>
    have ha := a.toNat_lt
    have hread := lastByte?_digit (a := a.toNat / 4) (b := a.toNat % 4 * 16) (by omega) (by omega)
      (by omega)
    rw [encodeChars, decodeChars, hread, ofNat_eq (b := a) (by omega)]
  | case3 a b =>
    have ha := a.toNat_lt
    have hb := b.toNat_lt
    have hthird : digit (b.toNat % 16 * 4) ≠ '=' := digit_ne_filling (by omega)
    have hread := lastBytes?_digit (a := a.toNat / 4) (b := a.toNat % 4 * 16 + b.toNat / 16)
      (c := b.toNat % 16 * 4) (by omega) (by omega) (by omega) (by omega)
    rw [encodeChars, decodeChars, hread, ofNat_eq (b := a) (by omega), ofNat_eq (b := b) (by omega)]
    exact fun h => absurd h hthird
  | case4 a b c rest ih =>
    have ha := a.toNat_lt
    have hb := b.toNat_lt
    have hc := c.toNat_lt
    have hread := group?_digit (a := a.toNat / 4) (b := a.toNat % 4 * 16 + b.toNat / 16)
      (c := b.toNat % 16 * 4 + c.toNat / 64) (d := c.toNat % 64) (by omega) (by omega) (by omega)
      (by omega)
    rw [encodeChars, decodeChars_group (digit_ne_filling (by omega)), hread, ih,
      ofNat_eq (b := a) (by omega), ofNat_eq (b := b) (by omega), ofNat_eq (b := c) (by omega)]
    rfl

/-! ## Writing what was read -/

section Inversion

variable {p q r s : Char} {bytes : List UInt8}

/-- What comes behind the value of a character. -/
theorem of_digitValue?_bind {α : Type} {c : Char} {f : Nat → Option α} {x : α}
    (h : (digitValue? c).bind f = some x) : ∃ n, n < 64 ∧ digit n = c ∧ f n = some x := by
  obtain ⟨n, hn, hf⟩ := Option.bind_eq_some_iff.1 h
  obtain ⟨hlt, hdigit⟩ := digit_of_digitValue? hn
  exact ⟨n, hlt, hdigit, hf⟩

theorem of_ite_some {α : Type} {c : Prop} [Decidable c] {x y : α}
    (h : (if c then some x else none) = some y) : c ∧ x = y := by
  by_cases hc : c
  · rw [if_pos hc] at h
    exact ⟨hc, Option.some.inj h⟩
  · rw [if_neg hc] at h
    cases h

theorem of_lastByte? (h : lastByte? p q = some bytes) :
    ∃ a b, a < 64 ∧ b < 64 ∧ digit a = p ∧ digit b = q ∧ b % 16 = 0 ∧
      [UInt8.ofNat (a * 4 + b / 16)] = bytes := by
  obtain ⟨a, ha, hp, h1⟩ := of_digitValue?_bind h
  obtain ⟨b, hb, hq, h2⟩ := of_digitValue?_bind h1
  obtain ⟨hzeros, hbytes⟩ := of_ite_some h2
  exact ⟨a, b, ha, hb, hp, hq, hzeros, hbytes⟩

theorem of_lastBytes? (h : lastBytes? p q r = some bytes) :
    ∃ a b c, a < 64 ∧ b < 64 ∧ c < 64 ∧ digit a = p ∧ digit b = q ∧ digit c = r ∧ c % 4 = 0 ∧
      [UInt8.ofNat (a * 4 + b / 16), UInt8.ofNat (b % 16 * 16 + c / 4)] = bytes := by
  obtain ⟨a, ha, hp, h1⟩ := of_digitValue?_bind h
  obtain ⟨b, hb, hq, h2⟩ := of_digitValue?_bind h1
  obtain ⟨c, hc, hr, h3⟩ := of_digitValue?_bind h2
  obtain ⟨hzeros, hbytes⟩ := of_ite_some h3
  exact ⟨a, b, c, ha, hb, hc, hp, hq, hr, hzeros, hbytes⟩

theorem of_group? (h : group? p q r s = some bytes) :
    ∃ a b c d, a < 64 ∧ b < 64 ∧ c < 64 ∧ d < 64 ∧
      digit a = p ∧ digit b = q ∧ digit c = r ∧ digit d = s ∧
      [UInt8.ofNat (a * 4 + b / 16), UInt8.ofNat (b % 16 * 16 + c / 4),
        UInt8.ofNat (c % 4 * 64 + d)] = bytes := by
  obtain ⟨a, ha, hp, h1⟩ := of_digitValue?_bind h
  obtain ⟨b, hb, hq, h2⟩ := of_digitValue?_bind h1
  obtain ⟨c, hc, hr, h3⟩ := of_digitValue?_bind h2
  obtain ⟨d, hd, hs, h4⟩ := of_digitValue?_bind h3
  exact ⟨a, b, c, d, ha, hb, hc, hd, hp, hq, hr, hs, Option.some.inj h4⟩

end Inversion

theorem toNat_ofNat {n : Nat} (h : n < 256) : (UInt8.ofNat n).toNat = n := by
  rw [UInt8.toNat_ofNat', Nat.mod_eq_of_lt h]

/-- Writing undoes reading. -/
theorem encodeChars_of_decodeChars {text : List Char} {bytes : List UInt8}
    (h : decodeChars text = some bytes) : encodeChars bytes = text := by
  induction text using decodeChars.induct generalizing bytes with
  | case1 =>
    cases h
    rfl
  | case2 p q =>
    obtain ⟨a, b, ha, hb, rfl, rfl, hzeros, rfl⟩ := of_lastByte? h
    have hfirst : (a * 4 + b / 16) / 4 = a := by omega
    have hsecond : (a * 4 + b / 16) % 4 * 16 = b := by omega
    rw [encodeChars, toNat_ofNat (by omega), hfirst, hsecond]
  | case3 p q r hr =>
    rw [decodeChars.eq_3 p q r hr] at h
    obtain ⟨a, b, c, ha, hb, hc, rfl, rfl, rfl, hzeros, rfl⟩ := of_lastBytes? h
    have hfirst : (a * 4 + b / 16) / 4 = a := by omega
    have hsecond : (a * 4 + b / 16) % 4 * 16 + (b % 16 * 16 + c / 4) / 16 = b := by omega
    have hthird : (b % 16 * 16 + c / 4) % 16 * 4 = c := by omega
    rw [encodeChars, toNat_ofNat (by omega), toNat_ofNat (by omega), hfirst, hsecond, hthird]
  | case4 p q r s rest htwo hone ih =>
    rw [decodeChars.eq_4 p q r s rest htwo hone] at h
    obtain ⟨first, hgroup, h⟩ := Option.bind_eq_some_iff.1 h
    obtain ⟨more, hmore, h⟩ := Option.bind_eq_some_iff.1 h
    cases h
    obtain ⟨a, b, c, d, ha, hb, hc, hd, rfl, rfl, rfl, rfl, rfl⟩ := of_group? hgroup
    have hfirst : (a * 4 + b / 16) / 4 = a := by omega
    have hsecond : (a * 4 + b / 16) % 4 * 16 + (b % 16 * 16 + c / 4) / 16 = b := by omega
    have hthird : (b % 16 * 16 + c / 4) % 16 * 4 + (c % 4 * 64 + d) / 64 = c := by omega
    have hfourth : (c % 4 * 64 + d) % 64 = d := by omega
    rw [List.cons_append, List.cons_append, List.cons_append, List.nil_append, encodeChars,
      toNat_ofNat (by omega), toNat_ofNat (by omega), toNat_ofNat (by omega), hfirst, hsecond,
      hthird, hfourth, ih hmore]
  | case5 text hnil htwo hone hgroup =>
    rw [decodeChars.eq_5 text hnil htwo hone hgroup] at h
    cases h

/-! ## Writing spells -/

/-- Digits carry on behind the digits of whole bytes. -/
theorem Spells.cons {group : List (Fin 64)} {bytes more : List UInt8} {text : List Char}
    (hfour : group.length = 4) (hgroup : digitBits group = byteBits bytes)
    (h : Spells text more) : Spells (group.map symbol ++ text) (bytes ++ more) := by
  obtain ⟨⟨digits, zeros, filling, hzeros, hfilling, rfl, hbits⟩, hfull⟩ := h
  refine ⟨⟨group ++ digits, zeros, filling, hzeros, hfilling, ?_, ?_⟩, ?_⟩
  · rw [List.map_append, List.append_assoc]
  · rw [digitBits, List.flatMap_append, ← digitBits, ← digitBits, hgroup, hbits, byteBits,
      byteBits, byteBits, List.flatMap_append, List.append_assoc]
  · rw [List.length_append, List.length_map, hfour]
    exact Nat.dvd_add (Nat.dvd_refl 4) hfull

section Bytes

variable {a b c : Nat}

/-- The digit between two bytes. -/
theorem bits_second (hb : b < 256) :
    bits 6 (a % 4 * 16 + b / 16) = bits 2 (a % 4) ++ bits 4 (b / 16) :=
  bits_join 2 (a % 4) (by omega : b / 16 < 2 ^ 4)

/-- The digit between the next two. -/
theorem bits_third (hc : c < 256) :
    bits 6 (b % 16 * 4 + c / 64) = bits 4 (b % 16) ++ bits 2 (c / 64) :=
  bits_join 4 (b % 16) (by omega : c / 64 < 2 ^ 2)

theorem bits_one :
    bits 6 (a / 4) ++ bits 6 (a % 4 * 16) = bits 8 a ++ List.replicate 4 false := by
  have ha : bits 8 a = bits 6 (a / 4) ++ bits 2 (a % 4) := bits_split 6 2 a
  have hlast : bits 6 (a % 4 * 16) = bits 2 (a % 4) ++ List.replicate 4 false :=
    bits_shift 2 4 (a % 4)
  rw [ha, hlast, List.append_assoc]

theorem bits_two (hb : b < 256) :
    bits 6 (a / 4) ++ (bits 6 (a % 4 * 16 + b / 16) ++ bits 6 (b % 16 * 4)) =
      bits 8 a ++ (bits 8 b ++ List.replicate 2 false) := by
  have ha : bits 8 a = bits 6 (a / 4) ++ bits 2 (a % 4) := bits_split 6 2 a
  have hb' : bits 8 b = bits 4 (b / 16) ++ bits 4 (b % 16) := bits_split 4 4 b
  have hlast : bits 6 (b % 16 * 4) = bits 4 (b % 16) ++ List.replicate 2 false :=
    bits_shift 4 2 (b % 16)
  rw [ha, hb', bits_second hb, hlast]
  simp only [List.append_assoc]

theorem bits_three (hb : b < 256) (hc : c < 256) :
    bits 6 (a / 4) ++ (bits 6 (a % 4 * 16 + b / 16) ++
        (bits 6 (b % 16 * 4 + c / 64) ++ bits 6 (c % 64))) =
      bits 8 a ++ (bits 8 b ++ bits 8 c) := by
  have ha : bits 8 a = bits 6 (a / 4) ++ bits 2 (a % 4) := bits_split 6 2 a
  have hb' : bits 8 b = bits 4 (b / 16) ++ bits 4 (b % 16) := bits_split 4 4 b
  have hc' : bits 8 c = bits 2 (c / 64) ++ bits 6 (c % 64) := bits_split 2 6 c
  rw [ha, hb', hc', bits_second hb, bits_third hc]
  simp only [List.append_assoc]

end Bytes

/-- What writing produces is base64. -/
theorem spells_encodeChars (bytes : List UInt8) : Spells (encodeChars bytes) bytes := by
  induction bytes using encodeChars.induct with
  | case1 => exact ⟨⟨[], 0, 0, by omega, by omega, rfl, rfl⟩, Nat.dvd_zero 4⟩
  | case2 a =>
    have ha := a.toNat_lt
    refine ⟨⟨[⟨a.toNat / 4, by omega⟩, ⟨a.toNat % 4 * 16, by omega⟩], 4, 2, by omega, by omega,
      ?_, ?_⟩, by simp [encodeChars]⟩
    · simp only [encodeChars, List.map_cons, ← digit_eq_symbol]
      rfl
    · simp only [digitBits, byteBits, List.flatMap_cons, List.flatMap_nil, List.append_nil]
      exact bits_one
  | case3 a b =>
    have ha := a.toNat_lt
    have hb := b.toNat_lt
    refine ⟨⟨[⟨a.toNat / 4, by omega⟩, ⟨a.toNat % 4 * 16 + b.toNat / 16, by omega⟩,
      ⟨b.toNat % 16 * 4, by omega⟩], 2, 1, by omega, by omega, ?_, ?_⟩,
      by simp [encodeChars]⟩
    · simp only [encodeChars, List.map_cons, ← digit_eq_symbol]
      rfl
    · simp only [digitBits, byteBits, List.flatMap_cons, List.flatMap_nil, List.append_nil,
        List.append_assoc]
      exact bits_two hb
  | case4 a b c rest ih =>
    have ha := a.toNat_lt
    have hb := b.toNat_lt
    have hc := c.toNat_lt
    have hgroup : digitBits [⟨a.toNat / 4, by omega⟩, ⟨a.toNat % 4 * 16 + b.toNat / 16, by omega⟩,
        ⟨b.toNat % 16 * 4 + c.toNat / 64, by omega⟩, ⟨c.toNat % 64, by omega⟩] =
        byteBits [a, b, c] := by
      simp only [digitBits, byteBits, List.flatMap_cons, List.flatMap_nil, List.append_nil]
      exact bits_three hb hc
    have hcons := Spells.cons rfl hgroup ih
    simp only [List.map_cons, ← digit_eq_symbol] at hcons
    rw [encodeChars]
    exact hcons

/-! ## Texts -/

/-- A text is base64 if it is base64 for some bytes. -/
def IsBase64 (text : String) : Prop := ∃ bytes, Spells text.toList bytes

/-- What reading accepts is base64 for the bytes that it returns, and nothing else. -/
theorem decode?_eq_some_iff (text : String) (bytes : List UInt8) :
    decode? text = some bytes ↔ Spells text.toList bytes := by
  constructor
  · intro h
    rw [← encodeChars_of_decodeChars h]
    exact spells_encodeChars bytes
  · intro h
    rw [decode?, h.unique (spells_encodeChars bytes)]
    exact decodeChars_encodeChars bytes

theorem decode?_encode (bytes : List UInt8) : decode? (encode bytes) = some bytes := by
  rw [decode?, encode, String.toList_ofList]
  exact decodeChars_encodeChars bytes

theorem encode_of_decode? {text : String} {bytes : List UInt8} (h : decode? text = some bytes) :
    encode bytes = text := by
  rw [encode, encodeChars_of_decodeChars h, String.ofList_toList]

theorem isBase64_encode (bytes : List UInt8) : IsBase64 (encode bytes) :=
  ⟨bytes, (decode?_eq_some_iff ..).1 (decode?_encode bytes)⟩

end Base64

end ItemStore
