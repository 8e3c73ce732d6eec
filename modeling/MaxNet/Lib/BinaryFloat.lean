import Mathlib.Algebra.Order.Ring.Nat
import Mathlib.Data.Nat.Log
import Mathlib.Tactic.Ring

structure BinaryFormat where
  precision : Nat
  emin : Int
  emax : Int
  two_le_precision : 2 ≤ precision
  emin_le_emax : emin ≤ emax

namespace BinaryFormat

structure Canonical (f : BinaryFormat) (m : Nat) (e : Int) : Prop where
  fits : m < 2 ^ f.precision
  low : f.emin ≤ e
  high : e ≤ f.emax
  leading : 2 ^ (f.precision - 1) ≤ m ∨ e = f.emin

instance (f : BinaryFormat) (m : Nat) (e : Int) : Decidable (f.Canonical m e) :=
  decidable_of_iff (m < 2 ^ f.precision ∧ f.emin ≤ e ∧ e ≤ f.emax ∧ (2 ^ (f.precision - 1) ≤ m ∨ e = f.emin))
    ⟨fun ⟨fits, low, high, leading⟩ => ⟨fits, low, high, leading⟩,
      fun c => ⟨c.fits, c.low, c.high, c.leading⟩⟩

def binary32 : BinaryFormat := ⟨24, -149, 104, by decide, by decide⟩

def binary64 : BinaryFormat := ⟨53, -1074, 971, by decide, by decide⟩

theorem canonical_zero (f : BinaryFormat) : f.Canonical 0 f.emin :=
  ⟨Nat.two_pow_pos _, Int.le_refl _, f.emin_le_emax, Or.inr rfl⟩

structure Within (f g : BinaryFormat) : Prop where
  precision : f.precision ≤ g.precision
  emin : g.emin ≤ f.emin
  emax : f.emax ≤ g.emax

theorem binary32_within_binary64 : binary32.Within binary64 := ⟨by decide, by decide, by decide⟩

end BinaryFormat

inductive Binary (f : BinaryFormat)
  | finite (negative : Bool) (significand : Nat) (exponent : Int)
    (canonical : f.Canonical significand exponent)
  | infinite (negative : Bool)
  | nan
  deriving DecidableEq

namespace Binary

variable {f g : BinaryFormat}

def bitLength (m : Nat) : Nat := if m = 0 then 0 else m.log2 + 1

def shiftRounded (m k : Nat) : Nat :=
  if 2 ^ k < 2 * (m % 2 ^ k) ∨ (2 * (m % 2 ^ k) = 2 ^ k ∧ m / 2 ^ k % 2 = 1) then m / 2 ^ k + 1 else m / 2 ^ k

def pack (f : BinaryFormat) (negative : Bool) (m : Nat) (e : Int) : Binary f :=
  if h : f.Canonical m e then .finite negative m e h else .infinite negative

def round (f : BinaryFormat) (negative : Bool) (m : Nat) (e : Int) : Binary f :=
  if m = 0 then pack f negative 0 f.emin
  else
    let target := max f.emin (e + bitLength m - f.precision)
    let q := if target ≤ e then m * 2 ^ (e - target).toNat else shiftRounded m (target - e).toNat
    if q = 2 ^ f.precision then pack f negative (2 ^ (f.precision - 1)) (target + 1)
    else pack f negative q target

def convert (g : BinaryFormat) : Binary f → Binary g
  | finite negative m e _ => round g negative m e
  | infinite negative => infinite negative
  | nan => nan

theorem bitLength_le_iff (m n : Nat) : bitLength m ≤ n ↔ m < 2 ^ n := by
  unfold bitLength
  split
  · rename_i zero
    subst zero
    simp
  · rename_i positive
    exact Nat.log2_lt positive

theorem bitLength_mul_two_pow {m : Nat} (positive : m ≠ 0) (k : Nat) :
    bitLength (m * 2 ^ k) = bitLength m + k := by
  induction k with
  | zero => simp
  | succ k ih =>
    have nonzero : m * 2 ^ k ≠ 0 := Nat.mul_ne_zero positive (Nat.two_pow_pos k).ne'
    have double : m * 2 ^ (k + 1) = 2 * (m * 2 ^ k) := by ring
    have longer : bitLength (2 * (m * 2 ^ k)) = bitLength (m * 2 ^ k) + 1 := by
      unfold bitLength
      rw [if_neg nonzero, if_neg (by omega), Nat.log2_two_mul nonzero]
    rw [double, longer, ih, Nat.add_assoc]

theorem shiftRounded_mul_two_pow (m k : Nat) : shiftRounded (m * 2 ^ k) k = m := by
  have positive := Nat.two_pow_pos k
  have whole : m * 2 ^ k % 2 ^ k = 0 := Nat.mul_mod_left m (2 ^ k)
  have quotient : m * 2 ^ k / 2 ^ k = m := Nat.mul_div_cancel m positive
  unfold shiftRounded
  rw [whole, quotient, if_neg (by omega)]

theorem pack_canonical {negative : Bool} {m : Nat} {e : Int} (canonical : f.Canonical m e) :
    pack f negative m e = .finite negative m e canonical := dif_pos canonical

theorem target_of_canonical {m : Nat} {e : Int} (canonical : f.Canonical m e) :
    max f.emin (e + bitLength m - f.precision) = e := by
  have length := (bitLength_le_iff m f.precision).mpr canonical.fits
  have low := canonical.low
  rcases canonical.leading with leading | lowest
  · have long : ¬ bitLength m ≤ f.precision - 1 := fun short =>
      absurd ((bitLength_le_iff m _).mp short) (Nat.not_lt.mpr leading)
    omega
  · omega

theorem exponent_of_zero {e : Int} (canonical : f.Canonical 0 e) : e = f.emin := by
  rcases canonical.leading with leading | lowest
  · have positive := Nat.two_pow_pos (f.precision - 1)
    omega
  · exact lowest

theorem round_scaled {negative : Bool} {m : Nat} {e : Int} (canonical : f.Canonical m e) (k : Nat) :
    round f negative (m * 2 ^ k) (e - k) = .finite negative m e canonical := by
  by_cases zero : m = 0
  · subst zero
    obtain rfl := exponent_of_zero canonical
    simp only [round, Nat.zero_mul, if_true, pack_canonical canonical]
  · have nonzero : m * 2 ^ k ≠ 0 := Nat.mul_ne_zero zero (Nat.two_pow_pos k).ne'
    have target : max f.emin (e - k + bitLength (m * 2 ^ k) - f.precision) = e := by
      rw [bitLength_mul_two_pow zero, ← target_of_canonical canonical]
      have same := target_of_canonical canonical
      omega
    have quotient : (if e ≤ e - k then m * 2 ^ k * 2 ^ (e - k - e).toNat
        else shiftRounded (m * 2 ^ k) (e - (e - k)).toNat) = m := by
      by_cases none : k = 0
      · subst none
        simp
      · have shift : (e - (e - (k : Int))).toNat = k := by omega
        rw [if_neg (by omega), shift, shiftRounded_mul_two_pow]
    have below : m ≠ 2 ^ f.precision := canonical.fits.ne
    simp only [round, if_neg nonzero, target, quotient, if_neg below, pack_canonical canonical]

theorem round_unscaled {negative : Bool} {m : Nat} {e : Int} {k : Nat} (positive : m ≠ 0)
    (canonical : f.Canonical (m * 2 ^ k) (e - k)) :
    round f negative m e = .finite negative (m * 2 ^ k) (e - k) canonical := by
  have target : max f.emin (e + bitLength m - f.precision) = e - k := by
    have same := target_of_canonical canonical
    rw [bitLength_mul_two_pow positive] at same
    omega
  have shift : (e - (e - (k : Int))).toNat = k := by omega
  have below : m * 2 ^ k ≠ 2 ^ f.precision := canonical.fits.ne
  simp only [round, if_neg positive, target, if_pos (show e - (k : Int) ≤ e by omega), shift, if_neg below,
    pack_canonical canonical]

theorem exists_canonical (within : f.Within g) {m : Nat} {e : Int} (positive : m ≠ 0)
    (canonical : f.Canonical m e) : ∃ k : Nat, g.Canonical (m * 2 ^ k) (e - k) := by
  have length := (bitLength_le_iff m f.precision).mpr canonical.fits
  have fits := within.precision
  have emin := within.emin
  have emax := within.emax
  have low := canonical.low
  have high := canonical.high
  let k := min (g.precision - bitLength m) (e - g.emin).toNat
  have scaled := bitLength_mul_two_pow positive k
  refine ⟨k, ?_, by omega, by omega, ?_⟩
  · rw [← bitLength_le_iff, scaled]
    omega
  · rcases Nat.le_total (g.precision - bitLength m) (e - g.emin).toNat with bits | exponent
    · left
      by_contra short
      have le := (bitLength_le_iff (m * 2 ^ k) (g.precision - 1)).mpr (Nat.not_le.mp short)
      have two := g.two_le_precision
      omega
    · right
      omega

/-- Widening a number and narrowing it again gives it back. -/
theorem convert_convert (within : f.Within g) (x : Binary f) : (x.convert g).convert f = x := by
  cases x with
  | infinite negative => rfl
  | nan => rfl
  | finite negative m e canonical =>
    by_cases zero : m = 0
    · subst zero
      obtain rfl := exponent_of_zero canonical
      have wide : round g negative 0 f.emin = .finite negative 0 g.emin g.canonical_zero := by
        simp only [round, if_true, pack_canonical g.canonical_zero]
      simp only [convert, wide]
      simp only [round, if_true, pack_canonical canonical]
    · obtain ⟨k, wide⟩ := exists_canonical within zero canonical
      simp only [convert, round_unscaled zero wide]
      exact round_scaled canonical k

/-! ### Interchange bits -/

def infinityBits (f : BinaryFormat) : Nat := (f.emax - f.emin + 2).toNat * 2 ^ (f.precision - 1)

def signBit (f : BinaryFormat) : Nat := (f.emax - f.emin + 3).toNat * 2 ^ (f.precision - 1)

def toBits : Binary f → Nat
  | finite negative m e _ =>
    (if negative then signBit f else 0) + ((e - f.emin).toNat * 2 ^ (f.precision - 1) + m)
  | infinite negative => (if negative then signBit f else 0) + infinityBits f
  | nan => infinityBits f + 2 ^ (f.precision - 2)

def ofMagnitude (f : BinaryFormat) (negative : Bool) (n : Nat) : Binary f :=
  if n = infinityBits f then infinite negative
  else if infinityBits f < n then nan
  else
    let biased := n / 2 ^ (f.precision - 1)
    let fraction := n % 2 ^ (f.precision - 1)
    if biased = 0 then pack f negative fraction f.emin
    else pack f negative (fraction + 2 ^ (f.precision - 1)) (f.emin + (biased - 1 : Nat))

def ofBits (f : BinaryFormat) (n : Nat) : Binary f :=
  if signBit f ≤ n then ofMagnitude f true (n - signBit f) else ofMagnitude f false n

theorem signBit_eq (f : BinaryFormat) : signBit f = infinityBits f + 2 ^ (f.precision - 1) := by
  have order := f.emin_le_emax
  have succ : (f.emax - f.emin + 3).toNat = (f.emax - f.emin + 2).toNat + 1 := by omega
  rw [signBit, infinityBits, succ, Nat.succ_mul]

theorem infinityBits_lt_signBit (f : BinaryFormat) : infinityBits f < signBit f := by
  have unit := Nat.two_pow_pos (f.precision - 1)
  have sign := signBit_eq f
  omega

theorem nanBits_lt_signBit (f : BinaryFormat) : infinityBits f + 2 ^ (f.precision - 2) < signBit f := by
  have two := f.two_le_precision
  have half : 2 ^ (f.precision - 2) < 2 ^ (f.precision - 1) := Nat.pow_lt_pow_right (by decide) (by omega)
  rw [signBit_eq]
  exact Nat.add_lt_add_left half _

theorem magnitude_lt {m : Nat} {e : Int} (canonical : f.Canonical m e) :
    (e - f.emin).toNat * 2 ^ (f.precision - 1) + m < infinityBits f := by
  have two := f.two_le_precision
  have fits : m < 2 * 2 ^ (f.precision - 1) := by
    have double : 2 ^ f.precision = 2 * 2 ^ (f.precision - 1) := by
      rw [← Nat.pow_succ']
      congr 1
      omega
    exact double ▸ canonical.fits
  have low := canonical.low
  have high := canonical.high
  have below : (e - f.emin).toNat + 2 ≤ (f.emax - f.emin + 2).toNat := by omega
  have scaled := Nat.mul_le_mul_right (2 ^ (f.precision - 1)) below
  rw [Nat.add_mul] at scaled
  unfold infinityBits
  omega

theorem ofMagnitude_finite (negative : Bool) {m : Nat} {e : Int} (canonical : f.Canonical m e) :
    ofMagnitude f negative ((e - f.emin).toNat * 2 ^ (f.precision - 1) + m) = .finite negative m e canonical := by
  have below := magnitude_lt canonical
  have unit := Nat.two_pow_pos (f.precision - 1)
  have low := canonical.low
  unfold ofMagnitude
  rw [if_neg (by omega), if_neg (by omega)]
  by_cases leading : 2 ^ (f.precision - 1) ≤ m
  · have fits : m < 2 * 2 ^ (f.precision - 1) := by
      have two := f.two_le_precision
      have double : 2 ^ f.precision = 2 * 2 ^ (f.precision - 1) := by
        rw [← Nat.pow_succ']
        congr 1
        omega
      exact double ▸ canonical.fits
    have split : (e - f.emin).toNat * 2 ^ (f.precision - 1) + m =
        (m - 2 ^ (f.precision - 1)) + ((e - f.emin).toNat + 1) * 2 ^ (f.precision - 1) := by
      rw [Nat.add_mul]
      omega
    have small : m - 2 ^ (f.precision - 1) < 2 ^ (f.precision - 1) := by omega
    have biased : ((e - f.emin).toNat * 2 ^ (f.precision - 1) + m) / 2 ^ (f.precision - 1) =
        (e - f.emin).toNat + 1 := by
      rw [split, Nat.add_mul_div_right _ _ unit, Nat.div_eq_of_lt small, Nat.zero_add]
    have fraction : ((e - f.emin).toNat * 2 ^ (f.precision - 1) + m) % 2 ^ (f.precision - 1) =
        m - 2 ^ (f.precision - 1) := by
      rw [split, Nat.add_mul_mod_self_right, Nat.mod_eq_of_lt small]
    have significand : m - 2 ^ (f.precision - 1) + 2 ^ (f.precision - 1) = m := by omega
    have exponent : f.emin + (((e - f.emin).toNat + 1 - 1 : Nat) : Int) = e := by omega
    simp only [biased, fraction, significand, exponent, Nat.add_one_ne_zero, if_false, pack_canonical canonical]
  · have lowest : e = f.emin := canonical.leading.resolve_left leading
    subst lowest
    have zero : (f.emin - f.emin).toNat = 0 := by omega
    have small : m < 2 ^ (f.precision - 1) := Nat.not_le.mp leading
    simp only [zero, Nat.zero_mul, Nat.zero_add, Nat.div_eq_of_lt small, Nat.mod_eq_of_lt small, if_true,
      pack_canonical canonical]

theorem toBits_lt (x : Binary f) : x.toBits < 2 * signBit f := by
  have infinity := infinityBits_lt_signBit f
  cases x with
  | finite negative m e canonical =>
    have below := magnitude_lt canonical
    cases negative <;> simp only [toBits, if_true, Bool.false_eq_true, if_false] <;> omega
  | infinite negative =>
    cases negative <;> simp only [toBits, if_true, Bool.false_eq_true, if_false] <;> omega
  | nan =>
    have quiet := nanBits_lt_signBit f
    change infinityBits f + 2 ^ (f.precision - 2) < 2 * signBit f
    omega

theorem ofBits_toBits (x : Binary f) : ofBits f x.toBits = x := by
  have infinity := infinityBits_lt_signBit f
  cases x with
  | finite negative m e canonical =>
    have below := magnitude_lt canonical
    cases negative with
    | true =>
      simp only [toBits, if_true, ofBits]
      rw [if_pos (by omega), Nat.add_sub_cancel_left, ofMagnitude_finite]
    | false =>
      simp only [toBits, Bool.false_eq_true, if_false, Nat.zero_add, ofBits]
      rw [if_neg (by omega), ofMagnitude_finite]
  | infinite negative =>
    cases negative with
    | true => simp [toBits, ofBits, ofMagnitude]
    | false =>
      simp only [toBits, Bool.false_eq_true, if_false, Nat.zero_add, ofBits]
      rw [if_neg (by omega), ofMagnitude, if_pos rfl]
  | nan =>
    have quiet := nanBits_lt_signBit f
    have positive := Nat.two_pow_pos (f.precision - 2)
    unfold ofBits ofMagnitude
    change (if signBit f ≤ infinityBits f + 2 ^ (f.precision - 2) then _ else
      if infinityBits f + 2 ^ (f.precision - 2) = infinityBits f then _ else
        if infinityBits f < infinityBits f + 2 ^ (f.precision - 2) then _ else _) = nan
    rw [if_neg (by omega), if_neg (by omega), if_pos (by omega)]

end Binary
