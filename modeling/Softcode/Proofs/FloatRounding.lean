import Mathlib

/-!
# Rounding of floating-point numbers

Every number is a whole multiple of the least positive one, `2 ^ -1074`. Counted in these units a
finite number is an integer, and the infinities are put at the limit that all other numbers stay
below (`unitsOf`). Rounding takes the nearest number of 53 binary digits and then zeros
(`round_eq`); it keeps the order (`nearest_mono`), and bits give back what was packed into them, or
infinity past the limit (`isUnits_pack`).
-/

namespace Softcode.Binary64

open Float.Model (Format UnpackedFloat totalExponent)
open Float.Model.UnpackedFloat

/-! ## Rounding a mantissa -/

/-- A mantissa and the two bits kept of what a shift has cut off, read as one number. -/
def rank (em : ExtendedMantissa) : Nat :=
  4 * em.mantissa + 2 * em.roundBit.toNat + em.stickyBit.toNat

/-- A shift by one digit halves the rank; of the four states of the two bits, all but the first
leave a trace. -/
theorem rank_shiftRightOne (em : ExtendedMantissa) :
    rank em.shiftRightOne = 2 * (rank em / 4) + min 1 (rank em % 4) := by
  obtain ⟨m, r, s⟩ := em
  have hbit : (m % 2 != 0).toNat = m % 2 := by
    rcases Nat.mod_two_eq_zero_or_one m with h | h <;> simp [h]
  simp only [rank, ExtendedMantissa.shiftRightOne, hbit]
  cases r <;> cases s <;> simp <;> omega

/-- Dropping a bit keeps the order of ranks. -/
theorem rank_shiftRightOne_mono {a b : ExtendedMantissa} (h : rank a ≤ rank b) :
    rank a.shiftRightOne ≤ rank b.shiftRightOne := by
  rw [rank_shiftRightOne, rank_shiftRightOne]
  omega

/-- Rounding keeps the order of ranks. Only where a mantissa is odd does half-way go up. -/
theorem roundedMantissa_mono {a b : ExtendedMantissa} (h : rank a ≤ rank b) :
    a.roundedMantissa ≤ b.roundedMantissa := by
  obtain ⟨m, r, s⟩ := a
  obtain ⟨m', r', s'⟩ := b
  simp only [rank] at h
  simp only [ExtendedMantissa.roundedMantissa]
  cases r <;> cases s <;> cases r' <;> cases s' <;>
    simp [ExtendedMantissa.accuracy, Accuracy.roundToNearestEven] at h ⊢ <;> omega

theorem shiftRight_succ (em : ExtendedMantissa) (k : Nat) :
    em >>> (k + 1) = (em >>> k).shiftRightOne := rfl

/-- Dropping bits in two goes drops as many. -/
theorem shiftRight_add (em : ExtendedMantissa) (j k : Nat) :
    em >>> (j + k) = (em >>> j) >>> k := by
  induction k with
  | zero => rfl
  | succ k ih => rw [← Nat.add_assoc, shiftRight_succ, ih, shiftRight_succ]

/-- Dropping bits keeps the order of ranks. -/
theorem rank_shiftRight_mono {a b : ExtendedMantissa} (h : rank a ≤ rank b) (k : Nat) :
    rank (a >>> k) ≤ rank (b >>> k) := by
  induction k with
  | zero => exact h
  | succ k ih => exact rank_shiftRightOne_mono ih

/-- A mantissa of which nothing has been cut off. -/
def whole (n : Nat) : ExtendedMantissa := ⟨n, false, false⟩

/-- Zeros at the end of a mantissa are cut off without a trace. -/
theorem whole_shiftRight (n k : Nat) : whole (n * 2 ^ k) >>> k = whole n := by
  induction k generalizing n with
  | zero =>
      rw [Nat.pow_zero, Nat.mul_one]
      rfl
  | succ k ih =>
      have hsplit : n * 2 ^ (k + 1) = n * 2 * 2 ^ k := by rw [Nat.pow_succ', Nat.mul_assoc]
      rw [shiftRight_succ, hsplit, ih]
      simp [whole, ExtendedMantissa.shiftRightOne]

/-- A number divided by a power of two and rounded to the nearest integer, a half going to the even
one. -/
def quotient (n k : Nat) : Nat := (whole n >>> k).roundedMantissa

/-- A greater number has no smaller rounded quotient. -/
theorem quotient_mono {m n : Nat} (h : m ≤ n) (k : Nat) : quotient m k ≤ quotient n k := by
  refine roundedMantissa_mono (rank_shiftRight_mono ?_ k)
  simp only [rank, whole]
  omega

/-- A common power of two does not change the rounded quotient. -/
theorem quotient_scale (n j k : Nat) : quotient (n * 2 ^ j) (j + k) = quotient n k := by
  rw [quotient, shiftRight_add, whole_shiftRight, quotient]

/-- A quotient without remainder is not rounded. -/
theorem quotient_mul (n k : Nat) : quotient (n * 2 ^ k) k = n := quotient_scale n k 0

/-! ## Rounding to 53 binary digits -/

/-- The nearest number of at most 53 binary digits and then zeros. -/
def nearest (n : Nat) : Nat := quotient n (n.log2 - 52) * 2 ^ (n.log2 - 52)

/-- The rounded mantissa has at most 53 binary digits, or is the next power of two. -/
theorem quotient_le (n : Nat) : quotient n (n.log2 - 52) ≤ 2 ^ 53 := by
  have hlt : n < 2 ^ 53 * 2 ^ (n.log2 - 52) := by
    rw [← Nat.pow_add]
    exact Nat.lt_of_lt_of_le Nat.lt_log2_self (Nat.pow_le_pow_right (by decide) (by omega))
  exact (quotient_mono hlt.le _).trans_eq (quotient_mul _ _)

/-- The rounded mantissa of a number of 53 binary digits or more has no fewer. -/
theorem le_quotient {n : Nat} (h : 52 ≤ n.log2) : 2 ^ 52 ≤ quotient n (n.log2 - 52) := by
  have hne : n ≠ 0 := by
    rintro rfl
    simp at h
  have hle : 2 ^ 52 * 2 ^ (n.log2 - 52) ≤ n := by
    rw [← Nat.pow_add, Nat.add_sub_cancel' h]
    exact Nat.log2_self_le hne
  exact (quotient_mul _ _).symm.trans_le (quotient_mono hle _)

/-- Rounding keeps the order: within one scale because shifting and rounding do, and from one scale
to a greater one because a power of two lies between. -/
theorem nearest_mono {m n : Nat} (h : m ≤ n) : nearest m ≤ nearest n := by
  have hlog : m.log2 ≤ n.log2 := by
    rw [Nat.log2_eq_log_two, Nat.log2_eq_log_two]
    exact Nat.log_mono_right h
  simp only [nearest]
  rcases Nat.lt_or_ge (m.log2 - 52) (n.log2 - 52) with hlt | hge
  · calc quotient m (m.log2 - 52) * 2 ^ (m.log2 - 52)
        ≤ 2 ^ 53 * 2 ^ (m.log2 - 52) := Nat.mul_le_mul_right _ (quotient_le m)
      _ = 2 ^ (53 + (m.log2 - 52)) := (Nat.pow_add _ _ _).symm
      _ ≤ 2 ^ (52 + (n.log2 - 52)) := Nat.pow_le_pow_right (by decide) (by omega)
      _ = 2 ^ 52 * 2 ^ (n.log2 - 52) := Nat.pow_add _ _ _
      _ ≤ quotient n (n.log2 - 52) * 2 ^ (n.log2 - 52) :=
        Nat.mul_le_mul_right _ (le_quotient (by omega))
  · have hsame : m.log2 - 52 = n.log2 - 52 := by omega
    rw [hsame]
    exact Nat.mul_le_mul_right _ (quotient_mono h _)

/-- A number of at most 53 binary digits and then zeros stays. -/
theorem nearest_mul {m : Nat} (h : m < 2 ^ 53) (j : Nat) : nearest (m * 2 ^ j) = m * 2 ^ j := by
  rcases Nat.eq_zero_or_pos m with rfl | hpos
  · rw [Nat.zero_mul]
    decide
  · have hlog : (m * 2 ^ j).log2 < 53 + j := by
      rw [Nat.log2_lt (by positivity), Nat.pow_add]
      exact Nat.mul_lt_mul_of_pos_right h (by positivity)
    have hscale : (m * 2 ^ j).log2 - 52 ≤ j := by omega
    rw [nearest]
    generalize (m * 2 ^ j).log2 - 52 = k at hscale ⊢
    have hsplit : m * 2 ^ j = m * 2 ^ (j - k) * 2 ^ k := by
      rw [Nat.mul_assoc, ← Nat.pow_add, Nat.sub_add_cancel hscale]
    rw [hsplit, quotient_mul]

/-! ## Numbers in units of the least positive one -/

/-- The number `m * 2 ^ e` in units of `2 ^ -1074`. -/
def scaled (m : Nat) (e : Int) : Nat := m * 2 ^ (e + 1074).toNat

/-- Mantissa and exponent as a number has them: 53 binary digits, or fewer at the least exponent. -/
structure Canonical (m : Nat) (e : Int) : Prop where
  lt : m < 2 ^ 53
  le : -1074 ≤ e
  full : 2 ^ 52 ≤ m ∨ e = -1074

/-- The exponent of `limit`, sealed so that the power is never computed. -/
@[irreducible] def limitExponent : Nat := 2098

/-- Where the numbers end. The infinities count as this many units. -/
def limit : Nat := 2 ^ limitExponent

theorem limit_pos : 0 < limit := Nat.two_pow_pos _

/-- A mantissa below 53 binary digits bounds the number of units. -/
theorem scaled_lt (m : Nat) {e : Int} (h : m < 2 ^ 53) :
    scaled m e < 2 ^ (53 + (e + 1074).toNat) := by
  rw [Nat.pow_add]
  exact Nat.mul_lt_mul_of_pos_right h (by positivity)

/-- A mantissa of 53 binary digits gives at least as many units as its first digit. -/
theorem le_scaled {m : Nat} (e : Int) (h : 2 ^ 52 ≤ m) :
    2 ^ (52 + (e + 1074).toNat) ≤ scaled m e := by
  rw [Nat.pow_add]
  exact Nat.mul_le_mul_right _ h

/-- A canonical number is below the limit exactly if its exponent is not too great. -/
theorem scaled_lt_limit_iff {m : Nat} {e : Int} (h : Canonical m e) :
    scaled m e < limit ↔ e ≤ 971 := by
  obtain ⟨hlt, hle, hfull⟩ := h
  have hexponent : limitExponent = 2098 := by rw [limitExponent]
  constructor
  · intro hscaled
    by_contra hgt
    have hm : 2 ^ 52 ≤ m := hfull.resolve_right (by omega)
    have hge : limit ≤ 2 ^ (52 + (e + 1074).toNat) := Nat.pow_le_pow_right (by decide) (by omega)
    exact absurd (hge.trans (le_scaled e hm)) (Nat.not_le.mpr hscaled)
  · intro hexp
    exact (scaled_lt m hlt).trans_le (Nat.pow_le_pow_right (by decide) (by omega))

/-- A power of two moves the first digit. -/
theorem log2_mul_pow {m : Nat} (hm : 0 < m) (k : Nat) : (m * 2 ^ k).log2 = m.log2 + k := by
  have hne : m * 2 ^ k ≠ 0 := by positivity
  rw [Nat.log2_eq_iff hne, Nat.pow_add, Nat.add_right_comm, Nat.pow_add]
  exact ⟨Nat.mul_le_mul_right _ (Nat.log2_self_le hm.ne'),
    Nat.mul_lt_mul_of_pos_right Nat.lt_log2_self (by positivity)⟩

/-- The exponent to round to leaves 53 digits, but is never below the least one. -/
theorem targetExponent_eq (m : Nat) (e : Int) :
    Format.binary64.targetExponent (totalExponent m e) = max (m.log2 + e - 52) (-1074) := by
  have hmin : Format.binary64.minExponent = -1074 := rfl
  have hbits : Format.binary64.mantissaBits = 53 := rfl
  rw [Format.targetExponent, totalExponent, hmin, hbits]
  omega

/-- Shifting to that exponent drops the digits below it. -/
theorem shiftToTargetExponent_eq (m : Nat) (e : Int) :
    shiftToTargetExponent Format.binary64 m e .exact
      = (whole m >>> (max (m.log2 + e - 52) (-1074) - e).toNat,
        max (max (m.log2 + e - 52) (-1074)) e) := by
  rw [shiftToTargetExponent, targetExponent_eq, shiftToExponent]
  refine Prod.ext rfl ?_
  show e + ((max (m.log2 + e - 52) (-1074) - e).toNat : Int) = _
  omega

/-- Shifting to the exponent that leaves 53 digits and rounding there is division with rounding. -/
theorem shiftToTarget_of_round {m : Nat} {e t : Int} (hm : 0 < m) (he : -1074 ≤ e)
    (ht : max (m.log2 + e - 52) (-1074) = t) :
    ∃ em, shiftToTargetExponent Format.binary64 (decreaseExponent m e t).1
        (decreaseExponent m e t).2 .exact = (em, t)
      ∧ em.roundedMantissa = quotient (scaled m e) (t + 1074).toNat := by
  simp only [decreaseExponent, Nat.shiftLeft_eq, shiftToTargetExponent_eq, log2_mul_pow hm]
  refine ⟨_, Prod.ext rfl ?_, ?_⟩
  · simp only
    omega
  · rcases le_or_gt t e with hle | hgt
    · -- digits are added at the end, and nothing is cut off
      have hshift : (max ((m.log2 + (e - t).toNat : Nat) + (e - (e - t).toNat : Int) - 52) (-1074)
          - (e - (e - t).toNat : Int)).toNat = 0 := by omega
      have hscaled : scaled m e = m * 2 ^ (e - t).toNat * 2 ^ (t + 1074).toNat := by
        rw [scaled, Nat.mul_assoc, ← Nat.pow_add]
        congr 2
        omega
      rw [hshift, hscaled, quotient_mul]
      rfl
    · have hzero : (e - t).toNat = 0 := by omega
      have hshift : (t + 1074).toNat = (e + 1074).toNat + (t - e).toNat := by omega
      rw [hshift, scaled, quotient_scale, quotient, hzero]
      simp only [Nat.pow_zero, Nat.mul_one, Nat.add_zero, Int.natCast_zero, Int.sub_zero, ht]

/-- Rounding up to 54 digits carries into the exponent; nothing else moves. -/
theorem shiftToTargetExponent_carry {q : Nat} {t : Int} (hq : q ≤ 2 ^ 53) (ht : -1074 ≤ t) :
    shiftToTargetExponent Format.binary64 q t .exact
      = if q < 2 ^ 53 then (whole q, t) else (whole (2 ^ 52), t + 1) := by
  rw [shiftToTargetExponent_eq]
  by_cases hlt : q < 2 ^ 53
  · have hlog : q.log2 ≤ 52 := by
      rcases Nat.eq_zero_or_pos q with rfl | hpos
      · decide
      · exact Nat.le_of_lt_succ ((Nat.log2_lt hpos.ne').mpr hlt)
    have hshift : (max (q.log2 + t - 52) (-1074) - t).toNat = 0 := by omega
    rw [if_pos hlt, hshift]
    exact Prod.ext rfl (by omega)
  · obtain rfl : q = 2 ^ 53 := by omega
    have hlog : ((2 ^ 53 : Nat).log2 : Int) = 53 := by decide
    have hshift : (max (((2 ^ 53 : Nat).log2 : Int) + t - 52) (-1074) - t).toNat = 1 := by omega
    rw [if_neg hlt, hshift]
    exact Prod.ext (whole_shiftRight (2 ^ 52) 1) (by omega)

/-- A positive number is rounded to the nearest canonical one, as if exponents had no end. -/
theorem round_eq (s : Sign) {m : Nat} {e : Int} (hm : 0 < m) (he : -1074 ≤ e) :
    ∃ m' e' hpos, UnpackedFloat.round Format.binary64 s m e = .finite s m' e' hpos ∧ Canonical m' e'
      ∧ scaled m' e' = nearest (scaled m e) := by
  obtain ⟨em, hfirst, hrounded⟩ := shiftToTarget_of_round hm he rfl
  have hlog : (scaled m e).log2 = m.log2 + (e + 1074).toNat := log2_mul_pow hm _
  have hscale : (max (m.log2 + e - 52) (-1074) + 1074 : Int).toNat = (scaled m e).log2 - 52 := by
    omega
  rw [hscale] at hrounded
  have hq : em.roundedMantissa ≤ 2 ^ 53 := hrounded ▸ quotient_le _
  have ht : (-1074 : Int) ≤ max (m.log2 + e - 52) (-1074) := le_max_right _ _
  have hnearest : em.roundedMantissa * 2 ^ ((scaled m e).log2 - 52) = nearest (scaled m e) := by
    rw [hrounded, nearest]
  -- the digits are 53 in number, unless the exponent is the least one and none are cut off
  have hfull : 2 ^ 52 ≤ em.roundedMantissa
      ∨ max (m.log2 + e - 52) (-1074) = -1074 ∧ 0 < em.roundedMantissa := by
    rcases Nat.lt_or_ge (scaled m e).log2 52 with hsmall | hlarge
    · refine Or.inr ⟨by omega, ?_⟩
      rw [hrounded, Nat.sub_eq_zero_of_le hsmall.le]
      exact Nat.mul_pos hm (by positivity)
    · exact Or.inl (hrounded ▸ le_quotient hlarge)
  have hpos : 0 < em.roundedMantissa := by
    rcases hfull with hfull | hfull
    · exact Nat.lt_of_lt_of_le (by decide) hfull
    · exact hfull.2
  rw [UnpackedFloat.round, targetExponent_eq]
  simp only [roundWithAccuracy, hfirst, shiftToTargetExponent_carry hq ht]
  by_cases hlt : em.roundedMantissa < 2 ^ 53
  · simp only [if_pos hlt]
    have hcanonical : Canonical em.roundedMantissa (max (m.log2 + e - 52) (-1074)) :=
      ⟨hlt, ht, hfull.imp_right And.left⟩
    refine ⟨em.roundedMantissa, _, hpos, dif_neg hpos.ne', hcanonical, ?_⟩
    rw [← hnearest, scaled, hscale]
  · simp only [if_neg hlt]
    have hcarry : em.roundedMantissa = 2 ^ 53 := by omega
    refine ⟨2 ^ 52, _, by decide, dif_neg (Nat.pos_iff_ne_zero.mp (by decide)),
      ⟨by decide, by omega, Or.inl le_rfl⟩, ?_⟩
    have hexponent : (max (m.log2 + e - 52) (-1074) + 1 + 1074 : Int).toNat
        = 1 + ((scaled m e).log2 - 52) := by omega
    rw [← hnearest, hcarry, scaled, hexponent, Nat.pow_add, ← Nat.mul_assoc, ← Nat.pow_add]

/-! ## Bits -/

/-- The number in units of the least positive one. -/
def unitsOf : UnpackedFloat → Int
  | .infinity s => s.apply limit
  | .zero _ => 0
  | .finite s m e _ => s.apply (scaled m e)
  | .notANumber => 0

/-- A number, and of how many units. -/
def IsUnits (u : UnpackedFloat) (n : Int) : Prop := u.isNaN = false ∧ unitsOf u = n

/-- A number as bits can hold it: if it is finite, it is canonical and below the limit. -/
def Proper : UnpackedFloat → Prop
  | .finite _ m e _ => Canonical m e ∧ e ≤ 971
  | _ => True

/-- A proper finite number has a positive number of units below the limit. -/
theorem Proper.scaled_pos_lt {s : Sign} {m : Nat} {e : Int} {hm : 0 < m}
    (h : Proper (.finite s m e hm)) : 0 < scaled m e ∧ scaled m e < limit :=
  ⟨Nat.mul_pos hm (by positivity), (scaled_lt_limit_iff h.1).mpr h.2⟩

/-- A leading one bit adds the power of two above the other bits. -/
theorem toNat_one_append {n : Nat} (v : BitVec n) : (1#1 ++ v).toNat = 2 ^ n + v.toNat := by
  rw [BitVec.toNat_append, ← Nat.shiftLeft_add_eq_or_of_lt v.isLt, Nat.shiftLeft_eq]
  simp

/-- Whatever the bits, what they unpack to is proper. -/
theorem proper_unpack (b : BitVec Format.binary64.numBits) :
    Proper (UnpackedFloat.unpack Format.binary64 b) := by
  have hbias : (Format.binary64.exponentBias : Int) + Format.binary64.mantissaBitsWithoutImplicit
      = 1075 := rfl
  have hmantissa : (unpackMantissa b).toNat < 2 ^ 52 := (unpackMantissa b).isLt
  have hexponent : (unpackExponent b).toNat < 2048 := (unpackExponent b).isLt
  have happend : (1#1 ++ unpackMantissa b).toNat = 2 ^ 52 + (unpackMantissa b).toNat :=
    toNat_one_append _
  rw [UnpackedFloat.unpack]
  simp only [hbias]
  by_cases hones : unpackExponent b = -1#11
  · -- an infinity, or no number
    rw [if_pos hones]
    split <;> trivial
  · have hne : (unpackExponent b).toNat ≠ 2047 := fun h => hones (BitVec.eq_of_toNat_eq h)
    rw [if_neg hones]
    by_cases hzeros : unpackExponent b = 0#11
    · have hzero : (unpackExponent b).toNat = 0 := congrArg BitVec.toNat hzeros
      rw [if_pos hzeros]
      split
      · trivial
      · exact ⟨⟨by omega, by omega, Or.inr (by omega)⟩, by omega⟩
    · have hzero : (unpackExponent b).toNat ≠ 0 := fun h => hzeros (BitVec.eq_of_toNat_eq h)
      rw [if_neg hzeros]
      exact ⟨⟨by omega, by omega, Or.inl (by omega)⟩, by omega⟩

/-- What the fields of a finite number stand for. -/
theorem isUnits_packComponents (s : Sign) {e : BitVec 11} (m : BitVec 52) (hones : e ≠ -1#11) :
    IsUnits (UnpackedFloat.unpack Format.binary64 (packComponents Format.binary64 s e m))
      (s.apply (if e = 0#11 then scaled m.toNat (-1074)
        else scaled (2 ^ 52 + m.toNat) (e.toNat - 1075) : Nat)) := by
  have hbias : (Format.binary64.exponentBias : Int) + Format.binary64.mantissaBitsWithoutImplicit
      = 1075 := rfl
  have happend : (1#1 ++ m).toNat = 2 ^ 52 + m.toNat := toNat_one_append m
  rw [UnpackedFloat.unpack]
  simp only [unpackExponent_packComponents, unpackMantissa_packComponents,
    unpackSign_packComponents, Sign.ofBitVec_toBitVec, if_neg hones, hbias]
  by_cases hzeros : e = 0#11
  · rw [if_pos hzeros, if_pos hzeros]
    split
    · rename_i hzero
      refine ⟨rfl, ?_⟩
      rw [hzero]
      cases s <;> simp [unitsOf, scaled, Sign.apply]
    · refine ⟨rfl, ?_⟩
      rw [hzeros]
      rfl
  · rw [if_neg hzeros, if_neg hzeros]
    refine ⟨rfl, ?_⟩
    rw [unitsOf, ← happend]

/-- Fields with all digits of the mantissa but the first, which is one. -/
theorem isUnits_packComponents_full (s : Sign) {m : Nat} {e : Int} (hm : 2 ^ 52 ≤ m)
    (hlt : m < 2 ^ 53) (hle : -1074 ≤ e) (hmax : e ≤ 971) :
    IsUnits (UnpackedFloat.unpack Format.binary64 (packComponents Format.binary64 s
      (BitVec.ofNat 11 (e + 1075).toNat) (BitVec.ofNat 52 m))) (s.apply (scaled m e)) := by
  have hexponent : (BitVec.ofNat 11 (e + 1075).toNat).toNat = (e + 1075).toNat := by
    rw [BitVec.toNat_ofNat]
    omega
  have hmantissa : 2 ^ 52 + (BitVec.ofNat 52 m).toNat = m := by
    rw [BitVec.toNat_ofNat]
    omega
  have hones : BitVec.ofNat 11 (e + 1075).toNat ≠ -1#11 := by
    intro h
    have hnat : (BitVec.ofNat 11 (e + 1075).toNat).toNat = 2047 := congrArg BitVec.toNat h
    omega
  have hzeros : BitVec.ofNat 11 (e + 1075).toNat ≠ 0#11 := by
    intro h
    have hnat : (BitVec.ofNat 11 (e + 1075).toNat).toNat = 0 := congrArg BitVec.toNat h
    omega
  have hunits := isUnits_packComponents s (BitVec.ofNat 52 m) hones
  have he : ((e + 1075).toNat : Int) - 1075 = e := by omega
  rwa [if_neg hzeros, hmantissa, hexponent, he] at hunits

/-- Fields with all digits of a mantissa that has fewer. -/
theorem isUnits_packComponents_short (s : Sign) {m : Nat} (hm : m < 2 ^ 52) :
    IsUnits (UnpackedFloat.unpack Format.binary64 (packComponents Format.binary64 s 0#11
      (BitVec.ofNat 52 m))) (s.apply (scaled m (-1074))) := by
  have hmantissa : (BitVec.ofNat 52 m).toNat = m := by
    rw [BitVec.toNat_ofNat]
    omega
  have hunits := isUnits_packComponents s (BitVec.ofNat 52 m) (by decide : 0#11 ≠ -1#11)
  rwa [if_pos rfl, hmantissa] at hunits

/-- Packing keeps the units of a canonical number up to the limit; past it stands infinity. -/
theorem isUnits_pack (s : Sign) {m : Nat} {e : Int} (hm : 0 < m) (h : Canonical m e) :
    IsUnits (Float.Model.pack (.finite s m e hm)).unpack
      (s.apply (min (scaled m e) limit : Nat)) := by
  have hlimit := scaled_lt_limit_iff h
  obtain ⟨hlt, hle, hfull⟩ := h
  have hbias : (Format.binary64.exponentBias : Int) = 1023 := rfl
  have hbits : Format.binary64.mantissaBits = 53 := rfl
  have hexponent : (e + 1023 + (52 : Nat)).toNat = (e + 1075).toNat := by omega
  show IsUnits (UnpackedFloat.unpack Format.binary64
    (UnpackedFloat.pack Format.binary64 (.finite s m e hm))) _
  rw [UnpackedFloat.pack]
  simp only [hbias, hbits, hexponent]
  by_cases hbig : 971 < e
  · have hover : 2 ^ 11 ≤ (e + 1075).toNat + 1 := by omega
    rw [if_pos hover, Nat.min_eq_right (by omega)]
    cases s <;> exact ⟨rfl, rfl⟩
  · have hover : ¬ 2 ^ 11 ≤ (e + 1075).toNat + 1 := by omega
    rw [if_neg hover, Nat.min_eq_left (by omega)]
    by_cases hnormal : 2 ^ 52 ≤ m
    · have hlog : m.log2 = 52 := (Nat.log2_eq_iff hm.ne').mpr ⟨hnormal, hlt⟩
      rw [if_pos (by omega)]
      exact isUnits_packComponents_full s hnormal hlt hle (by omega)
    · have hlog : m.log2 < 52 := (Nat.log2_lt hm.ne').mpr (Nat.lt_of_not_le hnormal)
      rw [if_neg (by omega), hfull.resolve_left hnormal]
      exact isUnits_packComponents_short s (Nat.lt_of_not_le hnormal)

/-- What bits can hold comes back from them. -/
theorem isUnits_pack_proper {u : UnpackedFloat} (hnan : u.isNaN = false) (h : Proper u) :
    IsUnits (Float.Model.pack u).unpack (unitsOf u) := by
  cases u with
  | infinity s => cases s <;> exact ⟨rfl, rfl⟩
  | notANumber => exact absurd hnan (by decide)
  | zero s => cases s <;> exact ⟨rfl, rfl⟩
  | finite s m e hm =>
      have hunits := isUnits_pack s hm h.1
      rwa [Nat.min_eq_left h.scaled_pos_lt.2.le] at hunits

end Softcode.Binary64
