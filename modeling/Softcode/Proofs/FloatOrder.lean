import Softcode.Proofs.FloatRounding
import Softcode.Score

/-!
# Order in floating-point arithmetic

Sums of floating-point numbers are rounded, so they depend on the order of the terms and need not
grow by what is added. They keep the order all the same: adding to both sides keeps it
(`add_le_add_right`), adding what is not negative makes nothing smaller (`le_add_right`), and
subtracting more leaves less (`sub_le_sub_left`), with infinite numbers and where the results are
too great to be represented.

Comparing numbers is comparing their units (`le_iff`), and a sum or a difference is the exact one,
rounded and kept within the limit (`rounded`). So all that is left is that rounding keeps the order
(`rounded_mono`).
-/

namespace Softcode.Binary64

open Float.Model (Format UnpackedFloat)
open Float.Model.UnpackedFloat

/-! ## Rounded sums -/

/-- The nearest number to a number of units, or the limit on its side. -/
def rounded (n : Int) : Int := n.sign * (min (nearest n.natAbs) limit : Nat)

theorem rounded_zero : rounded 0 = 0 := Int.zero_mul _

/-- Rounding keeps the sign and rounds the size. -/
theorem rounded_apply (s : Sign) (n : Nat) :
    rounded (s.apply n) = s.apply (min (nearest n) limit : Nat) := by
  rcases Nat.eq_zero_or_pos n with rfl | hpos
  · cases s <;> rfl
  · cases s
    · simp only [rounded, Sign.apply, Int.sign_neg, Int.sign_natCast_of_ne_zero hpos.ne',
        Int.natAbs_neg, Int.natAbs_natCast, Int.neg_mul, Int.one_mul]
    · simp only [rounded, Sign.apply, Int.sign_natCast_of_ne_zero hpos.ne', Int.natAbs_natCast,
        Int.one_mul]

theorem rounded_natCast (n : Nat) : rounded n = (min (nearest n) limit : Nat) :=
  rounded_apply .positive n

theorem rounded_neg_natCast (n : Nat) : rounded (-n) = -(min (nearest n) limit : Nat) :=
  rounded_apply .negative n

/-- Rounding keeps the order on both sides of zero, where it goes by the distance from zero. -/
theorem rounded_mono {m n : Int} (h : m ≤ n) : rounded m ≤ rounded n := by
  obtain ⟨a, rfl | rfl⟩ := m.eq_nat_or_neg
  · obtain ⟨b, rfl⟩ := Int.eq_ofNat_of_zero_le ((Int.natCast_nonneg a).trans h)
    have hab := nearest_mono (show a ≤ b by omega)
    rw [rounded_natCast, rounded_natCast]
    omega
  · obtain ⟨b, rfl | rfl⟩ := n.eq_nat_or_neg
    · rw [rounded_natCast, rounded_neg_natCast]
      omega
    · have hab := nearest_mono (show b ≤ a by omega)
      rw [rounded_neg_natCast, rounded_neg_natCast]
      omega

/-- A rounded number is between the limit and its opposite. -/
theorem rounded_mem (n : Int) : -limit ≤ rounded n ∧ rounded n ≤ limit := by
  obtain ⟨a, rfl | rfl⟩ := n.eq_nat_or_neg
  · rw [rounded_natCast]
    omega
  · rw [rounded_neg_natCast]
    omega

/-- The limit is its own nearest number. -/
theorem nearest_limit : nearest limit = limit := by
  have h := nearest_mul (by decide : 1 < 2 ^ 53) limitExponent
  rwa [Nat.one_mul] at h

/-- What reaches the limit rounds to the limit. -/
theorem rounded_of_limit_le {n : Int} (h : limit ≤ n) : rounded n = limit := by
  have hlimit : rounded limit = limit := by
    rw [rounded_natCast, nearest_limit, Nat.min_self]
  exact Int.le_antisymm (rounded_mem n).2 (hlimit ▸ rounded_mono h)

/-- The numbers stay when they are rounded. -/
theorem rounded_unitsOf {u : UnpackedFloat} (h : Proper u) : rounded (unitsOf u) = unitsOf u := by
  cases u with
  | infinity s => rw [unitsOf, rounded_apply, nearest_limit, Nat.min_self]
  | notANumber => exact rounded_zero
  | zero s => exact rounded_zero
  | finite s m e hm =>
      have hnearest : nearest (scaled m e) = scaled m e := nearest_mul h.1.lt _
      rw [unitsOf, rounded_apply, hnearest, Nat.min_eq_left h.scaled_pos_lt.2.le]

/-- The rounding of the format has the rounded number of units. -/
theorem isUnits_round (s : Sign) {m : Nat} {e : Int} (hm : 0 < m) (he : -1074 ≤ e) :
    IsUnits (Float.Model.pack (UnpackedFloat.round Format.binary64 s m e)).unpack
      (rounded (s.apply (scaled m e))) := by
  obtain ⟨m', e', hpos, hround, hcanonical, hscaled⟩ := round_eq s hm he
  rw [hround, rounded_apply, ← hscaled]
  exact isUnits_pack s hpos hcanonical

/-- So has its normalization of a signed number. -/
theorem isUnits_normalize (m : Int) {e : Int} (he : -1074 ≤ e) :
    IsUnits (Float.Model.pack (UnpackedFloat.normalize Format.binary64 m e .positive)).unpack
      (rounded (m * 2 ^ (e + 1074).toNat)) := by
  rw [UnpackedFloat.normalize]
  rcases lt_trichotomy m 0 with hneg | rfl | hpos
  · have hunits := isUnits_round .negative (m := (-m).toNat) (by omega) he
    have hvalue : Sign.negative.apply (scaled (-m).toNat e : Nat) = m * 2 ^ (e + 1074).toNat := by
      simp only [Sign.apply, scaled, Nat.cast_mul, Nat.cast_pow, Nat.cast_ofNat]
      rw [Int.toNat_of_nonneg (by omega), Int.neg_mul, Int.neg_neg]
    rw [compare_lt_iff_lt.mpr hneg]
    rwa [hvalue] at hunits
  · rw [Int.zero_mul, rounded_zero]
    exact isUnits_pack_proper rfl trivial
  · have hunits := isUnits_round .positive (m := m.toNat) (by omega) he
    have hvalue : Sign.positive.apply (scaled m.toNat e : Nat) = m * 2 ^ (e + 1074).toNat := by
      simp only [Sign.apply, scaled, Nat.cast_mul, Nat.cast_pow, Nat.cast_ofNat]
      rw [Int.toNat_of_nonneg (by omega)]
    rw [compare_gt_iff_gt.mpr hpos]
    rwa [hvalue] at hunits

/-- A lower exponent leaves the scaled number as it is. -/
theorem decreaseExponent_scaled {m : Nat} {e t : Int} (hle : t ≤ e) (ht : -1074 ≤ t) :
    ((decreaseExponent m e t).1 : Int) * 2 ^ (t + 1074).toNat = scaled m e := by
  have hexponent : (e + 1074).toNat = (e - t).toNat + (t + 1074).toNat := by omega
  rw [decreaseExponent, Nat.shiftLeft_eq, scaled, hexponent, Nat.pow_add, ← Nat.mul_assoc]
  push_cast
  rfl

/-- The sum of two finite numbers is their exact sum, rounded. -/
theorem isUnits_add {x y : UnpackedFloat} (hx : Proper x) (hy : Proper y)
    (hxfin : x.isFinite = true) (hyfin : y.isFinite = true) :
    IsUnits (Float.Model.pack (UnpackedFloat.add Format.binary64 x y)).unpack
      (rounded (unitsOf x + unitsOf y)) := by
  match x, y with
  | .zero s, .zero s' =>
      rw [show unitsOf (.zero s) + unitsOf (.zero s') = 0 from rfl, rounded_zero]
      cases s <;> cases s' <;> exact isUnits_pack_proper rfl trivial
  | .zero s, .finite s' m' e' hm' =>
      have hunits := isUnits_pack_proper rfl hy
      rw [← rounded_unitsOf hy, ← Int.zero_add (unitsOf _)] at hunits
      exact hunits
  | .finite s m e hm, .zero s' =>
      have hunits := isUnits_pack_proper rfl hx
      rw [← rounded_unitsOf hx, ← Int.add_zero (unitsOf _)] at hunits
      exact hunits
  | .finite s m e hm, .finite s' m' e' hm' =>
      -- both are brought to the lesser exponent, where the sum of the mantissas is exact
      have hle : -1074 ≤ min e e' := le_min hx.1.le hy.1.le
      have hunits := isUnits_normalize (s.apply (decreaseExponent m e (min e e')).1
        + s'.apply (decreaseExponent m' e' (min e e')).1) hle
      have hsum : (s.apply (decreaseExponent m e (min e e')).1
          + s'.apply (decreaseExponent m' e' (min e e')).1) * 2 ^ (min e e' + 1074).toNat
          = s.apply (scaled m e) + s'.apply (scaled m' e') := by
        have h := decreaseExponent_scaled (m := m) (min_le_left e e') hle
        have h' := decreaseExponent_scaled (m := m') (min_le_right e e') hle
        cases s <;> cases s' <;> simp only [Sign.apply, Int.add_mul, Int.neg_mul, h, h']
      rw [hsum] at hunits
      exact hunits
  | .infinity _, _ | .notANumber, _ => exact absurd hxfin Bool.false_ne_true
  | .zero _, .infinity _ | .zero _, .notANumber => exact absurd hyfin Bool.false_ne_true
  | .finite _ _ _ _, .infinity _ | .finite _ _ _ _, .notANumber =>
      exact absurd hyfin Bool.false_ne_true

/-- A number that is not finite and not negative is the positive infinity. -/
theorem eq_infinity {u : UnpackedFloat} (hnan : u.isNaN = false) (hfin : u.isFinite = false)
    (h : 0 ≤ unitsOf u) : u = .infinity .positive := by
  have hlimit := limit_pos
  match u with
  | .infinity .positive => rfl
  | .infinity .negative =>
      simp only [unitsOf, Sign.apply] at h
      omega
  | .notANumber => exact absurd hnan (by decide)
  | .zero _ | .finite _ _ _ _ => exact absurd hfin.symm Bool.false_ne_true

/-- Adding a number that is not negative to the infinity, on either side, gives the infinity. -/
theorem add_infinity {u : UnpackedFloat} (hnan : u.isNaN = false) (h : 0 ≤ unitsOf u) :
    UnpackedFloat.add Format.binary64 (.infinity .positive) u = .infinity .positive
      ∧ UnpackedFloat.add Format.binary64 u (.infinity .positive) = .infinity .positive := by
  cases hfin : u.isFinite with
  | false =>
      obtain rfl := eq_infinity hnan hfin h
      exact ⟨rfl, rfl⟩
  | true =>
      cases u with
      | infinity s => exact absurd hfin Bool.false_ne_true
      | notANumber => exact absurd hnan (by decide)
      | zero s => exact ⟨rfl, rfl⟩
      | finite s m e hm => exact ⟨rfl, rfl⟩

/-- Also with infinite numbers, a sum of numbers that are not negative is the exact sum, rounded. -/
theorem isUnits_add_of_nonneg {x y : UnpackedFloat} (hx : Proper x) (hy : Proper y)
    (hxnan : x.isNaN = false) (hynan : y.isNaN = false) (hxunits : 0 ≤ unitsOf x)
    (hyunits : 0 ≤ unitsOf y) :
    IsUnits (Float.Model.pack (UnpackedFloat.add Format.binary64 x y)).unpack
      (rounded (unitsOf x + unitsOf y)) := by
  have hinfinite : ∀ {n : Int}, 0 ≤ n →
      IsUnits (Float.Model.pack (.infinity .positive)).unpack (rounded (limit + n)) := by
    intro n hn
    rw [rounded_of_limit_le (by omega)]
    exact isUnits_pack_proper rfl trivial
  cases hxfin : x.isFinite with
  | false =>
      obtain rfl := eq_infinity hxnan hxfin hxunits
      rw [(add_infinity hynan hyunits).1]
      exact hinfinite hyunits
  | true =>
      cases hyfin : y.isFinite with
      | false =>
          obtain rfl := eq_infinity hynan hyfin hyunits
          rw [(add_infinity hxnan hxunits).2, Int.add_comm]
          exact hinfinite hxunits
      | true => exact isUnits_add hx hy hxfin hyfin

theorem apply_neg (s : Sign) (n : Int) : (-s).apply n = -s.apply n := by
  cases s
  · exact (Int.neg_neg n).symm
  · rfl

/-- The opposite number has the opposite number of units. -/
theorem unitsOf_neg (u : UnpackedFloat) : unitsOf u.neg = -unitsOf u := by
  cases u with
  | infinity s => exact apply_neg s _
  | notANumber => rfl
  | zero s => rfl
  | finite s m e hm => exact apply_neg s _

/-- The difference of two finite numbers is a sum with the opposite number. -/
theorem sub_eq_add_opposite {x y : UnpackedFloat} (hx : x.isFinite = true)
    (hy : y.isFinite = true) :
    UnpackedFloat.sub Format.binary64 x y = UnpackedFloat.add Format.binary64 x y.neg := by
  match x, y with
  | .zero _, .zero _ | .zero _, .finite _ _ _ _ | .finite _ _ _ _, .zero _ => rfl
  | .finite s m e hm, .finite s' m' e' hm' =>
      simp only [UnpackedFloat.sub, UnpackedFloat.add, UnpackedFloat.neg, apply_neg,
        Int.sub_eq_add_neg]
  | .infinity _, _ | .notANumber, _ => exact absurd hx Bool.false_ne_true
  | .zero _, .infinity _ | .zero _, .notANumber => exact absurd hy Bool.false_ne_true
  | .finite _ _ _ _, .infinity _ | .finite _ _ _ _, .notANumber =>
      exact absurd hy Bool.false_ne_true

/-! ## Comparing numbers -/

/-- Exponents first and then mantissas is the order of canonical numbers: there is always a power of
two between two exponents. -/
theorem compare_scaled {m m' : Nat} {e e' : Int} (h : Canonical m e) (h' : Canonical m' e') :
    (compare e e').then (compare m m') = compare (scaled m e) (scaled m' e') := by
  have hlt : ∀ {m m' : Nat} {e e' : Int}, Canonical m e → Canonical m' e' → e < e' →
      scaled m e < scaled m' e' := by
    intro m m' e e' h h' hlt
    have hle := h.le
    calc scaled m e < 2 ^ (53 + (e + 1074).toNat) := scaled_lt m h.lt
      _ ≤ 2 ^ (52 + (e' + 1074).toNat) := Nat.pow_le_pow_right (by decide) (by omega)
      _ ≤ scaled m' e' := le_scaled e' (h'.full.resolve_right (by omega))
  rcases lt_trichotomy e e' with hcase | rfl | hcase
  · rw [compare_lt_iff_lt.mpr hcase, compare_lt_iff_lt.mpr (hlt h h' hcase)]
    rfl
  · have hpos : 0 < 2 ^ (e + 1074).toNat := by positivity
    rw [compare_eq_iff_eq.mpr rfl]
    rcases lt_trichotomy m m' with hcase | rfl | hcase
    · rw [compare_lt_iff_lt.mpr hcase, compare_lt_iff_lt.mpr
        (show scaled m e < scaled m' e from Nat.mul_lt_mul_of_pos_right hcase hpos)]
      rfl
    · rw [compare_eq_iff_eq.mpr rfl, compare_eq_iff_eq.mpr rfl]
      rfl
    · rw [compare_gt_iff_gt.mpr hcase, compare_gt_iff_gt.mpr
        (show scaled m' e < scaled m e from Nat.mul_lt_mul_of_pos_right hcase hpos)]
      rfl
  · rw [compare_gt_iff_gt.mpr hcase, compare_gt_iff_gt.mpr (hlt h' h hcase)]
    rfl

theorem compare_natCast (a b : Nat) : compare (a : Int) (b : Int) = compare a b := by
  rcases lt_trichotomy a b with h | rfl | h
  · rw [compare_lt_iff_lt.mpr h, compare_lt_iff_lt.mpr (by omega)]
  · rw [compare_eq_iff_eq.mpr rfl, compare_eq_iff_eq.mpr rfl]
  · rw [compare_gt_iff_gt.mpr h, compare_gt_iff_gt.mpr (by omega)]

theorem compare_neg (a b : Int) : compare (-a) (-b) = (compare a b).swap := by
  rcases lt_trichotomy a b with h | rfl | h
  · rw [compare_lt_iff_lt.mpr h, compare_gt_iff_gt.mpr (Int.neg_lt_neg h)]
    rfl
  · rw [compare_eq_iff_eq.mpr rfl, compare_eq_iff_eq.mpr rfl]
    rfl
  · rw [compare_gt_iff_gt.mpr h, compare_lt_iff_lt.mpr (Int.neg_lt_neg h)]
    rfl

/-- The comparison by units, where the first number is the smaller one. -/
theorem compare_of_lt {x y : UnpackedFloat} (h : unitsOf x < unitsOf y)
    (hlt : x.compare y = some .lt) : x.compare y = some (compare (unitsOf x) (unitsOf y)) := by
  rw [hlt, compare_lt_iff_lt.mpr h]

/-- The comparison by units, where the first number is the greater one. -/
theorem compare_of_gt {x y : UnpackedFloat} (h : unitsOf y < unitsOf x)
    (hgt : x.compare y = some .gt) : x.compare y = some (compare (unitsOf x) (unitsOf y)) := by
  rw [hgt, compare_gt_iff_gt.mpr h]

/-- Numbers compare as their units do. One case for each pair of kinds and signs; only two finite
numbers of one sign need a look at their digits. -/
theorem compare_eq_units {x y : UnpackedFloat} (hx : Proper x) (hy : Proper y)
    (hxnan : x.isNaN = false) (hynan : y.isNaN = false) :
    x.compare y = some (compare (unitsOf x) (unitsOf y)) := by
  have hlimit := limit_pos
  match x, y with
  | .notANumber, _ => exact absurd hxnan (by decide)
  | .infinity _, .notANumber | .zero _, .notANumber | .finite _ _ _ _, .notANumber =>
      exact absurd hynan (by decide)
  | .infinity .negative, .infinity .negative | .infinity .positive, .infinity .positive =>
      rw [compare_eq_iff_eq.mpr rfl]
      rfl
  | .infinity .negative, .infinity .positive =>
      exact compare_of_lt (by simp only [unitsOf, Sign.apply]; omega) rfl
  | .infinity .positive, .infinity .negative =>
      exact compare_of_gt (by simp only [unitsOf, Sign.apply]; omega) rfl
  | .infinity .negative, .zero _ | .zero _, .infinity .positive =>
      exact compare_of_lt (by simp only [unitsOf, Sign.apply]; omega) rfl
  | .infinity .positive, .zero _ | .zero _, .infinity .negative =>
      exact compare_of_gt (by simp only [unitsOf, Sign.apply]; omega) rfl
  | .zero _, .zero _ => exact congrArg some (compare_eq_iff_eq.mpr rfl).symm
  | .infinity s, .finite s' m' e' hm' =>
      obtain ⟨hpos', hlt'⟩ := hy.scaled_pos_lt
      cases s <;> cases s'
      · exact compare_of_lt (by simp only [unitsOf, Sign.apply]; omega) rfl
      · exact compare_of_lt (by simp only [unitsOf, Sign.apply]; omega) rfl
      · exact compare_of_gt (by simp only [unitsOf, Sign.apply]; omega) rfl
      · exact compare_of_gt (by simp only [unitsOf, Sign.apply]; omega) rfl
  | .finite s m e hm, .infinity s' =>
      obtain ⟨hpos, hlt⟩ := hx.scaled_pos_lt
      cases s <;> cases s'
      · exact compare_of_gt (by simp only [unitsOf, Sign.apply]; omega) rfl
      · exact compare_of_lt (by simp only [unitsOf, Sign.apply]; omega) rfl
      · exact compare_of_gt (by simp only [unitsOf, Sign.apply]; omega) rfl
      · exact compare_of_lt (by simp only [unitsOf, Sign.apply]; omega) rfl
  | .zero _, .finite s' m' e' hm' =>
      obtain ⟨hpos', hlt'⟩ := hy.scaled_pos_lt
      cases s'
      · exact compare_of_gt (by simp only [unitsOf, Sign.apply]; omega) rfl
      · exact compare_of_lt (by simp only [unitsOf, Sign.apply]; omega) rfl
  | .finite s m e hm, .zero _ =>
      obtain ⟨hpos, hlt⟩ := hx.scaled_pos_lt
      cases s
      · exact compare_of_lt (by simp only [unitsOf, Sign.apply]; omega) rfl
      · exact compare_of_gt (by simp only [unitsOf, Sign.apply]; omega) rfl
  | .finite s m e hm, .finite s' m' e' hm' =>
      obtain ⟨hpos, hlt⟩ := hx.scaled_pos_lt
      obtain ⟨hpos', hlt'⟩ := hy.scaled_pos_lt
      have hscaled := compare_scaled hx.1 hy.1
      cases s <;> cases s'
      · show some ((compare e e').then (compare m m')).swap
          = some (compare (-(scaled m e : Int)) (-(scaled m' e' : Int)))
        rw [hscaled, compare_neg, compare_natCast]
      · exact compare_of_lt (by simp only [unitsOf, Sign.apply]; omega) rfl
      · exact compare_of_gt (by simp only [unitsOf, Sign.apply]; omega) rfl
      · show some ((compare e e').then (compare m m'))
          = some (compare (scaled m e : Int) (scaled m' e' : Int))
        rw [hscaled, compare_natCast]

/-- Nothing compares with what is not a number. -/
theorem compare_of_isNaN {x y : UnpackedFloat} (h : x.isNaN = true ∨ y.isNaN = true) :
    x.compare y = none := by
  cases x <;> cases y <;> simp_all [UnpackedFloat.isNaN, UnpackedFloat.compare]

/-! ## Floating-point numbers -/

/-- The units of a floating-point number. -/
def units (a : Float) : Int := unitsOf a.toModel.unpack

/-- The number is neither infinite nor undefined. -/
def Finite (a : Float) : Prop := a.toModel.unpack.isFinite = true

/-- The parts of a floating-point number are proper. -/
theorem proper (a : Float) : Proper a.toModel.unpack := proper_unpack _

/-- Floating-point numbers compare as their units do, unless one is not a number. -/
theorem compare_unpack (a b : Float) :
    a.toModel.unpack.compare b.toModel.unpack
      = if a.isNaN || b.isNaN then none else some (compare (units a) (units b)) := by
  cases ha : a.isNaN with
  | true => exact compare_of_isNaN (Or.inl ha)
  | false =>
      cases hb : b.isNaN with
      | true => exact compare_of_isNaN (Or.inr hb)
      | false => exact compare_eq_units (proper a) (proper b) ha hb

/-- At most, in units. -/
theorem le_iff {a b : Float} :
    a ≤ b ↔ a.isNaN = false ∧ b.isNaN = false ∧ units a ≤ units b := by
  have hle : a ≤ b ↔ (a.toModel.unpack.compare b.toModel.unpack).any Ordering.isLE = true :=
    decide_eq_true_iff
  rw [hle, compare_unpack]
  cases a.isNaN <;> cases b.isNaN <;> simp [Int.isLE_compare]

/-- Less, in units. -/
theorem lt_iff {a b : Float} :
    a < b ↔ a.isNaN = false ∧ b.isNaN = false ∧ units a < units b := by
  have hlt : a < b ↔ (a.toModel.unpack.compare b.toModel.unpack == some .lt) = true :=
    decide_eq_true_iff
  rw [hlt, compare_unpack]
  cases a.isNaN <;> cases b.isNaN <;> simp [compare_lt_iff_lt]

/-- The order on floating-point numbers is transitive. -/
theorem le_trans {a b c : Float} (hab : a ≤ b) (hbc : b ≤ c) : a ≤ c := by
  rw [le_iff] at *
  exact ⟨hab.1, hbc.2.1, hab.2.2.trans hbc.2.2⟩

/-- The sum of two numbers that are not negative has the rounded sum of their units. -/
theorem units_add {a b : Float} (ha : 0 ≤ a) (hb : 0 ≤ b) :
    (a + b).isNaN = false ∧ units (a + b) = rounded (units a + units b) := by
  obtain ⟨-, hanan, haunits⟩ := le_iff.mp ha
  obtain ⟨-, hbnan, hbunits⟩ := le_iff.mp hb
  exact isUnits_add_of_nonneg (proper a) (proper b) hanan hbnan haunits hbunits

/-- Adding to both sides keeps the order. -/
theorem add_le_add_right {a b c : Float} (ha : 0 ≤ a) (hab : a ≤ b) (hc : 0 ≤ c) :
    a + c ≤ b + c := by
  obtain ⟨hleft, hleftUnits⟩ := units_add ha hc
  obtain ⟨hright, hrightUnits⟩ := units_add (le_trans ha hab) hc
  refine le_iff.mpr ⟨hleft, hright, ?_⟩
  rw [hleftUnits, hrightUnits]
  exact rounded_mono (Int.add_le_add_right (le_iff.mp hab).2.2 _)

/-- Adding what is not negative makes nothing smaller. -/
theorem le_add_right {a c : Float} (ha : 0 ≤ a) (hc : 0 ≤ c) : a ≤ a + c := by
  obtain ⟨hsum, hsumUnits⟩ := units_add ha hc
  obtain ⟨-, hanan, -⟩ := le_iff.mp ha
  obtain ⟨-, -, hcunits⟩ := le_iff.mp hc
  refine le_iff.mpr ⟨hanan, hsum, ?_⟩
  calc units a = rounded (units a) := (rounded_unitsOf (proper a)).symm
    _ ≤ rounded (units a + units c) := rounded_mono (Int.le_add_of_nonneg_right hcunits)
    _ = units (a + c) := hsumUnits.symm

/-- The difference of two finite numbers has the rounded difference of their units. -/
theorem units_sub {a b : Float} (ha : Finite a) (hb : Finite b) :
    (a - b).isNaN = false ∧ units (a - b) = rounded (units a - units b) := by
  have hneg : Proper b.toModel.unpack.neg ∧ b.toModel.unpack.neg.isFinite = true := by
    have hproper := proper b
    rw [Finite] at hb
    cases hu : b.toModel.unpack <;> rw [hu] at hproper hb <;> exact ⟨hproper, hb⟩
  have hunits := isUnits_add (proper a) hneg.1 ha hneg.2
  rw [← sub_eq_add_opposite ha hb, unitsOf_neg, ← Int.sub_eq_add_neg] at hunits
  exact hunits

/-- A number that is not negative and not finite is the positive infinity. -/
theorem unpack_eq_infinity {a : Float} (ha : 0 ≤ a) (hinfinite : ¬ Finite a) :
    a.toModel.unpack = .infinity .positive := by
  obtain ⟨-, hnan, hunits⟩ := le_iff.mp ha
  exact eq_infinity hnan (Bool.eq_false_of_not_eq_true hinfinite) hunits

/-- A finite number less the infinity has the opposite of the limit as its units. -/
theorem units_sub_infinity {a b : Float} (ha : Finite a) (hb : 0 ≤ b) (hinfinite : ¬ Finite b) :
    (a - b).isNaN = false ∧ units (a - b) = -limit := by
  have hsub : UnpackedFloat.sub Format.binary64 a.toModel.unpack b.toModel.unpack
      = .infinity .negative := by
    rw [Finite] at ha
    rw [unpack_eq_infinity hb hinfinite]
    cases hu : a.toModel.unpack with
    | infinity s => rw [hu] at ha; exact absurd ha Bool.false_ne_true
    | notANumber => rw [hu] at ha; exact absurd ha Bool.false_ne_true
    | zero s => rfl
    | finite s m e hm => rfl
  show IsUnits (Float.Model.pack (UnpackedFloat.sub Format.binary64 a.toModel.unpack
    b.toModel.unpack)).unpack (-limit)
  rw [hsub]
  exact isUnits_pack_proper rfl trivial

/-- A finite number has fewer units than the limit. -/
theorem Finite.units_lt_limit {a : Float} (h : Finite a) : units a < limit := by
  have hproper := proper a
  rw [Finite] at h
  rw [units]
  cases hu : a.toModel.unpack with
  | infinity s => rw [hu] at h; exact absurd h Bool.false_ne_true
  | notANumber => rw [hu] at h; exact absurd h Bool.false_ne_true
  | zero s => exact Int.natCast_pos.mpr limit_pos
  | finite s m e hm =>
      rw [hu] at hproper
      have hscaled := hproper.scaled_pos_lt
      cases s <;> simp only [unitsOf, Sign.apply] <;> omega

/-- A number that is not negative and at most a finite one is finite. -/
theorem finite_of_le {a b : Float} (ha : 0 ≤ a) (hab : a ≤ b) (hb : Finite b) : Finite a := by
  by_contra hinfinite
  have hlimit : units a = limit := by
    rw [units, unpack_eq_infinity ha hinfinite]
    rfl
  have hle := (le_iff.mp hab).2.2
  have hlt := hb.units_lt_limit
  omega

/-- Subtracting more leaves less. -/
theorem sub_le_sub_left {a b c : Float} (hc : Finite c) (ha : 0 ≤ a) (hab : a ≤ b) :
    c - b ≤ c - a := by
  by_cases hbfin : Finite b
  · obtain ⟨hanan, haunits⟩ := units_sub hc (finite_of_le ha hab hbfin)
    obtain ⟨hbnan, hbunits⟩ := units_sub hc hbfin
    refine le_iff.mpr ⟨hbnan, hanan, ?_⟩
    rw [haunits, hbunits]
    exact rounded_mono (Int.sub_le_sub_left (le_iff.mp hab).2.2 _)
  · -- nothing is less than what an infinite number leaves
    obtain ⟨hbnan, hbunits⟩ := units_sub_infinity hc (le_trans ha hab) hbfin
    have hanan : (c - a).isNaN = false := by
      by_cases hafin : Finite a
      · exact (units_sub hc hafin).1
      · exact (units_sub_infinity hc ha hafin).1
    refine le_iff.mpr ⟨hbnan, hanan, ?_⟩
    rw [hbunits, units, ← rounded_unitsOf (proper (c - a))]
    exact (rounded_mem _).1

/-- The greater of two numbers grows with the first. -/
theorem greater_le_greater {a b c : Float} (hab : a ≤ b) (hc : c.isNaN = false) :
    (Quantity.greater a c : Float) ≤ Quantity.greater b c := by
  obtain ⟨ha, hb, hunits⟩ := le_iff.mp hab
  have hgreater : ∀ x : Float, x.isNaN = false →
      (Quantity.greater x c : Float).isNaN = false
        ∧ units (Quantity.greater x c) = max (units x) (units c) := by
    intro x hx
    simp only [Quantity.greater, hx, hc, Bool.false_eq_true, if_false, lt_iff, true_and]
    split
    · exact ⟨hc, by omega⟩
    · exact ⟨hx, by omega⟩
  obtain ⟨hleft, hleftUnits⟩ := hgreater a ha
  obtain ⟨hright, hrightUnits⟩ := hgreater b hb
  refine le_iff.mpr ⟨hleft, hright, ?_⟩
  omega

/-- A greater number reaches more half-way marks. -/
theorem boundedFloat_mono {a b : Float} (hab : a ≤ b) : boundedFloat a ≤ boundedFloat b := by
  rw [boundedFloat, boundedFloat]
  refine List.countP_mono_left fun n _ hn => ?_
  exact decide_eq_true (le_trans (of_decide_eq_true hn) hab)

end Softcode.Binary64
