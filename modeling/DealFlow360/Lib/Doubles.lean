import Mathlib.Algebra.Group.Subgroup.ZPowers.Basic
import Mathlib.Data.Int.ConditionallyCompleteOrder
import Mathlib.Data.Int.Log
import Mathlib.Data.Rat.Floor
import Mathlib.Order.WithBot
import Mathlib.Tactic.Linarith
import Mathlib.Tactic.Positivity

/-!
# Rounding to doubles

The double nearest to a rational that is not negative, ties going to the even
significand, and infinity from where the nearest one would have too large an
exponent. Rounding is monotone, keeps what a double can hold, and turns whole
numbers into whole numbers.

A program that adds and subtracts doubles rounds every result. `double` is that
rounding for both signs. The multiples of one power of two are a grid that sums
and differences do not leave; a number on the grid that is no more than `2 ^
53` steps from zero is `Exact`, and rounding keeps it (`Exact.double`). What
lies on the grid between two exact numbers is exact (`Exact.between`), so a
program whose intermediate results stay between exact ones computes without
error. `toDouble` is the rounding with infinity, for numerals of any length.
-/

namespace Doubles

/-- The nearest integer, the even one of two. -/
def roundEven (x : ℚ) : ℤ :=
  if 2 * (x - ⌊x⌋) < 1 then ⌊x⌋ else if 1 < 2 * (x - ⌊x⌋) then ⌊x⌋ + 1 else ⌊x⌋ + ⌊x⌋ % 2

/-- The exponent of the last place of a double near `x`. -/
def exponent (x : ℚ) : ℤ := max (Int.log 2 x - 52) (-1074)

/-- The nearest double with no bound on its exponent. -/
def nearest (x : ℚ) : ℚ := roundEven (x / 2 ^ exponent x) * 2 ^ exponent x

def toDouble (x : ℚ) : WithTop ℚ := if nearest x < 2 ^ 1024 then (nearest x : ℚ) else ⊤

/-! ## Integers -/

theorem roundEven_bounds (x : ℚ) : ⌊x⌋ ≤ roundEven x ∧ roundEven x ≤ ⌊x⌋ + 1 := by
  unfold roundEven
  split_ifs <;> omega

@[simp] theorem roundEven_intCast (k : ℤ) : roundEven k = k := by
  simp [roundEven]

theorem roundEven_mono : Monotone roundEven := by
  intro x y h
  rcases lt_or_eq_of_le (Int.floor_mono h) with hlt | heq
  · have hx := (roundEven_bounds x).2
    have hy := (roundEven_bounds y).1
    omega
  · unfold roundEven
    rw [heq]
    split_ifs with h₁ h₂ h₃ h₄ h₅ h₆ <;> first | omega | exact absurd h (by linarith)

/-! ## Scaling -/

theorem two_zpow_pos (k : ℤ) : (0 : ℚ) < 2 ^ k := zpow_pos two_pos k

theorem mul_zpow_eq {j k : ℤ} (h : j ≤ k) (m : ℤ) : (m : ℚ) * 2 ^ k = ((m * 2 ^ (k - j).toNat : ℤ) : ℚ) * 2 ^ j := by
  have hsplit : (2 : ℚ) ^ k = 2 ^ (k - j).toNat * 2 ^ j := by
    rw [← zpow_natCast, Int.toNat_of_nonneg (by omega), ← zpow_add₀ two_ne_zero, Int.sub_add_cancel]
  rw [hsplit]
  push_cast
  ring

theorem nearest_le {x : ℚ} {m : ℤ} (h : x ≤ m * 2 ^ exponent x) : nearest x ≤ m * 2 ^ exponent x := by
  have hscaled : x / 2 ^ exponent x ≤ m := (div_le_iff₀ (two_zpow_pos _)).mpr h
  have hround := roundEven_mono hscaled
  rw [roundEven_intCast] at hround
  exact mul_le_mul_of_nonneg_right (by exact_mod_cast hround) (two_zpow_pos _).le

theorem le_nearest {x : ℚ} {m : ℤ} (h : m * 2 ^ exponent x ≤ x) : m * 2 ^ exponent x ≤ nearest x := by
  have hscaled : (m : ℚ) ≤ x / 2 ^ exponent x := (le_div_iff₀ (two_zpow_pos _)).mpr h
  have hround := roundEven_mono hscaled
  rw [roundEven_intCast] at hround
  exact mul_le_mul_of_nonneg_right (by exact_mod_cast hround) (two_zpow_pos _).le

theorem nearest_eq {x : ℚ} {m : ℤ} (h : x = m * 2 ^ exponent x) : nearest x = x :=
  le_antisymm ((nearest_le h.le).trans h.ge) (h.le.trans (le_nearest h.ge))

@[simp] theorem nearest_zero : nearest 0 = 0 := nearest_eq (m := 0) (by simp)

theorem nearest_nonneg {x : ℚ} (h : 0 ≤ x) : 0 ≤ nearest x := by
  have hzero := le_nearest (x := x) (m := 0) (by simpa using h)
  simpa using hzero

/-! ## Rounding is monotone -/

theorem nearest_mono {x y : ℚ} (hx : 0 ≤ x) (h : x ≤ y) : nearest x ≤ nearest y := by
  rcases hx.eq_or_lt with rfl | hpos
  · rw [nearest_zero]
    exact nearest_nonneg h
  have hlog := Int.log_mono_right hpos h (b := 2)
  have hexponent : exponent x ≤ exponent y := max_le_max_right _ (by omega)
  rcases hexponent.eq_or_lt with heq | hlt
  · unfold nearest
    rw [heq]
    refine mul_le_mul_of_nonneg_right ?_ (two_zpow_pos _).le
    exact_mod_cast roundEven_mono (div_le_div_of_nonneg_right h (two_zpow_pos _).le)
  · -- a power of two that both exponents can hold lies between
    have hy : exponent y = Int.log 2 y - 52 := by unfold exponent at hlt ⊢; omega
    have hlow : Int.log 2 x < Int.log 2 y := by unfold exponent at hlt; omega
    have hbetween : x ≤ 2 ^ Int.log 2 y := by
      refine (Int.lt_zpow_succ_log_self (b := 2) one_lt_two x).le.trans ?_
      exact_mod_cast zpow_le_zpow_right₀ (one_le_two (α := ℚ)) (by omega)
    have hle : (2 : ℚ) ^ Int.log 2 y ≤ y := by exact_mod_cast Int.zpow_log_le_self (b := 2) one_lt_two (hpos.trans_le h)
    have hholds {k : ℤ} (hk : k ≤ Int.log 2 y) :
        (2 : ℚ) ^ Int.log 2 y = ((2 ^ (Int.log 2 y - k).toNat : ℤ) : ℚ) * 2 ^ k := by
      simpa using mul_zpow_eq hk 1
    rw [hholds (show exponent x ≤ _ by omega)] at hbetween
    rw [hholds (show exponent y ≤ _ by omega)] at hle
    calc nearest x ≤ _ := nearest_le hbetween
      _ = _ := (hholds (by omega)).symm.trans (hholds (by omega))
      _ ≤ nearest y := le_nearest hle

/-! ## What a double can hold -/

theorem exponent_le {m : ℕ} {k : ℤ} (hm : 0 < m) (hlt : m < 2 ^ 53) (hk : -1074 ≤ k) : exponent (m * 2 ^ k) ≤ k := by
  have hpos : (0 : ℚ) < m * 2 ^ k := mul_pos (by exact_mod_cast hm) (two_zpow_pos k)
  have hbound : (m : ℚ) * 2 ^ k < ((2 : ℕ) : ℚ) ^ (53 + k) := by
    rw [Nat.cast_ofNat, zpow_add₀ two_ne_zero]
    exact mul_lt_mul_of_pos_right (by exact_mod_cast hlt) (two_zpow_pos k)
  have hlog := (Int.lt_zpow_iff_log_lt one_lt_two hpos).mp hbound
  exact max_le (by omega) hk

theorem nearest_of_lt {m : ℕ} {k : ℤ} (hlt : m < 2 ^ 53) (hk : -1074 ≤ k) : nearest (m * 2 ^ k) = m * 2 ^ k := by
  rcases Nat.eq_zero_or_pos m with rfl | hm
  · simp
  · exact nearest_eq (by exact_mod_cast mul_zpow_eq (exponent_le hm hlt hk) m)

/-- A significand of 53 bits and an exponent that is not too small is kept. -/
theorem nearest_of_le {m : ℕ} {k : ℤ} (hle : m ≤ 2 ^ 53) (hk : -1074 ≤ k) : nearest (m * 2 ^ k) = m * 2 ^ k := by
  rcases hle.eq_or_lt with rfl | hlt
  · have hdouble : ((2 ^ 53 : ℕ) : ℚ) * 2 ^ k = ((2 ^ 52 : ℕ) : ℚ) * 2 ^ (k + 1) := by
      rw [zpow_add_one₀ two_ne_zero]
      push_cast
      ring
    rw [hdouble]
    exact nearest_of_lt (by norm_num) (by omega)
  · exact nearest_of_lt hlt hk

theorem nearest_natCast {n : ℕ} (h : n ≤ 2 ^ 53) : nearest n = n := by
  simpa using nearest_of_le (k := 0) h (by norm_num)

/-- What rounding answers is of this form. -/
theorem exists_significand {x : ℚ} (hx : 0 ≤ x) : ∃ m ≤ 2 ^ 53, nearest x = (m : ℕ) * 2 ^ exponent x := by
  rcases hx.eq_or_lt with rfl | hpos
  · exact ⟨0, Nat.zero_le _, by simp⟩
  have hbound : x / 2 ^ exponent x ≤ ((2 ^ 53 : ℤ) : ℚ) := by
    rw [div_le_iff₀ (two_zpow_pos _)]
    have hlt := Int.lt_zpow_succ_log_self (b := 2) one_lt_two x
    have hexponent : Int.log 2 x + 1 ≤ 53 + exponent x := by unfold exponent; omega
    calc x ≤ 2 ^ (Int.log 2 x + 1) := by exact_mod_cast hlt.le
      _ ≤ 2 ^ (53 + exponent x) := zpow_le_zpow_right₀ one_le_two hexponent
      _ = _ := by rw [zpow_add₀ two_ne_zero]; norm_num
  have hhigh := roundEven_mono hbound
  have hlow := roundEven_mono (show ((0 : ℤ) : ℚ) ≤ x / 2 ^ exponent x by
    rw [Int.cast_zero]
    exact div_nonneg hx (two_zpow_pos _).le)
  rw [roundEven_intCast] at hhigh hlow
  refine ⟨(roundEven (x / 2 ^ exponent x)).toNat, by omega, ?_⟩
  unfold nearest
  congr 1
  exact_mod_cast (Int.toNat_of_nonneg hlow).symm

theorem nearest_nearest {x : ℚ} (hx : 0 ≤ x) : nearest (nearest x) = nearest x := by
  obtain ⟨m, hm, h⟩ := exists_significand hx
  rw [h]
  exact nearest_of_le hm (le_max_right _ _)

/-- A whole number is rounded to one. -/
theorem nearest_natCast_eq (n : ℕ) : ∃ k : ℕ, nearest n = k := by
  rcases Nat.lt_or_ge n (2 ^ 53) with hlt | hge
  · exact ⟨n, nearest_natCast hlt.le⟩
  · obtain ⟨m, -, h⟩ := exists_significand (Nat.cast_nonneg n)
    have hlog : 53 ≤ Int.log 2 (n : ℚ) := by
      refine (Int.zpow_le_iff_le_log (b := 2) one_lt_two ?_).mp (by exact_mod_cast hge)
      exact_mod_cast lt_of_lt_of_le (by norm_num) hge
    obtain ⟨e, he⟩ : ∃ e : ℕ, exponent (n : ℚ) = e := by
      refine ⟨(Int.log 2 (n : ℚ) - 52).toNat, ?_⟩
      unfold exponent
      omega
    refine ⟨m * 2 ^ e, ?_⟩
    rw [h, he, zpow_natCast]
    push_cast
    rfl

/-! ## Both signs -/

/-- The nearest double of a rational of either sign. -/
def double (x : ℚ) : ℚ := if 0 ≤ x then nearest x else -nearest (-x)

theorem double_nonneg {x : ℚ} (h : 0 ≤ x) : 0 ≤ double x := by
  rw [double, if_pos h]
  exact nearest_nonneg h

theorem double_mono : Monotone double := by
  intro x y h
  unfold double
  split_ifs with hx hy hy
  · exact nearest_mono hx h
  · exact absurd (hx.trans h) hy
  · have hleft := nearest_nonneg (x := -x) (by linarith)
    have hright := nearest_nonneg hy
    linarith
  · exact neg_le_neg (nearest_mono (by linarith) (neg_le_neg h))

/-! ## Grids -/

/-- The multiples of a power of two. -/
def grid (k : ℤ) : AddSubgroup ℚ := AddSubgroup.zmultiples (2 ^ k)

theorem mem_grid {k : ℤ} {x : ℚ} : x ∈ grid k ↔ ∃ m : ℤ, x = m * 2 ^ k := by
  unfold grid
  simp only [AddSubgroup.mem_zmultiples_iff, zsmul_eq_mul]
  exact exists_congr fun m => eq_comm

instance (k : ℤ) (x : ℚ) : Decidable (x ∈ grid k) :=
  decidable_of_iff (x = ⌊x / 2 ^ k⌋ * 2 ^ k) <| by
    rw [mem_grid]
    constructor
    · exact fun h => ⟨_, h⟩
    · rintro ⟨m, rfl⟩
      rw [mul_div_cancel_right₀ _ (two_zpow_pos k).ne', Int.floor_intCast]

/-- A multiple of a power of two that is not too small, and of no more than `2 ^ 53` of it. -/
structure Exact (k : ℤ) (x : ℚ) : Prop where
  unit : -1074 ≤ k
  grid : x ∈ grid k
  bound : |x| ≤ 2 ^ 53 * 2 ^ k

instance (k : ℤ) (x : ℚ) : Decidable (Exact k x) :=
  decidable_of_iff (-1074 ≤ k ∧ x ∈ grid k ∧ |x| ≤ 2 ^ 53 * 2 ^ k)
    ⟨fun h => ⟨h.1, h.2.1, h.2.2⟩, fun h => ⟨h.1, h.2, h.3⟩⟩

section Exact

variable {k : ℤ} {x y z : ℚ}

/-- A double holds it. -/
theorem Exact.nearest (h : Exact k x) (hx : 0 ≤ x) : nearest x = x := by
  obtain ⟨m, hm⟩ := mem_grid.mp h.grid
  have hunit := two_zpow_pos k
  have hnonneg : 0 ≤ m := by
    rw [hm] at hx
    exact_mod_cast nonneg_of_mul_nonneg_left hx hunit
  have hle : m.toNat ≤ 2 ^ 53 := by
    have hbound := h.bound
    rw [abs_of_nonneg hx, hm] at hbound
    have hcast : (m : ℚ) ≤ 2 ^ 53 := le_of_mul_le_mul_right hbound hunit
    have hint : m ≤ 2 ^ 53 := by exact_mod_cast hcast
    omega
  have hround := nearest_of_le hle h.unit
  rw [← Int.cast_natCast, Int.toNat_of_nonneg hnonneg, ← hm] at hround
  exact hround

theorem Exact.neg (h : Exact k x) : Exact k (-x) :=
  ⟨h.unit, neg_mem h.grid, by rw [abs_neg]; exact h.bound⟩

theorem Exact.double (h : Exact k x) : double x = x := by
  unfold Doubles.double
  split_ifs with hx
  · exact h.nearest hx
  · rw [h.neg.nearest (by linarith), neg_neg]

/-- What lies between two of them on the grid is one. -/
theorem Exact.between (hx : Exact k x) (hz : Exact k z) (hy : y ∈ Doubles.grid k) (hlow : x ≤ y) (hhigh : y ≤ z) :
    Exact k y :=
  ⟨hx.unit, hy, abs_le.mpr
    ⟨(neg_le_of_abs_le hx.bound).trans hlow, hhigh.trans (le_of_abs_le hz.bound)⟩⟩

theorem Exact.zero (h : Exact k x) : Exact k 0 :=
  ⟨h.unit, zero_mem _, by
    rw [abs_zero]
    exact (abs_nonneg x).trans h.bound⟩

end Exact

/-! ## Infinity -/

theorem toDouble_mono {x y : ℚ} (hx : 0 ≤ x) (h : x ≤ y) : toDouble x ≤ toDouble y := by
  have hmono := nearest_mono hx h
  unfold toDouble
  split_ifs with hx' hy'
  · exact WithTop.coe_le_coe.mpr hmono
  · exact le_top
  · exact absurd (hmono.trans_lt ‹_›) hx'
  · exact le_rfl

theorem toDouble_natCast {n : ℕ} (h : n ≤ 2 ^ 53) : toDouble n = ((n : ℚ) : WithTop ℚ) := by
  unfold toDouble
  rw [nearest_natCast h, if_pos]
  calc (n : ℚ) ≤ 2 ^ 53 := by exact_mod_cast h
    _ < 2 ^ 1024 := pow_lt_pow_right₀ one_lt_two (by norm_num)

/-- A number that was rounded is rounded to itself. -/
theorem toDouble_of_eq {x y : ℚ} (hx : 0 ≤ x) (h : toDouble x = y) : toDouble y = y := by
  unfold toDouble at h
  split_ifs at h with hlt
  · obtain rfl := WithTop.coe_inj.mp h
    unfold toDouble
    rw [nearest_nearest hx, if_pos hlt]
  · exact absurd h WithTop.top_ne_coe

theorem toDouble_natCast_eq {n : ℕ} {y : ℚ} (h : toDouble n = y) : ∃ k : ℕ, y = k := by
  unfold toDouble at h
  split_ifs at h
  · obtain rfl := WithTop.coe_inj.mp h
    exact nearest_natCast_eq n
  · exact absurd h WithTop.top_ne_coe

end Doubles
