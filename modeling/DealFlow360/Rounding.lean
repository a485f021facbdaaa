import DealFlow360.Js
import Mathlib.Tactic.FieldSimp
import Mathlib.Tactic.Linarith

/-!
# Rounding

`round` is monotone, leaves numbers of as many places as they are and passes
over them in sums.

These are the facts every statement about amounts uses: `round_mono` and
`round_nonneg`, that a number of so many places is its own rounding (`Places`),
and that sums of such numbers are too. `round` is the helper of the source at
exact rationals; the rounding of doubles is a library of its own.
-/

namespace DealFlow360

/-- A number with at most so many places after the point. -/
def Places (digits : ℕ) (x : Num) : Prop := ∃ units : ℤ, x = units / 10 ^ digits

theorem mathRound_mono {x y : Num} (h : x ≤ y) : mathRound x ≤ mathRound y := by
  unfold mathRound
  exact_mod_cast Int.floor_le_floor (by linarith)

theorem round_mono {x y : Num} (h : x ≤ y) (digits : ℕ) : round x digits ≤ round y digits := by
  have hpow : (0 : Num) ≤ 10 ^ digits := by positivity
  exact div_le_div_of_nonneg_right (mathRound_mono (mul_le_mul_of_nonneg_right h hpow)) hpow

theorem places_round (x : Num) (digits : ℕ) : Places digits (round x digits) :=
  ⟨⌊x * 10 ^ digits + 1 / 2⌋, rfl⟩

theorem places_zero (digits : ℕ) : Places digits 0 := ⟨0, by simp⟩

/-- A number of so many places comes out of the rounding of a sum. -/
theorem round_add_places {y : Num} {digits : ℕ} (h : Places digits y) (x : Num) :
    round (x + y) digits = round x digits + y := by
  obtain ⟨units, rfl⟩ := h
  have hpow : (10 : Num) ^ digits ≠ 0 := by positivity
  have hscaled : (x + units / 10 ^ digits) * 10 ^ digits + 1 / 2 = x * 10 ^ digits + 1 / 2 + units := by
    field_simp
    ring
  unfold round mathRound
  rw [hscaled, Int.floor_add_intCast]
  push_cast
  rw [add_div]

theorem round_zero (digits : ℕ) : round 0 digits = 0 := by
  have hhalf : ⌊(1 : Num) / 2⌋ = 0 := by norm_num
  unfold round mathRound
  rw [zero_mul, zero_add, hhalf, Int.cast_zero, zero_div]

theorem round_of_places {x : Num} {digits : ℕ} (h : Places digits x) : round x digits = x := by
  have hadd := round_add_places h 0
  rw [zero_add, round_zero, zero_add] at hadd
  exact hadd

theorem round_eq_self_iff {x : Num} {digits : ℕ} : round x digits = x ↔ Places digits x := by
  constructor
  · intro h
    rw [← h]
    exact places_round x digits
  · exact round_of_places

theorem Places.neg {x : Num} {digits : ℕ} (h : Places digits x) : Places digits (-x) := by
  obtain ⟨units, rfl⟩ := h
  refine ⟨-units, ?_⟩
  push_cast
  ring

theorem Places.add {x y : Num} {digits : ℕ} (hx : Places digits x) (hy : Places digits y) : Places digits (x + y) := by
  obtain ⟨m, rfl⟩ := hx
  obtain ⟨n, rfl⟩ := hy
  refine ⟨m + n, ?_⟩
  push_cast
  ring

theorem places_sum {l : List Num} {digits : ℕ} (h : ∀ x ∈ l, Places digits x) : Places digits l.sum := by
  induction l with
  | nil => exact places_zero digits
  | cons x l ih =>
      rw [List.sum_cons]
      exact (h x List.mem_cons_self).add (ih fun y hy => h y (List.mem_cons_of_mem _ hy))

theorem round_sub_places {y : Num} {digits : ℕ} (h : Places digits y) (x : Num) :
    round (x - y) digits = round x digits - y := by
  rw [sub_eq_add_neg, round_add_places h.neg, sub_eq_add_neg]

theorem round_nonneg {x : Num} (h : 0 ≤ x) (digits : ℕ) : 0 ≤ round x digits := by
  have hmono := round_mono h digits
  rw [round_zero] at hmono
  exact hmono

end DealFlow360
