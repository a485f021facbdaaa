import DealFlow360.Events.EventIds
import DealFlow360.Lib.Doubles
import Mathlib.Data.Nat.Digits.Defs
import Mathlib.Tactic.IntervalCases

/-!
# Numerals

`Number` of a text: the decimal, hexadecimal, octal and binary literals,
rounded to a double, and zero for a blank text.

A numeral can be longer than any double: its value is computed exactly and then
rounded once with `toDouble`, so what is too large is infinite.
`numberOf_digits` is the case the readers of versions, cron fields and JSON
need, decimal digits; the text of a natural number is read back as that number.
-/

namespace DealFlow360

open Doubles Events

inductive JsNumber where
  | nan
  | infinite (negative : Bool)
  | finite (value : ℚ)
  deriving DecidableEq

/-! ## Digits -/

def isDigit (unit : ℕ) : Bool := '0'.toNat ≤ unit && unit ≤ '9'.toNat

def digitsValue (text : Text) : ℕ := text.foldl (fun value unit => 10 * value + (unit - '0'.toNat)) 0

/-- The value of a digit in a base up to 36. -/
def digitValue (unit : ℕ) : Option ℕ :=
  if isDigit unit then some (unit - '0'.toNat)
  else if 'a'.toNat ≤ unit ∧ unit ≤ 'z'.toNat then some (unit - 'a'.toNat + 10)
  else if 'A'.toNat ≤ unit ∧ unit ≤ 'Z'.toNat then some (unit - 'A'.toNat + 10)
  else none

def radixOf (mark : ℕ) : Option ℕ :=
  if mark = 'x'.toNat ∨ mark = 'X'.toNat then some 16
  else if mark = 'o'.toNat ∨ mark = 'O'.toNat then some 8
  else if mark = 'b'.toNat ∨ mark = 'B'.toNat then some 2
  else none

def radixValue (radix : ℕ) (digits : Text) : Option ℕ :=
  if digits = [] then none
  else digits.foldlM (fun value unit => do
    let digit ← digitValue unit
    if digit < radix then some (radix * value + digit) else none) 0

/-! ## Literals -/

/-- `[+-]?` and what follows. -/
def splitSign (text : Text) : Bool × Text :=
  match text with
  | [] => (false, [])
  | first :: rest =>
      if first = '-'.toNat then (true, rest) else if first = '+'.toNat then (false, rest) else (false, text)

def exponentValue (text : Text) : Option ℤ :=
  let (negative, digits) := splitSign text
  if digits ≠ [] ∧ digits.all isDigit then some (if negative then -digitsValue digits else digitsValue digits) else none

def isExponentMark (unit : ℕ) : Bool := unit = 'e'.toNat || unit = 'E'.toNat

/-- A decimal literal without its sign. -/
def decimalValue (text : Text) : Option ℚ :=
  let mantissa := text.takeWhile (!isExponentMark ·)
  let whole := mantissa.takeWhile (· ≠ '.'.toNat)
  let places := (mantissa.dropWhile (· ≠ '.'.toNat)).drop 1
  let exponent : Option ℤ := match text.dropWhile (!isExponentMark ·) with
    | [] => some 0
    | _mark :: rest => exponentValue rest
  if whole ++ places ≠ [] ∧ (whole ++ places).all isDigit then
    exponent.map fun exponent => digitsValue (whole ++ places) * 10 ^ (exponent - (places.length : ℤ))
  else none

def ofMagnitude (negative : Bool) (magnitude : ℚ) : JsNumber :=
  match toDouble magnitude with
  | ⊤ => .infinite negative
  | (value : ℚ) => .finite (if negative then -value else value)

def signedValue (literal : Text) : JsNumber :=
  let (negative, rest) := splitSign literal
  if rest = codeUnits "Infinity" then .infinite negative
  else
    match decimalValue rest with
    | some magnitude => ofMagnitude negative magnitude
    | none => .nan

/-- `Number(text)`. -/
def numberOf (text : Text) : JsNumber :=
  match trimText text with
  | [] => .finite 0
  | first :: mark :: digits =>
      match if first = '0'.toNat then radixOf mark else none with
      | some radix =>
          match radixValue radix digits with
          | some magnitude => ofMagnitude false magnitude
          | none => .nan
      | none => signedValue (first :: mark :: digits)
  | literal => signedValue literal

/-- The value of `Number(text)` where `Number.isInteger` holds of it. -/
def integerOf (text : Text) : Option ℤ :=
  match numberOf text with
  | .finite value => if value.den = 1 then some value.num else none
  | _ => none

example : [codeUnits "0x1F", codeUnits " 1.5e1", codeUnits "", codeUnits "-", codeUnits "1e-400"].map integerOf =
    [some 31, some 15, some 0, none, some 0] := by decide +kernel

/-! ## Decimal digits -/

/-- The whole number that a number too large for a double is rounded to, if it is finite. -/
def asDouble (n : ℤ) : Option ℤ :=
  match toDouble n with
  | ⊤ => none
  | (value : ℚ) => if value.den = 1 then some value.num else none

theorem isDigit_iff {unit : ℕ} : isDigit unit = true ↔ 48 ≤ unit ∧ unit ≤ 57 := by
  unfold isDigit
  rw [Bool.and_eq_true, decide_eq_true_eq, decide_eq_true_eq]
  exact Iff.rfl

theorem ne_of_isDigit {unit other : ℕ} (hunit : isDigit unit = true) (hother : isDigit other = false) :
    unit ≠ other := by
  rintro rfl
  rw [hunit] at hother
  cases hother

theorem not_space_of_isDigit {unit : ℕ} (h : isDigit unit = true) : isSpaceUnit unit = false := by
  obtain ⟨hlow, hhigh⟩ := isDigit_iff.mp h
  interval_cases unit <;> rfl

theorem trimText_of_digits {text : Text} (h : ∀ unit ∈ text, isDigit unit = true) : trimText text = text :=
  trimText_of_inked fun unit hunit => not_space_of_isDigit (h unit hunit)

theorem radixOf_of_digit {unit : ℕ} (h : isDigit unit = true) : radixOf unit = none := by
  obtain ⟨hlow, hhigh⟩ := isDigit_iff.mp h
  interval_cases unit <;> rfl

theorem decimalValue_digits {text : Text} (hne : text ≠ []) (h : ∀ unit ∈ text, isDigit unit = true) :
    decimalValue text = some (digitsValue text : ℚ) := by
  have hmark : ∀ unit ∈ text, (!isExponentMark unit) = true := fun unit hunit => by
    obtain ⟨hlow, hhigh⟩ := isDigit_iff.mp (h unit hunit)
    interval_cases unit <;> rfl
  have hpoint : ∀ unit ∈ text, decide (unit ≠ '.'.toNat) = true := fun unit hunit =>
    decide_eq_true (ne_of_isDigit (h unit hunit) rfl)
  unfold decimalValue
  dsimp only
  rw [List.takeWhile_eq_self_iff.mpr hmark, List.dropWhile_eq_nil_iff.mpr hmark, List.takeWhile_eq_self_iff.mpr hpoint,
    List.dropWhile_eq_nil_iff.mpr hpoint, List.drop_nil, List.append_nil, if_pos ⟨hne, List.all_eq_true.mpr h⟩]
  simp

/-- Decimal digits are read as the double nearest to their value. -/
theorem numberOf_digits {text : Text} (hne : text ≠ []) (h : ∀ unit ∈ text, isDigit unit = true) :
    numberOf text = ofMagnitude false (digitsValue text) := by
  have hsigned : signedValue text = ofMagnitude false (digitsValue text) := by
    obtain ⟨first, rest, rfl⟩ := List.exists_cons_of_ne_nil hne
    have hfirst : isDigit first = true := h first List.mem_cons_self
    have hsplit : splitSign (first :: rest) = (false, first :: rest) := by
      unfold splitSign
      dsimp only
      rw [if_neg (ne_of_isDigit hfirst rfl), if_neg (ne_of_isDigit hfirst rfl)]
    have hinfinity : first :: rest ≠ codeUnits "Infinity" := fun heq => by
      rw [heq] at h
      exact absurd (List.all_eq_true.mpr h) (by decide)
    unfold signedValue
    rw [hsplit]
    dsimp only
    rw [if_neg hinfinity, decimalValue_digits hne h]
  unfold numberOf
  rw [trimText_of_digits h]
  rcases text with _ | ⟨first, _ | ⟨mark, digits⟩⟩
  · exact absurd rfl hne
  · exact hsigned
  · dsimp only
    rw [radixOf_of_digit (h mark (List.mem_cons_of_mem _ List.mem_cons_self)), ite_self]
    exact hsigned

theorem integerOf_digits {text : Text} (hne : text ≠ []) (h : ∀ unit ∈ text, isDigit unit = true) :
    integerOf text = asDouble (digitsValue text) := by
  unfold integerOf asDouble
  rw [numberOf_digits hne h]
  unfold ofMagnitude
  rw [Int.cast_natCast]
  cases toDouble (digitsValue text) with
  | top => rfl
  | coe value => rfl

/-! ## Whole numbers as doubles -/

theorem asDouble_eq_some {n : ℕ} {value : ℤ} : asDouble n = some value ↔ toDouble n = ((value : ℚ) : WithTop ℚ) := by
  unfold asDouble
  rw [Int.cast_natCast]
  cases hdouble : toDouble n with
  | top => exact ⟨nofun, fun h => absurd h.symm WithTop.coe_ne_top⟩
  | coe double =>
      obtain ⟨k, rfl⟩ := toDouble_natCast_eq hdouble
      dsimp only
      rw [Rat.den_natCast, if_pos rfl, Rat.num_natCast, Option.some_inj, WithTop.coe_inj]
      exact ⟨fun h => by exact_mod_cast h, fun h => by exact_mod_cast h⟩

theorem asDouble_eq_none {n : ℕ} : asDouble n = none ↔ toDouble n = ⊤ := by
  refine ⟨fun h => ?_, fun h => ?_⟩
  · by_contra hfinite
    obtain ⟨double, hdouble⟩ := WithTop.ne_top_iff_exists.mp hfinite
    obtain ⟨k, rfl⟩ := toDouble_natCast_eq hdouble.symm
    have hsome : asDouble n = some (k : ℤ) := asDouble_eq_some.mpr (by exact_mod_cast hdouble.symm)
    rw [h] at hsome
    cases hsome
  · unfold asDouble
    rw [Int.cast_natCast, h]

theorem asDouble_of_le {n : ℕ} (h : n ≤ 2 ^ 53) : asDouble n = some (n : ℤ) :=
  asDouble_eq_some.mpr (by exact_mod_cast toDouble_natCast h)

/-- What is too large to be exact stays large. -/
theorem le_asDouble {n : ℕ} {value : ℤ} (h : asDouble n = some value) (hlarge : 2 ^ 53 ≤ n) : 2 ^ 53 ≤ value := by
  have hmono : toDouble ((2 ^ 53 : ℕ) : ℚ) ≤ toDouble n := toDouble_mono (by positivity) (by exact_mod_cast hlarge)
  rw [asDouble_eq_some.mp h, toDouble_natCast le_rfl] at hmono
  exact_mod_cast WithTop.coe_le_coe.mp hmono

/-! ## The text of a natural number -/

/-- `String(n)` of a natural number that is not too large for decimal digits. -/
def naturalText (n : ℕ) : Text :=
  if n = 0 then ['0'.toNat] else (Nat.digits 10 n).reverse.map ('0'.toNat + ·)

theorem naturalText_ne_nil (n : ℕ) : naturalText n ≠ [] := by
  unfold naturalText
  split_ifs with hzero
  · exact List.cons_ne_nil _ _
  · rw [ne_eq, List.map_eq_nil_iff, List.reverse_eq_nil_iff, Nat.digits_eq_nil_iff_eq_zero]
    exact hzero

theorem isDigit_of_mem_naturalText {n unit : ℕ} (h : unit ∈ naturalText n) : isDigit unit = true := by
  unfold naturalText at h
  split_ifs at h with hzero
  · rw [List.mem_singleton.mp h]
    rfl
  · obtain ⟨digit, hdigit, rfl⟩ := List.mem_map.mp h
    have hlt := Nat.digits_lt_base (by decide) (List.mem_reverse.mp hdigit)
    rw [isDigit_iff]
    show 48 ≤ 48 + digit ∧ 48 + digit ≤ 57
    omega

theorem digitsValue_naturalText (n : ℕ) : digitsValue (naturalText n) = n := by
  unfold naturalText digitsValue
  split_ifs with hzero
  · rw [hzero]
    rfl
  · have hdigits (digits : List ℕ) : digits.foldr (fun digit value => 10 * value + ('0'.toNat + digit - '0'.toNat)) 0 =
        Nat.ofDigits 10 digits := by
      induction digits with
      | nil => rfl
      | cons digit digits ih =>
          rw [List.foldr_cons, ih, Nat.ofDigits_cons, Nat.add_sub_cancel_left, Nat.add_comm]
    rw [List.foldl_map, List.foldl_reverse, hdigits, Nat.ofDigits_digits]

theorem integerOf_naturalText {n : ℕ} (h : n ≤ 2 ^ 53) : integerOf (naturalText n) = some (n : ℤ) := by
  rw [integerOf_digits (naturalText_ne_nil n) fun _ => isDigit_of_mem_naturalText, digitsValue_naturalText]
  exact asDouble_of_le h

end DealFlow360
