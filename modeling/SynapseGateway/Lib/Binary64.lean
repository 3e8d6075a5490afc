import Mathlib.Data.Int.Log
import Mathlib.Data.Rat.Floor
import Mathlib.Tactic.FieldSimp
import Mathlib.Tactic.LinearCombination
import Mathlib.Tactic.Linarith
import Mathlib.Tactic.NormNum

/-!
# Rounding to binary64

A sum of binary64 numbers is the nearest number with 53 significant bits, the
even one of two. Rounding such a number half up, by adding a half and taking the
floor, is off for a single one of them: the largest below a half.
-/

namespace Binary64

/-- The nearest integer, the even one of two. -/
def roundEven (r : ℚ) : ℤ :=
  if r - ⌊r⌋ < 1 / 2 then ⌊r⌋
  else if 1 / 2 < r - ⌊r⌋ then ⌊r⌋ + 1
  else if ⌊r⌋ % 2 = 0 then ⌊r⌋
  else ⌊r⌋ + 1

/-- The exponent of the last place of the numbers about `q`. -/
def lastPlace (q : ℚ) : ℤ := max (Int.log 2 |q| - 52) (-1074)

/-- The nearest binary64 number, of those that are not too large to be one. -/
def round (q : ℚ) : ℚ := roundEven (q / 2 ^ lastPlace q) * 2 ^ lastPlace q

/-- A finite binary64 number. -/
def IsDouble (x : ℚ) : Prop := ∃ m e : ℤ, |m| < 2 ^ 53 ∧ -1074 ≤ e ∧ e ≤ 971 ∧ x = m * 2 ^ e

/-! ## The nearest integer -/

theorem floor_le_roundEven (r : ℚ) : ⌊r⌋ ≤ roundEven r ∧ roundEven r ≤ ⌊r⌋ + 1 := by
  unfold roundEven
  split_ifs <;> omega

theorem le_roundEven {r : ℚ} {i : ℤ} (h : (i : ℚ) ≤ r) : i ≤ roundEven r :=
  (Int.le_floor.mpr h).trans (floor_le_roundEven r).1

theorem roundEven_le (r : ℚ) : (roundEven r : ℚ) ≤ r + 1 / 2 := by
  have hfloor := Int.floor_le r
  unfold roundEven
  split_ifs with hlow hhigh heven
  · linarith
  · push_cast
    linarith
  · linarith
  · push_cast
    linarith

theorem sub_le_roundEven (r : ℚ) : r - 1 / 2 ≤ roundEven r := by
  have hfloor := Int.lt_floor_add_one r
  unfold roundEven
  split_ifs with hlow hhigh heven
  · linarith
  · push_cast
    linarith
  · linarith
  · push_cast
    linarith

theorem roundEven_lt {r : ℚ} {i : ℤ} (h : r + 1 / 2 < i) : roundEven r < i := by
  have hle := roundEven_le r
  exact_mod_cast hle.trans_lt h

/-! ## Rounding -/

theorem lastPlace_pos (q : ℚ) : (0 : ℚ) < 2 ^ lastPlace q := zpow_pos two_pos _

theorem le_round (q : ℚ) : q - 2 ^ lastPlace q / 2 ≤ round q := by
  have hu := lastPlace_pos q
  calc q - 2 ^ lastPlace q / 2 = (q / 2 ^ lastPlace q - 1 / 2) * 2 ^ lastPlace q := by field_simp
    _ ≤ round q := mul_le_mul_of_nonneg_right (sub_le_roundEven _) hu.le

theorem round_nonpos {q : ℚ} (h : q ≤ 0) : round q ≤ 0 := by
  have hu := lastPlace_pos q
  have hr : q / 2 ^ lastPlace q ≤ 0 := div_nonpos_of_nonpos_of_nonneg h hu.le
  have hround : roundEven (q / 2 ^ lastPlace q) ≤ 0 := by
    have hlt : roundEven (q / 2 ^ lastPlace q) < 1 := roundEven_lt (by push_cast; linarith)
    omega
  exact mul_nonpos_of_nonpos_of_nonneg (by exact_mod_cast hround) hu.le

theorem le_log_iff {q : ℚ} {n : ℤ} (h : 0 < q) : n ≤ Int.log 2 q ↔ (2 : ℚ) ^ n ≤ q := by
  rw [← Int.zpow_le_iff_le_log (b := 2) one_lt_two h]
  norm_num

theorem log_lt_iff {q : ℚ} {n : ℤ} (h : 0 < q) : Int.log 2 q < n ↔ q < (2 : ℚ) ^ n := by
  rw [← Int.lt_zpow_iff_log_lt (b := 2) one_lt_two h]
  norm_num

theorem lastPlace_of_pos {q : ℚ} {n : ℤ} (h : 0 < q) (hn : -1022 ≤ n) (hlow : (2 : ℚ) ^ n ≤ q) :
    lastPlace q = Int.log 2 q - 52 := by
  have hlog := (le_log_iff h).mpr hlow
  rw [lastPlace, abs_of_pos h]
  omega

theorem half_le_round {q : ℚ} (h : 1 ≤ q) : q / 2 ≤ round q := by
  have hpos : 0 < q := by linarith
  have hplace := lastPlace_of_pos hpos (show -1022 ≤ (0 : ℤ) by omega) (by simpa using h)
  have hu : (2 : ℚ) ^ lastPlace q ≤ q := (le_log_iff hpos).mp (by omega)
  have hround := le_round q
  linarith

/-- Rounding keeps the floor of a number that is far enough from the next integer. -/
theorem floor_round {q : ℚ} (hplace : lastPlace q ≤ 0) (hfar : 2 ^ lastPlace q / 2 < ⌊q⌋ + 1 - q) :
    ⌊round q⌋ = ⌊q⌋ := by
  have hu := lastPlace_pos q
  obtain ⟨s, hs⟩ : ∃ s : ℕ, lastPlace q = -s := ⟨(-lastPlace q).toNat, by omega⟩
  have hscale : ∀ n : ℤ, (n : ℚ) / 2 ^ lastPlace q = (n * 2 ^ s : ℤ) := by
    intro n
    rw [hs, zpow_neg, zpow_natCast, div_inv_eq_mul]
    push_cast
    rfl
  rw [Int.floor_eq_iff]
  constructor
  · have hle : (⌊q⌋ : ℚ) / 2 ^ lastPlace q ≤ q / 2 ^ lastPlace q :=
      div_le_div_of_nonneg_right (Int.floor_le q) hu.le
    rw [hscale] at hle
    have hround : ((⌊q⌋ * 2 ^ s : ℤ) : ℚ) ≤ roundEven (q / 2 ^ lastPlace q) := by exact_mod_cast le_roundEven hle
    rw [← hscale, div_le_iff₀ hu] at hround
    exact hround
  · have hlt : q / 2 ^ lastPlace q + 1 / 2 < ((⌊q⌋ + 1) * 2 ^ s : ℤ) := by
      rw [← hscale, lt_div_iff₀ hu]
      push_cast
      calc (q / 2 ^ lastPlace q + 1 / 2) * 2 ^ lastPlace q = q + 2 ^ lastPlace q / 2 := by field_simp
        _ < ⌊q⌋ + 1 := by linarith
    have hround : (roundEven (q / 2 ^ lastPlace q) : ℚ) < ((⌊q⌋ + 1) * 2 ^ s : ℤ) := by exact_mod_cast roundEven_lt hlt
    rw [← hscale, lt_div_iff₀ hu] at hround
    push_cast at hround
    exact hround

/-! ## Rounding half up -/

/-- A number from `2 ^ l` on has its last place at `l - 52` or above. -/
theorem IsDouble.multiple {x : ℚ} {l : ℤ} (h : IsDouble x) (hl : (2 : ℚ) ^ l ≤ x) :
    ∃ j : ℤ, x = j * 2 ^ (l - 52) := by
  obtain ⟨m, e, hm, -, -, rfl⟩ := h
  have hpow : (0 : ℚ) < 2 ^ e := zpow_pos two_pos e
  have hlt : (2 : ℚ) ^ l < 2 ^ (e + 53) := by
    have hbound : (m : ℚ) < 2 ^ 53 := by exact_mod_cast (le_abs_self m).trans_lt hm
    calc (2 : ℚ) ^ l ≤ m * 2 ^ e := hl
      _ < 2 ^ 53 * 2 ^ e := mul_lt_mul_of_pos_right hbound hpow
      _ = 2 ^ (e + 53) := by rw [zpow_add₀ two_ne_zero, mul_comm]; rfl
  have hle : l < e + 53 := (zpow_lt_zpow_iff_right₀ one_lt_two).mp hlt
  obtain ⟨d, hd⟩ : ∃ d : ℕ, e = d + (l - 52) := ⟨(e - (l - 52)).toNat, by omega⟩
  refine ⟨m * 2 ^ d, ?_⟩
  rw [hd, zpow_add₀ two_ne_zero, zpow_natCast]
  push_cast
  ring

/-- The largest binary64 number below a half. -/
def belowHalf : ℚ := 1 / 2 - 1 / 2 ^ 54

theorem far_of_ge_one {x : ℚ} (hx : IsDouble x) (hlow : 1 ≤ x + 1 / 2) (hhigh : x + 1 / 2 < 2 ^ 51) :
    (2 : ℚ) ^ lastPlace (x + 1 / 2) / 2 < ⌊x + 1 / 2⌋ + 1 - (x + 1 / 2) := by
  have hpos : 0 < x + 1 / 2 := by linarith
  have hge : (2 : ℚ) ^ Int.log 2 (x + 1 / 2) ≤ x + 1 / 2 := (le_log_iff hpos).mp (Int.le_refl _)
  have hlog : 0 ≤ Int.log 2 (x + 1 / 2) := (le_log_iff hpos).mpr (by simpa using hlow)
  have hsmall : Int.log 2 (x + 1 / 2) < 51 := (log_lt_iff hpos).mpr (by exact_mod_cast hhigh)
  rw [lastPlace_of_pos hpos (show -1022 ≤ (0 : ℤ) by omega) (by simpa using hlow)]
  generalize Int.log 2 (x + 1 / 2) = l at *
  have hfloor := Int.lt_floor_add_one (x + 1 / 2)
  have hu : (0 : ℚ) < 2 ^ (l - 52) := zpow_pos two_pos _
  by_cases hxl : (2 : ℚ) ^ l ≤ x
  · -- all three numbers are multiples of the last place
    obtain ⟨j, hj⟩ := hx.multiple hxl
    obtain ⟨a, ha⟩ : ∃ a : ℕ, l = 51 - a := ⟨(51 - l).toNat, by omega⟩
    have hone : (1 : ℚ) = 2 ^ (a + 1) * 2 ^ (l - 52) := by
      rw [ha, ← zpow_natCast, ← zpow_add₀ two_ne_zero, Nat.cast_add_one, show (a + 1 + (51 - a - 52) : ℤ) = 0 by omega,
        zpow_zero]
    have hgap : (⌊x + 1 / 2⌋ + 1 : ℚ) - (x + 1 / 2) =
        ((⌊x + 1 / 2⌋ + 1) * 2 ^ (a + 1) - j - 2 ^ a : ℤ) * 2 ^ (l - 52) := by
      have hk : (⌊x + 1 / 2⌋ + 1 : ℚ) = (⌊x + 1 / 2⌋ + 1) * (2 ^ (a + 1) * 2 ^ (l - 52)) := by rw [← hone, mul_one]
      have hhalf : (1 / 2 : ℚ) = 2 ^ a * 2 ^ (l - 52) := by
        rw [pow_succ] at hone
        linarith
      rw [hk]
      push_cast
      linear_combination (-1 : ℚ) * hj - hhalf
    rw [hgap]
    have hgap0 : (0 : ℚ) < ((⌊x + 1 / 2⌋ + 1) * 2 ^ (a + 1) - j - 2 ^ a : ℤ) * 2 ^ (l - 52) := by linarith
    have hint : (1 : ℤ) ≤ (⌊x + 1 / 2⌋ + 1) * 2 ^ (a + 1) - j - 2 ^ a :=
      Int.add_one_le_iff.mpr (by exact_mod_cast (pos_iff_pos_of_mul_pos hgap0).mpr hu)
    have hcast : (1 : ℚ) ≤ ((⌊x + 1 / 2⌋ + 1) * 2 ^ (a + 1) - j - 2 ^ a : ℤ) := by exact_mod_cast hint
    nlinarith
  · have hle : (2 : ℚ) ^ l ≤ ⌊x + 1 / 2⌋ := by
      obtain ⟨n, hn⟩ : ∃ n : ℕ, l = n := ⟨l.toNat, by omega⟩
      rw [hn, zpow_natCast] at hge ⊢
      have hint : (2 : ℤ) ^ n ≤ ⌊x + 1 / 2⌋ := Int.le_floor.mpr (by exact_mod_cast hge)
      exact_mod_cast hint
    have hu1 : (2 : ℚ) ^ (l - 52) ≤ 1 := zpow_le_one_of_nonpos₀ one_le_two (by omega)
    linarith

theorem far_of_lt_one {x : ℚ} (hx : IsDouble x) (hlow : 0 ≤ x + 1 / 2) (hhigh : x + 1 / 2 < 1)
    (hne : x ≠ belowHalf) : (2 : ℚ) ^ lastPlace (x + 1 / 2) / 2 < ⌊x + 1 / 2⌋ + 1 - (x + 1 / 2) := by
  have hfloor : ⌊x + 1 / 2⌋ = 0 := Int.floor_eq_zero_iff.mpr ⟨hlow, hhigh⟩
  rw [hfloor, Int.cast_zero, zero_add]
  by_cases hhalf : x < 1 / 4
  · have hplace : lastPlace (x + 1 / 2) ≤ -2 := by
      rcases hlow.eq_or_lt with hzero | hpos
      · rw [← hzero]
        decide +kernel
      · rw [lastPlace, abs_of_pos hpos]
        have hlog : Int.log 2 (x + 1 / 2) < 0 := (log_lt_iff hpos).mpr (by simpa using hhigh)
        omega
    have hu : (2 : ℚ) ^ lastPlace (x + 1 / 2) ≤ 2 ^ (-2 : ℤ) := zpow_le_zpow_right₀ one_le_two hplace
    norm_num at hu
    linarith
  · obtain ⟨j, hj⟩ := hx.multiple (show (2 : ℚ) ^ (-2 : ℤ) ≤ x by norm_num; linarith)
    have hpos : 0 < x + 1 / 2 := by linarith
    have hlog : Int.log 2 (x + 1 / 2) = -1 := by
      have hlt : Int.log 2 (x + 1 / 2) < 0 := (log_lt_iff hpos).mpr (by simpa using hhigh)
      have hge : -1 ≤ Int.log 2 (x + 1 / 2) := (le_log_iff hpos).mpr (by norm_num; linarith)
      omega
    have hplace : lastPlace (x + 1 / 2) = -53 := by
      rw [lastPlace, abs_of_pos hpos, hlog]
      decide
    rw [hplace]
    norm_num at hj ⊢
    -- `x` is a multiple of `2 ^ -54` below a half
    have hlt : (j : ℚ) < 2 ^ 53 := by
      rw [hj] at hhigh
      norm_num at hhigh
      linarith
    have hjle : j ≤ 2 ^ 53 - 1 := by
      have hint : j < 2 ^ 53 := by exact_mod_cast hlt
      omega
    have hjne : j ≠ 2 ^ 53 - 1 := by
      rintro rfl
      apply hne
      rw [hj, belowHalf]
      norm_num
    have hj2 : (j : ℚ) ≤ 2 ^ 53 - 2 := by
      have hint : j ≤ 2 ^ 53 - 2 := by omega
      exact_mod_cast hint
    rw [hj]
    norm_num at hj2
    linarith

/-- Adding a half and taking the floor rounds half up, but for one number. -/
theorem floor_round_add_half {x : ℚ} (hx : IsDouble x) (hlow : 0 ≤ x + 1 / 2) (hhigh : x + 1 / 2 < 2 ^ 51) :
    ⌊round (x + 1 / 2)⌋ = ⌊x + 1 / 2⌋ ↔ x ≠ belowHalf := by
  constructor
  · rintro heq rfl
    exact absurd heq (by decide +kernel)
  · intro hne
    have hplace : lastPlace (x + 1 / 2) ≤ 0 := by
      rcases hlow.eq_or_lt with hzero | hpos
      · rw [← hzero]
        decide +kernel
      · rw [lastPlace, abs_of_pos hpos]
        have hlog : Int.log 2 (x + 1 / 2) < 51 := (log_lt_iff hpos).mpr (by exact_mod_cast hhigh)
        omega
    apply floor_round hplace
    by_cases hone : 1 ≤ x + 1 / 2
    · exact far_of_ge_one hx hone hhigh
    · exact far_of_lt_one hx hlow (not_le.mp hone) hne

end Binary64
