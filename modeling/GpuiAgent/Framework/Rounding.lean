import Mathlib.Algebra.Order.Group.Nat
import Mathlib.Algebra.Ring.Nat
import Mathlib.Tactic.Ring

namespace GpuiAgent.Framework

/-- The integer nearest to `a / d`; of two that are as near, the even one. -/
def roundEven (a d : Nat) : Nat :=
  let below := a / d
  let twice := 2 * (a % d)
  if twice < d then below else if d < twice then below + 1 else below + below % 2

/-- How many of the low bits of `a / d` do not fit. -/
def excessBits (bits a d : Nat) : Nat := Nat.log2 (a / d) + 1 - bits

/-- `a / d`, rounded to a number of so many bits with zeros behind them. -/
def roundTo (bits a d : Nat) : Nat :=
  roundEven a (d * 2 ^ excessBits bits a d) * 2 ^ excessBits bits a d

section Rounding

variable {a d bound bits : Nat}

theorem roundEven_mul (m : Nat) (hd : 0 < d) : roundEven (m * d) d = m := by
  unfold roundEven
  dsimp only
  rw [Nat.mul_div_cancel m hd, Nat.mul_mod_left, if_pos (by omega)]

theorem roundEven_le (h : a < bound * d) : roundEven a d ≤ bound := by
  have hbelow : a / d < bound := Nat.div_lt_of_lt_mul (by rwa [Nat.mul_comm])
  unfold roundEven
  dsimp only
  split_ifs <;> omega

/-- The quotient needs no bits above those that are kept and those that are cut off. -/
theorem lt_of_excessBits (hd : 0 < d) :
    a < 2 ^ bits * (d * 2 ^ excessBits bits a d) := by
  have hlog : a / d < 2 ^ ((a / d).log2 + 1) := Nat.lt_log2_self
  have hle : 2 ^ ((a / d).log2 + 1) ≤ 2 ^ (bits + excessBits bits a d) :=
    Nat.pow_le_pow_right (by omega) (by unfold excessBits; omega)
  have hlt := (Nat.div_lt_iff_lt_mul hd).mp (hlog.trans_le hle)
  calc a < 2 ^ (bits + excessBits bits a d) * d := hlt
    _ = 2 ^ bits * (d * 2 ^ excessBits bits a d) := by ring

/-- A number of so many bits with zeros behind them is a multiple of its last place. -/
theorem two_pow_excessBits_dvd {m place : Nat} (hbits : 0 < bits) (hm : m ≤ 2 ^ bits) :
    2 ^ excessBits bits (m * 2 ^ place) 1 ∣ m * 2 ^ place := by
  unfold excessBits
  rw [Nat.div_one]
  obtain hlt | rfl := Nat.lt_or_eq_of_le hm
  · have hplace : (m * 2 ^ place).log2 + 1 - bits ≤ place := by
      by_cases hzero : m * 2 ^ place = 0
      · rw [hzero, Nat.log2_zero]
        omega
      · have hk : m * 2 ^ place < 2 ^ (bits + place) := by
          rw [pow_add]
          exact Nat.mul_lt_mul_of_pos_right hlt (Nat.two_pow_pos place)
        have := (Nat.log2_lt hzero).mpr hk
        omega
    exact Dvd.dvd.mul_left (pow_dvd_pow 2 hplace) m
  · rw [← pow_add, Nat.log2_two_pow]
    exact pow_dvd_pow 2 (by omega)

/-- Rounding leaves what is rounded as it is. -/
theorem roundTo_roundTo {e : Nat} (hbits : 0 < bits) (hd : 0 < d) (he : 0 < e) :
    roundTo bits (roundTo bits a d * e) e = roundTo bits a d := by
  have hm : roundEven a (d * 2 ^ excessBits bits a d) ≤ 2 ^ bits :=
    roundEven_le (lt_of_excessBits hd)
  have hdvd : 2 ^ excessBits bits (roundTo bits a d) 1 ∣ roundTo bits a d :=
    two_pow_excessBits_dvd hbits hm
  generalize roundTo bits a d = k at hdvd ⊢
  have hexcess : excessBits bits (k * e) e = excessBits bits k 1 := by
    unfold excessBits
    rw [Nat.mul_div_cancel k he, Nat.div_one]
  obtain ⟨c, hc⟩ := hdvd
  unfold roundTo
  rw [hexcess]
  have hplace : 0 < 2 ^ excessBits bits k 1 := Nat.two_pow_pos _
  generalize 2 ^ excessBits bits k 1 = place at hc hplace ⊢
  have hmul : k * e = c * (e * place) := by
    rw [hc]
    ring
  rw [hmul, roundEven_mul c (Nat.mul_pos he hplace), hc, Nat.mul_comm]

end Rounding

end GpuiAgent.Framework
