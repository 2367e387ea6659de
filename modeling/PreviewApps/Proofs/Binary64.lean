import Mathlib.Algebra.Order.Ring.Nat
import PreviewApps.Binary64

/-! Rounding to double precision keeps whole numbers: a fraction is never rounded across one. -/

namespace PreviewApps.Binary64

theorem scaleUp_of_nonpos {e : Int} (he : e ≤ 0) (n : Nat) : scaleUp e n = n := by
  rw [scaleUp, Int.toNat_of_nonpos he]
  exact Nat.mul_one n

theorem div_le_div_roundAt {e : Int} (he : e ≤ 0) (num den : Nat) :
    num / den ≤ (roundAt e num den).1 / (roundAt e num den).2 := by
  let s := scaleUp (-e) 1
  have hs : 0 < s := Nat.mul_pos Nat.one_pos (Nat.pow_pos (by decide))
  have hscaled : scaleUp (-e) num = num * s := by
    change num * Nat.pow 2 _ = num * (1 * Nat.pow 2 _)
    rw [Nat.one_mul]
  have hquotient : num / den = num * s / den / s := by
    rw [Nat.div_div_eq_div_mul, Nat.mul_div_mul_right _ _ hs]
  have hround : ∃ q, num * s / den ≤ q ∧ roundAt e num den = (q, s) := by
    unfold roundAt
    simp only [scaleUp_of_nonpos he, hscaled]
    split
    · exact ⟨_, Nat.le_refl _, rfl⟩
    · exact ⟨_, Nat.le_succ _, rfl⟩
  obtain ⟨q, hq, hround⟩ := hround
  rw [hquotient, hround]
  exact Nat.div_le_div_right hq

theorem log2_lt_of_lt_mul {num den k : Nat} (hnum : num ≠ 0) (h : num < 2 ^ k * den) :
    num.log2 ≤ den.log2 + k := by
  have hden : den < 2 ^ (den.log2 + 1) := Nat.lt_log2_self
  have hlt : num < 2 ^ (den.log2 + 1 + k) := by
    rw [Nat.pow_add, Nat.mul_comm]
    exact Nat.lt_of_lt_of_le h (Nat.mul_le_mul_left _ hden.le)
  have := (Nat.log2_lt hnum).2 hlt
  omega

theorem div_le_div_nearest {num den : Nat} (h : num < 2 ^ 53 * den) :
    num / den ≤ (nearest num den).1 / (nearest num den).2 := by
  unfold nearest
  split
  · next hzero => rcases hzero with rfl | rfl <;> simp
  · next hne =>
    have hlog := log2_lt_of_lt_mul (fun hnum => hne (.inl hnum)) h
    dsimp only
    apply div_le_div_roundAt
    split
    · omega
    · next hlarge =>
      -- with the exponent one the fraction would be 2 ^ 53 or more
      by_contra hpos
      have hone : (num.log2 : Int) - den.log2 - 52 = 1 := by omega
      rw [hone] at hlarge
      have hnum : scaleUp (-1) num = num := scaleUp_of_nonpos (by decide) num
      have hden : scaleUp 1 den = den * 2 := rfl
      have hpow : Nat.pow 2 52 = 4503599627370496 := rfl
      rw [hnum, hden, hpow] at hlarge
      omega

end PreviewApps.Binary64
