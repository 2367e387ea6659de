import Mathlib.Data.List.Induction
import Mathlib.Data.Nat.Digits.Defs
import PreviewApps.Text.Digit

/-! Numbers written with a fixed count of decimal digits, and read again. -/

namespace PreviewApps.Text

theorem ofDigitChars_padded (width n : Nat) : Nat.ofDigitChars 10 (padded width n) 0 = n := by
  rw [padded, Nat.ofDigitChars_append, Nat.ofDigitChars_replicate_zero, Nat.mul_zero,
    Nat.ofDigitChars_ten_toDigits]

theorem padded_inj {width m n : Nat} (h : padded width m = padded width n) : m = n := by
  rw [← ofDigitChars_padded width m, h, ofDigitChars_padded]

theorem isAsciiDigit_iff {c : Char} : isAsciiDigit c ↔ '0' ≤ c ∧ c ≤ '9' := by
  rw [isAsciiDigit, Bool.and_eq_true, decide_eq_true_eq, decide_eq_true_eq]

theorem isAsciiDigit_of_mem_padded {width n : Nat} {c : Char} (h : c ∈ padded width n) :
    isAsciiDigit c := by
  rcases List.mem_append.1 h with hzero | hdigit
  · rw [List.eq_of_mem_replicate hzero]
    decide
  · have hc := Nat.isDigit_of_mem_toDigits (by decide) (by decide) hdigit
    rw [Char.isDigit, Bool.and_eq_true, decide_eq_true_eq, decide_eq_true_eq] at hc
    exact isAsciiDigit_iff.2 hc

theorem hyphen_notMem_padded (width n : Nat) : '-' ∉ padded width n :=
  fun h => absurd (isAsciiDigit_of_mem_padded h) (by decide)

theorem natOfDigits_eq_ofDigitChars (cs : List Char) :
    natOfDigits cs = Nat.ofDigitChars 10 cs 0 := by
  rw [natOfDigits, Nat.ofDigitChars_eq_foldl]
  simp only [Nat.mul_comm 10]
  rfl

theorem natOfDigits_padded (width n : Nat) : natOfDigits (padded width n) = n := by
  rw [natOfDigits_eq_ofDigitChars, ofDigitChars_padded]

theorem length_padded {width n : Nat} (hwidth : 0 < width) (h : n < 10 ^ width) :
    (padded width n).length = width := by
  have hlength : (Nat.toDigits 10 n).length ≤ width :=
    (Nat.length_toDigits_le_iff (by decide) hwidth).2 h
  rw [padded, List.length_append, List.length_replicate]
  omega

theorem isDigit_of_isAsciiDigit {c : Char} (h : isAsciiDigit c) : isDigit c := by
  obtain ⟨hlow, hhigh⟩ := isAsciiDigit_iff.1 h
  have hrange : 48 ≤ c.toNat ∧ c.toNat ≤ 48 + 9 := ⟨hlow, hhigh⟩
  rw [isDigit, digitValue?, Option.isSome_map, zeroDigits, List.find?_cons_of_pos]
  · rfl
  · simpa using hrange

theorem natOfDigits_lt {cs : List Char} (h : ∀ c ∈ cs, isAsciiDigit c) :
    natOfDigits cs < 10 ^ cs.length := by
  induction cs using List.reverseRecOn with
  | nil => exact Nat.one_pos
  | append_singleton cs c ih =>
    have hc := isAsciiDigit_iff.1 (h c (by simp))
    have hrest := ih fun d hd => h d (List.mem_append_left _ hd)
    have hvalue : c.toNat ≤ 57 := hc.2
    rw [natOfDigits, List.foldl_append, List.length_append]
    change natOfDigits cs * 10 + (c.toNat - 48) < 10 ^ (cs.length + 1)
    rw [Nat.pow_succ]
    omega

theorem natOfDigits_append (cs ds : List Char) :
    natOfDigits (cs ++ ds) = natOfDigits cs * 10 ^ ds.length + natOfDigits ds := by
  simp only [natOfDigits_eq_ofDigitChars, Nat.ofDigitChars_append]
  rw [Nat.ofDigitChars_eq_ofDigitChars_zero, Nat.mul_comm]

theorem natOfDigits_replicate_zero (n : Nat) : natOfDigits (List.replicate n '0') = 0 := by
  rw [natOfDigits_eq_ofDigitChars, Nat.ofDigitChars_replicate_zero, Nat.mul_zero]

theorem natOfDigits_take {cs : List Char} (h : ∀ c ∈ cs, isAsciiDigit c) (n : Nat) :
    natOfDigits (cs.take n) = natOfDigits cs / 10 ^ (cs.length - n) := by
  have hlt := natOfDigits_lt fun c hc => h c (List.mem_of_mem_drop (i := n) hc)
  have hsplit := natOfDigits_append (cs.take n) (cs.drop n)
  rw [List.take_append_drop, List.length_drop] at hsplit
  rw [List.length_drop] at hlt
  have hpos : 0 < 10 ^ (cs.length - n) := Nat.pow_pos (by decide)
  rw [hsplit, Nat.mul_comm, Nat.mul_add_div hpos, Nat.div_eq_of_lt hlt, Nat.add_zero]

end PreviewApps.Text
