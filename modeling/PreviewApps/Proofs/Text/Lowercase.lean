import Mathlib.Tactic.Common
import PreviewApps.Text.Lowercase

/-!
Lower-casing and ASCII. But for `i` and `k`, which `İ` and the Kelvin sign have as lower case too, an
ASCII character is the lower case of ASCII characters only.
-/

namespace PreviewApps.Text

theorem forall_ascii {p : Char → Prop} (h : ∀ n < 128, p (Char.ofNat n)) {c : Char}
    (hc : c.toNat < 128) : p c := by
  have hn := h c.toNat hc
  rwa [Char.ofNat_toNat] at hn

structure IsPlain (w : Char) : Prop where
  ascii : w.toNat < 128
  ne_i : w ≠ 'i'
  ne_k : w ≠ 'k'

instance (w : Char) : Decidable (IsPlain w) :=
  decidable_of_iff (w.toNat < 128 ∧ w ≠ 'i' ∧ w ≠ 'k')
    ⟨fun h => ⟨h.1, h.2.1, h.2.2⟩, fun h => ⟨h.ascii, h.ne_i, h.ne_k⟩⟩

/-- Runs beyond ASCII stay beyond it, but for the Kelvin sign, and stay clear of the surrogates. -/
theorem shifted_of_mem_caseRuns : ∀ r ∈ caseRuns, 128 ≤ r.first →
    ((r.first : Int) + r.shift = 107 ∧ r.first = r.last ∨ 128 ≤ (r.first : Int) + r.shift) ∧
      ((r.last : Int) + r.shift < 55296 ∨
        57343 < (r.first : Int) + r.shift ∧ (r.last : Int) + r.shift < 1114112) := by
  decide +kernel

theorem ascii_of_mem_caseRuns : ∀ r ∈ caseRuns, r.first < 128 → r.last < 128 := by
  decide +kernel

theorem le_of_covers {r : CaseRun} {n : Nat} (h : r.covers n = true) :
    r.first ≤ n ∧ n ≤ r.last := by
  simp only [CaseRun.covers, Bool.and_eq_true, decide_eq_true_eq] at h
  exact h.1

theorem lowerChar_of_not_ascii {c : Char} (h : 128 ≤ c.toNat) :
    lowerChar c = 'k' ∨ 128 ≤ (lowerChar c).toNat := by
  rw [lowerChar, if_neg (Nat.not_lt.2 h)]
  split
  · next r hfind =>
    have hmem := List.mem_of_find?_eq_some hfind
    have hcovers : r.covers c.toNat = true := by simpa using List.find?_some hfind
    obtain ⟨hfirst, hlast⟩ := le_of_covers hcovers
    have habove : 128 ≤ r.first := by
      by_contra hbelow
      have hends := ascii_of_mem_caseRuns r hmem (Nat.not_le.1 hbelow)
      omega
    obtain ⟨hshift, hvalid⟩ := shifted_of_mem_caseRuns r hmem habove
    rcases hshift with ⟨hkelvin, hone⟩ | hbeyond
    · have hn : ((c.toNat : Int) + r.shift).toNat = 107 := by omega
      exact .inl (by rw [hn])
    · have hn : ((c.toNat : Int) + r.shift).toNat.isValidChar := by
        rw [Nat.isValidChar]
        omega
      have hvalue : (Char.ofNat ((c.toNat : Int) + r.shift).toNat).toNat =
          ((c.toNat : Int) + r.shift).toNat := by
        rw [Char.ofNat, dif_pos hn]
        rfl
      exact .inr (by omega)
  · exact .inr h

theorem toLower_of_not_ascii {c : Char} (h : 128 ≤ c.toNat) : c.toLower = c := by
  unfold Char.toLower
  apply dif_neg
  rintro ⟨-, hlast⟩
  have hz : 'Z'.val.toNat = 90 := rfl
  rw [UInt32.le_iff_toNat_le, hz] at hlast
  change 128 ≤ c.val.toNat at h
  omega

theorem lowerChar_eq_iff {c w : Char} (hw : IsPlain w) : lowerChar c = w ↔ c.toLower = w := by
  by_cases hc : c.toNat < 128
  · rw [lowerChar, if_pos hc]
  · have hc : 128 ≤ c.toNat := Nat.not_lt.1 hc
    have hascii := hw.ascii
    rw [toLower_of_not_ascii hc]
    constructor
    · rintro rfl
      rcases lowerChar_of_not_ascii hc with hk | hbeyond
      · exact absurd hk hw.ne_k
      · omega
    · rintro rfl
      omega

theorem exists_lowered_cons_iff {c w : Char} {cs p : List Char} :
    (∃ front rest, c :: cs = front ++ rest ∧ front.map Char.toLower = w :: p) ↔
      c.toLower = w ∧ ∃ front rest, cs = front ++ rest ∧ front.map Char.toLower = p := by
  constructor
  · rintro ⟨front, rest, hcs, hfront⟩
    cases front with
    | nil => cases hfront
    | cons d front =>
      cases hcs
      obtain ⟨hd, hfront⟩ := List.cons.inj hfront
      exact ⟨hd, front, rest, rfl, hfront⟩
  · rintro ⟨hc, front, rest, rfl, rfl⟩
    exact ⟨c :: front, rest, rfl, by rw [List.map_cons, hc]⟩

theorem isPrefix_lowerFrom_iff {p : List Char} (hp : ∀ w ∈ p, IsPlain w) (before cs : List Char) :
    p <+: lowerFrom before cs ↔ ∃ front rest, cs = front ++ rest ∧ front.map Char.toLower = p := by
  induction p generalizing before cs with
  | nil => exact iff_of_true List.nil_prefix ⟨[], cs, rfl, rfl⟩
  | cons w p ih =>
    cases cs with
    | nil => simp [lowerFrom]
    | cons c cs =>
      have hw := hp w (List.mem_cons_self ..)
      have ih := ih (fun x hx => hp x (List.mem_cons_of_mem w hx)) (c :: before) cs
      have hne (hc : 128 ≤ c.toNat) : c.toLower ≠ w := by
        rintro rfl
        have hascii := hw.ascii
        rw [toLower_of_not_ascii hc] at hascii
        omega
      rw [exists_lowered_cons_iff, ← ih, lowerFrom]
      split
      -- what `İ` becomes begins with `i`, which is not plain
      · next hdotted =>
        refine iff_of_false (fun hprefix => ?_) fun hright => hne (by rw [hdotted]; decide) hright.1
        exact hw.ne_i (List.cons_prefix_cons.1 hprefix).1
      · split
        -- and the sigma becomes one of two characters that are not ASCII
        · next hsigma =>
          refine iff_of_false (fun hprefix => ?_) fun hright => hne (by rw [hsigma]; decide) hright.1
          have hhead := (List.cons_prefix_cons.1 hprefix).1
          have hascii := hw.ascii
          rw [hhead] at hascii
          split at hascii <;> exact absurd hascii (by decide)
        · rw [List.singleton_append, List.cons_prefix_cons, ← lowerChar_eq_iff hw]
          exact and_congr_left fun _ => eq_comm

end PreviewApps.Text
