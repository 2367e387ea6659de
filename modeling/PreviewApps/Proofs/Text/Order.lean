import Mathlib.Data.List.Nodup
import PreviewApps.Text.Order

/-! Lists sorted by texts: they hold what they held before, and the texts ascend. -/

namespace PreviewApps.Text

variable {α : Type} (f : α → String) (xs : List α)

theorem sortBy_perm : (sortBy f xs).Perm xs := List.mergeSort_perm ..

theorem pairwise_sortBy : (sortBy f xs).Pairwise fun a b => f a ≤ f b := by
  have htrans : ∀ a b c : α, decide (¬ f b < f a) = true → decide (¬ f c < f b) = true →
      decide (¬ f c < f a) = true := by
    intro a b c hab hbc
    exact decide_eq_true (String.le_trans (of_decide_eq_true hab) (of_decide_eq_true hbc))
  have htotal : ∀ a b : α, (decide (¬ f b < f a) || decide (¬ f a < f b)) = true := by
    intro a b
    rw [Bool.or_eq_true, decide_eq_true_eq, decide_eq_true_eq]
    exact String.le_total (f a) (f b)
  have hsorted := List.pairwise_mergeSort htrans htotal xs
  exact hsorted.imp fun hab => of_decide_eq_true hab

theorem pairwise_sortBy_of_nodup (h : (xs.map f).Nodup) :
    (sortBy f xs).Pairwise fun a b => f a < f b := by
  have hnodup : ((sortBy f xs).map f).Nodup := ((sortBy_perm f xs).map f).nodup_iff.2 h
  have hdistinct := List.pairwise_map.1 hnodup
  refine (pairwise_sortBy f xs).imp₂ ?_ hdistinct
  intro a b hle hne
  exact String.not_le.1 fun hge => hne (String.le_antisymm hle hge)

variable {xs} in
theorem sortBy_eq_of_perm {ys : List α} (h : xs.Perm ys) (hxs : (xs.map f).Nodup) :
    sortBy f xs = sortBy f ys := by
  have hys : (ys.map f).Nodup := (h.map f).nodup_iff.1 hxs
  have hperm : (sortBy f xs).Perm (sortBy f ys) :=
    ((sortBy_perm f xs).trans h).trans (sortBy_perm f ys).symm
  refine List.Perm.eq_of_pairwise ?_ (pairwise_sortBy_of_nodup f xs hxs)
    (pairwise_sortBy_of_nodup f ys hys) hperm
  exact fun a b _ _ hab hba => absurd hba (String.lt_asymm hab)

end PreviewApps.Text
