/-! Cutting a text at a separator. -/

namespace PreviewApps.Text

/-- What stands before and after the first `sep`. -/
def cutFirst (sep : Char) : List Char → Option (List Char × List Char)
  | [] => none
  | c :: r => if c = sep then some ([], r) else (cutFirst sep r).map fun (a, b) => (c :: a, b)

/-- What stands before and after the last `sep`. -/
def cutLast (sep : Char) : List Char → Option (List Char × List Char)
  | [] => none
  | c :: r => match cutLast sep r with
    | some (a, b) => some (c :: a, b)
    | none => if c = sep then some ([], r) else none

/-- The pieces between separators; a text without separators is one piece. -/
def pieces (sep : Char) : List Char → List (List Char)
  | [] => [[]]
  | c :: r =>
    if c = sep then [] :: pieces sep r
    else match pieces sep r with
      | p :: ps => (c :: p) :: ps
      | [] => [[c]]

theorem cutFirst_eq_some {sep : Char} {cs a b : List Char} (h : cutFirst sep cs = some (a, b)) :
    cs = a ++ sep :: b ∧ sep ∉ a := by
  induction cs generalizing a with
  | nil => simp [cutFirst] at h
  | cons c r ih =>
    by_cases hc : c = sep
    · simp_all [cutFirst]
    · simp only [cutFirst, if_neg hc, Option.map_eq_some_iff, Prod.mk.injEq, Prod.exists] at h
      obtain ⟨a', b', h, rfl, rfl⟩ := h
      obtain ⟨rfl, hn⟩ := ih h
      exact ⟨rfl, by simp [hn, Ne.symm hc]⟩

theorem length_lt_of_cutFirst_eq_some {sep : Char} {cs a b : List Char}
    (h : cutFirst sep cs = some (a, b)) : b.length < cs.length := by
  rw [(cutFirst_eq_some h).1, List.length_append, List.length_cons]
  omega

theorem cutFirst_append {sep : Char} {a : List Char} (b : List Char) (h : sep ∉ a) :
    cutFirst sep (a ++ sep :: b) = some (a, b) := by
  induction a with
  | nil => simp [cutFirst]
  | cons c a ih =>
    simp only [List.mem_cons, not_or] at h
    simp [cutFirst, Ne.symm h.1, ih h.2]

theorem cutFirst_eq_none {sep : Char} {cs : List Char} : cutFirst sep cs = none ↔ sep ∉ cs := by
  induction cs with
  | nil => simp [cutFirst]
  | cons c r ih =>
    by_cases hc : c = sep
    · simp [cutFirst, hc]
    · simp [cutFirst, hc, ih, Ne.symm hc]

theorem cutLast_eq_none {sep : Char} {cs : List Char} : cutLast sep cs = none ↔ sep ∉ cs := by
  induction cs with
  | nil => simp [cutLast]
  | cons c r ih =>
    cases hr : cutLast sep r with
    | none =>
      have hnone : sep ∉ r := ih.1 hr
      by_cases hc : c = sep
      · simp [cutLast, hr, hc]
      · simp [cutLast, hr, hc, hnone, Ne.symm hc]
    | some p =>
      have hmem : sep ∈ r := Decidable.not_not.1 fun hno => by
        rw [ih.2 hno] at hr
        cases hr
      simp [cutLast, hr, hmem]

theorem cutLast_append {sep : Char} (a : List Char) {b : List Char} (h : sep ∉ b) :
    cutLast sep (a ++ sep :: b) = some (a, b) := by
  induction a with
  | nil => simp [cutLast, cutLast_eq_none.2 h]
  | cons c a ih => simp [cutLast, ih]

theorem cutLast_eq_some {sep : Char} {cs a b : List Char} (h : cutLast sep cs = some (a, b)) :
    cs = a ++ sep :: b ∧ sep ∉ b := by
  induction cs generalizing a with
  | nil => cases h
  | cons c r ih =>
    rw [cutLast] at h
    split at h
    · next a' b' hr =>
      cases h
      obtain ⟨rfl, hb⟩ := ih hr
      exact ⟨rfl, hb⟩
    · next hr =>
      split at h
      · next hc =>
        cases h
        exact ⟨by rw [hc, List.nil_append], cutLast_eq_none.1 hr⟩
      · cases h

theorem pieces_of_notMem {sep : Char} {cs : List Char} (h : sep ∉ cs) : pieces sep cs = [cs] := by
  induction cs with
  | nil => rfl
  | cons c r ih =>
    simp only [List.mem_cons, not_or] at h
    simp only [pieces, if_neg (Ne.symm h.1), ih h.2]

theorem pieces_append {sep : Char} {a : List Char} (b : List Char) (h : sep ∉ a) :
    pieces sep (a ++ sep :: b) = a :: pieces sep b := by
  induction a with
  | nil => simp [pieces]
  | cons c a ih =>
    simp only [List.mem_cons, not_or] at h
    simp only [List.cons_append, pieces, if_neg (Ne.symm h.1), ih h.2]

end PreviewApps.Text
