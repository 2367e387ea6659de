import PreviewApps.Text.Lines

/-! Where the first line of a text ends. -/

namespace PreviewApps.Text

theorem linesFrom_of_isLineEnd {c : Char} (hc : isLineEnd c = true) (line rest : List Char) :
    ∃ ls, linesFrom line (c :: rest) = line.reverse :: ls := by
  unfold linesFrom
  split
  · next h => cases h
  · exact ⟨_, rfl⟩
  · next h =>
    cases h
    rw [if_pos hc]
    exact ⟨_, rfl⟩

theorem linesFrom_of_not_isLineEnd {c : Char} (hc : isLineEnd c = false) (line rest : List Char) :
    linesFrom line (c :: rest) = linesFrom (c :: line) rest := by
  rw [linesFrom, if_neg (by simp [hc])]
  rintro _ rfl
  cases hc

theorem linesFrom_append {cs : List Char} (h : ∀ c ∈ cs, isLineEnd c = false)
    (line rest : List Char) : linesFrom line (cs ++ rest) = linesFrom (cs.reverse ++ line) rest := by
  induction cs generalizing line with
  | nil => rfl
  | cons c cs ih =>
    obtain ⟨hc, hcs⟩ := List.forall_mem_cons.1 h
    rw [List.cons_append, linesFrom_of_not_isLineEnd hc, ih hcs, List.reverse_cons,
      List.append_assoc]
    rfl

theorem linesFrom_append_lineFeed {cs : List Char} (h : ∀ c ∈ cs, isLineEnd c = false)
    (rest : List Char) : linesFrom [] (cs ++ '\n' :: rest) = cs :: linesFrom [] rest := by
  rw [linesFrom_append h, List.append_nil]
  change cs.reverse.reverse :: linesFrom [] rest = _
  rw [List.reverse_reverse]

theorem exists_linesFrom_append {cs : List Char} {c : Char} (h : ∀ d ∈ cs, isLineEnd d = false)
    (hc : isLineEnd c = true) (rest : List Char) :
    ∃ ls, linesFrom [] (cs ++ c :: rest) = cs :: ls := by
  rw [linesFrom_append h, List.append_nil]
  obtain ⟨ls, hls⟩ := linesFrom_of_isLineEnd hc cs.reverse rest
  exact ⟨ls, hls.trans (by rw [List.reverse_reverse])⟩

theorem exists_firstLineEnd {cs : List Char} (h : ∃ c ∈ cs, isLineEnd c = true) :
    ∃ before c after, cs = before ++ c :: after ∧ (∀ d ∈ before, isLineEnd d = false) ∧
      isLineEnd c = true := by
  obtain ⟨c, hmem, hc⟩ := h
  have hfind := List.find?_isSome.2 ⟨c, hmem, hc⟩
  obtain ⟨d, hd⟩ := Option.isSome_iff_exists.1 hfind
  obtain ⟨hend, before, after, hcs, hbefore⟩ := List.find?_eq_some_iff_append.1 hd
  exact ⟨before, d, after, hcs, fun e he => by simpa using hbefore e he, hend⟩

end PreviewApps.Text
