import Mathlib.Data.List.Basic
import PreviewApps.Path

/-! Paths read from their texts, and taken apart into parent and name. -/

namespace PreviewApps

namespace Text

theorem pieces_intercalate {sep : Char} {ps : List (List Char)} (hne : ps ≠ [])
    (h : ∀ p ∈ ps, sep ∉ p) : pieces sep ([sep].intercalate ps) = ps := by
  induction ps with
  | nil => exact absurd rfl hne
  | cons p ps ih =>
    have hp := h p (List.mem_cons_self ..)
    cases ps with
    | nil => rw [List.intercalate_singleton, pieces_of_notMem hp]
    | cons q ps =>
      have hrest := ih (List.cons_ne_nil q ps) fun r hr => h r (List.mem_cons_of_mem p hr)
      rw [List.intercalate_cons_cons, List.append_assoc, List.singleton_append, pieces_append _ hp,
        hrest]

end Text

namespace Path

theorem isComponent_iff {s : String} :
    isComponent s = true ↔ s ≠ "" ∧ s ≠ "." ∧ '/' ∉ s.toList := by
  simp [isComponent, and_assoc]

def chars (cs : List String) : List Char := ['/'].intercalate (cs.map String.toList)

theorem exists_chars_cons (c : String) (cs : List String) :
    ∃ rest, chars (c :: cs) = c.toList ++ rest := by
  unfold chars
  cases cs with
  | nil => exact ⟨[], by simp⟩
  | cons d cs =>
    rw [List.map_cons, List.map_cons, List.intercalate_cons_cons, List.append_assoc]
    exact ⟨_, rfl⟩

theorem takeWhile_chars {cs : List String} (h : ∀ c ∈ cs, isComponent c = true) :
    (chars cs).takeWhile (· == '/') = [] := by
  cases cs with
  | nil => rfl
  | cons c cs =>
    obtain ⟨hne, -, hslash⟩ := isComponent_iff.1 (h c (List.mem_cons_self ..))
    obtain ⟨rest, hchars⟩ := exists_chars_cons c cs
    rw [hchars]
    cases hc : c.toList with
    | nil => exact absurd (String.toList_eq_nil_iff.1 hc) hne
    | cons a r =>
      have ha : a ≠ '/' := by
        rintro rfl
        exact hslash (by rw [hc]; exact List.mem_cons_self ..)
      rw [List.cons_append, List.takeWhile_cons_of_neg (by simpa using ha)]

theorem rootOf_append (root : Root) {cs : List String} (h : ∀ c ∈ cs, isComponent c = true) :
    rootOf (root.text.toList ++ chars cs) = root := by
  have hbody := takeWhile_chars h
  cases root with
  | relative => simp [rootOf, Root.text, hbody]
  | single => simp [rootOf, Root.text, hbody]
  | double => simp [rootOf, Root.text, hbody]

theorem filter_pieces_append (root : Root) {cs : List String} (h : ∀ c ∈ cs, isComponent c = true) :
    ((Text.pieces '/' (root.text.toList ++ chars cs)).map String.ofList).filter isComponent =
      cs := by
  -- slashes in front add empty pieces only, and those are no components
  have hempty : isComponent (String.ofList []) = false := by decide
  have hbody : ((Text.pieces '/' (chars cs)).map String.ofList).filter isComponent = cs := by
    cases cs with
    | nil => rfl
    | cons c cs =>
      have hslash : ∀ p ∈ (c :: cs).map String.toList, '/' ∉ p := by
        intro p hp
        obtain ⟨d, hd, rfl⟩ := List.mem_map.1 hp
        exact (isComponent_iff.1 (h d hd)).2.2
      rw [chars, Text.pieces_intercalate (by simp) hslash, List.map_map]
      simp only [Function.comp_def, String.ofList_toList, List.map_id']
      exact List.filter_eq_self.2 h
  cases root with
  | relative => exact hbody
  | single =>
    show (List.map String.ofList ([] :: Text.pieces '/' (chars cs))).filter isComponent = cs
    rw [List.map_cons, List.filter_cons_of_neg (by rw [hempty]; exact Bool.false_ne_true), hbody]
  | double =>
    show (List.map String.ofList ([] :: [] :: Text.pieces '/' (chars cs))).filter isComponent = cs
    rw [List.map_cons, List.map_cons,
      List.filter_cons_of_neg (by rw [hempty]; exact Bool.false_ne_true),
      List.filter_cons_of_neg (by rw [hempty]; exact Bool.false_ne_true), hbody]

theorem ofString_toString (p : Path) : ofString p.toString = p := by
  unfold toString
  split
  · next hdot =>
    obtain ⟨root, components, valid⟩ := p
    obtain ⟨rfl, rfl⟩ := hdot
    have hread : ofString "." = ⟨.relative, [], fun _ hc => absurd hc List.not_mem_nil⟩ := by
      decide +kernel
    exact hread
  · have htext : (p.root.text ++ String.intercalate "/" p.components).toList =
        p.root.text.toList ++ chars p.components := by
      rw [String.toList_append, String.toList_intercalate]
      rfl
    simp only [ofString, ofComponents, htext, rootOf_append p.root p.valid,
      filter_pieces_append p.root p.valid]

theorem toString_injective : Function.Injective toString :=
  Function.LeftInverse.injective ofString_toString

theorem ofString_component {c : String} (h : isComponent c = true) :
    ofString c = ⟨.relative, [c], fun _ hd => List.mem_singleton.1 hd ▸ h⟩ := by
  have hread := ofString_toString ⟨.relative, [c], fun _ hd => List.mem_singleton.1 hd ▸ h⟩
  have htext : toString ⟨.relative, [c], fun _ hd => List.mem_singleton.1 hd ▸ h⟩ = c := by
    rw [toString, if_neg (fun hdot => List.cons_ne_nil c [] hdot.2)]
    simp [Root.text]
  rwa [htext] at hread

theorem join_parent_name (p : Path) : p.parent.join (ofString p.name) = p := by
  obtain ⟨root, components, valid⟩ := p
  rcases List.eq_nil_or_concat' components with rfl | ⟨front, last, rfl⟩
  · have hname : ofString (name ⟨root, [], valid⟩) =
        ⟨.relative, [], fun _ hc => absurd hc List.not_mem_nil⟩ := by
      show ofString "" = _
      decide +kernel
    rw [hname]
    rfl
  · have hlast : isComponent last = true := valid last (by simp)
    have hname : name ⟨root, front ++ [last], valid⟩ = last := by simp [name]
    rw [hname, ofString_component hlast]
    simp [parent, join]

end Path

end PreviewApps
