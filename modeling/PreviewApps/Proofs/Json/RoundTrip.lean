import PreviewApps.Proofs.Assoc
import PreviewApps.Proofs.Json.StringText

/-!
Reading JSON text back. Values without numbers whose objects have distinct keys are recovered from
their text in every layout that pads its separators with blanks only.
-/

namespace PreviewApps.Json

mutual

def IsTextual : Json → Prop
  | int _ | decimal _ => False
  | null | bool _ | str _ => True
  | arr vs => AreTextual vs
  | obj ms => (ms.map (·.1)).Nodup ∧ MembersTextual ms

def AreTextual : List Json → Prop
  | [] => True
  | v :: vs => IsTextual v ∧ AreTextual vs

def MembersTextual : List (String × Json) → Prop
  | [] => True
  | (_, v) :: ms => IsTextual v ∧ MembersTextual ms

end

theorem membersTextual_iff {ms : List (String × Json)} :
    MembersTextual ms ↔ ∀ m ∈ ms, IsTextual m.2 := by
  induction ms with
  | nil => simp [MembersTextual]
  | cons m ms ih => simp [MembersTextual, ih]

def Separates (sep : Char) (s : String) : Prop :=
  ∃ bs, s.toList = sep :: bs ∧ ∀ c ∈ bs, Reader.isSpace c = true

structure Layout.Readable (l : Layout) : Prop where
  item : Separates ',' l.item
  member : Separates ':' l.member

theorem Layout.readable_compact : Layout.compact.Readable :=
  ⟨⟨[], rfl, by simp⟩, ⟨[], rfl, by simp⟩⟩

namespace Reader

variable {l : Layout}

theorem skip_text {j : Json} (h : IsTextual j) (r : List Char) :
    skip (text l j ++ r) = text l j ++ r := by
  cases j with
  | null | str | arr | obj => rfl
  | bool b => cases b <;> rfl
  | int | decimal => exact absurd h (by simp [IsTextual])

theorem stringText_append (s : String) (r : List Char) :
    ∃ cs, stringText s ++ r = '"' :: cs ∧ string cs = some (s, r) :=
  ⟨(stringText s).tail ++ r, rfl, string_stringText s r⟩

section Steps

variable {n : Nat} {cs ds es fs r : List Char}

theorem value_string (s : String) (r : List Char) :
    value (n + 1) (stringText s ++ r) = some (.str s, r) := by
  obtain ⟨cs, hcs, hs⟩ := stringText_append s r
  rw [hcs, value, hs]
  rfl

theorem value_items {vs : List Json} (hskip : skip cs = cs) (hne : cs.head? ≠ some ']')
    (h : items n cs = some (vs, r)) : value (n + 1) ('[' :: cs) = some (.arr vs, r) := by
  rw [value, hskip]
  split
  · exact absurd rfl hne
  · rw [h]
    rfl

theorem value_members {ms : List (String × Json)} (hskip : skip cs = cs)
    (hne : cs.head? ≠ some '\x7d') (hms : (ms.map (·.1)).Nodup) (h : members n cs = some (ms, r)) :
    value (n + 1) ('\x7b' :: cs) = some (.obj ms, r) := by
  rw [value, hskip]
  split
  · exact absurd rfl hne
  · simp only [h, Option.map_some, Assoc.ofList_of_nodup hms]

theorem items_one {v : Json} (h : value n cs = some (v, ']' :: r)) :
    items (n + 1) cs = some ([v], r) := by
  rw [items, h]
  rfl

theorem items_more {v : Json} {vs : List Json} (hv : value n cs = some (v, ds))
    (hds : skip ds = ',' :: es) (hvs : items n (skip es) = some (vs, r)) :
    items (n + 1) cs = some (v :: vs, r) := by
  simp only [items, hv, bind, Option.bind, hds, hvs]

theorem members_one {k : String} {v : Json} (hds : skip ds = ':' :: es)
    (hv : value n (skip es) = some (v, '\x7d' :: r)) :
    members (n + 1) (stringText k ++ ds) = some ([(k, v)], r) := by
  obtain ⟨cs, hcs, hs⟩ := stringText_append k ds
  rw [hcs, members]
  simp only [hs, bind, Option.bind, hds, hv]
  rfl

theorem members_more {k : String} {v : Json} {ms : List (String × Json)}
    (hds : skip ds = ':' :: es) (hv : value n (skip es) = some (v, fs))
    (hfs : skip fs = ',' :: cs) (hms : members n (skip cs) = some (ms, r)) :
    members (n + 1) (stringText k ++ ds) = some ((k, v) :: ms, r) := by
  obtain ⟨cs, hcs, hs⟩ := stringText_append k ds
  rw [hcs, members]
  simp only [hs, bind, Option.bind, hds, hv, hfs, hms]

end Steps

theorem separator_append {sep : Char} {s : String} (hs : Separates sep s)
    (hsep : isSpace sep = false) (cs : List Char) :
    ∃ ds, skip (s.toList ++ cs) = sep :: ds ∧ skip ds = skip cs ∧ 0 < s.toList.length := by
  obtain ⟨bs, hbs, hblank⟩ := hs
  refine ⟨bs ++ cs, ?_, ?_, by simp [hbs]⟩
  · rw [hbs, List.cons_append, skip,
      List.dropWhile_cons_of_neg (by rw [hsep]; exact Bool.false_ne_true)]
  · rw [skip, List.dropWhile_append_of_pos hblank, skip]

theorem head?_text {j : Json} (h : IsTextual j) (r : List Char) :
    (text l j ++ r).head? ≠ some ']' := by
  cases j with
  | null | str | arr | obj => exact fun h => by cases h
  | bool b => cases b <;> exact fun h => by cases h
  | int | decimal => exact absurd h (by simp [IsTextual])

theorem itemsText_cons (v : Json) {vs : List Json} (hne : vs ≠ []) :
    itemsText l (v :: vs) = text l v ++ (l.item.toList ++ itemsText l vs) := by
  rw [itemsText, List.append_assoc]
  exact hne

theorem membersText_cons (k : String) (v : Json) {ms : List (String × Json)} (hne : ms ≠ []) :
    membersText l ((k, v) :: ms) =
      stringText k ++ (l.member.toList ++ (text l v ++ (l.item.toList ++ membersText l ms))) := by
  rw [membersText]
  · simp only [List.append_assoc]
  · exact hne

theorem itemsText_eq (v : Json) (vs : List Json) : ∃ t, itemsText l (v :: vs) = text l v ++ t := by
  cases vs with
  | nil => exact ⟨[], (List.append_nil _).symm⟩
  | cons w vs => exact ⟨_, itemsText_cons v (List.cons_ne_nil w vs)⟩

theorem skip_itemsText {v : Json} (hv : IsTextual v) (vs : List Json) (r : List Char) :
    skip (itemsText l (v :: vs) ++ r) = itemsText l (v :: vs) ++ r ∧
      (itemsText l (v :: vs) ++ r).head? ≠ some ']' := by
  obtain ⟨t, ht⟩ := itemsText_eq (l := l) v vs
  rw [ht, List.append_assoc]
  exact ⟨skip_text hv (t ++ r), head?_text hv (t ++ r)⟩

theorem membersText_eq (m : String × Json) (ms : List (String × Json)) :
    ∃ t, membersText l (m :: ms) = '"' :: t := by
  obtain ⟨k, v⟩ := m
  cases ms with
  | nil => exact ⟨_, rfl⟩
  | cons m ms => exact ⟨_, rfl⟩

mutual

/-- Fuel of the length of the text suffices, and whatever follows the text is left. -/
theorem value_text (hl : l.Readable) (j : Json) (hj : IsTextual j) (n : Nat)
    (hn : (text l j).length ≤ n) (r : List Char) : value n (text l j ++ r) = some (j, r) := by
  match j, n with
  | null, n + 1 => rfl
  | bool true, n + 1 => rfl
  | bool false, n + 1 => rfl
  | str s, n + 1 => exact value_string s r
  | arr [], n + 1 => rfl
  | arr (v :: vs), n + 1 =>
    simp only [text, List.length_append, List.length_cons] at hn
    have hvs := items_itemsText hl (v :: vs) hj (List.cons_ne_nil v vs) n (by omega) r
    obtain ⟨hskip, hhead⟩ := skip_itemsText (l := l) hj.1 vs (']' :: r)
    simp only [text, List.cons_append, List.append_assoc, List.nil_append]
    exact value_items hskip hhead hvs
  | obj [], n + 1 => rfl
  | obj (m :: ms), n + 1 =>
    simp only [text, List.length_append, List.length_cons] at hn
    have hms := members_membersText hl (m :: ms) hj.2 (List.cons_ne_nil m ms) n (by omega) r
    obtain ⟨t, ht⟩ := membersText_eq (l := l) m ms
    simp only [text, List.cons_append, List.append_assoc, List.nil_append]
    refine value_members ?_ ?_ hj.1 hms
    · rw [ht]
      rfl
    · rw [ht]
      exact fun h => nomatch h

theorem items_itemsText (hl : l.Readable) (vs : List Json) (hvs : AreTextual vs) (hne : vs ≠ [])
    (n : Nat) (hn : (itemsText l vs).length < n) (r : List Char) :
    items n (itemsText l vs ++ ']' :: r) = some (vs, r) := by
  match vs, n with
  | [v], n + 1 => exact items_one (value_text hl v hvs.1 n (Nat.le_of_lt_succ hn) (']' :: r))
  | v :: w :: vs, n + 1 =>
    have hne' : w :: vs ≠ [] := List.cons_ne_nil w vs
    rw [itemsText_cons v hne', List.length_append, List.length_append] at hn
    obtain ⟨ds, hds, hskip, hpos⟩ :=
      separator_append hl.item rfl (itemsText l (w :: vs) ++ ']' :: r)
    have hv := value_text hl v hvs.1 n (by omega)
      (l.item.toList ++ (itemsText l (w :: vs) ++ ']' :: r))
    have hws := items_itemsText hl (w :: vs) hvs.2 hne' n (by omega) r
    rw [itemsText_cons v hne', List.append_assoc, List.append_assoc]
    refine items_more hv hds ?_
    rw [hskip, (skip_itemsText hvs.2.1 vs (']' :: r)).1]
    exact hws

theorem members_membersText (hl : l.Readable) (ms : List (String × Json)) (hms : MembersTextual ms)
    (hne : ms ≠ []) (n : Nat) (hn : (membersText l ms).length < n) (r : List Char) :
    members n (membersText l ms ++ '\x7d' :: r) = some (ms, r) := by
  match ms, n with
  | [(k, v)], n + 1 =>
    simp only [membersText, List.length_append] at hn
    obtain ⟨ds, hds, hskip, hpos⟩ := separator_append hl.member rfl (text l v ++ '\x7d' :: r)
    have hv := value_text hl v hms.1 n (by omega) ('\x7d' :: r)
    simp only [membersText, List.append_assoc]
    refine members_one hds ?_
    rw [hskip, skip_text hms.1]
    exact hv
  | (k, v) :: m :: ms, n + 1 =>
    have hne' : m :: ms ≠ [] := List.cons_ne_nil m ms
    simp only [membersText_cons k v hne', List.length_append] at hn
    obtain ⟨es, hes, hskip', hpos'⟩ :=
      separator_append hl.item rfl (membersText l (m :: ms) ++ '\x7d' :: r)
    obtain ⟨ds, hds, hskip, hpos⟩ := separator_append hl.member rfl
      (text l v ++ (l.item.toList ++ (membersText l (m :: ms) ++ '\x7d' :: r)))
    have hv := value_text hl v hms.1 n (by omega)
      (l.item.toList ++ (membersText l (m :: ms) ++ '\x7d' :: r))
    have hws := members_membersText hl (m :: ms) hms.2 hne' n (by omega) r
    simp only [membersText_cons k v hne', List.append_assoc]
    refine members_more hds ?_ hes ?_
    · rw [hskip, skip_text hms.1]
      exact hv
    · obtain ⟨t, ht⟩ := membersText_eq (l := l) m ms
      rw [hskip', ← hws, ht]
      rfl

end

end Reader

theorem parse?_render {l : Layout} (hl : l.Readable) {j : Json} (hj : IsTextual j) :
    parse? (render l j) = some j := by
  have hskip := Reader.skip_text (l := l) hj []
  have hv := Reader.value_text hl j hj (2 * (text l j).length + 2) (by omega) []
  rw [List.append_nil] at hskip hv
  simp only [parse?, render, String.toList_ofList, hskip, hv, bind, Option.bind]
  rfl

end PreviewApps.Json
