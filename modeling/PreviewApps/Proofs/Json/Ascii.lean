import PreviewApps.Json.Printer

/-! JSON text is ASCII, whatever stands in the value that it is made of. -/

namespace PreviewApps

namespace Text

def IsAscii (cs : List Char) : Prop := ∀ c ∈ cs, c.toNat < 128

instance (cs : List Char) : Decidable (IsAscii cs) := List.decidableBAll _ cs

section IsAscii

variable {cs ds : List Char} {c : Char}

@[simp] theorem isAscii_nil : IsAscii [] := List.forall_mem_nil _

@[simp] theorem isAscii_cons : IsAscii (c :: cs) ↔ c.toNat < 128 ∧ IsAscii cs :=
  List.forall_mem_cons

@[simp] theorem isAscii_append : IsAscii (cs ++ ds) ↔ IsAscii cs ∧ IsAscii ds :=
  List.forall_mem_append

@[simp] theorem isAscii_reverse : IsAscii cs.reverse ↔ IsAscii cs := by
  simp [IsAscii]

theorem IsAscii.sublist (h : IsAscii cs) (hds : ds.Sublist cs) : IsAscii ds :=
  fun _ hd => h _ (hds.mem hd)

@[simp] theorem isAscii_zeros (n : Nat) : IsAscii (List.replicate n '0') := by
  intro c hc
  rw [List.eq_of_mem_replicate hc]
  decide

theorem isAscii_flatMap {α : Type} {f : α → List Char} {xs : List α} (h : ∀ x, IsAscii (f x)) :
    IsAscii (xs.flatMap f) := by
  intro c hc
  obtain ⟨x, -, hx⟩ := List.mem_flatMap.1 hc
  exact h x c hx

end IsAscii

theorem isAscii_toDigits {base : Nat} (hone : 1 < base) (hbase : base ≤ 16) (n : Nat) :
    IsAscii (Nat.toDigits base n) := by
  have hdigit : ∀ d < 16, d.digitChar.toNat < 128 := by decide
  induction n using Nat.strongRecOn with
  | _ n ih =>
    rw [Nat.toDigits_eq_if hone]
    split
    · next h => simpa using hdigit n (Nat.lt_of_lt_of_le h hbase)
    · have hmod : n % base < base := Nat.mod_lt n (by omega)
      have hlast := hdigit (n % base) (Nat.lt_of_lt_of_le hmod hbase)
      have hrest := ih (n / base) (Nat.div_lt_self (by omega) hone)
      simp [hlast, hrest]

theorem isAscii_hexDigits (width n : Nat) : IsAscii (hexDigits width n) :=
  isAscii_append.2 ⟨isAscii_zeros _, isAscii_toDigits (by decide) (by decide) n⟩

theorem isAscii_padded (width n : Nat) : IsAscii (padded width n) :=
  isAscii_append.2 ⟨isAscii_zeros _, isAscii_toDigits (by decide) (by decide) n⟩

end Text

namespace Json

open Text (IsAscii isAscii_append isAscii_cons)

theorem isAscii_unitEscape (n : Nat) : IsAscii (unitEscape n) :=
  isAscii_cons.2 ⟨by decide, isAscii_cons.2 ⟨by decide, Text.isAscii_hexDigits 4 n⟩⟩

theorem isAscii_escapeChar (c : Char) : IsAscii (escapeChar c) := by
  unfold escapeChar
  split
  · next h => rcases h with rfl | rfl <;> decide
  split
  · decide
  split
  · decide
  split
  · decide
  split
  · decide
  split
  · decide
  split
  · next h => simpa using Nat.lt_succ_of_lt h.2
  split
  · exact isAscii_unitEscape _
  · exact isAscii_append.2 ⟨isAscii_unitEscape _, isAscii_unitEscape _⟩

theorem isAscii_stringText (s : String) : IsAscii (stringText s) := by
  have hescaped : IsAscii (s.toList.flatMap escapeChar) := Text.isAscii_flatMap isAscii_escapeChar
  simp [stringText, hescaped]

theorem isAscii_intText (n : Int) : IsAscii (intText n) := by
  have hdigits : IsAscii (Nat.toDigits 10 n.natAbs) :=
    Text.isAscii_toDigits (by decide) (by decide) _
  unfold intText
  split
  · simp [hdigits]
  · exact hdigits

theorem isAscii_pointedText {digits : List Char} (h : IsAscii digits) (point : Int) :
    IsAscii (pointedText digits point) := by
  have hbefore := h.sublist (List.take_sublist point.toNat digits)
  have hbehind := h.sublist (List.drop_sublist point.toNat digits)
  unfold pointedText
  refine isAscii_append.2 ⟨?_, isAscii_cons.2 ⟨by decide, ?_⟩⟩
  · split
    · exact isAscii_append.2 ⟨hbefore, Text.isAscii_zeros _⟩
    · decide
  · split
    · decide
    · exact isAscii_append.2 ⟨Text.isAscii_zeros _, hbehind⟩

theorem isAscii_exponentText (e : Int) : IsAscii (exponentText e) := by
  have hdigits := Text.isAscii_padded 2 e.natAbs
  unfold exponentText
  split <;> simp [hdigits]

theorem isAscii_finiteText {digits : List Char} (h : IsAscii digits) (point : Int) :
    IsAscii (finiteText digits point) := by
  have hexponent := isAscii_exponentText (point - 1)
  unfold finiteText
  split
  · exact isAscii_pointedText h point
  · split
    · decide
    · simp_all
    · simp_all

theorem isAscii_decimalText (d : Decimal) : IsAscii (decimalText d) := by
  cases d with
  | nan => decide
  | infinite negative => cases negative <;> decide
  | finite negative n e =>
    have hall : IsAscii (Nat.toDigits 10 n) := Text.isAscii_toDigits (by decide) (by decide) n
    have hdigits : IsAscii ((Nat.toDigits 10 n).reverse.dropWhile (· == '0')).reverse :=
      Text.isAscii_reverse.2 ((Text.isAscii_reverse.2 hall).sublist (List.dropWhile_sublist _))
    unfold decimalText
    refine isAscii_append.2 ⟨?_, ?_⟩
    · cases negative <;> decide
    · split
      · decide
      · exact isAscii_finiteText hdigits _

structure Layout.Ascii (l : Layout) : Prop where
  item : IsAscii l.item.toList
  member : IsAscii l.member.toList

theorem Layout.ascii_spaced : Layout.spaced.Ascii := ⟨by decide, by decide⟩

variable {l : Layout}

mutual

theorem isAscii_text (hl : l.Ascii) (j : Json) : IsAscii (text l j) := by
  cases j with
  | null => exact (by decide : IsAscii "null".toList)
  | bool b =>
    cases b with
    | false => exact (by decide : IsAscii "false".toList)
    | true => exact (by decide : IsAscii "true".toList)
  | int n => exact isAscii_intText n
  | decimal d => exact isAscii_decimalText d
  | str s => exact isAscii_stringText s
  | arr vs => simp [text, isAscii_itemsText hl vs]
  | obj ms => simp [text, isAscii_membersText hl ms]

theorem isAscii_itemsText (hl : l.Ascii) (vs : List Json) : IsAscii (itemsText l vs) := by
  match vs with
  | [] => exact Text.isAscii_nil
  | [v] => exact isAscii_text hl v
  | v :: w :: vs =>
    simp [itemsText, isAscii_text hl v, hl.item, isAscii_itemsText hl (w :: vs)]

theorem isAscii_membersText (hl : l.Ascii) (ms : List (String × Json)) :
    IsAscii (membersText l ms) := by
  match ms with
  | [] => exact Text.isAscii_nil
  | [(k, v)] => simp [membersText, isAscii_stringText k, hl.member, isAscii_text hl v]
  | (k, v) :: m :: ms =>
    simp [membersText, isAscii_stringText k, hl.member, isAscii_text hl v, hl.item,
      isAscii_membersText hl (m :: ms)]

end

theorem isAscii_render (hl : l.Ascii) (j : Json) : IsAscii (render l j).toList := by
  rw [render, String.toList_ofList]
  exact isAscii_text hl j

end Json

end PreviewApps
