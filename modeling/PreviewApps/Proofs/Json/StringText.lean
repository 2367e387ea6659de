import PreviewApps.Json.Printer
import PreviewApps.Json.Reader

/-!
Strings in JSON text: every string is read back from its escapes, whatever characters it holds and
whatever follows.
-/

namespace PreviewApps.Text

theorem hexDigits_of_lt {n : Nat} (h : n < 16) : hexDigits 1 n = [n.digitChar] := by
  rw [hexDigits, Nat.toDigits_of_lt_base h]
  rfl

theorem hexDigits_succ {w : Nat} (hw : 0 < w) (n : Nat) :
    hexDigits (w + 1) n = hexDigits w (n / 16) ++ [(n % 16).digitChar] := by
  unfold hexDigits
  rcases Nat.lt_or_ge n 16 with h | h
  · obtain ⟨w, rfl⟩ := Nat.exists_eq_succ_of_ne_zero (Nat.pos_iff_ne_zero.1 hw)
    rw [Nat.toDigits_of_lt_base h, Nat.div_eq_of_lt h, Nat.mod_eq_of_lt h, Nat.toDigits_zero]
    simp [List.replicate_succ']
  · rw [Nat.toDigits_of_base_le (by omega) h]
    simp [Nat.add_sub_add_right]

end PreviewApps.Text

namespace PreviewApps.Json.Reader

open Text (hexDigits)

theorem hexValue?_digitChar {d : Nat} (h : d < 16) : hexValue? d.digitChar = some d := by
  have hall : ∀ d, d < 16 → hexValue? d.digitChar = some d := by decide
  exact hall d h

theorem hexDigits_four {n : Nat} (h : n < 65536) :
    hexDigits 4 n = [(n / 4096).digitChar, (n / 256 % 16).digitChar, (n / 16 % 16).digitChar,
      (n % 16).digitChar] := by
  rw [Text.hexDigits_succ (by decide), Text.hexDigits_succ (by decide),
    Text.hexDigits_succ (by decide), Text.hexDigits_of_lt (by omega)]
  simp [Nat.div_div_eq_div_mul]

theorem units_unitEscape {n : Nat} (h : n < 65536) (r : List Char) :
    units (unitEscape n ++ r) = (units r).map fun p => (n :: p.1, p.2) := by
  have hunit : hexUnit? (n / 4096).digitChar (n / 256 % 16).digitChar (n / 16 % 16).digitChar
      (n % 16).digitChar = some n := by
    simp only [hexUnit?, hexValue?_digitChar (show n / 4096 < 16 by omega),
      hexValue?_digitChar (Nat.mod_lt _ (by decide : 16 > 0)), bind, Option.bind]
    congr 1
    omega
  rw [unitEscape, hexDigits_four h]
  simp only [List.cons_append, List.nil_append, units, hunit]
  cases units r <;> rfl

def unitsOf (c : Char) : List Nat :=
  if c.toNat < 65536 then [c.toNat]
  else [55296 + (c.toNat - 65536) / 1024, 56320 + (c.toNat - 65536) % 1024]

theorem units_short {c d : Char} (h : shortEscape? d = some c.toNat) (hd : d ≠ 'u')
    (r : List Char) : units ('\\' :: d :: r) = (units r).map fun p => (c.toNat :: p.1, p.2) := by
  rw [units]
  · simp only [h, bind, Option.bind]
    cases units r <;> rfl
  · exact fun _ _ _ _ _ he => absurd he hd

theorem units_plain {c : Char} (hquote : c ≠ '"') (hslash : c ≠ '\\') (h : 32 ≤ c.toNat)
    (r : List Char) : units (c :: r) = (units r).map fun p => (c.toNat :: p.1, p.2) := by
  have hn : ¬ c.toNat < 32 := by omega
  rw [units]
  · simp only [if_neg hn, bind, Option.bind]
    cases units r <;> rfl
  · exact fun he => absurd he hquote
  · exact fun _ _ _ _ _ he => absurd he hslash
  · exact fun _ _ he => absurd he hslash

theorem toNat_lt (c : Char) : c.toNat < 1114112 := by
  rcases c.valid with h | ⟨-, h⟩
  · exact Nat.lt_trans h (by decide)
  · exact h

theorem units_escapeChar (c : Char) (r : List Char) :
    units (escapeChar c ++ r) = (units r).map fun p => (unitsOf c ++ p.1, p.2) := by
  unfold escapeChar
  split
  case isTrue h =>
    rcases h with rfl | rfl
    · exact units_short (c := '"') rfl (by decide) r
    · exact units_short (c := '\\') rfl (by decide) r
  next hne =>
  simp only [not_or] at hne
  split
  case isTrue h => exact h ▸ units_short (c := '\n') rfl (by decide) r
  split
  case isTrue h => exact h ▸ units_short (c := '\r') rfl (by decide) r
  split
  case isTrue h => exact h ▸ units_short (c := '\t') rfl (by decide) r
  split
  case isTrue h => exact h ▸ units_short (c := '\x08') rfl (by decide) r
  split
  case isTrue h => exact h ▸ units_short (c := '\x0c') rfl (by decide) r
  split
  case isTrue h =>
    have hu : unitsOf c = [c.toNat] := if_pos (by omega)
    rw [hu]
    exact units_plain hne.1 hne.2 h.1 r
  split
  case isTrue h =>
    have hu : unitsOf c = [c.toNat] := if_pos h
    rw [hu]
    exact units_unitEscape h r
  case isFalse h =>
    have hlt := toNat_lt c
    have hu : unitsOf c = [55296 + (c.toNat - 65536) / 1024, 56320 + (c.toNat - 65536) % 1024] :=
      if_neg h
    rw [hu, List.append_assoc, units_unitEscape (by omega), units_unitEscape (by omega)]
    cases units r <;> rfl

theorem units_flatMap (cs r : List Char) :
    units (cs.flatMap escapeChar ++ '"' :: r) = some (cs.flatMap unitsOf, r) := by
  induction cs with
  | nil => rfl
  | cons c cs ih =>
    rw [List.flatMap_cons, List.append_assoc, units_escapeChar, ih]
    rfl

theorem joinUnits_cons {n : Nat} (h : isHighHalf n = false) (ns : List Nat) :
    joinUnits (n :: ns) = charOfUnit n :: joinUnits ns := by
  cases ns with
  | nil => rfl
  | cons m ns => simp [joinUnits, h]

theorem charOfUnit_toNat (c : Char) : charOfUnit c.toNat = c ∧ isHighHalf c.toNat = false := by
  have hvalid : c.toNat < 55296 ∨ 57343 < c.toNat := c.valid.imp id And.left
  have hhigh : isHighHalf c.toNat = false := by
    simp only [isHighHalf, Bool.and_eq_false_iff, decide_eq_false_iff_not]
    omega
  have hlow : isLowHalf c.toNat = false := by
    simp only [isLowHalf, Bool.and_eq_false_iff, decide_eq_false_iff_not]
    omega
  refine ⟨?_, hhigh⟩
  rw [charOfUnit, hhigh, hlow]
  exact Char.ofNat_toNat c

theorem joinUnits_unitsOf (c : Char) (ns : List Nat) :
    joinUnits (unitsOf c ++ ns) = c :: joinUnits ns := by
  unfold unitsOf
  split
  · obtain ⟨hc, hhigh⟩ := charOfUnit_toNat c
    rw [List.singleton_append, joinUnits_cons hhigh, hc]
  · have hlt := toNat_lt c
    have hhigh : isHighHalf (55296 + (c.toNat - 65536) / 1024) = true := by
      simp only [isHighHalf, Bool.and_eq_true, decide_eq_true_eq]
      omega
    have hlow : isLowHalf (56320 + (c.toNat - 65536) % 1024) = true := by
      simp only [isLowHalf, Bool.and_eq_true, decide_eq_true_eq]
      omega
    have hnat : 65536 + (55296 + (c.toNat - 65536) / 1024 - 55296) * 1024 +
        (56320 + (c.toNat - 65536) % 1024 - 56320) = c.toNat := by omega
    simp only [List.cons_append, List.nil_append, joinUnits, hhigh, hlow, Bool.and_self, if_true,
      hnat, Char.ofNat_toNat]

theorem joinUnits_flatMap (cs : List Char) : joinUnits (cs.flatMap unitsOf) = cs := by
  induction cs with
  | nil => rfl
  | cons c cs ih => rw [List.flatMap_cons, joinUnits_unitsOf, ih]

theorem string_stringText (s : String) (r : List Char) :
    string ((stringText s).tail ++ r) = some (s, r) := by
  rw [stringText, List.cons_append, List.tail_cons, List.append_assoc, List.singleton_append,
    string, units_flatMap, Option.map_some]
  simp only [joinUnits_flatMap, String.ofList_toList]

end PreviewApps.Json.Reader
