import PreviewApps.AppName
import PreviewApps.Proofs.Text.Lowercase
import PreviewApps.Text.Blank

/-!
The characters of application names, which texts are accepted as names, and the names of objects
derived from them.
-/

namespace PreviewApps.AppName

structure IsName (s : String) : Prop where
  nonempty : s ≠ ""
  chars : ∀ c ∈ s.toList, c.isAlphanum ∨ c = '-' ∨ c = '_' ∨ c = '.'

def IsNameLine (s : String) : Prop := ∃ name, IsName name ∧ s = name ++ "\n"

theorem isNameChar_iff {c : Char} :
    isNameChar c ↔ c.isAlphanum ∨ c = '-' ∨ c = '_' ∨ c = '.' := by
  have hupper : c.isUpper ↔ 'A' ≤ c ∧ c ≤ 'Z' := decide_eq_true_iff
  have hlower : c.isLower = ('a' ≤ c && c ≤ 'z') := rfl
  have hdigit : c.isDigit = ('0' ≤ c && c ≤ '9') := rfl
  have halphanum : c.isAlphanum = (c.isUpper || c.isLower || c.isDigit) := rfl
  simp only [isNameChar, halphanum, hlower, hdigit, Bool.or_eq_true, hupper, Bool.and_eq_true,
    decide_eq_true_eq, beq_iff_eq]
  grind

theorem isName_iff {s : String} :
    IsName s ↔ (!s.toList.isEmpty && s.toList.all isNameChar) = true := by
  have hchars : s.toList.all isNameChar = true ↔
      ∀ c ∈ s.toList, c.isAlphanum ∨ c = '-' ∨ c = '_' ∨ c = '.' := by
    simp only [List.all_eq_true, isNameChar_iff]
  rw [Bool.and_eq_true, hchars]
  constructor
  · intro h
    exact ⟨by simpa using h.nonempty, h.chars⟩
  · rintro ⟨hne, h⟩
    exact ⟨by simpa using hne, h⟩

theorem lineFeed_notMem_of_isName {s : String} (h : IsName s) : '\n' ∉ s.toList :=
  fun hmem => absurd (h.chars _ hmem) (by decide)

theorem isNameLine_append_iff {s : String} : IsNameLine (s ++ "\n") ↔ IsName s := by
  constructor
  · rintro ⟨name, hname, hs⟩
    rwa [(String.append_left_inj _).1 hs]
  · exact fun h => ⟨s, h, rfl⟩

theorem isValid_append_lineFeed (s : String) : isValid (s ++ "\n") = true ↔ IsName s := by
  have hdrop : dropFinalNewline (s ++ "\n").toList = s.toList := by
    have hchars : (s ++ "\n").toList = s.toList ++ ['\n'] := by
      rw [String.toList_append]
      rfl
    rw [hchars, dropFinalNewline, if_pos List.getLast?_concat, List.dropLast_concat]
  rw [isValid, hdrop, isName_iff]

theorem isValid_of_not_lineFeed {s : String} (h : s.toList.getLast? ≠ some '\n') :
    isValid s = true ↔ IsName s := by
  rw [isValid, dropFinalNewline, if_neg h, isName_iff]

theorem exists_append_lineFeed {s : String} (h : s.toList.getLast? = some '\n') :
    ∃ front, s = front ++ "\n" := by
  obtain ⟨front, hfront⟩ := List.getLast?_eq_some_iff.1 h
  refine ⟨String.ofList front, String.toList_injective ?_⟩
  rw [hfront, String.toList_append, String.toList_ofList]
  rfl

theorem isValid_iff (s : String) : isValid s = true ↔ IsName s ∨ IsNameLine s := by
  by_cases hlast : s.toList.getLast? = some '\n'
  · obtain ⟨front, rfl⟩ := exists_append_lineFeed hlast
    have hno : ¬IsName (front ++ "\n") := fun h =>
      lineFeed_notMem_of_isName h (List.mem_of_getLast? hlast)
    rw [isValid_append_lineFeed, isNameLine_append_iff, or_iff_right hno]
  · have hno : ¬IsNameLine s := by
      rintro ⟨name, -, rfl⟩
      exact hlast (by simp [String.toList_append])
    rw [isValid_of_not_lineFeed hlast, or_iff_left hno]

theorem isNameChar_of_mem_value {a : AppName} {c : Char} (hc : c ∈ a.value.toList)
    (hnl : c ≠ '\n') : isNameChar c := by
  rcases (isValid_iff a.value).1 a.valid with hname | ⟨name, hname, hvalue⟩
  · exact isNameChar_iff.2 (hname.chars c hc)
  · rw [hvalue, String.toList_append] at hc
    rcases List.mem_append.1 hc with hc | hc
    · exact isNameChar_iff.2 (hname.chars c hc)
    · exact absurd (List.mem_singleton.1 hc) hnl

theorem notMem_value (a : AppName) {c : Char} (hc : isNameChar c = false) (hnl : c ≠ '\n') :
    c ∉ a.value.toList := by
  intro hmem
  rw [isNameChar_of_mem_value hmem hnl] at hc
  cases hc

theorem ofString?_eq_some_iff {raw : String} {a : AppName} :
    ofString? raw = some a ↔ raw = a.value := by
  unfold ofString?
  constructor
  · intro h
    split at h
    · cases h
      rfl
    · cases h
  · rintro rfl
    exact dif_pos a.valid

theorem value_ne_nil (a : AppName) : a.value.toList ≠ [] := by
  intro hnil
  have hvalid := a.valid
  rw [isValid, hnil] at hvalid
  cases hvalid

theorem ofString?_getD_eq_some_iff {text : Option String} {a : AppName} :
    ofString? (text.getD "") = some a ↔ text = some a.value := by
  cases text with
  | none =>
    have hempty : "" ≠ a.value := fun h => a.value_ne_nil (h ▸ rfl)
    rw [Option.getD_none, ofString?_eq_some_iff]
    exact iff_of_false hempty nofun
  | some value => rw [Option.getD_some, ofString?_eq_some_iff, Option.some.injEq]

theorem lowerFrom_ne_nil (before : List Char) {cs : List Char} (h : cs ≠ []) :
    Text.lowerFrom before cs ≠ [] := by
  cases cs with
  | nil => exact absurd rfl h
  | cons c r =>
    unfold Text.lowerFrom
    split
    · exact List.cons_ne_nil _ _
    · split
      · exact List.cons_ne_nil _ _
      · exact List.cons_ne_nil _ _

theorem namespaceId_ne_empty (a : AppName) : a.namespaceId ≠ "" := by
  intro hempty
  have hchars := congrArg String.toList hempty
  rw [namespaceId, Text.lower, String.toList_ofList] at hchars
  exact lowerFrom_ne_nil [] a.value_ne_nil hchars

theorem deploymentName_inj {a : AppName} {s t : String}
    (h : a.deploymentName s = a.deploymentName t) : s = t := by
  unfold deploymentName at h
  exact (String.append_right_inj _).1 ((String.append_left_inj _).1 h)

theorem ingressRouteName_inj {a : AppName} {s t : String}
    (h : a.ingressRouteName s = a.ingressRouteName t) : s = t := by
  unfold ingressRouteName at h
  exact (String.append_right_inj _).1 ((String.append_left_inj _).1 h)

theorem secretName_inj {a : AppName} {s t : String} (h : a.secretName s = a.secretName t) :
    s = t := by
  unfold secretName at h
  exact (String.append_right_inj _).1 ((String.append_left_inj _).1 h)

theorem secretName_eq_pullSecretName_iff {a : AppName} {s : String} :
    a.secretName s = a.pullSecretName ↔ s = "image-pull" := by
  have hpull : a.pullSecretName = a.secretName "image-pull" := by
    simp only [pullSecretName, secretName, String.append_assoc]
    rfl
  rw [hpull]
  exact ⟨secretName_inj, congrArg a.secretName⟩

theorem ext_iff {a b : AppName} : a = b ↔ a.value = b.value := by
  refine ⟨congrArg AppName.value, fun h => ?_⟩
  obtain ⟨v, hv⟩ := a
  obtain ⟨w, hw⟩ := b
  cases h
  rfl

def Separate (A : AppName → Prop) : Prop :=
  ∀ a b, A a → A b → a.namespaceId = b.namespaceId → a = b

section Labels

theorem toNat_lt_of_isNameChar {c : Char} (h : isNameChar c) : c.toNat < 128 := by
  simp only [isNameChar, Bool.or_eq_true, Bool.and_eq_true, decide_eq_true_eq, beq_iff_eq,
    Char.le_def, UInt32.le_iff_toNat_le] at h
  change c.val.toNat < 128
  rcases h with ((((⟨-, h⟩ | ⟨-, h⟩) | ⟨-, h⟩) | rfl) | rfl) | rfl
  · exact Nat.lt_of_le_of_lt h (by decide)
  · exact Nat.lt_of_le_of_lt h (by decide)
  · exact Nat.lt_of_le_of_lt h (by decide)
  · decide
  · decide
  · decide

theorem lowerFrom_of_ascii (before : List Char) {cs : List Char} (h : ∀ c ∈ cs, c.toNat < 128) :
    Text.lowerFrom before cs = cs.map Char.toLower := by
  induction cs generalizing before with
  | nil => rfl
  | cons c cs ih =>
    have hascii := h c (List.mem_cons_self ..)
    have hdotted : c ≠ 'İ' := by
      rintro rfl
      exact absurd hascii (by decide)
    have hsigma : c ≠ 'Σ' := by
      rintro rfl
      exact absurd hascii (by decide)
    have hrest := ih (c :: before) fun d hd => h d (List.mem_cons_of_mem c hd)
    rw [Text.lowerFrom, if_neg hdotted, if_neg hsigma, hrest, Text.lowerChar, if_pos hascii]
    rfl

theorem lowerFrom_of_isNameChar (before : List Char) {cs : List Char}
    (h : ∀ c ∈ cs, isNameChar c) : Text.lowerFrom before cs = cs.map Char.toLower :=
  lowerFrom_of_ascii before fun c hc => toNat_lt_of_isNameChar (h c hc)

def isLabelChar (c : Char) : Bool := ('a' ≤ c && c ≤ 'z') || ('0' ≤ c && c ≤ '9') || c == '-'

theorem toLower_of_isLabelChar {c : Char} (h : isLabelChar c) : c.toLower = c := by
  simp only [isLabelChar, Bool.or_eq_true, Bool.and_eq_true, decide_eq_true_eq, beq_iff_eq,
    Char.le_def, UInt32.le_iff_toNat_le] at h
  unfold Char.toLower
  apply dif_neg
  rintro ⟨hlow, hhigh⟩
  simp only [UInt32.le_iff_toNat_le, ge_iff_le] at hlow hhigh
  have ha : 'a'.val.toNat = 97 := rfl
  have h9 : '9'.val.toNat = 57 := rfl
  have hA : 'A'.val.toNat = 65 := rfl
  have hZ : 'Z'.val.toNat = 90 := rfl
  rcases h with (⟨h, -⟩ | ⟨-, h⟩) | rfl
  · omega
  · omega
  · revert hlow
    decide

/-- A label in the sense of RFC 1123, in lower case. -/
structure IsLabel (s : String) : Prop where
  chars : ∀ c ∈ s.toList, isLabelChar c
  head : s.toList.head? ≠ some '-'
  last : s.toList.getLast? ≠ some '-'
  pos : 0 < s.length
  le : s.length ≤ 63

theorem IsLabel.map_toLower {s : String} (h : IsLabel s) :
    s.toList.map Char.toLower = s.toList := by
  have hsame : ∀ c ∈ s.toList, c.toLower = id c := by
    intro c hc
    exact toLower_of_isLabelChar (h.chars c hc)
  rw [List.map_congr_left hsame, List.map_id]

end Labels

section Accepted

theorem lineFeed_mem_of_isNameLine {s : String} (h : IsNameLine s) : '\n' ∈ s.toList := by
  obtain ⟨name, -, rfl⟩ := h
  simp [String.toList_append]

theorem not_isName_of_isNameLine {s : String} (h : IsNameLine s) : ¬IsName s :=
  fun hname => lineFeed_notMem_of_isName hname (lineFeed_mem_of_isNameLine h)

theorem not_isBlank_of_isNameChar {c : Char} (h : isNameChar c) : Text.isBlank c = false :=
  Text.forall_ascii (p := fun c => isNameChar c → Text.isBlank c = false)
    (by decide +kernel) (toNat_lt_of_isNameChar h) h

/-- A text is accepted exactly if it is a name or a name with a line feed behind it, and is kept as
it is. Only the latter makes a difference: it is no name, and the line feed is the one blank that is
ever accepted. -/
theorem accepted_as_name_iff (s : String) :
    (ofString? s).map AppName.value = (if isValid s then some s else none) ∧
    (isValid s = true ↔ IsName s ∨ IsNameLine s) ∧
    ((isValid s = true ↔ IsName s) ↔ ¬IsNameLine s) ∧
    ((isValid s = true ∧ ∃ c ∈ s.toList, Text.isBlank c = true) ↔ IsNameLine s) := by
  have hvalid := isValid_iff s
  refine ⟨?_, hvalid, ?_, ?_⟩
  · unfold ofString?
    split
    · rfl
    · rfl
  · rw [hvalid]
    constructor
    · intro h hline
      exact not_isName_of_isNameLine hline (h.1 (.inr hline))
    · intro hno
      exact or_iff_left hno
  · constructor
    · rintro ⟨h, c, hmem, hc⟩
      refine (hvalid.1 h).resolve_left fun hname => ?_
      rw [not_isBlank_of_isNameChar (isNameChar_iff.2 (hname.chars c hmem))] at hc
      cases hc
    · intro hline
      exact ⟨hvalid.2 (.inr hline), '\n', lineFeed_mem_of_isNameLine hline, by decide⟩

theorem master_accepted_with_lineFeed :
    (ofString? "master\n").map AppName.value = some "master\n" ∧ isValid "master\n" = true ∧
    ¬IsName "master\n" ∧ '\n' ∈ "master\n".toList ∧ Text.isBlank '\n' = true := by
  have hvalid : isValid "master\n" = true := by decide +kernel
  have hmem : '\n' ∈ "master\n".toList := by decide +kernel
  refine ⟨?_, hvalid, fun h => lineFeed_notMem_of_isName h hmem, hmem, by decide⟩
  rw [ofString?, dif_pos hvalid]
  rfl

end Accepted

end PreviewApps.AppName
