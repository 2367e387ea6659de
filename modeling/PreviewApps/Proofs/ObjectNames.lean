import PreviewApps.Proofs.AppName
import PreviewApps.Proofs.Path

/-!
Which of the names that are derived are labels in the sense of RFC 1123. Lower-casing lets all but
capitals pass, so the namespace and the objects have labels as names exactly where the application
has one up to case, short enough; and volumes do where the path of the directory is such a text.
-/

namespace PreviewApps

namespace AppName

theorem isLabel_iff {s : String} : IsLabel s ↔ (∀ c ∈ s.toList, isLabelChar c) ∧
    s.toList.head? ≠ some '-' ∧ s.toList.getLast? ≠ some '-' ∧ 0 < s.length ∧ s.length ≤ 63 :=
  ⟨fun ⟨hchars, hhead, hlast, hpos, hle⟩ => ⟨hchars, hhead, hlast, hpos, hle⟩,
    fun ⟨hchars, hhead, hlast, hpos, hle⟩ => ⟨hchars, hhead, hlast, hpos, hle⟩⟩

instance (s : String) : Decidable (IsLabel s) :=
  decidable_of_iff (s.toList.all isLabelChar = true ∧ s.toList.head? ≠ some '-' ∧
    s.toList.getLast? ≠ some '-' ∧ 0 < s.length ∧ s.length ≤ 63)
    (by rw [List.all_eq_true, isLabel_iff])

structure IsTail (s : String) : Prop where
  chars : ∀ c ∈ s.toList, isLabelChar c
  last : ∃ c, s.toList.getLast? = some c ∧ c ≠ '-'

theorem isLabel_append_iff {s t : String} (hs : s ≠ "") (ht : IsTail t) :
    IsLabel (s ++ t) ↔ ((∀ c ∈ s.toList, isLabelChar c) ∧ s.toList.head? ≠ some '-') ∧
      s.length + t.length ≤ 63 := by
  obtain ⟨c, hlast, hc⟩ := ht.last
  have hpos : 0 < s.length := by
    rw [← String.length_toList]
    exact List.length_pos_of_ne_nil (by simpa using hs)
  have hhead : (s ++ t).toList.head? = s.toList.head? := by
    obtain ⟨d, r, hs⟩ := List.exists_cons_of_ne_nil (show s.toList ≠ [] by simpa using hs)
    rw [String.toList_append, hs]
    rfl
  have hend : (s ++ t).toList.getLast? = some c := by
    rw [String.toList_append, List.getLast?_append, hlast]
    rfl
  have hchars : (∀ d ∈ (s ++ t).toList, isLabelChar d) ↔ ∀ d ∈ s.toList, isLabelChar d := by
    rw [String.toList_append, List.forall_mem_append]
    exact and_iff_left ht.chars
  rw [isLabel_iff, hchars, hhead, hend, String.length_append]
  constructor
  · rintro ⟨hall, hfirst, -, -, hle⟩
    exact ⟨⟨hall, hfirst⟩, hle⟩
  · rintro ⟨⟨hall, hfirst⟩, hle⟩
    exact ⟨hall, hfirst, by simpa using hc, by omega, hle⟩

structure IsStem (s : String) : Prop where
  chars : ∀ c ∈ s.toList, c.isAlphanum ∨ c = '-'
  head : s.toList.head? ≠ some '-'

section Lowered

theorem isLabelChar_toLower_iff {c : Char} (h : c.toNat < 128) :
    isLabelChar c.toLower ↔ c.isAlphanum ∨ c = '-' :=
  Text.forall_ascii (p := fun c => isLabelChar c.toLower ↔ c.isAlphanum ∨ c = '-')
    (by decide +kernel) h

theorem map_toLower_eq_hyphen_iff {o : Option Char} (h : ∀ c ∈ o, c.toNat < 128) :
    o.map Char.toLower = some '-' ↔ o = some '-' := by
  cases o with
  | none => rfl
  | some c =>
    rw [Option.map_some, Option.some.injEq, Option.some.injEq]
    exact Text.forall_ascii (p := fun c => c.toLower = '-' ↔ c = '-') (by decide +kernel) (h c rfl)

variable {a : AppName}

theorem toNat_lt_of_mem_value {c : Char} (hc : c ∈ a.value.toList) : c.toNat < 128 := by
  by_cases hnl : c = '\n'
  · rw [hnl]
    decide
  · exact toNat_lt_of_isNameChar (isNameChar_of_mem_value hc hnl)

theorem toList_namespaceId (a : AppName) :
    a.namespaceId.toList = a.value.toList.map Char.toLower := by
  rw [namespaceId, Text.lower, String.toList_ofList,
    lowerFrom_of_ascii [] fun _ hc => toNat_lt_of_mem_value hc]

theorem length_namespaceId (a : AppName) : a.namespaceId.length = a.value.length := by
  rw [← String.length_toList, toList_namespaceId, List.length_map, String.length_toList]

theorem isStem_value_iff : IsStem a.value ↔
    (∀ c ∈ a.namespaceId.toList, isLabelChar c) ∧ a.namespaceId.toList.head? ≠ some '-' := by
  have hchars : (∀ c ∈ a.namespaceId.toList, isLabelChar c) ↔
      ∀ c ∈ a.value.toList, c.isAlphanum ∨ c = '-' := by
    rw [toList_namespaceId, List.forall_mem_map]
    exact forall₂_congr fun c hc => isLabelChar_toLower_iff (toNat_lt_of_mem_value hc)
  have hhead : a.namespaceId.toList.head? = some '-' ↔ a.value.toList.head? = some '-' := by
    rw [toList_namespaceId, List.head?_map]
    exact map_toLower_eq_hyphen_iff fun c hc => toNat_lt_of_mem_value (List.mem_of_head? hc)
  rw [hchars, ne_eq, hhead]
  exact ⟨fun h => ⟨h.chars, h.head⟩, fun h => ⟨h.1, h.2⟩⟩

theorem isLabel_namespaceId_iff : IsLabel a.namespaceId ↔
    IsStem a.value ∧ a.value.toList.getLast? ≠ some '-' ∧ a.value.length ≤ 63 := by
  have hlast : a.namespaceId.toList.getLast? = some '-' ↔ a.value.toList.getLast? = some '-' := by
    rw [toList_namespaceId, List.getLast?_map]
    exact map_toLower_eq_hyphen_iff fun c hc => toNat_lt_of_mem_value (List.mem_of_getLast? hc)
  have hpos : 0 < a.value.length := by
    rw [← String.length_toList]
    exact List.length_pos_of_ne_nil a.value_ne_nil
  rw [isLabel_iff, ← and_assoc, ← isStem_value_iff, ne_eq, hlast, length_namespaceId]
  exact and_congr_right fun _ => and_congr_right fun _ => and_iff_right hpos

theorem isLabel_object_iff {service kind : String} (hservice : IsLabel service)
    (hkind : IsTail kind) : IsLabel (a.namespaceId ++ "-" ++ service ++ kind) ↔
      IsStem a.value ∧ a.value.length + service.length + (kind.length + 1) ≤ 63 := by
  have htail : IsTail ("-" ++ service ++ kind) := by
    obtain ⟨c, hlast, hc⟩ := hkind.last
    refine ⟨?_, c, ?_, hc⟩
    · rw [String.toList_append, String.toList_append, List.forall_mem_append,
        List.forall_mem_append]
      exact ⟨⟨by simp [isLabelChar], hservice.chars⟩, hkind.chars⟩
    · rw [String.toList_append, List.getLast?_append, hlast]
      rfl
  have hlength : ("-" ++ service ++ kind).length = service.length + (kind.length + 1) := by
    have hhyphen : "-".length = 1 := rfl
    rw [String.length_append, String.length_append, hhyphen]
    omega
  have hassoc : a.namespaceId ++ "-" ++ service ++ kind =
      a.namespaceId ++ ("-" ++ service ++ kind) := by simp only [String.append_assoc]
  rw [hassoc, isLabel_append_iff a.namespaceId_ne_empty htail, ← isStem_value_iff, hlength,
    length_namespaceId, Nat.add_assoc]

end Lowered

end AppName

namespace Path

def named (p : Path) : List Char := chars (p.components.filter (· != ".."))

structure NamesLabel (cs : List Char) : Prop where
  chars : ∀ c ∈ cs, AppName.isLabelChar c ∨ c = '.' ∨ c = '/'
  head : ∃ c ∈ cs.head?, AppName.isLabelChar c ∧ c ≠ '-'
  last : ∃ c ∈ cs.getLast?, AppName.isLabelChar c ∧ c ≠ '-'
  le : cs.length ≤ 63

def hyphened (c : Char) : Char := if c = '.' ∨ c = '/' then '-' else c

theorem map_dashed {c : String} (h : '/' ∉ c.toList) :
    (dashed c).toList = c.toList.map hyphened := by
  rw [dashed, String.toList_map]
  refine List.map_congr_left fun d hd => ?_
  have hslash : d ≠ '/' := fun he => h (he ▸ hd)
  simp [hyphened, hslash]

theorem map_intercalate (f : Char → Char) (sep : List Char) (ls : List (List Char)) :
    (sep.intercalate ls).map f = (sep.map f).intercalate (ls.map (·.map f)) := by
  induction ls with
  | nil => rfl
  | cons l ls ih =>
    cases ls with
    | nil => simp only [List.intercalate_singleton, List.map_cons, List.map_nil]
    | cons m ls =>
      rw [List.intercalate_cons_cons, List.map_append, List.map_append, ih]
      exact List.intercalate_cons_cons.symm

theorem filter_nameless {cs : List String} (h : ∀ c ∈ cs, isComponent c = true) :
    (cs.filter fun c => !namelessParts.contains c) = cs.filter (· != "..") := by
  refine List.filter_congr fun c hc => ?_
  obtain ⟨hne, hdot, hslash⟩ := isComponent_iff.1 (h c hc)
  have hroot : c ≠ "/" := by
    rintro rfl
    exact hslash (by decide)
  simp [namelessParts, hne, hdot, hroot, bne, BEq.beq]

theorem toList_volumeName {p : Path} (h : p.root = .single) :
    p.volumeName.toList = p.named.map hyphened := by
  have hparts : (p.parts.filter fun c => !namelessParts.contains c) =
      p.components.filter (· != "..") := by
    rw [parts, if_neg (by rw [h]; decide), h, List.filter_cons_of_neg (by decide),
      filter_nameless p.valid]
  have hcomponents : ∀ c ∈ p.components.filter (· != ".."), '/' ∉ c.toList := by
    intro c hc
    exact (isComponent_iff.1 (p.valid c (List.mem_of_mem_filter hc))).2.2
  have hdashed : (p.components.filter (· != "..")).map (String.toList ∘ dashed) =
      (p.components.filter (· != "..")).map ((·.map hyphened) ∘ String.toList) :=
    List.map_congr_left fun c hc => map_dashed (hcomponents c hc)
  rw [volumeName, hparts, String.toList_intercalate, named, chars, map_intercalate, List.map_map,
    List.map_map, hdashed]
  rfl

theorem slash_mem_volumeName {p : Path} (h : p.root = .double) : '/' ∈ p.volumeName.toList := by
  -- the root of two slashes is kept as a part
  have hparts : (p.parts.filter fun c => !namelessParts.contains c) =
      "//" :: p.components.filter fun c => !namelessParts.contains c := by
    rw [parts, if_neg (by rw [h]; decide), h, List.filter_cons_of_pos (by decide)]
    rfl
  have hslash : '/' ∈ (dashed "//").toList := by decide +kernel
  rw [volumeName, hparts, String.toList_intercalate, List.map_cons, List.map_cons]
  cases (p.components.filter fun c => !namelessParts.contains c).map dashed with
  | nil => rwa [List.map_nil, List.intercalate_singleton]
  | cons c cs =>
    rw [List.map_cons, List.intercalate_cons_cons]
    exact List.mem_append_left _ (List.mem_append_left _ hslash)

theorem isLabelChar_hyphened_iff {c : Char} :
    AppName.isLabelChar (hyphened c) ↔ AppName.isLabelChar c ∨ c = '.' ∨ c = '/' := by
  unfold hyphened
  split
  · next h => exact iff_of_true (by decide) (.inr h)
  · next h => exact (or_iff_left h).symm

theorem hyphened_ne_hyphen_iff {c : Char} (h : AppName.isLabelChar c ∨ c = '.' ∨ c = '/') :
    hyphened c ≠ '-' ↔ AppName.isLabelChar c ∧ c ≠ '-' := by
  unfold hyphened
  split
  · next hmark =>
    refine iff_of_false (fun hne => hne rfl) fun hlabel => ?_
    rcases hmark with rfl | rfl
    · exact absurd hlabel.1 (by decide)
    · exact absurd hlabel.1 (by decide)
  · next hmark => exact (and_iff_right (h.resolve_right hmark)).symm

theorem map_hyphened_ne_iff {o : Option Char} (hsome : o ≠ none)
    (h : ∀ c ∈ o, AppName.isLabelChar c ∨ c = '.' ∨ c = '/') :
    o.map hyphened ≠ some '-' ↔ ∃ c ∈ o, AppName.isLabelChar c ∧ c ≠ '-' := by
  cases o with
  | none => exact absurd rfl hsome
  | some c => simpa using hyphened_ne_hyphen_iff (h c rfl)

theorem isLabel_volumeName_iff {p : Path} (h : p.root ≠ .relative) :
    AppName.IsLabel p.volumeName ↔ p.root = .single ∧ NamesLabel p.named := by
  cases hroot : p.root with
  | relative => exact absurd hroot h
  | double =>
    refine iff_of_false (fun hlabel => ?_) (by simp)
    exact absurd (hlabel.chars _ (slash_mem_volumeName hroot)) (by decide)
  | single =>
    have htext := toList_volumeName hroot
    have hlength : p.volumeName.length = p.named.length := by
      rw [← String.length_toList, htext, List.length_map]
    have hhead (hne : p.named ≠ [])
        (hchars : ∀ c ∈ p.named, AppName.isLabelChar c ∨ c = '.' ∨ c = '/') :=
      map_hyphened_ne_iff (o := p.named.head?) (by simpa using hne)
        fun c hc => hchars c (List.mem_of_head? hc)
    have hlast (hne : p.named ≠ [])
        (hchars : ∀ c ∈ p.named, AppName.isLabelChar c ∨ c = '.' ∨ c = '/') :=
      map_hyphened_ne_iff (o := p.named.getLast?) (by simpa using hne)
        fun c hc => hchars c (List.mem_of_getLast? hc)
    rw [and_iff_right rfl, AppName.isLabel_iff, htext, hlength, List.head?_map, List.getLast?_map,
      List.forall_mem_map]
    simp only [isLabelChar_hyphened_iff]
    constructor
    · rintro ⟨hchars, hfirst, hend, hpos, hle⟩
      have hne : p.named ≠ [] := List.length_pos_iff.1 hpos
      exact ⟨hchars, (hhead hne hchars).1 hfirst, (hlast hne hchars).1 hend, hle⟩
    · rintro ⟨hchars, hfirst, hend, hle⟩
      have hne : p.named ≠ [] := by
        intro hnil
        obtain ⟨c, hc, -⟩ := hfirst
        rw [hnil] at hc
        cases hc
      exact ⟨hchars, (hhead hne hchars).2 hfirst, (hlast hne hchars).2 hend,
        List.length_pos_iff.2 hne, hle⟩

end Path

section Labels

open AppName

variable {a : AppName} {service : String}

theorem isLabel_deploymentName_iff (h : IsLabel service) : IsLabel (a.deploymentName service) ↔
    IsStem a.value ∧ a.value.length + service.length ≤ 51 := by
  rw [deploymentName, isLabel_object_iff h ⟨List.all_eq_true.1 (by decide), 't', by decide⟩]
  exact and_congr_right fun _ => Nat.add_le_add_iff_right (n := 12) (k := 51)

theorem isLabel_secretName_iff (h : IsLabel service) : IsLabel (a.secretName service) ↔
    IsStem a.value ∧ a.value.length + service.length ≤ 55 := by
  rw [secretName, isLabel_object_iff h ⟨List.all_eq_true.1 (by decide), 't', by decide⟩]
  exact and_congr_right fun _ => Nat.add_le_add_iff_right (n := 8) (k := 55)

theorem isLabel_ingressRouteName_iff (h : IsLabel service) :
    IsLabel (a.ingressRouteName service) ↔
      IsStem a.value ∧ a.value.length + service.length ≤ 48 := by
  rw [ingressRouteName, isLabel_object_iff h ⟨List.all_eq_true.1 (by decide), 'e', by decide⟩]
  exact and_congr_right fun _ => Nat.add_le_add_iff_right (n := 15) (k := 48)

/-- The names of an application and its services are labels exactly where its name is, but for
capitals, the beginning of one that is short enough, and with it all names are for services of up to
20 characters exactly up to 28. Of the directories with files, those with a single root and a text
that is a label but for dots and slashes give their volumes one. -/
theorem derived_names_isLabel_iff (a : AppName) :
    (IsLabel a.namespaceId ↔
      IsStem a.value ∧ a.value.toList.getLast? ≠ some '-' ∧ a.value.length ≤ 63) ∧
    (∀ service, IsLabel service →
      (IsLabel (a.deploymentName service) ↔
        IsStem a.value ∧ a.value.length + service.length ≤ 51) ∧
      (IsLabel (a.secretName service) ↔
        IsStem a.value ∧ a.value.length + service.length ≤ 55) ∧
      (IsLabel (a.ingressRouteName service) ↔
        IsStem a.value ∧ a.value.length + service.length ≤ 48)) ∧
    ((∀ service, IsLabel service → service.length ≤ 20 →
        IsLabel a.namespaceId ∧ IsLabel (a.deploymentName service) ∧
        IsLabel (a.secretName service) ∧ IsLabel (a.ingressRouteName service)) ↔
      IsStem a.value ∧ a.value.toList.getLast? ≠ some '-' ∧ a.value.length ≤ 28) ∧
    ∀ p : Path, p.root ≠ .relative → (IsLabel p.parent.volumeName ↔
      p.root = .single ∧ Path.NamesLabel p.parent.named) := by
  refine ⟨isLabel_namespaceId_iff, fun service h => ⟨isLabel_deploymentName_iff h,
    isLabel_secretName_iff h, isLabel_ingressRouteName_iff h⟩, ?_, fun p hp =>
    Path.isLabel_volumeName_iff (p := p.parent) hp⟩
  constructor
  · intro h
    -- the longest service leaves the least
    obtain ⟨hnamespace, -, -, hroute⟩ := h "abcdefghijklmnopqrst" (by decide) (by decide)
    have hlength : "abcdefghijklmnopqrst".length = 20 := by decide
    obtain ⟨hstem, hlast, -⟩ := isLabel_namespaceId_iff.1 hnamespace
    obtain ⟨-, hle⟩ := (isLabel_ingressRouteName_iff (by decide)).1 hroute
    rw [hlength] at hle
    exact ⟨hstem, hlast, Nat.le_of_add_le_add_right hle⟩
  · rintro ⟨hstem, hlast, hle⟩ service hservice hshort
    have hsum : a.value.length + service.length ≤ 48 := Nat.add_le_add hle hshort
    exact ⟨isLabel_namespaceId_iff.2 ⟨hstem, hlast, Nat.le_trans hle (by decide)⟩,
      (isLabel_deploymentName_iff hservice).2 ⟨hstem, Nat.le_trans hsum (by decide)⟩,
      (isLabel_secretName_iff hservice).2 ⟨hstem, Nat.le_trans hsum (by decide)⟩,
      (isLabel_ingressRouteName_iff hservice).2 ⟨hstem, hsum⟩⟩

theorem derived_names_isLabel_iff_master :
    (IsLabel AppName.master.namespaceId ∧ IsLabel (AppName.master.ingressRouteName "db")) ∧
    IsLabel (Path.ofString "/etc/mysql.d/my.cnf").parent.volumeName := by
  obtain ⟨-, -, hobjects, hvolumes⟩ := derived_names_isLabel_iff .master
  have hstem : IsStem AppName.master.value := ⟨by simp [AppName.master], by decide⟩
  have hnames := hobjects.2 ⟨hstem, by decide, by decide⟩ "db" (by decide) (by decide)
  have hnamed : Path.NamesLabel (Path.ofString "/etc/mysql.d/my.cnf").parent.named := by
    have htext : (Path.ofString "/etc/mysql.d/my.cnf").parent.named = "etc/mysql.d".toList := by
      decide +kernel
    rw [htext]
    exact ⟨by simp [AppName.isLabelChar], ⟨'e', by decide, by decide⟩, ⟨'d', by decide, by decide⟩,
      by decide⟩
  exact ⟨⟨hnames.1, hnames.2.2.2⟩,
    (hvolumes (Path.ofString "/etc/mysql.d/my.cnf") (by decide +kernel)).2
      ⟨by decide +kernel, hnamed⟩⟩

def lowLined : AppName := ⟨"my_app", by decide +kernel⟩

/-- A low line passes through, and the root directory has no name. -/
theorem derived_names_not_labels :
    AppName.ofString? "my_app" = some lowLined ∧ IsLabel "db" ∧ "db".length ≤ 20 ∧
    ¬IsLabel lowLined.namespaceId ∧ ¬IsLabel (lowLined.deploymentName "db") ∧
    ¬IsLabel (lowLined.secretName "db") ∧ ¬IsLabel (lowLined.ingressRouteName "db") ∧
    (Path.ofString "/hosts").root ≠ .relative ∧
    ¬IsLabel (Path.ofString "/hosts").parent.volumeName := by
  refine ⟨AppName.ofString?_eq_some_iff.2 rfl, ?_⟩
  decide +kernel

end Labels

end PreviewApps
