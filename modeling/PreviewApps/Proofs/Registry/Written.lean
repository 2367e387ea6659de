import PreviewApps.Proofs.Registry.Course
import PreviewApps.Text.Blank

/-!
Challenges written parameter by parameter. Whatever stands between the parameters and in their
values, they are read back one by one, and the question for a token has them all.
-/

namespace PreviewApps

namespace Text

theorem isWord_eq_false_of_isBlank {c : Char} (h : isBlank c = true) : isWord c = false := by
  have hapart : ∀ b ∈ (28, 31) :: spaceRanges, ∀ w ∈ wordRanges, b.2 < w.1 ∨ w.2 < b.1 := by
    decide +kernel
  have hblank : ∃ b ∈ (28, 31) :: spaceRanges, b.1 ≤ c.toNat ∧ c.toNat ≤ b.2 := by
    refine Ranges.contains_iff.1 ?_
    rw [isBlank, Bool.or_comm] at h
    exact h
  obtain ⟨b, hb, hlow, hhigh⟩ := hblank
  rw [← Bool.not_eq_true, isWord, Ranges.contains_iff]
  rintro ⟨w, hw, hfirst, hlast⟩
  have hends := hapart b hb w hw
  omega

end Text

namespace Challenge

def IsSeparator (cs : List Char) : Prop := ∀ c ∈ cs, c = ',' ∨ Text.isBlank c = true

def written (e : String × String) : List Char := e.1.toList ++ '=' :: '"' :: (e.2.toList ++ ['"'])

inductive Lists : List (String × String) → List Char → Prop
  | single {e} : Lists [e] (written e)
  | cons {e sep given cs} (hsep : IsSeparator sep) (h : Lists given cs) :
      Lists (e :: given) (written e ++ (sep ++ cs))

structure Writable (e : String × String) : Prop where
  named : e.1 ≠ ""
  word : ∀ c ∈ e.1.toList, Text.isWord c = true
  unquoted : '"' ∉ e.2.toList

/-- The scheme in any case, a space and the parameters, no two of one name. -/
structure Poses (challenge : String) (given : List (String × String)) : Prop where
  text : ∃ scheme params, challenge = scheme ++ " " ++ params ∧
    scheme.toList.map Char.toLower = "bearer".toList ∧ Lists given params.toList
  writable : ∀ e ∈ given, Writable e
  distinct : (given.map (·.1)).Nodup

variable {challenge realm : String} {given : List (String × String)}

theorem isWord_of_mem_scheme {scheme : String}
    (h : scheme.toList.map Char.toLower = "bearer".toList) {c : Char} (hc : c ∈ scheme.toList) :
    Text.isWord c = true := by
  have hmem : c.toLower ∈ "bearer".toList := h ▸ List.mem_map_of_mem hc
  have hascii : c.toNat < 128 := by
    by_contra hbeyond
    rw [Text.toLower_of_not_ascii (Nat.not_lt.1 hbeyond)] at hmem
    have hall : ∀ d ∈ "bearer".toList, d.toNat < 128 := by simp
    exact hbeyond (hall c hmem)
  exact Text.forall_ascii (p := fun d => d.toLower ∈ "bearer".toList → Text.isWord d = true)
    (by decide +kernel) hascii hmem

theorem starts_written {e : String × String} (h : Writable e) (rest : List Char) :
    Starts (written e ++ rest) e.1.toList e.2.toList rest where
  text := by simp [written]
  named := by simpa using h.named
  word := h.word
  unquoted := h.unquoted

theorem scans_written {e : String × String} (h : Writable e) {rest : List Char}
    {found : List (String × String)} (hrest : Scans rest found) :
    Scans (written e ++ rest) (e :: found) := by
  have hparam := Scans.param (starts_written h rest) hrest
  rwa [String.ofList_toList, String.ofList_toList] at hparam

theorem Scans.pass_separator {sep cs : List Char} {found : List (String × String)}
    (hsep : IsSeparator sep) (h : Scans cs found) : Scans (sep ++ cs) found := by
  induction sep with
  | nil => exact h
  | cons c sep ih =>
    refine (ih fun d hd => hsep d (List.mem_cons_of_mem c hd)).pass ?_
    rcases hsep c (List.mem_cons_self ..) with rfl | hblank
    · decide +kernel
    · exact Text.isWord_eq_false_of_isBlank hblank

theorem scans_of_lists {cs : List Char} (h : Lists given cs) (hgiven : ∀ e ∈ given, Writable e) :
    Scans cs given := by
  induction h with
  | @single e =>
    have hscans := scans_written (hgiven e (List.mem_cons_self ..)) .nil
    rwa [List.append_nil] at hscans
  | @cons e sep given cs hsep _ ih =>
    have hrest := ih fun d hd => hgiven d (List.mem_cons_of_mem e hd)
    exact scans_written (hgiven e (List.mem_cons_self ..)) (hrest.pass_separator hsep)

theorem Poses.scans (h : Poses challenge given) : Scans challenge.toList given := by
  obtain ⟨scheme, params, rfl, hscheme, hlists⟩ := h.text
  have hspace : Text.isWord ' ' = false := by decide +kernel
  have hrest := (scans_of_lists hlists h.writable).pass hspace
  rw [String.toList_append, String.toList_append, List.append_assoc]
  -- the scheme is no name, since a space follows it
  refine hrest.append (fun c hc => isWord_of_mem_scheme hscheme hc) ?_
  intro word hword _ _ _ hstarts
  exact absurd (hstarts.name_eq hword hspace).2.1 (by decide)

theorem Poses.asks (h : Poses challenge given) (hrealm : ("realm", realm) ∈ given)
    (hne : realm ≠ "") : Asks challenge realm (given.filter (·.1 != "realm")) where
  bearer := by
    obtain ⟨scheme, params, htext, hscheme, -⟩ := h.text
    exact ⟨scheme, params, htext, hscheme⟩
  realm_ne := hne
  params := by
    refine ⟨given, h.scans, ?_, by rw [Assoc.ofList_of_nodup h.distinct]⟩
    rw [Assoc.filter_eq_singleton h.distinct hrealm]
    rfl

end Challenge

namespace Registry

variable {σ : Type}

theorem params_tokenQuestion (timeout : Int) (r : ImageReference) (auth : Option Credentials)
    (realm : String) (given : List (String × String)) :
    (tokenQuestion timeout r auth realm (given.filter (·.1 != "realm"))).params =
      given.filter (·.1 != "realm") ++ if "scope" ∈ given.map (·.1) then []
        else [("scope", "repository:" ++ r.repository ++ ":pull")] := by
  have hscope : ((given.filter (·.1 != "realm")).lookup "scope").isSome = true ↔
      "scope" ∈ given.map (·.1) := by
    rw [Assoc.lookup_filter_keys (· != "realm"), if_pos (by decide), List.lookup_isSome_iff]
    simp
  unfold tokenQuestion
  by_cases hmem : "scope" ∈ given.map (·.1)
  · rw [if_pos (hscope.2 hmem), if_pos hmem, List.append_nil]
  · rw [if_neg (fun hsome => hmem (hscope.1 hsome)), if_neg hmem]

namespace Client

open Exchange

variable {c : Client} {image challenge realm : String} {r : ImageReference}
  {rest : List (String × String)}

theorem fetchToken_of_asks (h : Challenge.Asks challenge realm rest) :
    c.fetchToken image r challenge =
      c.request image r (tokenQuestion c.timeout r (c.credentials.lookup r.registry) realm rest) >>=
        issueOf r := by
  obtain ⟨hbearer, hne, hlookup, rfl⟩ := Challenge.asks_iff.1 h
  rw [fetchToken, if_pos hbearer]
  simp only []
  split
  · next hnone =>
    rw [hlookup] at hnone
    cases hnone
  · next hempty => exact absurd (Option.some.inj (hlookup.symm.trans hempty)) hne
  · next found _ hfound =>
    obtain rfl := Option.some.inj (hlookup.symm.trans hfound)
    rfl

theorem requests_fetchToken (h : Challenge.Asks challenge realm rest)
    (answer : Request → σ → Outcome × σ) (s : σ) :
    ((c.fetchToken image r challenge).run answer s).2 =
      [tokenQuestion c.timeout r (c.credentials.lookup r.registry) realm rest] := by
  have hensures : (c.fetchToken image r challenge).Ensures (fun _ t => t.map (·.1) =
      [tokenQuestion c.timeout r (c.credentials.lookup r.registry) realm rest]) [] := by
    rw [fetchToken_of_asks h]
    exact ensures_request_bind (fun a => ensures_issueOf (fun _ _ => rfl) fun _ _ => rfl)
      fun _ _ _ _ => rfl
  have hrun := run_of_ensures hensures answer s
  rwa [List.nil_append, ← snd_run] at hrun

end Client

/-- The one question is for the realm, with all other parameters as they are, and for pulling from
the repository exactly if no scope is among them. -/
theorem token_asked_for_as_posed (c : Client) (image : String) (r : ImageReference)
    {challenge realm : String} {given : List (String × String)}
    (h : Challenge.Poses challenge given) (hrealm : ("realm", realm) ∈ given) (hne : realm ≠ "")
    (answer : Request → σ → Outcome × σ) (s : σ) :
    ((c.fetchToken image r challenge).run answer s).2 = [{
      method := .get
      url := realm
      headers := []
      params := given.filter (·.1 != "realm") ++ if "scope" ∈ given.map (·.1) then []
        else [("scope", "repository:" ++ r.repository ++ ":pull")]
      auth := c.credentials.lookup r.registry
      timeout := c.timeout }] := by
  rw [Client.requests_fetchToken (h.asks hrealm hne), ← params_tokenQuestion c.timeout r
    (c.credentials.lookup r.registry) realm given]
  rfl

/-- Values with a separator, a line feed and another parameter in them, and nothing in between. -/
def tangledParams : List (String × String) :=
  [("service", "a,realm=b"), ("réalm", "\n"), ("realm", "https://auth.example.com/t?scope=c")]

def tangledChallenge : String :=
  "bEARER service=\"a,realm=b\" ,\t,réalm=\"\n\"realm=\"https://auth.example.com/t?scope=c\""

theorem poses_tangledChallenge : Challenge.Poses tangledChallenge tangledParams := by
  have hsep : Challenge.IsSeparator " ,\t,".toList := by
    have hall : " ,\t,".toList.all (fun d => d == ',' || Text.isBlank d) = true := by decide
    simpa [Challenge.IsSeparator] using hall
  have hlists : Challenge.Lists tangledParams (Challenge.written ("service", "a,realm=b") ++
      (" ,\t,".toList ++ (Challenge.written ("réalm", "\n") ++ ([] ++
        Challenge.written ("realm", "https://auth.example.com/t?scope=c"))))) :=
    .cons hsep (.cons (fun _ hc => absurd hc List.not_mem_nil) .single)
  have hnamed : ∀ e ∈ tangledParams, e.1 ≠ "" := by decide
  have hword : ∀ e ∈ tangledParams, e.1.toList.all Text.isWord = true := by decide +kernel
  have hunquoted : ∀ e ∈ tangledParams, '"' ∉ e.2.toList := by decide +kernel
  refine ⟨⟨"bEARER", String.ofList _, ?_, by decide, by rwa [String.toList_ofList]⟩, ?_, by decide⟩
  · decide +kernel
  · exact fun e he => ⟨hnamed e he, List.all_eq_true.1 (hword e he), hunquoted e he⟩

theorem token_asked_for_as_tangled :
    Challenge.Poses tangledChallenge tangledParams ∧
    ("realm", "https://auth.example.com/t?scope=c") ∈ tangledParams ∧
    "https://auth.example.com/t?scope=c" ≠ "" ∧
    ((Client.fetchToken ⟨[], 30⟩ "ghcr.io/org/app:1.0" ⟨"ghcr.io", "org/app", "1.0", none⟩
        tangledChallenge).run (tokenServer .null) ()).2.map (fun q => (q.url, q.params)) =
      [("https://auth.example.com/t?scope=c", [("service", "a,realm=b"), ("réalm", "\n"),
        ("scope", "repository:org/app:pull")])] := by
  have hrealm : ("realm", "https://auth.example.com/t?scope=c") ∈ tangledParams := by decide
  have hne : "https://auth.example.com/t?scope=c" ≠ "" := by decide
  refine ⟨poses_tangledChallenge, hrealm, hne, ?_⟩
  rw [token_asked_for_as_posed ⟨[], 30⟩ _ ⟨"ghcr.io", "org/app", "1.0", none⟩
    poses_tangledChallenge hrealm hne]
  decide

end Registry

end PreviewApps
