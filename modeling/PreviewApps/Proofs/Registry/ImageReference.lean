import Mathlib.Tactic.Common
import PreviewApps.Registry.ImageReference

/-!
Image references in full. What is read of an image has a registry, a repository and a tag that are
told apart again when the reference is written out, so reading it once more changes nothing.
-/

namespace PreviewApps.ImageReference

/-- The references that name all their parts in a way that can be read again. -/
structure Normal (r : ImageReference) : Prop where
  registry_slash : '/' ∉ r.registry.toList
  registry_at : '@' ∉ r.registry.toList
  host : '.' ∈ r.registry.toList ∨ ':' ∈ r.registry.toList ∨ r.registry = "localhost"
  repository_at : '@' ∉ r.repository.toList
  namespaced : r.registry = "docker.io" → '/' ∈ r.repository.toList
  tag_slash : '/' ∉ r.tag.toList
  tag_colon : ':' ∉ r.tag.toList
  tag_at : '@' ∉ r.tag.toList
  digest : r.digest ≠ some ""

theorem isHost_iff {cs : List Char} :
    isHost cs = true ↔ '.' ∈ cs ∨ ':' ∈ cs ∨ cs = "localhost".toList := by
  simp [isHost, or_assoc]

theorem cutRegistry_append {host : List Char} (rest : List Char) (hslash : '/' ∉ host)
    (hhost : isHost host = true) : cutRegistry (host ++ '/' :: rest) = (host, rest) := by
  rw [cutRegistry, Text.cutFirst_append rest hslash]
  exact if_pos hhost

theorem cutTag_append (name : List Char) {tag : List Char} (hslash : '/' ∉ tag)
    (hcolon : ':' ∉ tag) : cutTag (name ++ ':' :: tag) = (name, tag) := by
  rw [cutTag, Text.cutLast_append name hcolon]
  exact if_neg (by simpa using hslash)

theorem isHost_of_cutRegistry {cs host rest : List Char} (h : cutRegistry cs = (host, rest)) :
    isHost host = true ∧ '/' ∉ host ∧ ('@' ∉ cs → '@' ∉ host ∧ '@' ∉ rest) := by
  have hdefault : isHost defaultRegistry.toList = true ∧ '/' ∉ defaultRegistry.toList ∧
      '@' ∉ defaultRegistry.toList := by decide
  rw [cutRegistry] at h
  split at h
  · next host' rest' hcut =>
    obtain ⟨rfl, hslash⟩ := Text.cutFirst_eq_some hcut
    split at h
    · next hhost =>
      cases h
      refine ⟨hhost, hslash, fun hat => ?_⟩
      simpa using hat
    · cases h
      exact ⟨hdefault.1, hdefault.2.1, fun hat => ⟨hdefault.2.2, hat⟩⟩
  · cases h
    exact ⟨hdefault.1, hdefault.2.1, fun hat => ⟨hdefault.2.2, hat⟩⟩

theorem notMem_tag_of_cutTag {cs name tag : List Char} (h : cutTag cs = (name, tag)) :
    '/' ∉ tag ∧ ':' ∉ tag ∧ ('@' ∉ cs → '@' ∉ name ∧ '@' ∉ tag) := by
  have hlatest : '/' ∉ "latest".toList ∧ ':' ∉ "latest".toList ∧ '@' ∉ "latest".toList := by decide
  rw [cutTag] at h
  split at h
  · next name' tag' hcut =>
    obtain ⟨rfl, hcolon⟩ := Text.cutLast_eq_some hcut
    split at h
    · cases h
      exact ⟨hlatest.1, hlatest.2.1, fun hat => ⟨hat, hlatest.2.2⟩⟩
    · next hslash =>
      cases h
      refine ⟨by simpa using hslash, hcolon, fun hat => ?_⟩
      simpa using hat
  · cases h
    exact ⟨hlatest.1, hlatest.2.1, fun hat => ⟨hat, hlatest.2.2⟩⟩

theorem notMem_inLibrary {registry repository : List Char} (h : '@' ∉ repository) :
    '@' ∉ inLibrary registry repository := by
  have hlibrary : '@' ∉ "library/".toList := by decide
  rw [inLibrary]
  split
  · exact fun hmem => (List.mem_append.1 hmem).elim hlibrary h
  · exact h

theorem slash_mem_inLibrary {registry : List Char} (h : registry = defaultRegistry.toList)
    (repository : List Char) : '/' ∈ inLibrary registry repository := by
  rw [inLibrary]
  split
  · exact List.mem_append_left repository (by decide)
  · next hnot => exact Decidable.not_not.1 fun hslash => hnot ⟨h, hslash⟩

theorem cutFirst_at (cs : List Char) : ∃ name digest,
    (Text.cutFirst '@' cs).getD (cs, []) = (name, digest) ∧ '@' ∉ name ∧
      (cs = name ++ '@' :: digest ∨ cs = name ∧ digest = []) := by
  cases hcut : Text.cutFirst '@' cs with
  | none => exact ⟨cs, [], rfl, Text.cutFirst_eq_none.1 hcut, .inr ⟨rfl, rfl⟩⟩
  | some p =>
    obtain ⟨hcs, hname⟩ := Text.cutFirst_eq_some hcut
    exact ⟨p.1, p.2, rfl, hname, .inl hcs⟩

theorem ofNonempty_eq {cs name digest registry rest repository tag : List Char}
    (hcut : (Text.cutFirst '@' cs).getD (cs, []) = (name, digest))
    (hregistry : cutRegistry name = (registry, rest)) (htag : cutTag rest = (repository, tag)) :
    ofNonempty cs = ⟨String.ofList registry, String.ofList (inLibrary registry repository),
      String.ofList tag, if digest.isEmpty then none else some (String.ofList digest)⟩ := by
  simp only [ofNonempty, hcut, hregistry, htag]

theorem normal_ofNonempty (cs : List Char) : (ofNonempty cs).Normal := by
  obtain ⟨name, digest, hcut, hname, -⟩ := cutFirst_at cs
  obtain ⟨⟨registry, rest⟩, hregistry⟩ : ∃ p, cutRegistry name = p := ⟨_, rfl⟩
  obtain ⟨⟨repository, tag⟩, htag⟩ : ∃ p, cutTag rest = p := ⟨_, rfl⟩
  obtain ⟨hhost, hslash, hat⟩ := isHost_of_cutRegistry hregistry
  obtain ⟨htagSlash, htagColon, htagAt⟩ := notMem_tag_of_cutTag htag
  obtain ⟨hregistryAt, hrestAt⟩ := hat hname
  obtain ⟨hrepositoryAt, htagAt⟩ := htagAt hrestAt
  rw [ofNonempty_eq hcut hregistry htag]
  refine
    { registry_slash := by rwa [String.toList_ofList]
      registry_at := by rwa [String.toList_ofList]
      host := ?_
      repository_at := by rw [String.toList_ofList]; exact notMem_inLibrary hrepositoryAt
      namespaced := ?_
      tag_slash := by rwa [String.toList_ofList]
      tag_colon := by rwa [String.toList_ofList]
      tag_at := by rwa [String.toList_ofList]
      digest := ?_ }
  · rw [String.toList_ofList]
    refine (isHost_iff.1 hhost).imp_right (.imp_right fun hlocal => ?_)
    rw [hlocal, String.ofList_toList]
  · intro hdefault
    rw [String.toList_ofList]
    have hregistry : registry = defaultRegistry.toList := by
      rw [← String.toList_ofList (l := registry)]
      exact congrArg String.toList hdefault
    exact slash_mem_inLibrary hregistry repository
  · cases digest with
    | nil => exact fun h => Option.some_ne_none _ h.symm
    | cons c r =>
      intro hempty
      have hchars := congrArg String.toList (Option.some.inj hempty)
      rw [String.toList_ofList] at hchars
      cases hchars

theorem normal_of_parse? {image : String} {r : ImageReference} (h : parse? image = some r) :
    r.Normal := by
  rw [parse?] at h
  split at h
  · cases h
  · cases h
    exact normal_ofNonempty image.toList

def digestSuffix (digest : Option String) : List Char :=
  (digest.map fun d => '@' :: d.toList).getD []

theorem toList_render (r : ImageReference) : r.render.toList =
    r.registry.toList ++ '/' :: (r.repository.toList ++ ':' :: r.tag.toList) ++
      digestSuffix r.digest := by
  obtain ⟨registry, repository, tag, digest⟩ := r
  cases digest <;> simp [render, digestSuffix]

theorem cutFirst_append_digestSuffix {name : List Char} (h : '@' ∉ name) (digest : Option String) :
    (Text.cutFirst '@' (name ++ digestSuffix digest)).getD (name ++ digestSuffix digest, []) =
      (name, (digest.map String.toList).getD []) := by
  cases digest with
  | none =>
    rw [digestSuffix, Option.map_none, Option.getD_none, List.append_nil,
      Text.cutFirst_eq_none.2 h]
    rfl
  | some d => rw [digestSuffix, Option.map_some, Option.getD_some, Text.cutFirst_append _ h]; rfl

theorem inLibrary_eq_self {registry repository : List Char}
    (h : registry = defaultRegistry.toList → '/' ∈ repository) :
    inLibrary registry repository = repository :=
  if_neg fun hnot => hnot.2 (h hnot.1)

theorem Normal.ofNonempty_render {r : ImageReference} (h : r.Normal) :
    ofNonempty r.render.toList = r := by
  have hname : '@' ∉ r.registry.toList ++ '/' :: (r.repository.toList ++ ':' :: r.tag.toList) := by
    simp [h.registry_at, h.repository_at, h.tag_at]
  have hhost : isHost r.registry.toList = true :=
    isHost_iff.2 (h.host.imp_right (.imp_right fun hlocal => by rw [hlocal]))
  have hlibrary : r.registry.toList = defaultRegistry.toList → '/' ∈ r.repository.toList :=
    fun hdefault => h.namespaced (String.toList_injective hdefault)
  have hcut := cutFirst_append_digestSuffix hname r.digest
  have hregistry := cutRegistry_append (r.repository.toList ++ ':' :: r.tag.toList)
    h.registry_slash hhost
  have htag := cutTag_append r.repository.toList h.tag_slash h.tag_colon
  rw [← toList_render] at hcut
  rw [ofNonempty_eq hcut hregistry htag, inLibrary_eq_self hlibrary]
  obtain ⟨registry, repository, tag, digest⟩ := r
  have hdigest := h.digest
  cases digest with
  | none => simp
  | some d => simpa using hdigest

theorem render_ne_empty (r : ImageReference) : r.render ≠ "" := by
  intro hempty
  have hchars := congrArg String.toList hempty
  rw [toList_render] at hchars
  simp at hchars

theorem parse?_render_eq_some_iff (r : ImageReference) : parse? r.render = some r ↔ r.Normal := by
  refine ⟨normal_of_parse?, fun h => ?_⟩
  rw [parse?, if_neg (by simpa using render_ne_empty r), h.ofNonempty_render]

/-- What is read of an image is written out in full, and reading that gives the same again. -/
theorem parse?_normalizes :
    (∀ image, image ≠ "" → ∃ r, parse? image = some r ∧ r.Normal ∧ parse? r.render = some r) ∧
      ∀ r : ImageReference, parse? r.render = some r ↔ r.Normal := by
  refine ⟨fun image hne => ?_, parse?_render_eq_some_iff⟩
  have hparse : parse? image = some (ofNonempty image.toList) := if_neg (by simpa using hne)
  have hnormal := normal_of_parse? hparse
  exact ⟨_, hparse, hnormal, (parse?_render_eq_some_iff _).2 hnormal⟩

theorem parse?_normalizes_doubleColon :
    "localhost:5000//app:1:2@sha256:ab@c" ≠ "" ∧
    ∃ r, parse? "localhost:5000//app:1:2@sha256:ab@c" = some r ∧ r.Normal ∧
      parse? r.render = some r := by
  have hne : "localhost:5000//app:1:2@sha256:ab@c" ≠ "" := by decide
  exact ⟨hne, parse?_normalizes.1 _ hne⟩

def Pinned (image digest : String) : Prop :=
  ∃ name, image = name ++ "@" ++ digest ∧ '@' ∉ name.toList ∧ digest ≠ ""

theorem digest_ofNonempty {cs name digest : List Char}
    (h : (Text.cutFirst '@' cs).getD (cs, []) = (name, digest)) :
    (ofNonempty cs).digest = if digest.isEmpty then none else some (String.ofList digest) :=
  congrArg ImageReference.digest (ofNonempty_eq h rfl rfl)

theorem pinned_iff {image digest : String} :
    Pinned image digest ↔ ∃ r, parse? image = some r ∧ r.digest = some digest := by
  constructor
  · rintro ⟨name, rfl, hname, hdigest⟩
    have hchars : (name ++ "@" ++ digest).toList = name.toList ++ digestSuffix (some digest) := by
      simp [digestSuffix]
    have hcut := cutFirst_append_digestSuffix hname (some digest)
    rw [← hchars] at hcut
    refine ⟨_, if_neg (by simp), ?_⟩
    rw [digest_ofNonempty hcut]
    simpa using hdigest
  · rintro ⟨r, hparse, hdigest⟩
    rw [parse?] at hparse
    split at hparse
    · cases hparse
    · cases hparse
      obtain ⟨name, digest', hcut, hname, hcs⟩ := cutFirst_at image.toList
      rw [digest_ofNonempty hcut] at hdigest
      split at hdigest
      · cases hdigest
      · next hne =>
        cases hdigest
        have hsplit : image.toList = name ++ '@' :: digest' :=
          hcs.resolve_right fun hnone => hne (by rw [hnone.2]; rfl)
        refine ⟨String.ofList name, String.toList_injective (by simp [hsplit]), ?_, ?_⟩
        · rwa [String.toList_ofList]
        · simpa using hne

end PreviewApps.ImageReference
