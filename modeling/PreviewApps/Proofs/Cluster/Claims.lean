import PreviewApps.Cluster.Deploy
import PreviewApps.Proofs.Assoc
import PreviewApps.Proofs.Except

/-!
Claims as they are found in a cluster. Those with metadata, labelled or not, can be told apart by
their storage type and used as volumes, and what holds of all that are found holds of those in use.
-/

namespace PreviewApps.Cluster

def IsReadable (claim : Json) : Prop :=
  ∃ ms metadata, claim = .obj ms ∧ ms.lookup "metadata" = some (.obj metadata) ∧
    (member "labels" metadata = .null ∨ ∃ labels, member "labels" metadata = .obj labels)

namespace IsReadable

variable {claim : Json}

theorem checkCreated (h : IsReadable claim) : checkCreated claim = .ok claim := by
  obtain ⟨ms, metadata, rfl, hms, -⟩ := h
  have hmember : (Json.obj ms).member? "metadata" = some (.obj metadata) := hms
  rw [Cluster.checkCreated, hmember]

theorem storageTypeLabel (h : IsReadable claim) : ∃ type, storageTypeLabel claim = .ok type := by
  obtain ⟨ms, metadata, rfl, hms, hlabels⟩ := h
  have hmetadata : membersOf (member "metadata" ms) = .ok metadata := by
    rw [member, hms]
    rfl
  have hown : ∃ labels, membersOf (member "labels" metadata) = .ok labels := by
    rcases hlabels with hnull | ⟨labels, hobj⟩
    · exact ⟨[], by rw [hnull]; rfl⟩
    · exact ⟨labels, by rw [hobj]; rfl⟩
  obtain ⟨labels, hown⟩ := hown
  refine ⟨member Label.storageType labels, ?_⟩
  exact bind_eq_ok_iff.2 ⟨metadata, hmetadata, bind_eq_ok_iff.2 ⟨labels, hown, rfl⟩⟩

theorem ofJson? (h : IsReadable claim) : ∃ c, Claim.ofJson? claim = some c := by
  obtain ⟨ms, metadata, rfl, hms, hlabels⟩ := h
  have htype : ∃ type, Claim.storageTypeOf? (member "labels" metadata) = some type := by
    rcases hlabels with hnull | ⟨labels, hobj⟩
    · exact ⟨"default", by rw [hnull]; rfl⟩
    · exact ⟨_, by rw [hobj]; rfl⟩
  obtain ⟨type, htype⟩ := htype
  have hown : Claim.ofMetadata? (.obj metadata) =
      some ⟨type, (metadata.lookup "name").getD (.str "")⟩ := by
    change (Claim.storageTypeOf? (member "labels" metadata)).bind _ = _
    rw [htype]
    rfl
  refine ⟨_, Eq.trans ?_ hown⟩
  change Claim.ofMetadata? ((ms.lookup "metadata").getD (.obj [])) = _
  rw [hms, Option.getD_some]

end IsReadable

theorem forall_mem_insertNew {p : Json → Prop} {type : String} {claim : Json}
    {m : List (String × Json)} (hm : ∀ e ∈ m, p e.2) (h : p claim) :
    ∀ e ∈ Assoc.insertNew type claim m, p e.2 := by
  intro e he
  unfold Assoc.insertNew at he
  split at he
  · exact hm e he
  · rcases List.mem_append.1 he with he | he
    · exact hm e he
    · rw [List.mem_singleton.1 he]
      exact h

theorem collectClaim_eq_ok {m m' : List (String × Json)} {claim : Json}
    (h : collectClaim m claim = .ok m') : m' = m ∨ ∃ type, m' = Assoc.insertNew type claim m := by
  obtain ⟨label, -, hm'⟩ := bind_eq_ok_iff.1 h
  cases label with
  | str type =>
    cases hm'
    exact .inr ⟨type, rfl⟩
  | _ =>
    cases hm'
    exact .inl rfl

theorem exists_collectClaim {claim : Json} (h : IsReadable claim) (m : List (String × Json)) :
    ∃ m', collectClaim m claim = .ok m' := by
  obtain ⟨label, hlabel⟩ := h.storageTypeLabel
  cases label with
  | str type => exact ⟨_, bind_eq_ok_iff.2 ⟨_, hlabel, rfl⟩⟩
  | _ => exact ⟨_, bind_eq_ok_iff.2 ⟨_, hlabel, rfl⟩⟩

theorem exists_claimsByType {claims : List Json} (h : ∀ c ∈ claims, IsReadable c) :
    ∃ byType, claimsByType claims = .ok byType := by
  suffices hfold : ∀ m, ∃ byType, claims.foldlM collectClaim m = .ok byType from hfold []
  induction claims with
  | nil => exact fun m => ⟨m, rfl⟩
  | cons claim claims ih =>
    intro m
    obtain ⟨m', hm'⟩ := exists_collectClaim (h claim (List.mem_cons_self ..)) m
    rw [List.foldlM_cons, hm']
    exact ih (fun c hc => h c (List.mem_cons_of_mem claim hc)) m'

theorem forall_mem_claimsByType {p : Json → Prop} {claims : List Json}
    {byType : List (String × Json)} (h : ∀ c ∈ claims, p c)
    (hread : claimsByType claims = .ok byType) : ∀ e ∈ byType, p e.2 := by
  -- the property holds of the claims collected so far as well
  suffices hfold : ∀ m, (∀ e ∈ m, p e.2) → claims.foldlM collectClaim m = .ok byType →
      ∀ e ∈ byType, p e.2 from
    hfold [] (fun e he => absurd he List.not_mem_nil) hread
  clear hread
  induction claims with
  | nil =>
    intro m hm hread
    cases hread
    exact hm
  | cons claim claims ih =>
    intro m hm hread
    rw [List.foldlM_cons] at hread
    obtain ⟨m', hm', hrest⟩ := bind_eq_ok_iff.1 hread
    refine ih (fun c hc => h c (List.mem_cons_of_mem claim hc)) m' ?_ hrest
    rcases collectClaim_eq_ok hm' with rfl | ⟨type, rfl⟩
    · exact hm
    · exact forall_mem_insertNew hm (h claim (List.mem_cons_self ..))

def claimName (claim : Json) : Json := ((claim.get "metadata").member? "name").getD (.str "")

theorem name_of_ofJson? {claim : Json} {c : Claim} (h : Claim.ofJson? claim = some c) :
    c.name = claimName claim := by
  obtain ⟨ms, hms, hc⟩ := Option.bind_eq_some_iff.1 h
  obtain ⟨own, hown, hrest⟩ := Option.bind_eq_some_iff.1 hc
  obtain ⟨type, -, hlast⟩ := Option.bind_eq_some_iff.1 hrest
  cases hlast
  cases claim with
  | obj members =>
    cases hms
    show _ = (Json.member? "name" ((ms.lookup "metadata").getD .null)).getD (.str "")
    cases hmetadata : ms.lookup "metadata" with
    | none =>
      rw [hmetadata] at hown
      cases hown
      rfl
    | some metadata =>
      rw [hmetadata] at hown
      cases metadata with
      | obj metadata =>
        cases hown
        rfl
      | _ => cases hown
  | _ => cases hms

theorem exists_claim_of_readClaims {claims : List (String × Json)} {cs : List (String × Claim)}
    (h : readClaims claims = .ok cs) : ∀ c ∈ cs, ∃ e ∈ claims, c.2.name = claimName e.2 := by
  intro c hc
  obtain ⟨e, he, hread⟩ := exists_mem_of_mapM_eq_ok h c hc
  refine ⟨e, he, ?_⟩
  dsimp only at hread
  split at hread
  · next own hown =>
    cases hread
    exact name_of_ofJson? hown
  · cases hread

theorem eq_of_checkCreated {claim claim' : Json} (h : checkCreated claim = .ok claim') :
    claim' = claim := by
  unfold checkCreated at h
  split at h <;> cases h
  rfl

theorem exists_readClaims {claims : List (String × Json)} (h : ∀ e ∈ claims, IsReadable e.2) :
    ∃ cs, readClaims claims = .ok cs := by
  have hread : ∃ cs, readClaims claims = .ok cs ∧ List.Forall₂ (fun _ _ => True) claims cs := by
    unfold readClaims
    apply exists_mapM_eq_ok
    rintro ⟨path, j⟩ he
    obtain ⟨c, hc⟩ := (h (path, j) he).ofJson?
    exact ⟨(path, c), by simp only [hc], trivial⟩
  obtain ⟨cs, hcs, -⟩ := hread
  exact ⟨cs, hcs⟩

end PreviewApps.Cluster
