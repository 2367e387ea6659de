import PreviewApps.Proofs.Cluster.Claims
import PreviewApps.Proofs.Cluster.Selectors
import PreviewApps.Proofs.Cluster.Support

/-!
Claims by their labels. Of the claims that the selector of a service finds, the first one of a
storage type is used.
-/

namespace PreviewApps.Cluster

section VolumeLabels

variable {app : AppName} {claim : Json} {service type : String}
  (hlabels : claim.path ["metadata", "labels"] =
    .ofMap (Labels.ofNamed app service ++ [(Label.storageType, type)]))

include hlabels

theorem hasLabel_appName : hasLabel Label.appName app.value claim = true := by
  rw [hasLabel_of_ofMap hlabels]
  exact beq_self_eq_true _

theorem hasLabel_serviceName (service' : String) :
    hasLabel Label.serviceName service' claim = (service == service') :=
  hasLabel_of_ofMap hlabels Label.serviceName service'

theorem hasLabel_storageType (type' : String) :
    hasLabel Label.storageType type' claim = (type == type') :=
  hasLabel_of_ofMap hlabels Label.storageType type'

end VolumeLabels

section StorageType

variable {claim : Json} {type : String}

theorem exists_labels_of_hasLabel {k v : String} (h : hasLabel k v claim) :
    ∃ ms metadata labels, claim = .obj ms ∧ ms.lookup "metadata" = some (.obj metadata) ∧
      metadata.lookup "labels" = some (.obj labels) ∧ labels.lookup k = some (.str v) := by
  obtain ⟨l, hl, hv⟩ := Option.bind_eq_some_iff.1 (eq_of_beq h)
  obtain ⟨labels, hlabels⟩ := eq_obj_of_member? hl
  obtain ⟨metadata, hmetadata, hown⟩ := Json.lookup_of_get_eq_obj hlabels
  obtain ⟨ms, rfl, hms⟩ := Json.lookup_of_get_eq_obj hmetadata
  have hstr : l = .str v := by
    cases l with
    | str w => rw [Option.some.inj hv]
    | _ => cases hv
  rw [hlabels, hstr] at hl
  exact ⟨ms, metadata, labels, rfl, hms, hown, hl⟩

theorem hasLabel_of_storageTypeLabel {label : Json} (h : storageTypeLabel claim = .ok label)
    (type : String) : hasLabel Label.storageType type claim = (label.str? == some type) := by
  cases claim with
  | obj ms =>
    obtain ⟨metadata, hmetadata, hrest⟩ := bind_eq_ok_iff.1 h
    obtain ⟨labels, hlabels, hlabel⟩ := bind_eq_ok_iff.1 hrest
    cases hlabel
    have hown := eq_members_of_membersOf hmetadata
    have hmembers := eq_members_of_membersOf hlabels
    rw [hown] at hmembers
    change ((((member "labels" (member "metadata" ms).members).members).lookup
      Label.storageType).bind (·.str?) == some type) = _
    rw [← hmembers, member]
    cases labels.lookup Label.storageType <;> rfl
  | _ => cases h

theorem ofJson?_of_hasLabel (h : hasLabel Label.storageType type claim) :
    Claim.ofJson? claim = some ⟨type, claimName claim⟩ := by
  obtain ⟨ms, metadata, labels, rfl, hms, hmetadata, hlabels⟩ := exists_labels_of_hasLabel h
  have htype : Claim.storageTypeOf? ((metadata.lookup "labels").getD .null) = some type := by
    rw [hmetadata, Option.getD_some, Claim.storageTypeOf?, hlabels]
    rfl
  have hname : claimName (.obj ms) = (metadata.lookup "name").getD (.str "") := by
    change (Json.member? "name" ((ms.lookup "metadata").getD .null)).getD _ = _
    rw [hms]
    rfl
  change Claim.ofMetadata? ((ms.lookup "metadata").getD (.obj [])) = _
  rw [hms, hname]
  change (Claim.storageTypeOf? ((metadata.lookup "labels").getD .null)).bind _ = _
  rw [htype]
  rfl

end StorageType

theorem lookup_insertNew (k k' : String) (v : Json) (m : List (String × Json)) :
    (Assoc.insertNew k v m).lookup k' = (m.lookup k').or (if k' = k then some v else none) := by
  unfold Assoc.insertNew
  by_cases hk : k' = k
  · subst hk
    cases hm : m.lookup k' <;> simp [List.lookup_append, hm]
  · rw [if_neg hk, Option.or_none]
    split
    · rfl
    · simp [List.lookup_append, List.lookup_cons, beq_false_of_ne hk]

theorem lookup_claimsByType {claims : List Json} {byType : List (String × Json)}
    (h : claimsByType claims = .ok byType) (type : String) :
    byType.lookup type = claims.find? (hasLabel Label.storageType type) := by
  suffices hfold : ∀ m, claims.foldlM collectClaim m = .ok byType →
      byType.lookup type = (m.lookup type).or (claims.find? (hasLabel Label.storageType type)) from
    hfold [] h
  clear h
  induction claims with
  | nil =>
    intro m h
    cases h
    exact (Option.or_none).symm
  | cons claim claims ih =>
    intro m h
    rw [List.foldlM_cons] at h
    obtain ⟨m', hcollect, hrest⟩ := bind_eq_ok_iff.1 h
    obtain ⟨label, hlabel, hm'⟩ := bind_eq_ok_iff.1 hcollect
    have hfirst := hasLabel_of_storageTypeLabel hlabel type
    rw [ih m' hrest, List.find?_cons, hfirst]
    cases label with
    | str own =>
      cases hm'
      rw [lookup_insertNew, Option.or_assoc]
      by_cases htype : own = type
      · simp [Json.str?, htype]
      · simp [Json.str?, beq_false_of_ne htype, Ne.symm htype]
    | _ =>
      cases hm'
      rfl

end PreviewApps.Cluster
