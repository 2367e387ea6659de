import PreviewApps.Cluster.ReadBack
import PreviewApps.Cluster.Server
import PreviewApps.Proofs.AppName
import PreviewApps.Proofs.Except
import PreviewApps.Proofs.Json.Members

/-!
Labels of objects, and the selectors that ask for them. Names of applications hold no comma, so the
selector of an application is one requirement. The name of a service may hold one, which would end
its requirement early.
-/

namespace PreviewApps.Cluster

def hasLabel (k v : String) (j : Json) : Bool :=
  ((j.path ["metadata", "labels"]).member? k).bind (·.str?) == some v

theorem hasLabel_of_ofMap {j : Json} {labels : Labels}
    (h : j.path ["metadata", "labels"] = .ofMap labels) (k v : String) :
    hasLabel k v j = (labels.lookup k == some v) := by
  rw [hasLabel, h, Json.member?, Json.lookup_ofMap]
  cases labels.lookup k <;> rfl

theorem meets_eq_hasLabel {k : String} (hk : '=' ∉ k.toList) (v : String) (j : Json) :
    Server.meets (j.path ["metadata", "labels"]) (k.toList ++ '=' :: v.toList) =
      hasLabel k v j := by
  rw [Server.meets, Text.cutFirst_append _ hk]
  simp only [String.ofList_toList]
  rfl

theorem comma_notMem_ofApp (app : AppName) :
    ',' ∉ Label.appName.toList ++ '=' :: app.value.toList := by
  have hvalue := app.notMem_value (c := ',') (by decide) (by decide)
  have hlabel : ',' ∉ Label.appName.toList := by decide
  simp [hvalue, hlabel]

theorem selects_ofApp (app : AppName) (j : Json) :
    Server.selects (Labels.ofApp app).selector j = hasLabel Label.appName app.value j := by
  have hselector : (Labels.ofApp app).selector.toList =
      Label.appName.toList ++ '=' :: app.value.toList := by
    change (Label.appName ++ "=" ++ app.value).toList = _
    simp only [String.toList_append, List.append_assoc]
    rfl
  rw [Server.selects, hselector, Text.pieces_of_notMem (comma_notMem_ofApp app), List.all_cons,
    List.all_nil, Bool.and_true, meets_eq_hasLabel (by decide)]

theorem selects_ofNamed (app : AppName) {service : String} (h : ',' ∉ service.toList) (j : Json) :
    Server.selects (Labels.ofNamed app service).selector j =
      (hasLabel Label.appName app.value j && hasLabel Label.serviceName service j) := by
  have hselector : (Labels.ofNamed app service).selector.toList =
      (Label.appName.toList ++ '=' :: app.value.toList) ++
        ',' :: (Label.serviceName.toList ++ '=' :: service.toList) := by
    change ((Label.appName ++ "=" ++ app.value) ++ "," ++
      (Label.serviceName ++ "=" ++ service)).toList = _
    simp only [String.toList_append, List.append_assoc]
    rfl
  have hservice : ',' ∉ Label.serviceName.toList ++ '=' :: service.toList := by
    have hlabel : ',' ∉ Label.serviceName.toList := by decide
    simp [h, hlabel]
  rw [Server.selects, hselector, Text.pieces_append _ (comma_notMem_ofApp app),
    Text.pieces_of_notMem hservice, List.all_cons, List.all_cons, List.all_nil, Bool.and_true,
    meets_eq_hasLabel (by decide), meets_eq_hasLabel (by decide)]

theorem eq_members_of_membersOf {j : Json} {ms : List (String × Json)}
    (h : membersOf j = .ok ms) : ms = j.members := by
  unfold membersOf at h
  split at h
  · cases h
    rfl
  · next hobj =>
    split at h
    · cases h
    · cases h
      cases j with
      | obj own => exact absurd rfl (hobj own)
      | _ => rfl

theorem str?_of_ownerOf? {labels : List (String × Json)} {app : AppName} {service : String}
    {type : ContainerType} (h : ownerOf? labels = some (app, service, type)) :
    (member Label.appName labels).str? = some app.value := by
  obtain ⟨own, hown, h⟩ := Option.bind_eq_some_iff.1 h
  obtain ⟨_, -, h⟩ := Option.bind_eq_some_iff.1 h
  split at h
  · cases h
  · obtain ⟨_, -, h⟩ := Option.bind_eq_some_iff.1 h
    cases h
    exact AppName.ofString?_getD_eq_some_iff.1 hown

theorem str?_getD_null (j : Option Json) : (j.getD .null).str? = j.bind (·.str?) := by
  cases j <;> rfl

theorem hasLabel_of_serviceOf {j : Json} {r : Service} (h : serviceOf j = .ok (some r)) :
    hasLabel Label.appName r.app.value j = true := by
  cases j with
  | obj ms =>
    obtain ⟨metadata, hmetadata, h⟩ := bind_eq_ok_iff.1 h
    obtain ⟨labels, hlabels, h⟩ := bind_eq_ok_iff.1 h
    cases eq_members_of_membersOf hmetadata
    cases eq_members_of_membersOf hlabels
    split at h
    · cases h
    · next app service type howner =>
      have hlabel := str?_of_ownerOf? howner
      simp only [bind_eq_ok_iff] at h
      obtain ⟨_, -, _, -, _, -, _, -, _, -, _, -, hr⟩ := h
      cases hr
      rw [member, str?_getD_null] at hlabel
      exact beq_iff_eq.2 hlabel
  | _ => cases h

end PreviewApps.Cluster
