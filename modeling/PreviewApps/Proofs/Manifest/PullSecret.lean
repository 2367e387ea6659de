import PreviewApps.Proofs.Json.Ascii
import PreviewApps.Proofs.Json.RoundTrip
import PreviewApps.Proofs.Manifest.MountedFiles
import PreviewApps.Proofs.Text.Order

/-!
The secret with which images are pulled. Read the way a kubelet reads it, it holds an ASCII text, and
that text is the JSON of all credentials, whatever characters they are made of.
-/

namespace PreviewApps

theorem Json.Layout.readable_spaced : Layout.spaced.Readable :=
  ⟨⟨[' '], rfl, List.forall_mem_singleton.2 rfl⟩, ⟨[' '], rfl, List.forall_mem_singleton.2 rfl⟩⟩

namespace Secret

variable {credentials : RegistryCredentials}

theorem isTextual_credentialsJson (c : Credentials) : (credentialsJson c).IsTextual :=
  ⟨(by decide : ["username", "password"].Nodup), trivial, trivial, trivial⟩

theorem nodup_hosts_sorted (h : (credentials.map (·.1)).Nodup) :
    ((Text.sortBy (·.1) credentials).map (·.1)).Nodup :=
  ((Text.sortBy_perm (·.1) credentials).map (·.1)).nodup_iff.2 h

theorem isTextual_dockerConfig (h : (credentials.map (·.1)).Nodup) :
    (dockerConfig credentials).IsTextual := by
  refine ⟨List.nodup_singleton _, ⟨?_, ?_⟩, trivial⟩
  · rw [List.map_map]
    exact nodup_hosts_sorted h
  · rw [Json.membersTextual_iff, List.forall_mem_map]
    exact fun e _ => isTextual_credentialsJson e.2

theorem secretText?_forImagePull (app : AppName) (credentials : RegistryCredentials) :
    (forImagePull app credentials).toJson.secretText? ".dockerconfigjson" =
      some ((dockerConfig credentials).render .spaced) := by
  have hdata : (forImagePull app credentials).data.lookup ".dockerconfigjson" =
      some (Base64.ofText ((dockerConfig credentials).render .spaced)) := List.lookup_cons_self
  rw [secretText?_toJson, hdata, Option.bind_some, Base64.toText?_ofText]

/-- The text of the secret is ASCII and lists all credentials as they are, each once and in the
order of the hosts. -/
theorem forImagePull_decodes (app : AppName) (h : (credentials.map (·.1)).Nodup) :
    ∃ (text : String) (entries : RegistryCredentials),
      (forImagePull app credentials).toJson.secretText? ".dockerconfigjson" = some text ∧
      Text.IsAscii text.toList ∧
      Json.parse? text = some (.obj [("auths", .obj (entries.map fun e =>
        (e.1, .obj [("username", .str e.2.username), ("password", .str e.2.password)])))]) ∧
      entries.Perm credentials ∧ entries.Pairwise fun a b => a.1 < b.1 := by
  refine ⟨_, Text.sortBy (·.1) credentials, secretText?_forImagePull app credentials,
    Json.isAscii_render Json.Layout.ascii_spaced _,
    Json.parse?_render Json.Layout.readable_spaced (isTextual_dockerConfig h),
    Text.sortBy_perm .., Text.pairwise_sortBy_of_nodup _ _ h⟩

/-- Quotes, escapes, a control character and two halves of a pair in texts of several scripts. -/
def foreignRegistries : RegistryCredentials :=
  [("r.example", ⟨"läser", "\"\\\n\x7f😀"⟩), ("ghcr.io", ⟨"", "é/ß"⟩)]

theorem forImagePull_decodes_foreignRegistries :
    (foreignRegistries.map (·.1)).Nodup ∧
    ∃ (text : String) (entries : RegistryCredentials),
      (forImagePull .master foreignRegistries).toJson.secretText? ".dockerconfigjson" = some text ∧
      Text.IsAscii text.toList ∧
      Json.parse? text = some (.obj [("auths", .obj (entries.map fun e =>
        (e.1, .obj [("username", .str e.2.username), ("password", .str e.2.password)])))]) ∧
      entries.Perm foreignRegistries ∧ entries.Pairwise fun a b => a.1 < b.1 := by
  have hhosts : (foreignRegistries.map (·.1)).Nodup := by decide +kernel
  exact ⟨hhosts, forImagePull_decodes .master hhosts⟩

end Secret

end PreviewApps
