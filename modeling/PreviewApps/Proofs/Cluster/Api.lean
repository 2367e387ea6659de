import PreviewApps.Cluster.ReadBack
import PreviewApps.Cluster.Server

/-!
What is assumed of an API server, as a relation between the stored objects before and after a call.
A server may add metadata of its own and choose the generated names.
-/

namespace PreviewApps.Cluster

abbrev Store := Key → Option Json

namespace Store

def put (key : Key) (j : Json) (m : Store) : Store := fun k => if k = key then some j else m k

/-- With a namespace everything in it goes. -/
def delete (key : Key) (m : Store) : Store := fun k =>
  if k = key ∨ key.kind = .namespaces ∧ k.namespaceId = key.name then none else m k

theorem put_self (key : Key) (j : Json) (m : Store) : m.put key j key = some j := if_pos rfl

theorem put_of_ne {key k : Key} (h : k ≠ key) (j : Json) (m : Store) : m.put key j k = m k :=
  if_neg h

end Store

def writtenKeys : List String := ["name", "namespace", "labels", "annotations"]

/-- What a server adds to the metadata of a new object: other members, and a readable time. -/
structure Assigned (entries : List (String × Json)) : Prop where
  foreign : ∀ e ∈ entries, e.1 ∉ writtenKeys
  readable : ∀ e ∈ entries, ∃ t, startOf [e] = .ok t

structure Kept (old : Json) (entries : List (String × Json)) : Prop where
  foreign : ∀ e ∈ entries, e.1 ∉ writtenKeys
  old : ∀ e ∈ entries, (old.get "metadata").member? e.1 = some e.2

def stem? (body : Json) : Option String := (body.path ["metadata", "generateName"]).str?

def givenName (body : Json) : String := Server.text (body.path ["metadata", "name"])

def Call.target? : Call → Option Key
  | .patch k ns n _ => some ⟨k, ns, n⟩
  | .replace k ns n _ => some ⟨k, ns, n⟩
  | .delete k ns n => some ⟨k, ns, n⟩
  | .get k ns n => some ⟨k, ns, n⟩
  | _ => none

structure Lists (m : Store) (p : Key → Prop) (selector : String) (keys : List Key) : Prop where
  nodup : keys.Nodup
  mem_iff : ∀ key, key ∈ keys ↔ p key ∧ ∃ j, m key = some j ∧ Server.selects selector j

/-- How a call may be answered, and what is stored then. -/
inductive Serves (m : Store) : Call → Answer → Store → Prop
  | created {kind ns name body entries} (hname : stem? body = none → name = givenName body)
      (hnew : m ⟨kind, ns, name⟩ = none) (hentries : Assigned entries) :
      Serves m (.create kind ns body)
        (.ok (Server.withMetadata (("name", .str name) :: entries) body))
        (m.put ⟨kind, ns, name⟩ (Server.withMetadata (("name", .str name) :: entries) body))
  | conflict {kind ns body old reason} (hname : stem? body = none)
      (hold : m ⟨kind, ns, givenName body⟩ = some old) :
      Serves m (.create kind ns body) (.error ⟨409, reason⟩) m
  | missing {c key reason} (hkey : c.target? = some key) (hnone : m key = none) :
      Serves m c (.error ⟨404, reason⟩) m
  | patched {kind ns name body old} (hold : m ⟨kind, ns, name⟩ = some old) :
      Serves m (.patch kind ns name body) (.ok (old.mergePatch body))
        (m.put ⟨kind, ns, name⟩ (old.mergePatch body))
  | replaced {kind ns name body old entries} (hold : m ⟨kind, ns, name⟩ = some old)
      (hentries : Kept old entries) :
      Serves m (.replace kind ns name body) (.ok (Server.withMetadata entries body))
        (m.put ⟨kind, ns, name⟩ (Server.withMetadata entries body))
  | deleted {kind ns name old reply} (hold : m ⟨kind, ns, name⟩ = some old) :
      Serves m (.delete kind ns name) (.ok reply) (m.delete ⟨kind, ns, name⟩)
  | got {kind ns name j} (hold : m ⟨kind, ns, name⟩ = some j) :
      Serves m (.get kind ns name) (.ok j) m
  | listed {kind ns selector keys}
      (hkeys : Lists m (fun k => k.kind = kind ∧ k.namespaceId = ns) selector keys) :
      Serves m (.list kind ns selector) (.ok (.arr (keys.filterMap m))) m
  | listedEverywhere {kind selector keys}
      (hkeys : Lists m (fun k => k.kind = kind) selector keys) :
      Serves m (.listEverywhere kind selector) (.ok (.arr (keys.filterMap m))) m
  | logged {ns name since answer} : Serves m (.podLog ns name since) answer m

theorem Serves.error_of_target {m m' : Store} {c : Call} {key : Key} {e : ApiError}
    (h : Serves m c (.error e) m') (hkey : c.target? = some key) :
    e.status = 404 ∧ m key = none ∧ m' = m := by
  cases h with
  | conflict => cases hkey
  | missing hkey' hnone =>
    rw [hkey] at hkey'
    cases hkey'
    exact ⟨rfl, hnone, rfl⟩
  | logged => cases hkey

/-- Calls as the backend makes them: claims, and only claims, get a generated name, from a stem that
ends in a hyphen. -/
def Call.Proper : Call → Prop
  | .create kind _ body =>
    (stem? body = none ∧ kind ≠ .claims) ∨ ∃ s, stem? body = some (s ++ "-") ∧ kind = .claims
  | _ => True

/-- A server that serves every proper call, from any of its valid states. -/
structure ApiServer (σ : Type) where
  answer : Call → σ → Answer × σ
  stored : σ → Store
  Valid : σ → Prop
  serves : ∀ {s c}, Valid s → c.Proper → Serves (stored s) c (answer c s).1 (stored (answer c s).2)
  valid_answer : ∀ {s c}, Valid s → c.Proper → Valid (answer c s).2

end PreviewApps.Cluster
