import PreviewApps.Proofs.Cluster.Relative
import PreviewApps.Proofs.Cluster.Server
import PreviewApps.Proofs.Cluster.Writes
import PreviewApps.Proofs.Json.Settling

/-!
Servers that store what is created without its nulls and list claims in an order that stays. Such a
server serves a creation as if the nulls had not been there.
-/

namespace PreviewApps.Cluster

open Program

def Call.sparing : Call → Call
  | .create kind ns body => .create kind ns body.withoutNulls
  | c => c

def Call.body? : Call → Option Json
  | .create _ _ body => some body
  | .patch _ _ _ body => some body
  | .replace _ _ _ body => some body
  | _ => none

/-- No object in the body names a member twice, and nothing but secrets is deleted. -/
structure Call.Clean (c : Call) : Prop where
  proper : c.Proper
  distinct : ∀ body ∈ c.body?, body.Distinct
  deletes : ∀ {kind ns name}, c = .delete kind ns name → kind = .secrets

structure ListsClaims (before : Key → Key → Prop) (m : Store) (ns selector : String)
    (keys : List Key) : Prop where
  lists : Lists m (fun key => key.kind = .claims ∧ key.namespaceId = ns) selector keys
  ordered : keys.Pairwise before

structure SparingServer (σ : Type) where
  answer : Call → σ → Answer × σ
  stored : σ → Store
  Valid : σ → Prop
  before : σ → Key → Key → Prop
  asymm : ∀ {s}, Valid s → ∀ {key key'}, before s key key' → ¬before s key' key
  distinct : ∀ {s}, Valid s → ∀ {key j}, stored s key = some j → j.Distinct
  serves : ∀ {s c}, Valid s → c.Clean →
    Serves (stored s) c.sparing (answer c s).1 (stored (answer c s).2)
  listed : ∀ {s}, Valid s → ∀ ns selector, ∃ keys,
    ListsClaims (before s) (stored s) ns selector keys ∧
      (answer (.list .claims ns selector) s).1 = .ok (.arr (keys.filterMap (stored s)))
  stays : ∀ {s c}, Valid s → c.Clean → ∀ {key key'}, before s key key' →
    before (answer c s).2 key key'
  valid_answer : ∀ {s c}, Valid s → c.Clean → Valid (answer c s).2

structure OrderedStore where
  store : Store
  before : Key → Key → Prop

def KeepsOrder (v v' : OrderedStore) : Prop := ∀ key key', v.before key key' → v'.before key key'

def identity (j : Json) : Option Json × Option Json :=
  ((j.get "metadata").member? "uid", (j.get "metadata").member? "creationTimestamp")

namespace SparingServer

variable {σ : Type} (server : SparingServer σ)

def KeepsIdentity : Prop :=
  ∀ {s kind ns name body old j}, server.Valid s → server.stored s ⟨kind, ns, name⟩ = some old →
    (server.answer (.replace kind ns name body) s).1 = .ok j →
    identity body = (none, none) → identity j = identity old

def interface : Interface Store where
  admits := Call.Clean
  steps m c a m' := ∃ s, server.Valid s ∧ server.stored s = m ∧ (server.answer c s).1 = a ∧
    server.stored (server.answer c s).2 = m'

def orderedStore (s : σ) : OrderedStore := ⟨server.stored s, server.before s⟩

def ordered : Interface OrderedStore where
  admits := Call.Clean
  steps v c a v' := ∃ s, server.Valid s ∧ server.orderedStore s = v ∧ (server.answer c s).1 = a ∧
    server.orderedStore (server.answer c s).2 = v'

variable {server} {m m' : Store} {v v' : OrderedStore} {c : Call} {a : Answer}

theorem serves_of_steps (hc : c.Clean) (h : server.interface.steps m c a m') :
    Serves m c.sparing a m' := by
  obtain ⟨s, hs, rfl, rfl, rfl⟩ := h
  exact server.serves hs hc

theorem distinct_of_steps (h : server.interface.steps m c a m') {key : Key} {j : Json}
    (hj : m key = some j) : j.Distinct := by
  obtain ⟨s, hs, rfl, rfl, rfl⟩ := h
  exact server.distinct hs hj

theorem steps_of_ordered (h : server.ordered.steps v c a v') :
    server.interface.steps v.store c a v'.store := by
  obtain ⟨s, hs, rfl, rfl, rfl⟩ := h
  exact ⟨s, hs, rfl, rfl, rfl⟩

theorem keepsOrder_of_ordered (hc : c.Clean) (h : server.ordered.steps v c a v') :
    KeepsOrder v v' := by
  obtain ⟨s, hs, rfl, rfl, rfl⟩ := h
  exact fun _ _ => server.stays hs hc

theorem listed_of_ordered {ns selector : String}
    (h : server.ordered.steps v (.list .claims ns selector) a v') :
    v'.store = v.store ∧ KeepsOrder v v' ∧
      ∃ keys, ListsClaims v.before v.store ns selector keys ∧
        a = .ok (.arr (keys.filterMap v.store)) := by
  have hclean : (Call.list .claims ns selector).Clean := ⟨trivial, by simp [Call.body?], nofun⟩
  refine ⟨?_, keepsOrder_of_ordered hclean h, ?_⟩
  · have hserved := serves_of_steps hclean (steps_of_ordered h)
    generalize v'.store = m' at hserved
    cases hserved with
    | missing => rfl
    | listed => rfl
  · obtain ⟨s, hs, rfl, rfl, rfl⟩ := h
    exact server.listed hs ns selector

theorem yields_ordered {α : Type} {p : Program α} {Q : α → Store → Prop}
    (h : p.Yields server.interface v.store Q) :
    p.Yields server.ordered v fun a v' => Q a v'.store ∧ KeepsOrder v v' := by
  apply Yields.refine OrderedStore.store KeepsOrder _ _ _ _ h
  · exact fun _ _ _ hkey => hkey
  · exact fun h h' key key' hkey => h' key key' (h key key' hkey)
  · exact fun hc => hc
  · exact fun hc hstep => ⟨steps_of_ordered hstep, keepsOrder_of_ordered hc hstep⟩

theorem run_of_yields {α : Type} {p : Program α} {Q : α → OrderedStore → Prop} {s s' : σ} {a : α}
    (hs : server.Valid s) (h : p.Yields server.ordered (server.orderedStore s) Q)
    (hrun : p.run server.answer s = (.ok a, s')) :
    Q a (server.orderedStore s') ∧ server.Valid s' := by
  apply Program.run_of_yields _ hs h hrun
  exact fun {s c} hs hc => ⟨⟨s, hs, rfl, rfl, rfl⟩, server.valid_answer hs hc⟩

end SparingServer

structure Headed (body : Json) (name : String) : Prop where
  distinct : body.Distinct
  metadata : ∃ ms, body.member? "metadata" = some (.obj ms) ∧
    ms.lookup "name" = some (.str name) ∧ ms.map (·.1) ⊆ writtenKeys

theorem lookup_eq_none_of_written {ms : List (String × Json)} (h : ms.map (·.1) ⊆ writtenKeys)
    {k : String} (hk : k ∉ writtenKeys) : ms.lookup k = none :=
  Assoc.lookup_eq_none_of_notMem fun hmem => hk (h hmem)

namespace Headed

variable {body : Json} {name : String}

theorem named (h : Headed body name) : Named body name := by
  obtain ⟨ms, hmetadata, hname, hwritten⟩ := h.metadata
  exact named_of_lookup hmetadata hname (lookup_eq_none_of_written hwritten (by decide))

theorem withoutNulls (h : Headed body name) : Headed body.withoutNulls name := by
  refine ⟨h.distinct.withoutNulls, ?_⟩
  obtain ⟨ms, hmetadata, hname, hwritten⟩ := h.metadata
  have hms : (ms.map (·.1)).Nodup := (h.distinct.member hmetadata).nodup
  cases body with
  | obj own =>
    have hown : (own.map (·.1)).Nodup := h.distinct.nodup
    refine ⟨Json.spareMembers ms, ?_, ?_, ?_⟩
    · exact Json.lookup_spareMembers_of_ne hown hmetadata Json.noConfusion
    · exact Json.lookup_spareMembers_of_ne hms hname Json.noConfusion
    · exact List.Subset.trans (Json.keys_spareMembers_sublist ms).subset hwritten
  | _ => cases hmetadata

end Headed

inductive Laid (keeps : Prop) (body : Json) (name : String) : UpdateMode → Option Json → Json → Prop
  | created {mode entries} (hentries : Assigned entries) :
      Laid keeps body name mode none
        (Server.withMetadata (("name", .str name) :: entries) body.withoutNulls)
  | patched {old} (hold : old.Distinct) :
      Laid keeps body name .patch (some old) (old.mergePatch body)
  | replaced {old entries} (hentries : Kept old entries)
      (hidentity : keeps → identity body = (none, none) →
        identity (Server.withMetadata entries body) = identity old) :
      Laid keeps body name .replace (some old) (Server.withMetadata entries body)

section Upsert

variable {σ : Type} {server : SparingServer σ} {mode : UpdateMode} {kind : Kind} {ns name : String}
  {body : Json} {m : Store} {Q : Json → Store → Prop}

theorem clean_create (hkind : kind ≠ .claims) (ns : String) (hbody : Headed body name) :
    (Call.create kind ns body).Clean := by
  refine ⟨.inl ⟨hbody.named.stem, hkind⟩, ?_, nofun⟩
  rintro own ⟨⟩
  exact hbody.distinct

theorem yields_updateCall {action : Action} {old : Json} (hbody : body.Distinct)
    (hold : m ⟨kind, ns, name⟩ = some old)
    (hQ : ∀ j, Laid server.KeepsIdentity body name mode (some old) j →
      Q j (m.put ⟨kind, ns, name⟩ j)) :
    (must action (updateCall mode kind ns name body)).Yields server.interface m Q := by
  have hclean : (updateCall mode kind ns name body).Clean := by
    cases mode with
    | patch => exact ⟨trivial, by rintro own ⟨⟩; exact hbody, nofun⟩
    | replace => exact ⟨trivial, by rintro own ⟨⟩; exact hbody, nofun⟩
  apply yields_must hclean
  intro j m' hstep
  have hs := SparingServer.serves_of_steps hclean hstep
  cases mode with
  | patch =>
    cases hs with
    | patched h =>
      rw [hold] at h
      cases h
      exact hQ _ (.patched (SparingServer.distinct_of_steps hstep hold))
  | replace =>
    cases hs with
    | replaced h hentries =>
      rw [hold] at h
      cases h
      apply hQ
      apply Laid.replaced hentries
      intro hkeeps
      obtain ⟨s, hs, rfl, hanswer, -⟩ := hstep
      exact hkeeps hs hold hanswer

theorem yields_upsert {creating updating : Action} (hkind : kind ≠ .claims)
    (hbody : Headed body name)
    (hQ : ∀ j, Laid server.KeepsIdentity body name mode (m ⟨kind, ns, name⟩) j →
      Q j (m.put ⟨kind, ns, name⟩ j)) :
    (upsert mode kind ns name body creating updating).Yields server.interface m Q := by
  have hclean := clean_create hkind ns hbody
  obtain ⟨hstem, hgiven⟩ := hbody.withoutNulls.named
  refine ⟨hclean, ?_⟩
  intro a m' hstep
  have hs := SparingServer.serves_of_steps hclean hstep
  cases hs with
  | created hname hnew hentries =>
    rw [hname hstem, hgiven] at hnew ⊢
    rw [hnew] at hQ
    exact hQ _ (.created hentries)
  | conflict _ hold =>
    rw [hgiven] at hold
    rw [hold] at hQ
    exact yields_updateCall hbody.distinct hold hQ
  | missing hkey => cases hkey

end Upsert

namespace Server

def answerSparing (c : Call) (s : Server) : Answer × Server := answer c.sparing s

structure ValidSparing (s : Server) : Prop where
  valid : s.Valid
  distinct : ∀ e ∈ s.objects, e.2.Distinct

theorem ValidSparing.of_stored {s : Server} (hs : s.ValidSparing) {key : Key} {j : Json}
    (h : s.stored key = some j) : j.Distinct := hs.distinct _ (Assoc.mem_of_lookup h)

theorem stem?_withoutNulls {body : Json} (h : body.Distinct) :
    stem? body.withoutNulls = stem? body := by
  have hmetadata : (body.get "metadata").Distinct := h.getD _
  change ((body.withoutNulls.get "metadata").get "generateName").str? = _
  rw [Json.get_withoutNulls h, Json.get_withoutNulls hmetadata, Json.str?_withoutNulls]
  rfl

theorem proper_sparing {c : Call} (hc : c.Clean) : c.sparing.Proper := by
  cases c with
  | create kind ns body =>
    change (stem? body.withoutNulls = none ∧ kind ≠ .claims) ∨
      ∃ s, stem? body.withoutNulls = some (s ++ "-") ∧ kind = .claims
    rw [stem?_withoutNulls (hc.distinct body rfl)]
    exact hc.proper
  | _ => trivial

theorem distinct_withMetadata {entries : List (String × Json)} {body : Json}
    (hentries : ∀ e ∈ entries, e.2.Distinct) (hbody : body.Distinct) :
    (withMetadata entries body).Distinct := by
  have hmetadata : (body.get "metadata").Distinct := hbody.getD _
  have hmerged : (Json.obj (entries.foldl (fun m e => Assoc.insert e.1 e.2 m)
      (body.get "metadata").members)).Distinct := by
    apply Json.distinct_obj
    · exact Assoc.nodup_keys_foldl_insert hmetadata.nodup
    · exact Assoc.forall_mem_foldl_insert (fun e he => hmetadata.of_mem he) hentries
  apply Json.distinct_obj
  · exact Assoc.nodup_keys_insert hbody.nodup _ _
  · intro e he
    rcases Assoc.mem_insert he with rfl | he
    · exact hmerged
    · exact hbody.of_mem he

theorem distinct_keepAssigned {old body : Json} (hold : old.Distinct) (hbody : body.Distinct) :
    (keepAssigned old body).Distinct := by
  apply distinct_withMetadata _ hbody
  intro e he
  have hkept := (kept_keepAssigned old).old e he
  exact (hold.getD _).member hkept

section Validity

variable {s : Server} {key : Key}

theorem ValidSparing.change (hs : s.ValidSparing) {f : Json → Json}
    (hf : ∀ old, s.stored key = some old → (f old).Distinct) :
    (s.change key f).2.ValidSparing := by
  refine ⟨valid_change hs.valid, ?_⟩
  unfold Server.change
  split
  · exact hs.distinct
  · next old hold =>
    intro e he
    rcases Assoc.mem_insert he with rfl | he
    · exact hf old hold
    · exact hs.distinct e he

theorem ValidSparing.create (hs : s.ValidSparing) {kind : Kind} {ns : String} {body : Json}
    (hc : (Call.create kind ns body).Proper) (hbody : body.Distinct) :
    (s.create kind ns body).2.ValidSparing := by
  refine ⟨valid_create hs.valid hc, ?_⟩
  unfold Server.create
  dsimp only
  split
  · exact hs.distinct
  · intro e he
    rcases List.mem_append.1 he with he | he
    · exact hs.distinct e he
    · rw [List.mem_singleton.1 he]
      apply distinct_withMetadata _ hbody
      simp [Json.distinct_of_ne_obj]

theorem ValidSparing.remove (hs : s.ValidSparing) : (s.remove key).2.ValidSparing := by
  refine ⟨valid_remove hs.valid, ?_⟩
  unfold Server.remove
  split
  · exact hs.distinct
  · exact fun e he => hs.distinct e ((rest_sublist key s).subset he)

end Validity

theorem validSparing_answerSparing {s : Server} {c : Call} (hs : s.ValidSparing) (hc : c.Clean) :
    (answerSparing c s).2.ValidSparing := by
  cases c with
  | create kind ns body =>
    exact hs.create (proper_sparing hc) (hc.distinct body rfl).withoutNulls
  | patch kind ns name body =>
    exact hs.change fun old hold => (hs.of_stored hold).mergePatch (hc.distinct body rfl)
  | replace kind ns name body =>
    exact hs.change fun old hold => distinct_keepAssigned (hs.of_stored hold) (hc.distinct body rfl)
  | delete kind ns name => exact hs.remove
  | get kind ns name => exact hs.change fun old hold => hs.of_stored hold
  | list kind ns selector => exact hs
  | listEverywhere kind selector => exact hs
  | podLog ns name since => exact hs

section Order

variable {s : Server}

def claimKeys (s : Server) : List Key := (s.objects.map (·.1)).filter (·.kind = .claims)

theorem not_sublist_swap {α : Type} {xs : List α} (hxs : xs.Nodup) {a b : α}
    (h : [a, b].Sublist xs) : ¬[b, a].Sublist xs := by
  induction xs with
  | nil => cases h
  | cons x xs ih =>
    obtain ⟨hx, hxs⟩ := List.nodup_cons.1 hxs
    intro h'
    cases h with
    | cons _ h =>
      cases h' with
      | cons _ h' => exact ih hxs h h'
      | cons_cons _ h' => exact hx (h.subset (by simp))
    | cons_cons _ h =>
      cases h' with
      | cons _ h' => exact hx (h'.subset (by simp))
      | cons_cons _ h' => exact hx (h.subset (by simp))

theorem claimKeys_change (key : Key) (f : Json → Json) (s : Server) :
    claimKeys (s.change key f).2 = claimKeys s := by
  unfold change
  split
  · rfl
  · next old hold =>
    have hkey : key ∈ s.objects.map (·.1) := List.mem_map_of_mem (Assoc.mem_of_lookup hold)
    rw [claimKeys, Assoc.keys_insert_of_mem hkey]
    rfl

theorem claimKeys_create_sublist (kind : Kind) (ns : String) (body : Json) (s : Server) :
    (claimKeys s).Sublist (claimKeys (s.create kind ns body).2) := by
  unfold create
  dsimp only
  split
  · exact .refl _
  · rw [claimKeys, claimKeys, List.map_append, List.filter_append]
    exact List.sublist_append_left ..

theorem claimKeys_remove (ns name : String) (s : Server) :
    claimKeys (s.remove ⟨.secrets, ns, name⟩).2 = claimKeys s := by
  have hclaims : ∀ objects : List (Key × Json),
      ((Assoc.erase ⟨.secrets, ns, name⟩ objects).map (·.1)).filter (·.kind = .claims) =
        (objects.map (·.1)).filter (·.kind = .claims) := by
    intro objects
    induction objects with
    | nil => rfl
    | cons e objects ih =>
      rw [Assoc.erase]
      split
      · next he => simp [← eq_of_beq he]
      · simp only [List.map_cons, List.filter_cons, ih]
  unfold remove
  split
  · rfl
  · exact hclaims s.objects

theorem claimKeys_answerSparing_sublist {c : Call} (hc : c.Clean) (s : Server) :
    (claimKeys s).Sublist (claimKeys (answerSparing c s).2) := by
  cases c with
  | create kind ns body => exact claimKeys_create_sublist kind ns _ s
  | patch kind ns name body => exact (claimKeys_change _ _ s).symm ▸ .refl _
  | replace kind ns name body => exact (claimKeys_change _ _ s).symm ▸ .refl _
  | delete kind ns name =>
    obtain rfl : kind = .secrets := hc.deletes rfl
    exact (claimKeys_remove ns name s).symm ▸ .refl _
  | get kind ns name => exact (claimKeys_change _ _ s).symm ▸ .refl _
  | list kind ns selector => exact .refl _
  | listEverywhere kind selector => exact .refl _
  | podLog ns name since => exact .refl _

end Order

def sparing : SparingServer Server where
  answer := answerSparing
  stored := stored
  Valid := ValidSparing
  before s key key' := [key, key'].Sublist (claimKeys s)
  asymm hs _ _ h := not_sublist_swap (hs.valid.nodup.filter _) h
  distinct hs _ _ h := hs.of_stored h
  serves hs hc := serves_answer hs.valid (proper_sparing hc)
  listed := by
    intro s hs ns selector
    let p : Key → Bool := fun key => key.kind = .claims ∧ key.namespaceId = ns
    obtain ⟨hlists, hvalues⟩ := lists_listed hs.valid p selector
    simp only [p, decide_eq_true_eq] at hlists
    refine ⟨_, ⟨hlists, ?_⟩, congrArg (Except.ok ∘ Json.arr) hvalues.symm⟩
    rw [List.pairwise_iff_forall_sublist]
    intro key key' hsublist
    apply hsublist.trans
    rw [claimKeys, List.filter_map]
    apply List.Sublist.map
    apply List.monotone_filter_right
    intro e he
    simp only [Bool.and_eq_true, decide_eq_true_eq] at he
    simpa using he.1.1
  stays _ hc _ _ h := h.trans (claimKeys_answerSparing_sublist hc _)
  valid_answer := validSparing_answerSparing

theorem validSparing_empty : ValidSparing empty :=
  ⟨valid_empty, fun _ he => absurd he List.not_mem_nil⟩

theorem identity_keepAssigned {old body : Json} (hbody : identity body = (none, none)) :
    identity (keepAssigned old body) = identity old := by
  obtain ⟨huid, htime⟩ := Prod.ext_iff.1 hbody
  have hmember : ∀ k, ((keepAssigned old body).get "metadata").member? k =
      (((["uid", "creationTimestamp"].filterMap fun k =>
        ((old.get "metadata").member? k).map fun v => (k, v)).filter (·.1 == k)).getLast?.map
          (·.2)).or ((body.get "metadata").member? k) := by
    intro k
    change (((Assoc.insert "metadata" _ body.members).lookup "metadata").getD .null).members.lookup
      k = _
    rw [Assoc.lookup_insert_self]
    exact Assoc.lookup_foldl_insert k _ _
  unfold identity at huid htime ⊢
  dsimp only at huid htime
  rw [hmember, hmember, huid, htime]
  simp only [List.filterMap_cons, List.filterMap_nil, Option.or_none]
  cases (old.get "metadata").member? "uid" with
  | none => cases (old.get "metadata").member? "creationTimestamp" <;> rfl
  | some uid => cases (old.get "metadata").member? "creationTimestamp" <;> rfl

theorem keepsIdentity_sparing : sparing.KeepsIdentity := by
  intro s kind ns name body old j hs hold hanswer hbody
  have hchange : (s.change ⟨kind, ns, name⟩ (keepAssigned · body)).1 =
      .ok (keepAssigned old body) := by
    unfold change
    change s.objects.lookup _ = _ at hold
    rw [hold]
  cases hchange.symm.trans hanswer
  exact identity_keepAssigned hbody

end Server

end PreviewApps.Cluster
