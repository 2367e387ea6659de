import PreviewApps.Proofs.Cluster.Sparing
import PreviewApps.Proofs.Cluster.Support

/-!
Plans of writes and what they leave. At every place of every object a write either leaves what
stands there or decides on it alone, and so does a plan. What servers add to the metadata is only
left by plans that patch.
-/

namespace PreviewApps.Cluster

open Json (Place)

def Store.spot (m : Store) (key : Key) (ps : List Place) : Option Json :=
  (m key).bind (·.shellAt ps)

def assigned : List Place → Bool
  | .member a :: .member b :: _ => a == "metadata" && !writtenKeys.contains b
  | _ => false

structure Write where
  mode : UpdateMode
  key : Key
  body : Json

def Write.leaves (w : Write) (key : Key) (ps : List Place) : Option Json → Option Json :=
  if key = w.key then
    match w.mode with
    | .patch => w.body.patchedAt ps
    | .replace => fun _ => w.body.shellAt ps
  else id

def leftBy (ws : List Write) (key : Key) (ps : List Place) (old : Option Json) : Option Json :=
  ws.foldl (fun old w => w.leaves key ps old) old

section Plans

variable {ws ws' : List Write} {key : Key} {ps : List Place}

theorem leftBy_append (ws ws' : List Write) (key : Key) (ps : List Place) (old : Option Json) :
    leftBy (ws ++ ws') key ps old = leftBy ws' key ps (leftBy ws key ps old) := List.foldl_append ..

theorem settles_leaves (w : Write) (key : Key) (ps : List Place) : Settles (w.leaves key ps) := by
  unfold Write.leaves
  split
  · split
    · exact Json.settles_patchedAt ps w.body
    · exact .inr ⟨_, rfl⟩
  · exact .inl rfl

theorem settles_leftBy (ws : List Write) (key : Key) (ps : List Place) :
    Settles (leftBy ws key ps) := by
  induction ws with
  | nil => exact .inl rfl
  | cons w ws ih => exact ih.comp (settles_leaves w key ps)

theorem leftBy_flatMap_congr {α : Type} {f g : α → List Write} {xs : List α}
    (h : ∀ x ∈ xs, leftBy (f x) key ps = leftBy (g x) key ps) :
    leftBy (xs.flatMap f) key ps = leftBy (xs.flatMap g) key ps := by
  induction xs with
  | nil => rfl
  | cons x xs ih =>
    obtain ⟨hx, hxs⟩ := List.forall_mem_cons.1 h
    funext old
    rw [List.flatMap_cons, List.flatMap_cons, leftBy_append, leftBy_append, hx, ih hxs]

end Plans

structure Merges (ws : List Write) (m : Store) (key : Key) : Prop where
  stored : (m key).isSome
  patches : ∀ w ∈ ws, w.key = key → w.mode = .patch

structure Leaves (ws : List Write) (m m' : Store) : Prop where
  spots : ∀ key ps, key.kind ≠ .claims → assigned ps = false →
    m'.spot key ps = leftBy ws key ps (m.spot key ps)
  merged : ∀ key ps, key.kind ≠ .claims → assigned ps = true → Merges ws m key →
    m'.spot key ps = m.spot key ps
  others : ∀ key, key.kind ≠ .claims → (∀ w ∈ ws, key ≠ w.key) → m' key = m key
  stays : ∀ key, (m key).isSome → (m' key).isSome
  written : ∀ w ∈ ws, (m' w.key).isSome

def SameClaims (m m' : Store) : Prop := ∀ key, key.kind = .claims → m' key = m key

/-- Deployments stay, and they stay the same to the server if it keeps identities. -/
def Steady (keeps : Prop) (m m' : Store) : Prop :=
  ∀ key old, key.kind = .deployments → m key = some old →
    ∃ j, m' key = some j ∧ (keeps → identity j = identity old)

section Stores

variable {ws ws' : List Write} {m m' m'' : Store} {keeps : Prop}

theorem Leaves.append (h : Leaves ws m m') (h' : Leaves ws' m' m'') :
    Leaves (ws ++ ws') m m'' := by
  constructor
  · intro key ps hkey hps
    rw [h'.spots key ps hkey hps, h.spots key ps hkey hps, leftBy_append]
  · rintro key ps hkey hps ⟨hstored, hpatches⟩
    obtain ⟨hown, hother⟩ := List.forall_mem_append.1 hpatches
    have hmerged := h.merged key ps hkey hps ⟨hstored, hown⟩
    exact (h'.merged key ps hkey hps ⟨h.stays key hstored, hother⟩).trans hmerged
  · intro key hkey hws
    obtain ⟨hown, hother⟩ := List.forall_mem_append.1 hws
    exact (h'.others key hkey hother).trans (h.others key hkey hown)
  · exact fun key hkey => h'.stays key (h.stays key hkey)
  · intro w hw
    rcases List.mem_append.1 hw with hw | hw
    · exact h'.stays w.key (h.written w hw)
    · exact h'.written w hw

theorem leaves_nil (hothers : ∀ key, key.kind ≠ .claims → m' key = m key)
    (hstays : ∀ key, (m key).isSome → (m' key).isSome) : Leaves [] m m' := by
  have hspot : ∀ key ps, key.kind ≠ .claims → m'.spot key ps = m.spot key ps :=
    fun key ps hkey => by rw [Store.spot, Store.spot, hothers key hkey]
  refine ⟨?_, ?_, fun key hkey _ => hothers key hkey, hstays, ?_⟩
  · exact fun key ps hkey _ => hspot key ps hkey
  · exact fun key ps hkey _ _ => hspot key ps hkey
  · exact fun w hw => absurd hw List.not_mem_nil

theorem SameClaims.trans (h : SameClaims m m') (h' : SameClaims m' m'') : SameClaims m m'' :=
  fun key hkey => (h' key hkey).trans (h key hkey)

theorem Steady.trans (h : Steady keeps m m') (h' : Steady keeps m' m'') : Steady keeps m m'' := by
  intro key old hkey hold
  obtain ⟨j, hj, hsame⟩ := h key old hkey hold
  obtain ⟨j', hj', hsame'⟩ := h' key j hkey hj
  exact ⟨j', hj', fun hkeeps => (hsame' hkeeps).trans (hsame hkeeps)⟩

theorem steady_of_same (h : ∀ key, key.kind = .deployments → m' key = m key) :
    Steady keeps m m' := fun key old hkey hold => ⟨old, (h key hkey).trans hold, fun _ => rfl⟩

structure Stage (keeps : Prop) (ws : List Write) (m m' : Store) : Prop where
  leaves : Leaves ws m m'
  claims : SameClaims m m'
  steady : Steady keeps m m'

theorem Stage.refl (keeps : Prop) (m : Store) : Stage keeps [] m m :=
  ⟨leaves_nil (fun _ _ => rfl) (fun _ => id), fun _ _ => rfl, steady_of_same fun _ _ => rfl⟩

theorem Stage.append (h : Stage keeps ws m m') (h' : Stage keeps ws' m' m'') :
    Stage keeps (ws ++ ws') m m'' :=
  ⟨h.leaves.append h'.leaves, h.claims.trans h'.claims, h.steady.trans h'.steady⟩

theorem leaves_of_written {w : Write} {j : Json} (hstored : m' w.key = some j)
    (hspots : ∀ ps, assigned ps = false → j.shellAt ps = w.leaves w.key ps (m.spot w.key ps))
    (hmerged : w.mode = .patch → ∀ old, m w.key = some old → ∀ ps, assigned ps = true →
      j.shellAt ps = old.shellAt ps)
    (hothers : ∀ key ≠ w.key, m' key = m key) : Leaves [w] m m' := by
  constructor
  · intro key ps _ hps
    by_cases hkey : key = w.key
    · subst hkey
      rw [Store.spot, hstored]
      exact hspots ps hps
    · change _ = w.leaves key ps _
      rw [Write.leaves, if_neg hkey, Store.spot, hothers key hkey]
      rfl
  · rintro key ps _ hps ⟨hold, hpatches⟩
    by_cases hkey : key = w.key
    · subst hkey
      obtain ⟨old, hold⟩ := Option.isSome_iff_exists.1 hold
      rw [Store.spot, Store.spot, hstored, hold]
      exact hmerged (hpatches w (List.mem_singleton_self w) rfl) old hold ps hps
    · rw [Store.spot, Store.spot, hothers key hkey]
  · intro key _ hne
    exact hothers key (hne w (List.mem_singleton_self w))
  · intro key hold
    by_cases hkey : key = w.key
    · rw [hkey, hstored]
      rfl
    · rwa [hothers key hkey]
  · rw [List.forall_mem_singleton, hstored]
    rfl

end Stores

section Metadata

variable {body j : Json} {name : String} {ms entries : List (String × Json)}

/-- The body under metadata to which a server has added, or where it has repeated the name. -/
def Dressed (body : Json) (name : String) (j : Json) : Prop :=
  ∃ entries, (∀ e ∈ entries, e.1 ∉ writtenKeys ∨ e = ("name", .str name)) ∧
    j = Server.withMetadata entries body

theorem lookup_dressed (hentries : ∀ e ∈ entries, e.1 ∉ writtenKeys ∨ e = ("name", .str name))
    (hname : ms.lookup "name" = some (.str name)) {k : String} (hk : k ∈ writtenKeys) :
    (entries.foldl (fun m e => Assoc.insert e.1 e.2 m) ms).lookup k = ms.lookup k := by
  rw [Assoc.lookup_foldl_insert]
  cases hlast : (entries.filter (·.1 == k)).getLast? with
  | none => rfl
  | some e =>
    obtain ⟨he, hkey⟩ := List.mem_filter.1 (List.mem_of_getLast? hlast)
    rw [beq_iff_eq] at hkey
    subst hkey
    rcases hentries e he with hforeign | rfl
    · exact absurd hk hforeign
    · exact hname.symm

theorem Dressed.shellAt (h : Dressed body name j) (hbody : Headed body name) {ps : List Place}
    (hps : assigned ps = false) : j.shellAt ps = body.shellAt ps := by
  obtain ⟨entries, hentries, rfl⟩ := h
  obtain ⟨ms, hmetadata, hname, -⟩ := hbody.metadata
  obtain ⟨own, rfl⟩ := eq_obj_of_member? hmetadata
  have hget : ((Json.obj own).get "metadata").members = ms := by
    rw [Json.get, hmetadata]
    rfl
  cases ps with
  | nil => rfl
  | cons p ps =>
    cases p with
    | item i => rfl
    | member a =>
      rw [Json.shellAt_cons, Json.shellAt_cons]
      change ((Assoc.insert "metadata" _ own).lookup a).bind _ = (own.lookup a).bind _
      by_cases ha : a = "metadata"
      · subst ha
        have hown : own.lookup "metadata" = some (.obj ms) := hmetadata
        rw [Assoc.lookup_insert_self, hown, hget, Option.bind_some, Option.bind_some]
        cases ps with
        | nil => rfl
        | cons p ps =>
          cases p with
          | item i => rfl
          | member b =>
            have hb : b ∈ writtenKeys := by
              simpa [assigned] using hps
            rw [Json.shellAt_cons, Json.shellAt_cons]
            exact congrArg (Option.bind · _) (lookup_dressed hentries hname hb)
      · rw [Assoc.lookup_insert_of_ne ha]

theorem dressed_created (h : Assigned entries) (body : Json) (name : String) :
    Dressed body name (Server.withMetadata (("name", .str name) :: entries) body) := by
  refine ⟨_, ?_, rfl⟩
  intro e he
  rcases List.mem_cons.1 he with rfl | he
  · exact .inr rfl
  · exact .inl (h.foreign e he)

theorem dressed_replaced {old : Json} (h : Kept old entries) (body : Json) (name : String) :
    Dressed body name (Server.withMetadata entries body) :=
  ⟨entries, fun e he => .inl (h.foreign e he), rfl⟩

end Metadata

section Writes

variable {keeps : Prop} {body j : Json} {name : String} {mode : UpdateMode} {old : Option Json}

theorem Laid.shellAt (h : Laid keeps body name mode old j) (hbody : Headed body name)
    (hspare : mode = .replace → body.withoutNulls = body) (key : Key) {ps : List Place}
    (hps : assigned ps = false) :
    j.shellAt ps = (Write.mk mode key body).leaves key ps (old.bind (·.shellAt ps)) := by
  rw [Write.leaves, if_pos rfl]
  cases h with
  | created hentries =>
    rw [(dressed_created hentries _ name).shellAt hbody.withoutNulls hps]
    cases mode with
    | patch => exact Json.shellAt_withoutNulls hbody.distinct ps
    | replace => rw [hspare rfl]
  | patched hold => exact Json.shellAt_mergePatch ps hold hbody.distinct
  | replaced hentries hidentity => exact (dressed_replaced hentries body name).shellAt hbody hps

theorem Laid.shellAt_assigned (h : Laid keeps body name .patch (some old') j)
    (hbody : Headed body name) {ps : List Place} (hps : assigned ps = true) :
    j.shellAt ps = old'.shellAt ps := by
  obtain ⟨ms, hmetadata, -, hwritten⟩ := hbody.metadata
  obtain ⟨own, rfl⟩ := eq_obj_of_member? hmetadata
  cases h with
  | patched hold =>
    rw [Json.shellAt_mergePatch ps hold hbody.distinct]
    unfold assigned at hps
    split at hps
    · next a b ps' =>
      rw [Bool.and_eq_true_iff, beq_iff_eq, Bool.not_eq_true', List.contains_eq_mem,
        decide_eq_false_iff_not] at hps
      obtain ⟨rfl, hb⟩ := hps
      have hown : own.lookup "metadata" = some (.obj ms) := hmetadata
      have hnone := lookup_eq_none_of_written hwritten hb
      have hobj : ¬(Json.obj ms).isNull = true := nofun
      rw [Json.patchedAt_member _ hown, if_neg hobj, Json.patchedAt_member_of_none _ hnone]
    · cases hps

theorem Laid.dressed (h : Laid keeps body name .replace old j)
    (hspare : body.withoutNulls = body) : Dressed body name j := by
  cases h with
  | created hentries =>
    rw [hspare]
    exact dressed_created hentries body name
  | replaced hentries hidentity => exact dressed_replaced hentries body name

theorem Laid.identity (h : Laid keeps body name .replace (some old') j)
    (hbody : identity body = (none, none)) (hkeeps : keeps) :
    Cluster.identity j = Cluster.identity old' := by
  cases h with
  | replaced hentries hidentity => exact hidentity hkeeps hbody

variable {m : Store} {kind : Kind} {ns : String}

theorem stage_patch (hkind : kind ≠ .claims ∧ kind ≠ .deployments) (hbody : Headed body name)
    (h : Laid keeps body name .patch (m ⟨kind, ns, name⟩) j) :
    Stage keeps [⟨.patch, ⟨kind, ns, name⟩, body⟩] m (m.put ⟨kind, ns, name⟩ j) := by
  refine ⟨?_, ?_, ?_⟩
  · apply leaves_of_written (Store.put_self ..)
    · exact fun ps hps => h.shellAt hbody (fun hmode => by cases hmode) _ hps
    · rintro - old hold ps hps
      rw [hold] at h
      exact h.shellAt_assigned hbody hps
    · exact fun key hkey => Store.put_of_ne hkey j m
  · rintro key hkey
    apply Store.put_of_ne
    rintro rfl
    exact hkind.1 hkey
  · apply steady_of_same
    intro key hkey
    apply Store.put_of_ne
    rintro rfl
    exact hkind.2 hkey

theorem stage_replace (hbody : Headed body name) (hspare : body.withoutNulls = body)
    (hidentity : identity body = (none, none))
    (h : Laid keeps body name .replace (m ⟨.deployments, ns, name⟩) j) :
    Stage keeps [⟨.replace, ⟨.deployments, ns, name⟩, body⟩] m
      (m.put ⟨.deployments, ns, name⟩ j) := by
  refine ⟨?_, ?_, ?_⟩
  · apply leaves_of_written (Store.put_self ..)
    · exact fun ps hps => h.shellAt hbody (fun _ => hspare) _ hps
    · exact fun hmode => by cases hmode
    · exact fun key hkey => Store.put_of_ne hkey j m
  · intro key hkey
    apply Store.put_of_ne
    rintro rfl
    cases hkey
  · intro key old hkey hold
    by_cases hsame : key = ⟨.deployments, ns, name⟩
    · subst hsame
      rw [hold] at h
      exact ⟨j, Store.put_self .., h.identity hidentity⟩
    · exact ⟨old, (Store.put_of_ne hsame j m).trans hold, fun _ => rfl⟩

end Writes

end PreviewApps.Cluster
