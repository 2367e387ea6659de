import PreviewApps.Proofs.Assoc
import PreviewApps.Proofs.Cluster.Api
import PreviewApps.Proofs.Cluster.History

/-!
Servers as far as claims go. What matters of them is that a list tells of all claims that are
selected and that a claim keeps its labels; any call may fail, and the rest is left open.
-/

namespace PreviewApps.Cluster

open Program

def created? (ns : String) : Exchange → Option Json
  | (.create .claims ns' _, .ok claim) => if ns' = ns then some claim else none
  | _ => none

def createdIn (ns : String) (h : History) : List Json := h.filterMap (created? ns)

/-- Of claims, answers tell the truth: all that were created and are selected, and a new one with the
labels it was to have. -/
def Truthful (ns : String) (past : History) : Exchange → Prop
  | (.list .claims ns' selector, .ok found) =>
    ns' = ns → found.items.Perm ((createdIn ns past).filter (Server.selects selector))
  | (.create .claims ns' body, .ok claim) =>
    ns' = ns → claim.path ["metadata", "labels"] = body.path ["metadata", "labels"]
  | _ => True

def Faithful (ns : String) (h : History) : Prop :=
  ∀ past x rest, h = past ++ x :: rest → Truthful ns past x

def Call.SparesClaims : Call → Prop
  | .patch kind _ _ _ => kind ≠ .claims
  | .replace kind _ _ _ => kind ≠ .claims
  | .delete kind _ _ => kind ≠ .claims ∧ kind ≠ .namespaces
  | _ => True

section Histories

variable {ns : String} {h h' : History} {x : Exchange}

theorem faithful_concat_iff : Faithful ns (h ++ [x]) ↔ Faithful ns h ∧ Truthful ns h x := by
  constructor
  · intro hall
    refine ⟨?_, hall h x [] rfl⟩
    intro past y rest hsplit
    exact hall past y (rest ++ [x]) (by simp [hsplit])
  · rintro ⟨hh, hx⟩ past y rest hsplit
    rcases List.eq_nil_or_concat rest with rfl | ⟨rest, z, rfl⟩
    · obtain ⟨rfl, hy⟩ := List.append_inj' hsplit rfl
      cases hy
      exact hx
    · have hlonger : h ++ [x] = (past ++ y :: rest) ++ [z] := by simp [hsplit]
      exact hh past y rest (List.append_inj' hlonger rfl).1

theorem Faithful.of_prefix (hh : h <+: h') (hfaithful : Faithful ns h') : Faithful ns h := by
  obtain ⟨more, rfl⟩ := hh
  intro past x rest hsplit
  exact hfaithful past x (rest ++ more) (by simp [hsplit])

theorem createdIn_concat (ns : String) (h : History) (x : Exchange) :
    createdIn ns (h ++ [x]) = createdIn ns h ++ (created? ns x).toList := by
  unfold createdIn
  rw [List.filterMap_append]
  cases hx : created? ns x <;> simp [hx]

theorem createdIn_concat_of_none (hx : created? ns x = none) :
    createdIn ns (h ++ [x]) = createdIn ns h := by
  rw [createdIn_concat, hx]
  exact List.append_nil _

theorem created?_create_of_ne {kind : Kind} (hkind : kind ≠ .claims) (ns ns' : String)
    (body : Json) (a : Answer) : created? ns (.create kind ns' body, a) = none := by
  unfold created?
  split
  · next heq =>
    cases heq
    exact absurd rfl hkind
  · rfl

theorem created?_error (ns : String) (c : Call) (e : ApiError) :
    created? ns (c, .error e) = none := by
  unfold created?
  split
  · next heq => cases heq
  · rfl

end Histories

/-- What is assumed of the server: it lists the claims that a selector asks for, and a new claim has
the labels it is created with. Which calls fail, and how others are answered, is left open. -/
structure ClaimServer (σ : Type) where
  answer : Call → σ → Answer × σ
  claims : String → σ → List Json
  listed : ∀ {ns selector s found}, (answer (.list .claims ns selector) s).1 = .ok found →
    found.items = (claims ns s).filter (Server.selects selector)
  labelled : ∀ {ns body s claim}, (answer (.create .claims ns body) s).1 = .ok claim →
    claim.path ["metadata", "labels"] = body.path ["metadata", "labels"]
  kept : ∀ {c s}, c.SparesClaims → ∀ ns, (claims ns (answer c s).2).Perm
    (claims ns s ++ (created? ns (c, (answer c s).1)).toList)

namespace ClaimServer

variable {σ α : Type} (server : ClaimServer σ) {ns : String} {h : History} {s : σ}

theorem truthful (hclaims : (server.claims ns s).Perm (createdIn ns h)) (c : Call) :
    Truthful ns h (c, (server.answer c s).1) := by
  generalize ha : (server.answer c s).1 = a
  unfold Truthful
  split
  · next ns' selector found heq =>
    cases heq
    rintro rfl
    rw [server.listed ha]
    exact hclaims.filter _
  · next ns' body claim heq =>
    cases heq
    rintro rfl
    exact server.labelled ha
  · trivial

end ClaimServer

namespace Server

theorem filter_insert_of_not {q : Key → Bool} {key : Key} (hq : q key = false) (j : Json)
    (objects : List (Key × Json)) :
    (Assoc.insert key j objects).filter (fun e => q e.1) = objects.filter fun e => q e.1 := by
  induction objects with
  | nil => simp [Assoc.insert, hq]
  | cons e objects ih =>
    rw [Assoc.insert]
    split
    · next hkey =>
      rw [eq_of_beq hkey] at hq
      simp [hq]
    · simp [List.filter_cons, ih]

theorem filter_erase_of_not {q : Key → Bool} {key : Key} (hq : q key = false)
    (objects : List (Key × Json)) :
    (Assoc.erase key objects).filter (fun e => q e.1) = objects.filter fun e => q e.1 := by
  induction objects with
  | nil => rfl
  | cons e objects ih =>
    rw [Assoc.erase]
    split
    · next hkey =>
      rw [eq_of_beq hkey] at hq
      simp [hq]
    · simp [List.filter_cons, ih]

theorem insert_of_lookup {key : Key} {j : Json} {objects : List (Key × Json)}
    (h : objects.lookup key = some j) : Assoc.insert key j objects = objects := by
  induction objects with
  | nil => cases h
  | cons e objects ih =>
    rw [Assoc.insert]
    by_cases hkey : key = e.1
    · subst hkey
      rw [List.lookup_cons, beq_self_eq_true] at h
      cases h
      simp
    · rw [List.lookup_cons, beq_false_of_ne hkey] at h
      simp [beq_false_of_ne hkey, ih h]

theorem labels_withMetadata {entries : List (String × Json)} (h : ∀ e ∈ entries, e.1 ≠ "labels")
    (body : Json) :
    (withMetadata entries body).path ["metadata", "labels"] = body.path ["metadata", "labels"] := by
  change (((Assoc.insert "metadata" _ body.members).lookup "metadata").getD .null).get "labels" = _
  rw [Assoc.lookup_insert_self, Option.getD_some, Json.get, Json.member?]
  exact congrArg (·.getD .null) (Assoc.lookup_foldl_insert_of_ne h _)

def isClaimIn (ns : String) (key : Key) : Bool := key.kind = .claims ∧ key.namespaceId = ns

def claimsOf (ns : String) (s : Server) : List Json :=
  (s.objects.filter fun e => isClaimIn ns e.1).map (·.2)

theorem claimsOf_change {key : Key} (h : key.kind ≠ .claims) (f : Json → Json) (ns : String)
    (s : Server) : claimsOf ns (s.change key f).2 = claimsOf ns s := by
  unfold change
  split
  · rfl
  · exact congrArg (List.map _) (filter_insert_of_not (by simp [isClaimIn, h]) _ _)

theorem claimsOf_create (kind : Kind) (ns ns' : String) (body : Json) (s : Server) :
    claimsOf ns (s.create kind ns' body).2 =
      claimsOf ns s ++ (created? ns (.create kind ns' body, (s.create kind ns' body).1)).toList := by
  unfold create claimsOf
  dsimp only
  split
  · rw [created?_error]
    exact (List.append_nil _).symm
  · rw [List.filter_append, List.map_append]
    congr 1
    by_cases hkind : kind = .claims
    · subst hkind
      by_cases hns : ns' = ns <;> simp [isClaimIn, created?, hns]
    · rw [created?_create_of_ne hkind]
      simp [isClaimIn, hkind]

theorem claimsOf_remove {key : Key} (hclaims : key.kind ≠ .claims) (hns : key.kind ≠ .namespaces)
    (ns : String) (s : Server) : claimsOf ns (s.remove key).2 = claimsOf ns s := by
  unfold remove
  split
  · rfl
  · simp only [hns, if_false]
    exact congrArg (List.map _) (filter_erase_of_not (by simp [isClaimIn, hclaims]) _)

theorem change_id (key : Key) (s : Server) : (s.change key id).2 = s := by
  unfold change
  split
  · rfl
  · next old hold =>
    change { s with objects := Assoc.insert key old s.objects } = s
    rw [insert_of_lookup hold]

theorem claimsOf_answer {c : Call} (hc : c.SparesClaims) (ns : String) (s : Server) :
    claimsOf ns (answer c s).2 = claimsOf ns s ++ (created? ns (c, (answer c s).1)).toList := by
  have hnone : created? ns (c, (answer c s).1) = none →
      claimsOf ns (answer c s).2 = claimsOf ns s →
      claimsOf ns (answer c s).2 = claimsOf ns s ++ (created? ns (c, (answer c s).1)).toList := by
    intro hnone hsame
    rw [hnone, hsame]
    exact (List.append_nil _).symm
  cases c with
  | create kind ns' body => exact claimsOf_create kind ns ns' body s
  | patch kind ns' name body =>
    have hkind : (Key.mk kind ns' name).kind ≠ .claims := hc
    exact hnone rfl (claimsOf_change hkind _ ns s)
  | replace kind ns' name body =>
    have hkind : (Key.mk kind ns' name).kind ≠ .claims := hc
    exact hnone rfl (claimsOf_change hkind _ ns s)
  | delete kind ns' name =>
    have hkind : (Key.mk kind ns' name).kind ≠ .claims := hc.1
    exact hnone rfl (claimsOf_remove hkind hc.2 ns s)
  | get kind ns' name => exact hnone rfl (congrArg (claimsOf ns) (change_id _ s))
  | _ => exact hnone rfl rfl

theorem items_listed (ns selector : String) (s : Server) :
    (s.listed (fun key => key.kind = .claims ∧ key.namespaceId = ns) selector).items =
      (claimsOf ns s).filter (selects selector) := by
  unfold listed claimsOf
  rw [List.filter_map, List.filter_filter]
  apply congrArg (List.map _)
  apply List.filter_congr
  intro e _
  exact Bool.and_comm ..

theorem labels_of_create {kind : Kind} {ns : String} {body claim : Json} {s : Server}
    (h : (s.create kind ns body).1 = .ok claim) :
    claim.path ["metadata", "labels"] = body.path ["metadata", "labels"] := by
  unfold create at h
  dsimp only at h
  split at h
  · cases h
  · cases h
    exact labels_withMetadata (by simp) body

def forClaims : ClaimServer Server where
  answer := answer
  claims := claimsOf
  listed := by
    intro ns selector s found h
    cases h
    exact items_listed ns selector s
  labelled := labels_of_create
  kept hc ns := .of_eq (claimsOf_answer hc ns _)

end Server

def ClaimServer.failing {σ : Type} (server : ClaimServer σ) : ClaimServer (List Bool × σ) where
  answer c s :=
    if s.1.headD false then (.error ⟨500, none⟩, (s.1.tail, s.2))
    else ((server.answer c s.2).1, (s.1.tail, (server.answer c s.2).2))
  claims ns s := server.claims ns s.2
  listed := by
    intro ns selector s found h
    split at h
    · cases h
    · exact server.listed h
  labelled := by
    intro ns body s claim h
    split at h
    · cases h
    · exact server.labelled h
  kept := by
    intro c s hc ns
    split
    · rw [created?_error]
      exact .of_eq (List.append_nil _).symm
    · exact server.kept hc ns

end PreviewApps.Cluster
