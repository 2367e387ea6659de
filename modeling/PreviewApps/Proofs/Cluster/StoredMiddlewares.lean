import PreviewApps.Proofs.Agreement
import PreviewApps.Proofs.Cluster.Grounding
import PreviewApps.Proofs.Cluster.Partial
import PreviewApps.Proofs.Json.MergePatch
import PreviewApps.Proofs.Traefik.Middlewares

/-!
Middlewares as a deployment leaves them. Objects of one name are written over each other, so every
inline middleware keeps its specification only where all of its name are alike.
-/

namespace PreviewApps

namespace DeploymentUnit

def inlineMiddlewares (u : DeploymentUnit) : List Middleware :=
  u.services.flatMap fun d => d.route.middlewares.filter (!·.isRef)

/-- The middleware that an object is made of: of the last service that names it, the first one. -/
def decisive? (u : DeploymentUnit) (name : String) : Option Middleware :=
  (u.services.filterMap fun d =>
    (d.route.middlewares.filter (!·.isRef)).find? (·.objectName == name)).getLast?

def SpecsAgree (u : DeploymentUnit) : Prop :=
  ∀ m ∈ u.inlineMiddlewares, ∀ m' ∈ u.inlineMiddlewares, m.objectName = m'.objectName →
    ∀ spec ∈ m.spec, ∀ spec' ∈ m'.spec, (Json.obj spec).Same (.obj spec')

variable {u : DeploymentUnit} {name : String} {m : Middleware}

theorem mem_inlineMiddlewares_of_decisive? (h : u.decisive? name = some m) :
    m ∈ u.inlineMiddlewares ∧ m.objectName = name := by
  obtain ⟨d, hd, hm⟩ := List.mem_filterMap.1 (List.mem_of_getLast? h)
  have hname : (m.objectName == name) = true := by simpa using List.find?_some hm
  exact ⟨List.mem_flatMap.2 ⟨d, hd, List.mem_of_find?_eq_some hm⟩, beq_iff_eq.1 hname⟩

theorem exists_decisive? (h : m ∈ u.inlineMiddlewares) :
    ∃ m', u.decisive? m.objectName = some m' := by
  obtain ⟨d, hd, hm⟩ := List.mem_flatMap.1 h
  have hfound : ((d.route.middlewares.filter (!·.isRef)).find?
      (·.objectName == m.objectName)).isSome :=
    List.find?_isSome.2 ⟨m, hm, beq_self_eq_true _⟩
  obtain ⟨m', hm'⟩ := Option.isSome_iff_exists.1 hfound
  apply Option.isSome_iff_exists.1
  rw [decisive?, List.getLast?_isSome]
  exact List.ne_nil_of_mem (List.mem_filterMap.2 ⟨d, hd, hm'⟩)

theorem exists_spec_of_mem (h : m ∈ u.inlineMiddlewares) : ∃ spec, m.spec = some spec := by
  obtain ⟨d, -, hm⟩ := List.mem_flatMap.1 h
  have hinline := (List.mem_filter.1 hm).2
  exact Option.isSome_iff_exists.1 (by simpa [Middleware.isRef] using hinline)

end DeploymentUnit

namespace Cluster

open Program

def StoredAsGiven (u : DeploymentUnit) (h : History) : Prop :=
  ∀ m ∈ u.inlineMiddlewares, ∃ spec body, m.spec = some spec ∧
    manifests h ⟨.middlewares, u.app.namespaceId, m.objectName⟩ = some body ∧
    (body.get "spec").Same (.obj spec)

theorem StoredAsGiven.specsAgree {u : DeploymentUnit} {h : History} (hs : StoredAsGiven u h) :
    u.SpecsAgree := by
  intro m hm m' hm' hname spec hspec spec' hspec'
  obtain ⟨own, body, hown, hbody, hsame⟩ := hs m hm
  obtain ⟨own', body', hown', hbody', hsame'⟩ := hs m' hm'
  obtain rfl : own = spec := Option.some.inj (hown.symm.trans hspec)
  obtain rfl : own' = spec' := Option.some.inj (hown'.symm.trans hspec')
  rw [hname, hbody'] at hbody
  cases hbody
  exact hsame.symm.trans hsame'

def Contract.lax : Contract where
  expects _ := True
  before _ _ := True
  faulty _ _ := True

def Call.SparesMiddlewares : Call → Prop
  | .create kind _ _ => kind ≠ .middlewares
  | .patch kind _ _ _ => kind ≠ .middlewares
  | .replace kind _ _ _ => kind ≠ .middlewares
  | .delete kind _ _ => kind ≠ .middlewares ∧ kind ≠ .namespaces
  | _ => True

theorem Call.SparesMiddlewares.record_apply {c : Call} (hc : c.SparesMiddlewares) (a : Answer)
    (m : Store) (ns name : String) :
    record m (c, a) ⟨.middlewares, ns, name⟩ = m ⟨.middlewares, ns, name⟩ := by
  have hput {kind : Kind} (hkind : kind ≠ .middlewares) (ns' name' : String) (body : Json) :
      m.put ⟨kind, ns', name'⟩ body ⟨.middlewares, ns, name⟩ = m ⟨.middlewares, ns, name⟩ :=
    Store.put_of_ne (fun hkey => hkind (congrArg Key.kind hkey).symm) body m
  cases a with
  | error e => cases c <;> rfl
  | ok j =>
    cases c with
    | create kind ns' body => exact hput hc ns' _ body
    | patch kind ns' name' body => exact hput hc ns' name' body
    | replace kind ns' name' body => exact hput hc ns' name' body
    | delete kind ns' name' =>
      apply if_neg
      rintro (hkey | ⟨hkind, -⟩)
      · exact hc.1 (congrArg Key.kind hkey).symm
      · exact hc.2 hkind
    | _ => rfl

def Stored (ns : String) (rs : List Traefik.MiddlewareResource) (h : History) : Prop :=
  ∀ name, manifests h ⟨.middlewares, ns, name⟩ =
    (rs.filter (·.metadata.name.getD "" == name)).getLast?.map (·.toJson)

def WritesMiddlewares (ns : String) (rs : List Traefik.MiddlewareResource) {α : Type}
    (p : Program α) : Prop :=
  ∀ old h, Stored ns old h → p.Honours .lax h fun h' _ => Stored ns (old ++ rs) h'

section Rules

variable {α β : Type} {ns : String} {rs rs' : List Traefik.MiddlewareResource} {h h' : History}
  {p : Program α} {c : Call}

theorem stored_nil (ns : String) : Stored ns [] [] := fun _ => rfl

theorem Stored.of_spares (hs : Stored ns rs h) (hc : c.SparesMiddlewares) (a : Answer) :
    Stored ns rs (h ++ [(c, a)]) := by
  intro name
  rw [manifests_concat, hc.record_apply]
  exact hs name

theorem Stored.of_other {key : Key} {body : Json} (hs : Stored ns rs h)
    (hadds : Adds key body h h') (hkind : key.kind ≠ .middlewares) : Stored ns rs h' := by
  intro name
  rw [hadds.of_ne fun hkey => hkind (congrArg Key.kind hkey).symm]
  exact hs name

theorem Stored.of_adds {r : Traefik.MiddlewareResource} (hs : Stored ns rs h)
    (hadds : Adds ⟨.middlewares, ns, r.metadata.name.getD ""⟩ r.toJson h h') :
    Stored ns (rs ++ [r]) h' := by
  intro name
  rw [List.filter_append, List.filter_singleton]
  by_cases hname : r.metadata.name.getD "" = name
  · subst hname
    rw [hadds.self, beq_self_eq_true, cond_true, List.getLast?_concat]
    rfl
  · have hkey : (⟨.middlewares, ns, name⟩ : Key) ≠
        ⟨.middlewares, ns, r.metadata.name.getD ""⟩ :=
      fun hkey => hname (congrArg Key.name hkey).symm
    rw [hadds.of_ne hkey, beq_false_of_ne hname, cond_false, List.append_nil]
    exact hs name

theorem writes_ofExcept (r : Except Fault α) : WritesMiddlewares ns [] (ofExcept r) := by
  intro old h hs
  rw [List.append_nil]
  exact honours_ofExcept (fun _ _ => hs) fun _ _ => trivial

theorem WritesMiddlewares.bind {f : α → Program β} (hp : WritesMiddlewares ns rs p)
    (hf : ∀ a, WritesMiddlewares ns rs' (f a)) : WritesMiddlewares ns (rs ++ rs') (p >>= f) := by
  intro old h hs
  apply Honours.bind
  apply (hp old h hs).mono
  intro h' a hs'
  rw [← List.append_assoc]
  exact hf a _ h' hs'

theorem WritesMiddlewares.bind_of_none {f : α → Program β} (hp : WritesMiddlewares ns [] p)
    (hf : ∀ a, WritesMiddlewares ns rs (f a)) : WritesMiddlewares ns rs (p >>= f) := hp.bind hf

theorem writes_graded (ns : String) : Graded (WritesMiddlewares ns) :=
  ⟨writes_ofExcept, WritesMiddlewares.bind⟩

theorem writes_must {action : Action} (hc : c.SparesMiddlewares) :
    WritesMiddlewares ns [] (must action c) := by
  intro old h hs
  rw [List.append_nil]
  exact honours_must trivial (fun j _ => hs.of_spares hc _) fun _ => trivial

theorem writes_may {absorbed : List Int} {action : Action} (hc : c.SparesMiddlewares) :
    WritesMiddlewares ns [] (may absorbed action c) := by
  intro old h hs
  rw [List.append_nil]
  exact honours_may trivial (fun j _ => hs.of_spares hc _) (fun e _ => hs.of_spares hc _)
    fun _ _ => trivial

theorem writes_upsert {mode : UpdateMode} {kind : Kind} {ns' name : String} {body : Json}
    {creating updating : Action} (hkind : kind ≠ .middlewares) (hname : givenName body = name) :
    WritesMiddlewares ns [] (upsert mode kind ns' name body creating updating) := by
  intro old h hs
  refine honours_upsert_adds hname trivial (fun _ => trivial) (fun _ _ => trivial) ?_
  intro h' _ hadds
  rw [List.append_nil]
  exact hs.of_other hadds hkind

theorem writes_upsertMiddleware (app : AppName) {r : Traefik.MiddlewareResource}
    (hr : Named r.toJson (r.metadata.name.getD "")) :
    WritesMiddlewares app.namespaceId [r] (upsertMiddleware app r) := by
  apply (writes_graded _).discard
  intro old h hs
  refine honours_upsert_adds hr.given trivial (fun _ => trivial) (fun _ _ => trivial) ?_
  exact fun h' _ hadds => hs.of_adds hadds

end Rules

theorem writes_providePullSecret (u : DeploymentUnit) (ns : String) :
    WritesMiddlewares ns [] (providePullSecret u) := by
  have hcreate (ns' : String) (body : Json) : (Call.create .secrets ns' body).SparesMiddlewares :=
    show Kind.secrets ≠ .middlewares by decide
  apply (writes_graded ns).closed.providePullSecret
  · exact writes_may ⟨by decide, by decide⟩
  · exact writes_must (hcreate _ _)

theorem writes_claimsFor (settings : Settings) (app : AppName) (d : DeployableService) :
    WritesMiddlewares app.namespaceId [] (claimsFor settings app d) := by
  have hcreate (ns' : String) (body : Json) : (Call.create .claims ns' body).SparesMiddlewares :=
    show Kind.claims ≠ .middlewares by decide
  apply (writes_graded app.namespaceId).closed.claimsFor
  · exact fun _ _ => writes_must (by trivial)
  · exact fun _ _ => writes_must (hcreate _ _)

theorem writes_upsertRoutes (app : AppName) (d : DeployableService) {base : Option IngressRoute}
    (hbase : ∀ b ∈ base, ∀ m ∈ b.middlewares, m.isRef) :
    WritesMiddlewares app.namespaceId (Traefik.middlewares app d) (upsertRoutes app d base) := by
  cases hroute : d.route.isEmpty with
  | true =>
    have hnone : Traefik.middlewares app d = [] := by
      rw [Traefik.middlewares, IngressRoute.inlineMiddlewares, IngressRoute.middlewares,
        List.isEmpty_iff.1 hroute]
      rfl
    unfold upsertRoutes
    rw [if_pos hroute, hnone]
    exact (writes_graded _).closed.pure ()
  | false =>
    have hwrites : WritesMiddlewares app.namespaceId
        ((Traefik.middlewares app (placedBehind base d)).flatMap (fun r => [r]) ++ [])
        (upsertRoutes app d base) := by
      apply (writes_graded _).upsertRoutes hroute
      · exact fun r hr => writes_upsertMiddleware app (named_middleware hr)
      · exact fun r hr => writes_upsert (by decide) (named_ingressRoute hr).given
    rwa [List.append_nil, List.flatMap_singleton', Traefik.middlewares_placedBehind app d hbase]
      at hwrites

theorem writes_deployService (settings : Settings) (container : ContainerConfig) (now : Timestamp)
    (app : AppName) (usePullSecret : Bool) {base : Option IngressRoute} (d : DeployableService)
    (hbase : ∀ b ∈ base, ∀ m ∈ b.middlewares, m.isRef) :
    WritesMiddlewares app.namespaceId (Traefik.middlewares app d)
      (deployService settings container now app usePullSecret base d) := by
  unfold deployService
  have hfiles : WritesMiddlewares app.namespaceId [] (upsertFiles app d) :=
    (writes_graded _).closed.upsertFiles app d (writes_upsert (by decide) rfl)
  apply hfiles.bind_of_none
  intro _
  apply (writes_claimsFor settings app d).bind_of_none
  intro found
  apply (writes_ofExcept (readClaims found)).bind_of_none
  intro claims
  apply (writes_upsert (by decide) rfl).bind_of_none
  intro stored
  apply ((writes_graded _).discard (writes_upsert (by decide) rfl)).bind_of_none
  intro _
  apply (writes_graded _).bind_none (writes_upsertRoutes app d hbase)
  intro _
  exact writes_ofExcept _

theorem writes_deploy (settings : Settings) (container : ContainerConfig) (now : Timestamp)
    (u : DeploymentUnit) : WritesMiddlewares u.app.namespaceId
      (u.services.flatMap (Traefik.middlewares u.app)) (deploy settings container now u) := by
  rw [deploy_eq]
  have hnamespace : WritesMiddlewares u.app.namespaceId [] (upsertNamespace settings u.app) :=
    (writes_graded _).discard
      (writes_upsert (by decide) (named_namespace (.ofApp u.app settings)).given)
  apply hnamespace.bind_of_none
  intro _
  apply (writes_providePullSecret u _).bind_of_none
  intro _ old h hs
  have hread : WritesMiddlewares u.app.namespaceId [] (baseRoute settings) :=
    (writes_graded _).closed.baseRoute settings fun _ _ => writes_may (by trivial)
  apply Honours.bind
  apply ((hread old h hs).and_results (results_baseRoute settings)).mono
  rintro h' base ⟨hs', hbase⟩
  rw [List.append_nil] at hs'
  apply (writes_graded _).mapM _ old h' hs'
  intro d _
  exact writes_deployService settings container now u.app _ d hbase

theorem specs_middlewares (app : AppName) (d : DeployableService) (name : String) :
    ((Traefik.middlewares app d).filter (·.metadata.name.getD "" == name)).map (·.spec) =
      ((d.route.middlewares.filter (!·.isRef)).find? (·.objectName == name)).toList.map
        (·.spec.getD []) := by
  rw [← IngressRoute.filter_inlineMiddlewares, Traefik.middlewares, List.filter_map, List.map_map]
  rfl

theorem spec_of_stored {u : DeploymentUnit} {h : History}
    (hs : Stored u.app.namespaceId (u.services.flatMap (Traefik.middlewares u.app)) h)
    (name : String) :
    (manifests h ⟨.middlewares, u.app.namespaceId, name⟩).map (·.get "spec") =
      ((u.decisive? name).bind (·.spec)).map .obj := by
  have hlast : (manifests h ⟨.middlewares, u.app.namespaceId, name⟩).map (·.get "spec") =
      (u.decisive? name).map fun m => .obj (m.spec.getD []) := by
    -- each service writes a name at most once, so the last writer is the last service that has it
    have hwritten := congrArg (·.getLast?.map Json.obj)
      (List.flatMap_congr fun d (_ : d ∈ u.services) => specs_middlewares u.app d name)
    rw [← List.map_flatMap, ← List.map_flatMap, ← List.filter_flatMap,
      ← List.filterMap_eq_flatMap_toList, List.getLast?_map, List.getLast?_map,
      Option.map_map, Option.map_map] at hwritten
    rw [hs name, Option.map_map]
    exact hwritten
  rw [hlast]
  cases hm : u.decisive? name with
  | none => rfl
  | some m =>
    obtain ⟨spec, hspec⟩ :=
      DeploymentUnit.exists_spec_of_mem (DeploymentUnit.mem_inlineMiddlewares_of_decisive? hm).1
    simp [hspec]

/-- After a deployment that succeeds every middleware object has the specification of the middleware
that decides on it, and all inline middlewares are stored as given exactly if those of one object
name agree. -/
theorem storedAsGiven_iff {σ : Type} (answer : Call → σ → Answer × σ) (s : σ) (settings : Settings)
    (container : ContainerConfig) (now : Timestamp) (u : DeploymentUnit)
    {replies : List (Option Service)}
    (hrun : ((deploy settings container now u).run answer s).1 = .ok replies) :
    let h := (deploy settings container now u).history answer s
    (∀ name, (manifests h ⟨.middlewares, u.app.namespaceId, name⟩).map (·.get "spec") =
      ((u.decisive? name).bind (·.spec)).map .obj) ∧
    (StoredAsGiven u h ↔ u.SpecsAgree) := by
  intro h
  have hstored : Stored u.app.namespaceId (u.services.flatMap (Traefik.middlewares u.app)) h := by
    rcases ending_of_honours (writes_deploy settings container now u [] [] (stored_nil _))
      fun _ _ => trivial with ⟨_, -, hs⟩ | ⟨e, herror, -⟩
    · exact hs
    · rw [hrun] at herror
      cases herror
  have hspecs := spec_of_stored hstored
  refine ⟨hspecs, StoredAsGiven.specsAgree, ?_⟩
  intro hagree m hm
  obtain ⟨spec, hspec⟩ := DeploymentUnit.exists_spec_of_mem hm
  obtain ⟨m', hdecisive⟩ := DeploymentUnit.exists_decisive? hm
  obtain ⟨hm', hname⟩ := DeploymentUnit.mem_inlineMiddlewares_of_decisive? hdecisive
  obtain ⟨spec', hspec'⟩ := DeploymentUnit.exists_spec_of_mem hm'
  have hbody := hspecs m.objectName
  rw [hdecisive, Option.bind_some, hspec', Option.map_some] at hbody
  obtain ⟨body, hbody, hget⟩ := Option.map_eq_some_iff.1 hbody
  refine ⟨spec, body, hspec, hbody, ?_⟩
  rw [hget]
  exact hagree m' hm' m hm hname spec' hspec' spec hspec

/-- One service with two middlewares whose names differ in case only. -/
def twinUnit : DeploymentUnit := ⟨.master, [Traefik.twinService], []⟩

theorem exists_run_twinUnit :
    ∃ replies, ((deploy webSettings ⟨none⟩ noon twinUnit).run Server.answer .empty).1 =
      .ok replies := by
  obtain ⟨replies, hrun⟩ := exists_run_eq_ok Server.answer
    (deploy webSettings ⟨none⟩ noon twinUnit) .empty (by decide +kernel)
  exact ⟨replies, congrArg Prod.fst hrun⟩

theorem storedAsGiven_iff_of_twinUnit :
    let run := (deploy webSettings ⟨none⟩ noon twinUnit).run Server.answer .empty
    let h := (deploy webSettings ⟨none⟩ noon twinUnit).history Server.answer .empty
    (∃ replies, run.1 = .ok replies) ∧
    (∀ name, (manifests h ⟨.middlewares, "master", name⟩).map (·.get "spec") =
      ((twinUnit.decisive? name).bind (·.spec)).map .obj) ∧
    (StoredAsGiven twinUnit h ↔ twinUnit.SpecsAgree) := by
  intro run h
  obtain ⟨replies, hrun⟩ := exists_run_twinUnit
  exact ⟨⟨replies, hrun⟩,
    storedAsGiven_iff Server.answer .empty webSettings ⟨none⟩ noon twinUnit hrun⟩

/-- The second middleware finds the object of the first under its name. -/
theorem not_storedAsGiven_of_twinUnit :
    (∃ replies, ((deploy webSettings ⟨none⟩ noon twinUnit).run Server.answer .empty).1 =
      .ok replies) ∧
    ¬StoredAsGiven twinUnit
      ((deploy webSettings ⟨none⟩ noon twinUnit).history Server.answer .empty) := by
  refine ⟨exists_run_twinUnit, fun hstored => ?_⟩
  have hname : (Middleware.mk "Strip" (some (IngressRoute.stripPrefix "/a/"))).objectName =
      (Middleware.mk "strip" (some (IngressRoute.stripPrefix "/b/"))).objectName := by
    decide +kernel
  have hsame := hstored.specsAgree _ (List.mem_cons_self ..) _
    (List.mem_cons_of_mem _ (List.mem_cons_self ..)) hname _ rfl _ rfl
  have hprefix := congrArg (·.bind (·.str?))
    (hsame [.member "stripPrefix", .member "prefixes", .item 0])
  exact absurd hprefix (by decide +kernel)

end Cluster

end PreviewApps
