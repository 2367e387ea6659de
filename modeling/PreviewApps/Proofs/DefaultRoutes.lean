import PreviewApps.Proofs.Route
import PreviewApps.Text.Split

/-!
Default routes. Every service has a path of its own, and no request path starts with the paths of
two services, because neither part of such a path holds a slash.
-/

namespace PreviewApps

namespace Rule

/-- What matchers say of a request to a path: a path prefix that the path starts with it, and all
others what the request has beside its path. -/
def readPath (path : String) (others : String → List String → Bool) (name : String)
    (args : List String) : Bool :=
  match args with
  | [p] => if name = "PathPrefix" then p.toList.isPrefixOf path.toList else others name args
  | _ => others name args

def Admits (e : Rule) (path : String) : Prop := ∃ others, e.holds (readPath path others)

theorem holds_readPath (path p : String) (others : String → List String → Bool) :
    (matcher "PathPrefix" [p]).holds (readPath path others) ↔ p.toList <+: path.toList :=
  List.isPrefixOf_iff_prefix

end Rule

namespace Middleware

def prefixes (m : Middleware) : List String :=
  ((Json.obj (m.spec.getD [])).path ["stripPrefix", "prefixes"]).items.filterMap (·.str?)

/-- What a middleware strips from a path: the first of its prefixes that the path starts with. -/
def stripped? (m : Middleware) (path : String) : Option String :=
  m.prefixes.find? (·.toList.isPrefixOf path.toList)

theorem stripped?_of_isPrefix {m : Middleware} {p path : String} (hm : m.prefixes = [p])
    (h : p.toList <+: path.toList) : m.stripped? path = some p := by
  have hstarts : p.toList.isPrefixOf path.toList := List.isPrefixOf_iff_prefix.2 h
  rw [stripped?, hm]
  exact List.find?_cons_of_pos hstarts

end Middleware

def IngressRoute.Requires (base : IngressRoute) (truth : String → List String → Bool) : Prop :=
  ∀ b ∈ base.routes.head?, b.rule.holds truth

structure Route.Follows (r own : Route) (bases : List IngressRoute) : Prop where
  holds : ∀ truth, r.rule.holds truth ↔ (∀ base ∈ bases, base.Requires truth) ∧ own.rule.holds truth
  middlewares : own.middlewares <:+ r.middlewares

namespace Route.Follows

variable {r r' own : Route} {base : IngressRoute} {bases : List IngressRoute} {b : Route}

theorem refl (own : Route) : own.Follows own [] := ⟨by simp, List.suffix_refl _⟩

theorem of_empty (hbase : base.routes = []) (own : Route) : own.Follows own [base] :=
  ⟨by simp [IngressRoute.Requires, hbase], List.suffix_refl _⟩

theorem of_first {bs : List Route} (hbase : base.routes = b :: bs) (own : Route) :
    Follows ⟨b.rule.merge own.rule, b.middlewares ++ own.middlewares⟩ own [base] :=
  ⟨by simp [IngressRoute.Requires, hbase, Rule.holds_merge], List.suffix_append _ _⟩

theorem cons (h : r.Follows own [base]) (h' : r'.Follows r bases) :
    r'.Follows own (base :: bases) := by
  refine ⟨fun truth => ?_, h.middlewares.trans h'.middlewares⟩
  rw [h'.holds, h.holds, List.forall_mem_singleton, List.forall_mem_cons]
  exact and_left_comm.trans and_assoc.symm

end Route.Follows

namespace IngressRoute

def behindAll (r : IngressRoute) (bases : List IngressRoute) : IngressRoute := bases.foldl behind r

theorem exists_follows_behind {r : IngressRoute} {own : Route} (hr : r.routes = [own])
    (base : IngressRoute) : ∃ own', (r.behind base).routes = [own'] ∧ own'.Follows own [base] := by
  cases hbase : base.routes with
  | nil => exact ⟨own, by rw [behind, hbase, hr], .of_empty hbase own⟩
  | cons b bs => exact ⟨_, by rw [routes_behind hbase, hr, List.map_singleton], .of_first hbase own⟩

theorem exists_follows_behindAll {r : IngressRoute} {own : Route} (hr : r.routes = [own])
    (bases : List IngressRoute) :
    ∃ own', (r.behindAll bases).routes = [own'] ∧ own'.Follows own bases := by
  induction bases generalizing r own with
  | nil => exact ⟨own, hr, .refl own⟩
  | cons base bases ih =>
    obtain ⟨next, hnext, hfollows⟩ := exists_follows_behind hr base
    obtain ⟨own', hown', hrest⟩ := ih hnext
    exact ⟨own', hown', hfollows.cons hrest⟩

def servicePath (app : AppName) (service : String) : String :=
  "/" ++ app.value ++ "/" ++ service ++ "/"

theorem pathPrefix_eq (app : AppName) (service : String) :
    Rule.pathPrefix [app.value, service] = .matcher "PathPrefix" [servicePath app service] := by
  simp [Rule.pathPrefix, servicePath, String.join, String.append_assoc]

theorem exists_route_ofService (app : AppName) (service : String) (bases : List IngressRoute) :
    ∃ r m, ((ofService app service).behindAll bases).routes = [r] ∧ [m] <:+ r.middlewares ∧
      m.prefixes = [servicePath app service] ∧
      ∀ truth, r.rule.holds truth ↔ (∀ base ∈ bases, base.Requires truth) ∧
        (Rule.matcher "PathPrefix" [servicePath app service]).holds truth := by
  obtain ⟨r, hr, hfollows⟩ :=
    exists_follows_behindAll (r := ofService app service) rfl bases
  rw [pathPrefix_eq] at hfollows
  exact ⟨r, _, hr, hfollows.middlewares, rfl, hfollows.holds⟩

def serviceOfPath? (path : String) : Option (String × String) := do
  let (app, rest) ← Text.cutFirst '/' path.toList.tail
  let (service, _) ← Text.cutFirst '/' rest
  some (.ofList app, .ofList service)

theorem serviceOfPath?_of_isPrefix {app : AppName} {service path : String}
    (hservice : '/' ∉ service.toList)
    (h : (servicePath app service).toList <+: path.toList) :
    serviceOfPath? path = some (app.value, service) := by
  obtain ⟨rest, hrest⟩ := h
  have happ : '/' ∉ app.value.toList := app.notMem_value (by decide) (by decide)
  have hchars : path.toList =
      '/' :: (app.value.toList ++ '/' :: (service.toList ++ '/' :: rest)) := by
    rw [← hrest]
    simp [servicePath]
  have hcutApp := Text.cutFirst_append (service.toList ++ '/' :: rest) happ
  have hcutService := Text.cutFirst_append rest hservice
  rw [serviceOfPath?, hchars, List.tail_cons, hcutApp]
  simp [hcutService]

theorem isPrefix_of_admits {r : Route} {bases : List IngressRoute} {p path : String}
    (hr : ∀ truth, r.rule.holds truth ↔ (∀ base ∈ bases, base.Requires truth) ∧
      (Rule.matcher "PathPrefix" [p]).holds truth)
    (hpath : r.rule.Admits path) : p.toList <+: path.toList := by
  obtain ⟨others, hholds⟩ := hpath
  have hown := ((hr _).1 hholds).2
  exact (Rule.holds_readPath path p others).1 hown

/-- Behind whatever bases a service requires its path, which its last middleware strips, and no
request path satisfies the rules of two services whose names hold no slash. -/
theorem defaultRoutes_unambiguous (app : AppName) (service : String) (bases : List IngressRoute) :
    ∃ r m, ((ofService app service).behindAll bases).routes = [r] ∧ [m] <:+ r.middlewares ∧
      (∀ truth, r.rule.holds truth ↔ (∀ base ∈ bases, base.Requires truth) ∧
        (Rule.matcher "PathPrefix" [servicePath app service]).holds truth) ∧
      ∀ path, r.rule.Admits path →
        (servicePath app service).toList <+: path.toList ∧
        m.stripped? path = some (servicePath app service) ∧
        ∀ app' service' bases', '/' ∉ service.toList → '/' ∉ service'.toList →
          (app', service') ≠ (app, service) →
          ∀ r' ∈ ((ofService app' service').behindAll bases').routes, ¬r'.rule.Admits path := by
  obtain ⟨r, m, hr, hm, hprefixes, hholds⟩ := exists_route_ofService app service bases
  refine ⟨r, m, hr, hm, hholds, ?_⟩
  intro path hpath
  have hbelow := isPrefix_of_admits hholds hpath
  refine ⟨hbelow, Middleware.stripped?_of_isPrefix hprefixes hbelow, ?_⟩
  intro app' service' bases' hservice hservice' hne r' hr' hpath'
  obtain ⟨own, -, hown, -, -, hholds'⟩ := exists_route_ofService app' service' bases'
  obtain rfl : r' = own := by simpa [hown] using hr'
  -- the path is below both services, so it is read as either of them
  have hread := serviceOfPath?_of_isPrefix hservice hbelow
  have hread' := serviceOfPath?_of_isPrefix hservice' (isPrefix_of_admits hholds' hpath')
  rw [hread, Option.some_inj, Prod.mk.injEq] at hread'
  apply hne
  rw [Prod.mk.injEq]
  exact ⟨(AppName.ext_iff.2 hread'.1).symm, hread'.2.symm⟩

def sharedBase : IngressRoute :=
  .ofExisting ["websecure"]
    (.or (.matcher "PathPrefix" ["/master/db2/"]) (.matcher "Host" ["preview.example.com"]))
    ["auth"] none

theorem defaultRoutes_unambiguous_behind_sharedBase :
    ('/' ∉ "db".toList ∧ '/' ∉ "db2".toList ∧
      (AppName.master, "db2") ≠ (AppName.master, "db")) ∧
    ∃ r m, ((ofService .master "db").behindAll [sharedBase]).routes = [r] ∧
      [m] <:+ r.middlewares ∧ r.rule.Admits "/master/db/2" ∧
      m.stripped? "/master/db/2" = some "/master/db/" ∧
      ∀ r' ∈ ((ofService .master "db2").behindAll [sharedBase]).routes,
        ¬r'.rule.Admits "/master/db/2" := by
  have hdb : '/' ∉ "db".toList := by decide
  have hdb2 : '/' ∉ "db2".toList := by decide
  have hne : (AppName.master, "db2") ≠ (AppName.master, "db") := by decide
  obtain ⟨r, m, hr, hm, -, hpath⟩ := defaultRoutes_unambiguous .master "db" [sharedBase]
  have hadmits : r.rule.Admits "/master/db/2" := by
    obtain rfl : _ = r := (List.cons.inj hr).1
    exact ⟨fun _ _ => true, by decide +kernel⟩
  obtain ⟨-, hstripped, hother⟩ := hpath _ hadmits
  exact ⟨⟨hdb, hdb2, hne⟩, r, m, hr, hm, hadmits, hstripped,
    hother .master "db2" [sharedBase] hdb hdb2 hne⟩

end IngressRoute

end PreviewApps
