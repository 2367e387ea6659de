import PreviewApps.Proofs.Registry.Handshake

/-!
Every course that resolving an image can take, whatever the registry answers. The handshake is kept
in all of them, and but for one they end with a digest or a failure of the registry.
-/

namespace PreviewApps.Registry

def Reported : Except Error String → Prop
  | .ok digest => digest ≠ ""
  | .error e => e.isReported = true

instance : DecidablePred Reported
  | .ok digest => inferInstanceAs (Decidable (digest ≠ ""))
  | .error e => inferInstanceAs (Decidable (e.isReported = true))

def Outcome.IsNoObject (o : Outcome) : Prop :=
  ∃ a body, o = .response a ∧ a.status = 200 ∧ a.body = .ok body ∧ body.obj? = none

def Outcome.Denies (o : Outcome) : Prop := ∃ a, o = .response a ∧ a.status = 401

structure Concludes (o : Outcome) (result : Except Error String) : Prop where
  reported : Reported result
  failed : o.Denies → ∃ e, result = .error e

/-- The courses with their results, each question with its outcome. -/
inductive Course (c : Client) (image : String) :
    Except Error String → List (Request × Outcome) → Prop
  | silent {result : Except Error String} : Reported result → Course c image result []
  | asked {r : ImageReference} {o : Outcome} {result : Except Error String} :
    ImageReference.parse? image = some r → Concludes o result →
    Course c image result [(manifestQuestion c.timeout r none, o)]
  | refused {r : ImageReference} {first : Response} {realm : String}
      {rest : List (String × String)} {o : Outcome} {e : Error} :
    ImageReference.parse? image = some r → first.status = 401 →
    (e.isReported = true ↔ ¬o.IsNoObject) →
    Course c image (.error e) [(manifestQuestion c.timeout r none, .response first),
      (tokenQuestion c.timeout r (c.credentials.lookup r.registry) realm rest, o)]
  | admitted {r : ImageReference} {first a : Response} {realm : String}
      {rest : List (String × String)} {token : Json} {o : Outcome}
      {result : Except Error String} :
    ImageReference.parse? image = some r → first.status = 401 → a.Issues token →
    Concludes o result →
    Course c image result [(manifestQuestion c.timeout r none, .response first),
      (tokenQuestion c.timeout r (c.credentials.lookup r.registry) realm rest, .response a),
      (manifestQuestion c.timeout r (some token), o)]

theorem Response.Issues.not_isNoObject {a : Response} {token : Json} (h : a.Issues token) :
    ¬(Outcome.response a).IsNoObject := by
  rintro ⟨_, body, ⟨⟩, -, hbody, hnone⟩
  obtain ⟨ms, hobject, -⟩ := h.object
  obtain rfl := Except.ok.inj (hbody.symm.trans hobject)
  cases hnone

namespace Client

open Exchange

variable {α : Type} {c : Client} {image : String} {r : ImageReference}
  {past : List (Request × Outcome)}

theorem ensures_request_bind {P : Except Error α → List (Request × Outcome) → Prop} {q : Request}
    {f : Response → Exchange α} (hok : ∀ a, (f a).Ensures P (past ++ [(q, .response a)]))
    (herror : ∀ o e, (∀ a, o ≠ .response a) → e.isReported = true →
      P (.error e) (past ++ [(q, o)])) : (c.request image r q >>= f).Ensures P past := by
  refine Ensures.bind (.send fun o => ?_)
  cases o with
  | response a => exact .done (hok a)
  | timedOut => exact .done (herror _ _ (fun a h => by cases h) rfl)
  | unreachable => exact .done (herror _ _ (fun a h => by cases h) rfl)
  | failed text => exact .done (herror _ _ (fun a h => by cases h) rfl)

theorem ensures_digestOf {P : Except Error String → List (Request × Outcome) → Prop} {a : Response}
    (h : ∀ result, Concludes (.response a) result → P result past) :
    (digestOf image a).Ensures P past := by
  have herror : ∀ e : Error, e.isReported = true → Concludes (.response a) (.error e) :=
    fun e he => ⟨he, fun _ => ⟨e, rfl⟩⟩
  rw [digestOf]
  split
  · exact .done (h _ (herror _ rfl))
  · split
    · next h200 =>
      split
      · exact .done (h _ (herror _ rfl))
      · exact .done (h _ (herror _ rfl))
      · next digest hne hheader =>
        refine .done (h _ ⟨hne, ?_⟩)
        rintro ⟨_, ⟨⟩, h401⟩
        rw [h200] at h401
        exact absurd h401 (by decide)
    · exact .done (h _ (herror _ rfl))

theorem ensures_lookup {P : Except Error String → List (Request × Outcome) → Prop} {q : Request}
    (h : ∀ o result, Concludes o result → P result (past ++ [(q, o)])) :
    (c.request image r q >>= digestOf image).Ensures P past := by
  refine ensures_request_bind (fun a => ensures_digestOf (h _)) fun o e hnone he => ?_
  exact h o (.error e) ⟨he, fun _ => ⟨e, rfl⟩⟩

theorem exists_obj_of_not_isNone {body : Json} (h : ¬body.obj?.isNone = true) :
    ∃ ms, body = .obj ms := by
  cases body with
  | obj ms => exact ⟨ms, rfl⟩
  | _ => exact absurd rfl h

theorem ensures_issueOf {P : Except Error Json → List (Request × Outcome) → Prop} {a : Response}
    (hok : ∀ token, a.Issues token → P (.ok token) past)
    (herror : ∀ e, (e.isReported = true ↔ ¬(Outcome.response a).IsNoObject) → P (.error e) past) :
    (issueOf r a).Ensures P past := by
  have hreported (e : Error) (he : e.isReported = true)
      (hobject : ¬(Outcome.response a).IsNoObject) : Ensures P (.throw e) past :=
    .done (herror e (iff_of_true he hobject))
  rw [issueOf]
  split
  · next h200 =>
    split
    · next hbody =>
      refine hreported _ rfl ?_
      rintro ⟨_, body, ⟨⟩, -, hjson, -⟩
      rw [hjson] at hbody
      cases hbody
    · next body hbody =>
      rw [tokenOf]
      split
      · next hnone =>
        refine .done (herror .malformedToken (iff_of_false (by decide) fun h => h ?_))
        exact ⟨a, body, rfl, h200, hbody, Option.isNone_iff_eq_none.1 hnone⟩
      · next hsome =>
        obtain ⟨ms, rfl⟩ := exists_obj_of_not_isNone hsome
        split
        · next htoken => exact .done (hok _ ⟨h200, ⟨ms, hbody, .inl rfl⟩, htoken⟩)
        · next htoken =>
          have hfalse := Bool.eq_false_iff.2 htoken
          split
          · next haccess => exact .done (hok _ ⟨h200, ⟨ms, hbody, .inr ⟨hfalse, rfl⟩⟩, haccess⟩)
          · refine hreported _ rfl ?_
            rintro ⟨_, _, ⟨⟩, -, hjson, hnone⟩
            obtain rfl := Except.ok.inj (hbody.symm.trans hjson)
            cases hnone
  · next h200 =>
    refine hreported _ rfl ?_
    rintro ⟨_, _, ⟨⟩, hstatus, -⟩
    exact h200 hstatus

theorem ensures_fetchToken {P : Except Error α → List (Request × Outcome) → Prop}
    {challenge : String} {f : Json → Exchange α}
    (hsilent : ∀ e, e.isReported = true → P (.error e) past)
    (herror : ∀ realm rest o e, (e.isReported = true ↔ ¬o.IsNoObject) → P (.error e) (past ++
      [(tokenQuestion c.timeout r (c.credentials.lookup r.registry) realm rest, o)]))
    (hok : ∀ realm rest a token, a.Issues token → (f token).Ensures P (past ++
      [(tokenQuestion c.timeout r (c.credentials.lookup r.registry) realm rest, .response a)])) :
    (c.fetchToken image r challenge >>= f).Ensures P past := by
  apply Ensures.bind
  rw [fetchToken]
  split
  · simp only []
    split
    · exact .done (hsilent _ rfl)
    · exact .done (hsilent _ rfl)
    · refine ensures_request_bind (fun a => ?_) fun o e hnone he => ?_
      · exact ensures_issueOf (hok _ _ a) (herror _ _ _)
      · refine herror _ _ o e (iff_of_true he ?_)
        rintro ⟨a, -, ho, -⟩
        exact hnone a ho
  · exact .done (hsilent _ rfl)

theorem ensures_resolve : (c.resolve image).Ensures (Course c image) [] := by
  cases hparse : ImageReference.parse? image with
  | none =>
    have hresolve : c.resolve image = .throw .emptyReference := by
      simp only [resolve, hparse]
    rw [hresolve]
    exact .done (.silent rfl)
  | some r =>
    cases hdigest : r.digest with
    | some found =>
      have hresolve : c.resolve image = pure found := by
        simp only [resolve, hparse, hdigest]
      obtain ⟨-, -, -, hne⟩ := ImageReference.pinned_iff.2 ⟨r, hparse, hdigest⟩
      rw [hresolve]
      exact .done (.silent hne)
    | none =>
      rw [resolve_of_open hparse hdigest]
      refine ensures_request_bind (fun first => ?_) fun o e hnone he => ?_
      · split
        · next h401 =>
          refine ensures_fetchToken (fun e he => ?_) (fun realm rest o e he => ?_)
            fun realm rest a token hissues => ensures_lookup fun o result hend => ?_
          · exact .asked hparse ⟨he, fun _ => ⟨e, rfl⟩⟩
          · exact .refused hparse h401 he
          · exact .admitted hparse h401 hissues hend
        · exact ensures_digestOf fun result hend => .asked hparse hend
      · exact .asked hparse ⟨he, fun _ => ⟨e, rfl⟩⟩

theorem course_resolve {σ : Type} (c : Client) (image : String)
    (answer : Request → σ → Outcome × σ) (s : σ) :
    Course c image ((c.resolve image).run answer s).1 ((c.resolve image).conversation answer s) :=
  run_of_ensures ensures_resolve answer s

end Client

/-- How the questions of a handshake follow each other: one for a token only comes after a denial,
and after it no denial is accepted. -/
structure Sequenced (result : Except Error String) (t : List (Request × Outcome)) : Prop where
  methods : t.map (·.1.method) <+: [.head, .get, .head]
  denied : t.IsChain fun x y => y.1.method = .get → x.2.Denies
  failed : ∀ x ∈ t.tail, x.2.Denies → ∃ e, result = .error e

theorem Response.Issues.not_denies {a : Response} {token : Json} (h : a.Issues token) :
    ¬(Outcome.response a).Denies := by
  rintro ⟨_, ⟨⟩, h401⟩
  rw [h.status] at h401
  exact absurd h401 (by decide)

theorem Course.sequenced {c : Client} {image : String} {result : Except Error String}
    {t : List (Request × Outcome)} (h : Course c image result t) : Sequenced result t := by
  cases h with
  | silent _ => exact ⟨⟨_, rfl⟩, .nil, by simp⟩
  | asked _ _ => exact ⟨⟨_, rfl⟩, .singleton _, by simp⟩
  | @refused r first realm rest o e _ h401 _ =>
    exact ⟨⟨_, rfl⟩, .cons_cons (fun _ => ⟨first, rfl, h401⟩) (.singleton _), fun _ _ _ => ⟨e, rfl⟩⟩
  | @admitted r first a realm rest token o result _ h401 hissues hend =>
    refine ⟨⟨[], rfl⟩, .cons_cons (fun _ => ⟨first, rfl, h401⟩) (.cons_cons ?_ (.singleton _)), ?_⟩
    · rintro ⟨⟩
    -- the token was issued with status 200, so a denial is one of the token itself
    · intro x hx hdenies
      rcases List.mem_pair.1 hx with rfl | rfl
      · exact absurd hdenies hissues.not_denies
      · exact hend.failed hdenies

theorem Course.reported_iff {c : Client} {image : String} {result : Except Error String}
    {t : List (Request × Outcome)} (h : Course c image result t) :
    Reported result ↔ ¬∃ x ∈ t, x.1.method = .get ∧ x.2.IsNoObject := by
  cases h with
  | silent hreported => simp [hreported]
  | asked _ hend => simp [hend.reported, manifestQuestion]
  | refused _ _ hreported => simpa [Reported, manifestQuestion, tokenQuestion] using hreported
  | admitted _ _ hissues hend =>
    simp [hend.reported, manifestQuestion, tokenQuestion, hissues.not_isNoObject]

section Results

def tokenServer (body : Json) (q : Request) (_ : Unit) : Outcome × Unit :=
  let answer : Response := match q.method, q.headers.lookup "Authorization" with
    | .get, _ => ⟨200, [], .ok body⟩
    | .head, none =>
      ⟨401, [("WWW-Authenticate", "Bearer realm=\"https://auth.example.com/token\"")], .ok .null⟩
    | .head, some _ => ⟨200, [("Docker-Content-Digest", "sha256:beef")], .ok .null⟩
  (.response answer, ())

variable {σ : Type} (c : Client) (image : String) (answer : Request → σ → Outcome × σ) (s : σ)

theorem resolve_follows_handshake :
    (∀ digest qs, (c.resolve image).run answer s = (.ok digest, qs) ↔
      ImageReference.Pinned image digest ∧ qs = [] ∨
        ∃ r, ImageReference.parse? image = some r ∧ r.digest = none ∧
          Answered c answer r s digest qs) ∧
    ((c.resolve image).run answer s).2 = ((c.resolve image).conversation answer s).map (·.1) ∧
    Sequenced ((c.resolve image).run answer s).1 ((c.resolve image).conversation answer s) :=
  ⟨fun _ _ => Client.run_resolve_eq_ok_iff, Exchange.snd_run _ s,
    (Client.course_resolve c image answer s).sequenced⟩

example : ((Client.resolve ⟨[], 30⟩ "ghcr.io/org/app:1.0").run
    (tokenServer (.obj [("token", .str "t0k3n")])) ()).1.toOption = some "sha256:beef" := by
  decide +kernel

/-- But for a token answer that is JSON and not an object, nothing but a digest or a failure of the
registry comes of it. -/
theorem resolve_reported_iff : Reported ((c.resolve image).run answer s).1 ↔
    ¬∃ x ∈ (c.resolve image).conversation answer s, x.1.method = .get ∧ x.2.IsNoObject :=
  (Client.course_resolve c image answer s).reported_iff

theorem resolve_reported_of_object :
    Reported ((Client.resolve ⟨[], 30⟩ "ghcr.io/org/app:1.0").run
      (tokenServer (.obj [("token", .str "t0k3n")])) ()).1 := by
  rw [resolve_reported_iff]
  rintro ⟨⟨q, o⟩, hmem, (hget : q.method = .get), a, body, ho, -, hbody, hnone⟩
  obtain ⟨_, rfl⟩ := Exchange.exists_answer_of_mem_conversation hmem
  simp only [tokenServer, hget] at ho
  obtain rfl := Outcome.response.inj ho
  obtain rfl := Except.ok.inj hbody
  cases hnone

theorem resolve_not_reported_of_array :
    ¬Reported ((Client.resolve ⟨[], 30⟩ "ghcr.io/org/app:1.0").run
      (tokenServer (.arr [.str "t0k3n"])) ()).1 := by
  decide +kernel

end Results

end PreviewApps.Registry
