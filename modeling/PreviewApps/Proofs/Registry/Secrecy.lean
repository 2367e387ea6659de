import PreviewApps.Proofs.Registry.Course

/-!
What credentials can do to the resolution of an image. They show in nothing but the basic
authentication of the question for a token, and only those for the registry of the image do.
-/

namespace PreviewApps.Registry

def Request.unsigned (q : Request) : Request :=
  match q.method with
  | .head => q
  | .get => { q with auth := none }

namespace Exchange

variable {α β σ σ' : Type}

def mapRequests (g : Request → Request) : Exchange α → Exchange α
  | done result => done result
  | send q next => send (g q) fun o => (next o).mapRequests g

theorem mapRequests_id (x : Exchange α) : x.mapRequests id = x := by
  induction x with
  | done result => rfl
  | send q next ih => exact congrArg (send q) (funext ih)

theorem mapRequests_bind (g : Request → Request) (x : Exchange α) (f : α → Exchange β) :
    (x >>= f).mapRequests g = x.mapRequests g >>= fun a => (f a).mapRequests g := by
  change (x.bind f).mapRequests g = (x.mapRequests g).bind _
  induction x with
  | done result =>
    cases result with
    | ok a => rfl
    | error e => rfl
  | send q next ih => exact congrArg (send (g q)) (funext ih)

/-- Two courses in which the questions are the same as long as the answers are, up to basic
authentication for a token, and in the end the result is. -/
structure Alike (x y : Except Error α × List (Request × Outcome)) : Prop where
  question : ∀ n, (x.2.take n).map (·.2) = (y.2.take n).map (·.2) →
    x.2[n]?.map (·.1.unsigned) = y.2[n]?.map (·.1.unsigned)
  result : x.2.map (·.2) = y.2.map (·.2) → x.1 = y.1

theorem Alike.cons {r r' : Except Error α} {t t' : List (Request × Outcome)} {q q' : Request}
    {o o' : Outcome} (hq : q.unsigned = q'.unsigned) (h : o = o' → Alike (r, t) (r', t')) :
    Alike (r, (q, o) :: t) (r', (q', o') :: t') where
  question n hanswers := by
    cases n with
    | zero => exact congrArg some hq
    | succ n =>
      obtain ⟨ho, hanswers⟩ := List.cons.inj hanswers
      exact (h ho).question n hanswers
  result hanswers := by
    obtain ⟨ho, hanswers⟩ := List.cons.inj hanswers
    exact (h ho).result hanswers

theorem alike_of_unsigned_eq {x y : Exchange α}
    (h : x.mapRequests .unsigned = y.mapRequests .unsigned) (answer : Request → σ → Outcome × σ)
    (answer' : Request → σ' → Outcome × σ') (s : σ) (s' : σ') :
    Alike ((x.run answer s).1, x.conversation answer s)
      ((y.run answer' s').1, y.conversation answer' s') := by
  -- the second exchange has the shape of the first, so it is taken apart along with it
  induction x generalizing y s s' with
  | done result =>
    cases y with
    | done result' =>
      obtain rfl := Exchange.done.inj h
      exact ⟨fun _ _ => rfl, fun _ => rfl⟩
    | send q' next' => cases h
  | send q next ih =>
    cases y with
    | done result' => cases h
    | send q' next' =>
      obtain ⟨hq, hnext⟩ := Exchange.send.inj h
      refine Alike.cons hq fun ho => ?_
      have hrest : (next (answer q s).1).mapRequests .unsigned =
          (next' (answer' q' s').1).mapRequests .unsigned := by
        rw [← ho]
        exact congrFun hnext _
      exact ih _ hrest _ _

end Exchange

namespace Client

variable {credentials credentials' : RegistryCredentials} {timeout : Int} {image : String}
  {r : ImageReference} {g : Request → Request}

theorem mapRequests_request {c : Client} {q : Request} :
    (c.request image r q).mapRequests g = c.request image r (g q) := by
  refine congrArg (Exchange.send (g q)) (funext fun o => ?_)
  cases o with
  | _ => rfl

theorem mapRequests_fetchToken {challenge : String} (h : ∀ realm params,
    g (tokenRequest ⟨credentials, timeout⟩ r realm params) =
      g (tokenRequest ⟨credentials', timeout⟩ r realm params)) :
    (fetchToken ⟨credentials, timeout⟩ image r challenge).mapRequests g =
      (fetchToken ⟨credentials', timeout⟩ image r challenge).mapRequests g := by
  rw [fetchToken, fetchToken]
  split
  · simp only []
    split
    · rfl
    · rfl
    · rw [Exchange.mapRequests_bind, Exchange.mapRequests_bind, mapRequests_request,
        mapRequests_request, h]
      rfl
  · rfl

theorem mapRequests_resolve (h : ∀ r, ImageReference.parse? image = some r → ∀ realm params,
    g (tokenRequest ⟨credentials, timeout⟩ r realm params) =
      g (tokenRequest ⟨credentials', timeout⟩ r realm params)) :
    (resolve ⟨credentials, timeout⟩ image).mapRequests g =
      (resolve ⟨credentials', timeout⟩ image).mapRequests g := by
  rw [resolve, resolve]
  split
  · rfl
  · next r hparse =>
    split
    · rfl
    · rw [Exchange.mapRequests_bind, Exchange.mapRequests_bind, mapRequests_request,
        mapRequests_request]
      refine congrArg (Exchange.bind _) (funext fun first => ?_)
      split
      · simp only []
        rw [Exchange.mapRequests_bind, Exchange.mapRequests_bind,
          mapRequests_fetchToken (h r hparse)]
        rfl
      · rfl

theorem unsigned_resolve : (resolve ⟨credentials, timeout⟩ image).mapRequests .unsigned =
    (resolve ⟨credentials', timeout⟩ image).mapRequests .unsigned :=
  mapRequests_resolve fun _ _ _ _ => rfl

theorem resolve_congr (h : ∀ r, ImageReference.parse? image = some r →
    credentials.lookup r.registry = credentials'.lookup r.registry) :
    resolve ⟨credentials, timeout⟩ image = resolve ⟨credentials', timeout⟩ image := by
  rw [← Exchange.mapRequests_id (resolve ⟨credentials, timeout⟩ image),
    ← Exchange.mapRequests_id (resolve ⟨credentials', timeout⟩ image)]
  refine mapRequests_resolve fun r hparse realm params => ?_
  simp only [id, tokenRequest, h r hparse]

end Client

/-- The questions for a token carry the credentials for the registry of the image, if there are any,
and no other question carries credentials. -/
structure Sealed (credentials : RegistryCredentials) (image : String)
    (t : List (Request × Outcome)) : Prop where
  manifest : ∀ x ∈ t, x.1.method = .head → x.1.auth = none
  token : ∀ x ∈ t, x.1.method = .get →
    ∃ r, ImageReference.parse? image = some r ∧ x.1.auth = credentials.lookup r.registry

theorem Course.isSealed {c : Client} {image : String} {result : Except Error String}
    {t : List (Request × Outcome)} (h : Course c image result t) :
    Sealed c.credentials image t := by
  cases h with
  | silent _ => exact ⟨by simp, by simp⟩
  | asked _ _ => exact ⟨by simp [manifestQuestion], by simp [manifestQuestion]⟩
  | refused hparse _ _ =>
    exact ⟨by simp [manifestQuestion, tokenQuestion],
      by simp [manifestQuestion, tokenQuestion, hparse]⟩
  | admitted hparse _ _ _ =>
    exact ⟨by simp [manifestQuestion, tokenQuestion],
      by simp [manifestQuestion, tokenQuestion, hparse]⟩

theorem credentials_reach_tokenAuth_only (credentials credentials' : RegistryCredentials)
    (timeout : Int) (image : String) :
    ((∀ r, ImageReference.parse? image = some r →
        credentials.lookup r.registry = credentials'.lookup r.registry) →
      ∀ {σ : Type} (answer : Request → σ → Outcome × σ) (s : σ),
        (Client.resolve ⟨credentials, timeout⟩ image).run answer s =
          (Client.resolve ⟨credentials', timeout⟩ image).run answer s) ∧
    (∀ {σ σ' : Type} (answer : Request → σ → Outcome × σ) (answer' : Request → σ' → Outcome × σ')
        (s : σ) (s' : σ'), Exchange.Alike
      (((Client.resolve ⟨credentials, timeout⟩ image).run answer s).1,
        (Client.resolve ⟨credentials, timeout⟩ image).conversation answer s)
      (((Client.resolve ⟨credentials', timeout⟩ image).run answer' s').1,
        (Client.resolve ⟨credentials', timeout⟩ image).conversation answer' s')) ∧
    ∀ {σ : Type} (answer : Request → σ → Outcome × σ) (s : σ),
      Sealed credentials image
        ((Client.resolve ⟨credentials, timeout⟩ image).conversation answer s) ∧
      Sequenced ((Client.resolve ⟨credentials, timeout⟩ image).run answer s).1
        ((Client.resolve ⟨credentials, timeout⟩ image).conversation answer s) := by
  refine ⟨fun hlookup σ answer s => ?_, fun answer answer' s s' => ?_, fun answer s => ?_⟩
  · rw [Client.resolve_congr hlookup]
  · exact Exchange.alike_of_unsigned_eq Client.unsigned_resolve answer answer' s s'
  · have hcourse := Client.course_resolve ⟨credentials, timeout⟩ image answer s
    exact ⟨hcourse.isSealed, hcourse.sequenced⟩

theorem credentials_of_other_registry_unused :
    (∀ r, ImageReference.parse? "ghcr.io/org/app:1.0" = some r →
      [("ghcr.io", Credentials.mk "ci" "s3cret")].lookup r.registry =
        [("quay.io", ⟨"me", "pa55"⟩), ("ghcr.io", ⟨"ci", "s3cret"⟩)].lookup r.registry) ∧
    (Client.resolve ⟨[("ghcr.io", ⟨"ci", "s3cret"⟩)], 30⟩ "ghcr.io/org/app:1.0").run
        (tokenServer (.obj [("token", .str "t0k3n")])) () =
      (Client.resolve ⟨[("quay.io", ⟨"me", "pa55"⟩), ("ghcr.io", ⟨"ci", "s3cret"⟩)], 30⟩
        "ghcr.io/org/app:1.0").run (tokenServer (.obj [("token", .str "t0k3n")])) () := by
  have hparsed : ImageReference.parse? "ghcr.io/org/app:1.0" =
      some ⟨"ghcr.io", "org/app", "1.0", none⟩ := by decide
  have hlookup : ∀ r, ImageReference.parse? "ghcr.io/org/app:1.0" = some r →
      [("ghcr.io", Credentials.mk "ci" "s3cret")].lookup r.registry =
        [("quay.io", ⟨"me", "pa55"⟩), ("ghcr.io", ⟨"ci", "s3cret"⟩)].lookup r.registry := by
    intro r hparse
    rw [hparsed] at hparse
    obtain rfl := Option.some.inj hparse
    rfl
  exact ⟨hlookup, (credentials_reach_tokenAuth_only _ _ 30 _).1 hlookup _ _⟩

end PreviewApps.Registry
