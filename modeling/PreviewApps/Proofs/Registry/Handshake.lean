import PreviewApps.Proofs.Registry.Challenge
import PreviewApps.Proofs.Registry.Exchange
import PreviewApps.Proofs.Registry.ImageReference

/-!
The handshake with a registry. An image resolves to a digest exactly if it carries one, or the first
question is answered with it, or a token is asked for and the question that shows it is.
-/

namespace PreviewApps.Registry

def manifestQuestion (timeout : Int) (r : ImageReference) (token : Option Json) : Request where
  method := .head
  url := "https://" ++ r.apiHost ++ "/v2/" ++ r.repository ++ "/manifests/" ++ r.tag
  headers := ("Accept", manifestMediaTypes) ::
    (token.map fun t => ("Authorization", "Bearer " ++ t.shown)).toList
  params := []
  auth := none
  timeout

/-- The question for a token, with the parameters of the challenge. Without a scope among them it is
for pulling from the repository. -/
def tokenQuestion (timeout : Int) (r : ImageReference) (auth : Option Credentials) (realm : String)
    (rest : List (String × String)) : Request where
  method := .get
  url := realm
  headers := []
  params := if (rest.lookup "scope").isSome then rest
    else rest ++ [("scope", "repository:" ++ r.repository ++ ":pull")]
  auth
  timeout

structure Response.Serves (a : Response) (digest : String) : Prop where
  status : a.status = 200
  header : a.headers.lookup "Docker-Content-Digest" = some digest
  ne_empty : digest ≠ ""

/-- The token is the member `token`, or `access_token` if that one is as good as missing. -/
structure Response.Issues (a : Response) (token : Json) : Prop where
  status : a.status = 200
  object : ∃ ms, a.body = .ok (.obj ms) ∧ (token = (Json.obj ms).get "token" ∨
    ((Json.obj ms).get "token").truthy = false ∧ token = (Json.obj ms).get "access_token")
  truthy : token.truthy = true

section

variable {σ : Type}

/-- How a digest is answered for a reference that has none, with the requests until then. -/
inductive Answered (c : Client) (answer : Request → σ → Outcome × σ) (r : ImageReference) (s : σ)
    (digest : String) : List Request → Prop
  | direct {first : Response} {s₁ : σ} :
    answer (manifestQuestion c.timeout r none) s = (.response first, s₁) →
    first.Serves digest →
    Answered c answer r s digest [manifestQuestion c.timeout r none]
  | challenged {first second a : Response} {s₁ s₂ s₃ : σ} {challenge realm : String}
      {rest : List (String × String)} {token : Json} :
    answer (manifestQuestion c.timeout r none) s = (.response first, s₁) →
    first.status = 401 → first.headers.lookup "WWW-Authenticate" = some challenge →
    Challenge.Asks challenge realm rest →
    answer (tokenQuestion c.timeout r (c.credentials.lookup r.registry) realm rest) s₁ =
      (.response a, s₂) →
    a.Issues token →
    answer (manifestQuestion c.timeout r (some token)) s₂ = (.response second, s₃) →
    second.Serves digest →
    Answered c answer r s digest [manifestQuestion c.timeout r none,
      tokenQuestion c.timeout r (c.credentials.lookup r.registry) realm rest,
      manifestQuestion c.timeout r (some token)]

namespace Client

open Exchange

def issueOf (r : ImageReference) (a : Response) : Exchange Json :=
  if a.status = 200 then
    match a.body with
    | .error text => throw (.requestFailed text)
    | .ok body => tokenOf r body
  else throw (.tokenRefused r.repository a.status)

variable {answer : Request → σ → Outcome × σ} {s s' : σ} {qs : List Request}
  {c : Client} {image : String} {r : ImageReference}

theorem gives_request_bind_iff {α : Type} {q : Request} {f : Response → Exchange α} {b : α} :
    Gives answer (c.request image r q >>= f) s b qs s' ↔ ∃ a s₁ after,
      answer q s = (.response a, s₁) ∧ Gives answer (f a) s₁ b after s' ∧ qs = q :: after := by
  change Gives answer (send q fun o => (c.expectResponse image r o).bind f) s b qs s' ↔ _
  rw [gives_send_iff]
  constructor
  · rintro ⟨after, rfl, h⟩
    cases ho : (answer q s).1 with
    | response a =>
      rw [ho] at h
      exact ⟨a, _, after, Prod.ext ho rfl, h, rfl⟩
    | _ =>
      rw [ho] at h
      exact absurd h not_gives_throw
  · rintro ⟨a, s₁, after, ho, h, rfl⟩
    refine ⟨after, rfl, ?_⟩
    rw [ho]
    exact h

theorem gives_digestOf_iff {a : Response} {digest : String} :
    Gives answer (digestOf image a) s digest qs s' ↔ a.Serves digest ∧ qs = [] ∧ s' = s := by
  rw [digestOf]
  split
  · next h404 =>
    refine iff_of_false not_gives_throw fun h => ?_
    rw [h.1.status] at h404
    exact absurd h404 (by decide)
  · split
    · next h200 =>
      split
      · next hheader =>
        refine iff_of_false not_gives_throw fun h => ?_
        rw [h.1.header] at hheader
        cases hheader
      · next hheader =>
        refine iff_of_false not_gives_throw fun h => h.1.ne_empty ?_
        exact Option.some.inj (h.1.header.symm.trans hheader)
      · next found hne hheader =>
        rw [gives_pure_iff]
        constructor
        · rintro ⟨rfl, hend⟩
          exact ⟨⟨h200, hheader, hne⟩, hend⟩
        · rintro ⟨h, hend⟩
          exact ⟨Option.some.inj (h.header.symm.trans hheader), hend⟩
    · next h200 => exact iff_of_false not_gives_throw fun h => h200 h.1.status

theorem gives_tokenOf_iff {body token : Json} :
    Gives answer (tokenOf r body) s token qs s' ↔
      ((∃ ms, body = .obj ms) ∧ token.truthy = true ∧ (token = body.get "token" ∨
        (body.get "token").truthy = false ∧ token = body.get "access_token")) ∧
      qs = [] ∧ s' = s := by
  rw [tokenOf]
  split
  · next hnone =>
    refine iff_of_false not_gives_throw ?_
    rintro ⟨⟨⟨ms, rfl⟩, -⟩, -⟩
    cases hnone
  · next hobject =>
    have hobject : ∃ ms, body = .obj ms := by
      cases body <;> simp_all [Json.obj?]
    split
    · next htoken =>
      rw [gives_pure_iff]
      constructor
      · rintro ⟨rfl, hend⟩
        exact ⟨⟨hobject, htoken, .inl rfl⟩, hend⟩
      · rintro ⟨⟨-, -, rfl | ⟨hfalse, -⟩⟩, hend⟩
        · exact ⟨rfl, hend⟩
        · rw [htoken] at hfalse
          cases hfalse
    · next htoken =>
      split
      · next haccess =>
        rw [gives_pure_iff]
        constructor
        · rintro ⟨rfl, hend⟩
          exact ⟨⟨hobject, haccess, .inr ⟨Bool.eq_false_iff.2 htoken, rfl⟩⟩, hend⟩
        -- a token as good as missing is not the one that is given
        · rintro ⟨⟨-, htruthy, rfl | ⟨-, rfl⟩⟩, hend⟩
          · exact absurd htruthy htoken
          · exact ⟨rfl, hend⟩
      · next haccess =>
        refine iff_of_false not_gives_throw ?_
        rintro ⟨⟨-, htruthy, rfl | ⟨-, rfl⟩⟩, -⟩
        · exact htoken htruthy
        · exact haccess htruthy

theorem gives_issueOf_iff {a : Response} {token : Json} :
    Gives answer (issueOf r a) s token qs s' ↔ a.Issues token ∧ qs = [] ∧ s' = s := by
  rw [issueOf]
  split
  · next h200 =>
    split
    · next hbody =>
      refine iff_of_false not_gives_throw fun h => ?_
      obtain ⟨ms, hobject, -⟩ := h.1.object
      rw [hobject] at hbody
      cases hbody
    · next body hbody =>
      rw [gives_tokenOf_iff]
      refine and_congr_left fun _ => ?_
      constructor
      · rintro ⟨⟨ms, rfl⟩, htruthy, hnamed⟩
        exact ⟨h200, ⟨ms, hbody, hnamed⟩, htruthy⟩
      · rintro ⟨-, ⟨ms, hobject, hnamed⟩, htruthy⟩
        obtain rfl := Except.ok.inj (hbody.symm.trans hobject)
        exact ⟨⟨ms, rfl⟩, htruthy, hnamed⟩
  · next h200 => exact iff_of_false not_gives_throw fun h => h200 h.1.status

theorem gives_fetchToken_iff {challenge : String} {token : Json} :
    Gives answer (c.fetchToken image r challenge) s token qs s' ↔
      ∃ realm rest a, Challenge.Asks challenge realm rest ∧
        answer (tokenQuestion c.timeout r (c.credentials.lookup r.registry) realm rest) s =
          (.response a, s') ∧ a.Issues token ∧
        qs = [tokenQuestion c.timeout r (c.credentials.lookup r.registry) realm rest] := by
  simp only [Challenge.asks_iff]
  rw [fetchToken]
  split
  · next hbearer =>
    simp only []
    split
    · next hrealm =>
      refine iff_of_false not_gives_throw ?_
      rintro ⟨realm, rest, a, ⟨-, -, hlookup, -⟩, -⟩
      rw [hlookup] at hrealm
      cases hrealm
    · next hrealm =>
      refine iff_of_false not_gives_throw ?_
      rintro ⟨realm, rest, a, ⟨-, hne, hlookup, -⟩, -⟩
      exact hne (Option.some.inj (hlookup.symm.trans hrealm))
    · next realm hne hrealm =>
      rw [gives_request_bind_iff]
      constructor
      · rintro ⟨a, s₁, _, hanswer, hread, rfl⟩
        obtain ⟨hissues, rfl, rfl⟩ := gives_issueOf_iff.1 hread
        exact ⟨realm, _, a, ⟨hbearer, hne, hrealm, rfl⟩, hanswer, hissues, rfl⟩
      · rintro ⟨realm', _, a, ⟨-, -, hlookup, rfl⟩, hanswer, hissues, rfl⟩
        obtain rfl := Option.some.inj (hrealm.symm.trans hlookup)
        exact ⟨a, s', [], hanswer, gives_issueOf_iff.2 ⟨hissues, rfl, rfl⟩, rfl⟩
  · next hbearer =>
    refine iff_of_false not_gives_throw ?_
    rintro ⟨realm, rest, a, ⟨hasked, -⟩, -⟩
    exact hbearer hasked

theorem gives_lookup_iff {q : Request} {digest : String} :
    Gives answer (c.request image r q >>= digestOf image) s digest qs s' ↔
      ∃ a, answer q s = (.response a, s') ∧ a.Serves digest ∧ qs = [q] := by
  rw [gives_request_bind_iff]
  constructor
  · rintro ⟨a, s₁, _, ha, hdigest, rfl⟩
    obtain ⟨hserves, rfl, rfl⟩ := gives_digestOf_iff.1 hdigest
    exact ⟨a, ha, hserves, rfl⟩
  · rintro ⟨a, ha, hserves, rfl⟩
    exact ⟨a, s', [], ha, gives_digestOf_iff.2 ⟨hserves, rfl, rfl⟩, rfl⟩

theorem exists_header_of_asks {a : Response} {realm : String} {rest : List (String × String)}
    (h : Challenge.Asks ((a.headers.lookup "WWW-Authenticate").getD "") realm rest) :
    ∃ challenge, a.headers.lookup "WWW-Authenticate" = some challenge ∧
      Challenge.Asks challenge realm rest := by
  cases hheader : a.headers.lookup "WWW-Authenticate" with
  | none =>
    rw [hheader] at h
    exact absurd h.bearer Challenge.not_namesBearer_empty
  | some challenge =>
    rw [hheader] at h
    exact ⟨challenge, rfl, h⟩

theorem resolve_of_open (hparse : ImageReference.parse? image = some r)
    (hopen : r.digest = none) :
    c.resolve image = c.request image r (manifestQuestion c.timeout r none) >>= fun first =>
      if first.status = 401 then
        c.fetchToken image r ((first.headers.lookup "WWW-Authenticate").getD "") >>= fun token =>
          c.request image r (manifestQuestion c.timeout r (some token)) >>= digestOf image
      else digestOf image first := by
  simp only [resolve, hparse, hopen]
  rfl

theorem gives_resolve_of_open {digest : String} (hparse : ImageReference.parse? image = some r)
    (hopen : r.digest = none) :
    (∃ s', Gives answer (c.resolve image) s digest qs s') ↔ Answered c answer r s digest qs := by
  simp only [resolve_of_open hparse hopen, gives_request_bind_iff]
  constructor
  · rintro ⟨s', first, s₁, _, hfirst, hrest, rfl⟩
    split at hrest
    · next h401 =>
      obtain ⟨token, _, s₂, _, htoken, hlookup, rfl⟩ := gives_bind_iff.1 hrest
      obtain ⟨realm, rest, a, hasks, ha, hissues, rfl⟩ := gives_fetchToken_iff.1 htoken
      obtain ⟨second, hsecond, hserves, rfl⟩ := gives_lookup_iff.1 hlookup
      obtain ⟨challenge, hheader, hasks⟩ := exists_header_of_asks hasks
      exact .challenged hfirst h401 hheader hasks ha hissues hsecond hserves
    · obtain ⟨hserves, rfl, rfl⟩ := gives_digestOf_iff.1 hrest
      exact .direct hfirst hserves
  · intro h
    cases h with
    | @direct first s₁ hfirst hserves =>
      -- what serves the digest has status 200, so no token is asked for
      have hnot : first.status ≠ 401 := by
        rw [hserves.status]
        decide
      refine ⟨s₁, first, s₁, [], hfirst, ?_, rfl⟩
      rw [if_neg hnot]
      exact gives_digestOf_iff.2 ⟨hserves, rfl, rfl⟩
    | @challenged first second a s₁ s₂ s₃ challenge realm rest token hfirst h401 hheader hasks ha
        hissues hsecond hserves =>
      refine ⟨s₃, first, s₁, _, hfirst, ?_, rfl⟩
      rw [if_pos h401, hheader, Option.getD_some, gives_bind_iff]
      exact ⟨token, _, s₂, _, gives_fetchToken_iff.2 ⟨realm, rest, a, hasks, ha, hissues, rfl⟩,
        gives_lookup_iff.2 ⟨second, hsecond, hserves, rfl⟩, rfl⟩

theorem run_resolve_eq_ok_iff {digest : String} :
    (c.resolve image).run answer s = (.ok digest, qs) ↔
      ImageReference.Pinned image digest ∧ qs = [] ∨
        ∃ r, ImageReference.parse? image = some r ∧ r.digest = none ∧
          Answered c answer r s digest qs := by
  rw [run_eq_ok_iff, ImageReference.pinned_iff]
  cases hparse : ImageReference.parse? image with
  | none =>
    have hresolve : c.resolve image = .throw .emptyReference := by
      simp only [resolve, hparse]
    simp [hresolve, not_gives_throw]
  | some r =>
    cases hdigest : r.digest with
    | none => simp [gives_resolve_of_open hparse hdigest, hdigest]
    | some found =>
      have hresolve : c.resolve image = pure found := by
        simp only [resolve, hparse, hdigest]
      simp [hresolve, gives_pure_iff, hdigest, eq_comm]

end Client

end

end PreviewApps.Registry
