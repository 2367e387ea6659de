import PreviewApps.Json.Shown
import PreviewApps.Registry.Challenge
import PreviewApps.Registry.ImageReference
import PreviewApps.Settings.Credentials
import PreviewApps.Strategy

/-!
Resolving an image to the digest of its manifest: a first request, then, if the registry asks for
it, a token and a second request with that token.
-/

namespace PreviewApps.Registry

inductive Method
  | head
  | get
  deriving DecidableEq

structure Request where
  method : Method
  url : String
  headers : List (String × String)
  params : List (String × String)
  auth : Option Credentials
  timeout : Int
  deriving DecidableEq

/-- Headers are under the names that they are looked up by, in whatever case they were sent. A body
that is not JSON is given by the reader's complaint. -/
structure Response where
  status : Int
  headers : List (String × String)
  body : Except String Json

inductive Outcome
  | response (r : Response)
  | timedOut
  | unreachable
  | failed (text : String)

inductive Error
  | emptyReference
  | timeout (seconds : Int) (image : String)
  | unreachable (host : String)
  | requestFailed (text : String)
  | notFound (image : String)
  | refused (status : Int) (image : String)
  | noDigest (image : String)
  | unsupportedChallenge (host : String)
  | noRealm (host : String)
  | tokenRefused (repository : String) (status : Int)
  | malformedToken
  | noToken (repository : String)

def Error.message : Error → String
  | emptyReference => "Image reference must not be empty"
  | timeout seconds image => s!"Registry timeout after {seconds}s for {image}"
  | unreachable host => "Cannot connect to registry " ++ host
  | requestFailed text => "Registry request failed: " ++ text
  | notFound image => "Image not found: " ++ image
  | refused status image => s!"Registry answered {status} for {image}"
  | noDigest image => "Registry did not return a digest for " ++ image
  | unsupportedChallenge host => "Unsupported authentication challenge from " ++ host
  | noRealm host => "Authentication challenge without realm from " ++ host
  | tokenRefused repository status => s!"Token request for {repository} failed with {status}"
  | malformedToken => "The token response is not an object"
  | noToken repository => "No token issued for " ++ repository

/-- Whether a failure is reported as one of the registry. Not so where a token is looked for in a
body that is not an object. -/
def Error.isReported : Error → Bool
  | malformedToken => false
  | _ => true

/-- A conversation: requests, each followed by what depends on its outcome. -/
inductive Exchange (α : Type)
  | done (result : Except Error α)
  | send (request : Request) (next : Outcome → Exchange α)

namespace Exchange

def bind : Exchange α → (α → Exchange β) → Exchange β
  | done (.ok a), f => f a
  | done (.error e), _ => done (.error e)
  | send q next, f => send q fun o => (next o).bind f

instance : Monad Exchange where
  pure a := done (.ok a)
  bind := bind

def throw (e : Error) : Exchange α := done (.error e)

/-- The result against outcomes that may depend on a state, with the requests in order. -/
def run (answer : Request → σ → Outcome × σ) : Exchange α → σ → Except Error α × List Request
  | done r, _ => (r, [])
  | send q next, s =>
    let (o, s) := answer q s
    let (r, qs) := run answer (next o) s
    (r, q :: qs)

end Exchange

structure Client where
  credentials : RegistryCredentials
  timeout : Int

def manifestMediaTypes : String :=
  "application/vnd.docker.distribution.manifest.list.v2+json, " ++
    "application/vnd.docker.distribution.manifest.v2+json, " ++
    "application/vnd.oci.image.index.v1+json, " ++
    "application/vnd.oci.image.manifest.v1+json"

def manifestUrl (r : ImageReference) : String :=
  "https://" ++ r.apiHost ++ "/v2/" ++ r.repository ++ "/manifests/" ++ r.tag

namespace Client

variable (c : Client) (image : String) (r : ImageReference)

def expectResponse : Outcome → Exchange Response
  | .response a => pure a
  | .timedOut => .throw (.timeout c.timeout image)
  | .unreachable => .throw (.unreachable r.apiHost)
  | .failed text => .throw (.requestFailed text)

def request (q : Request) : Exchange Response :=
  .send q (c.expectResponse image r)

def headRequest (authorization : List (String × String)) : Request :=
  { method := .head
    url := manifestUrl r
    headers := ("Accept", manifestMediaTypes) :: authorization
    params := []
    auth := none
    timeout := c.timeout }

def tokenRequest (realm : String) (params : List (String × String)) : Request :=
  { method := .get
    url := realm
    headers := []
    params := Assoc.insertNew "scope" ("repository:" ++ r.repository ++ ":pull") params
    auth := c.credentials.lookup r.registry
    timeout := c.timeout }

def tokenOf (body : Json) : Exchange Json :=
  if body.obj?.isNone then .throw .malformedToken
  else if (body.get "token").truthy then pure (body.get "token")
  else if (body.get "access_token").truthy then pure (body.get "access_token")
  else .throw (.noToken r.repository)

def fetchToken (challenge : String) : Exchange Json := do
  if Challenge.isBearer challenge then
    let params := Challenge.params challenge
    match params.lookup "realm" with
    | none | some "" => .throw (.noRealm r.apiHost)
    | some realm => do
      let answer ← c.request image r (c.tokenRequest r realm (Assoc.erase "realm" params))
      if answer.status = 200 then
        match answer.body with
        | .error text => .throw (.requestFailed text)
        | .ok body => tokenOf r body
      else .throw (.tokenRefused r.repository answer.status)
  else .throw (.unsupportedChallenge r.apiHost)

def digestOf (answer : Response) : Exchange String :=
  if answer.status = 404 then .throw (.notFound image)
  else if answer.status = 200 then
    match answer.headers.lookup "Docker-Content-Digest" with
    | none | some "" => .throw (.noDigest image)
    | some digest => pure digest
  else .throw (.refused answer.status image)

/-- A digest in the reference itself is the answer, without a request. -/
def resolve (image : String) : Exchange String :=
  match ImageReference.parse? image with
  | none => .throw .emptyReference
  | some r => match r.digest with
    | some digest => pure digest
    | none => do
      let first ← c.request image r (c.headRequest r [])
      if first.status = 401 then
        let challenge := (first.headers.lookup "WWW-Authenticate").getD ""
        let token ← c.fetchToken image r challenge
        let authorization := [("Authorization", "Bearer " ++ token.shown)]
        let second ← c.request image r (c.headRequest r authorization)
        digestOf image second
      else digestOf image first

end Client

end PreviewApps.Registry
