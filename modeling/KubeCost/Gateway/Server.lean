/-
# The gateway

`services/gateway/server.go`. A request comes with a bearer token. `authenticate` maps the
token to a tenant and perhaps a principal, puts them into the headers that the backends
trust in place of whatever the client sent there, and signs the request; `route`
picks the backend by method and path; `proxy` forwards.

`forward` is the way of a request through all three. Its spec lemma is `forward_eq_ok`: a
forwarded request is the authenticated one with the hop-by-hop headers removed.
-/
import KubeCost.Checks
import KubeCost.Gateway.Auth

namespace KubeCost
namespace Gateway

def principalHeader : String := "X-Kube-Cost-Principal-ID"
def authorizationHeader : String := "Authorization"
def gatewaySecretHeader : String := "X-Kube-Cost-Gateway-Secret"

inductive Backend
  | query
  | clusterRegistry
  | pricing
  | workflow
  | export
  | tenant
  | audit
  | identity
  | policy
  | integrations
deriving DecidableEq

/-- What `NewServer` takes from the configuration, but for the backends' URLs. A token that
is not in a map reads as the empty string. -/
structure Server where
  tokenTenants : String → String
  tokenPrincipals : String → String
  backendSecret : String
  signingKey : String
  gatewayIdentity : String

/-- The answer of `writeProblem`. -/
structure Problem where
  status : ℕ
  code : String
  detail : String
deriving DecidableEq

/-! ### Authentication -/

/-- The token of the `Authorization` header, if it has the form of a bearer token. -/
def bearerToken (r : Request) : Option String :=
  let auth := trimSpace (r.header.get authorizationHeader)
  if hasPrefix auth "Bearer " then some (trimSpace (trimPrefix auth "Bearer ")) else none

/-- `identityFromRequest`: the tenant and the principal of the token. -/
def identityFromRequest (s : Server) (r : Request) : Except Problem (String × String) :=
  match bearerToken r with
  | none => .error ⟨401, "unauthenticated", "Bearer token is required"⟩
  | some token =>
    if s.tokenTenants token = "" then .error ⟨403, "forbidden", "token is not mapped to a tenant"⟩
    else .ok (s.tokenTenants token, s.tokenPrincipals token)

/-- The headers with the identity in place of what the client sent. -/
def identityHeaders (s : Server) (tenantID principalID : String) (h : Header) : Header :=
  let h := ((((h.del tenantHeader).del principalHeader).del authorizationHeader).del
    gatewaySecretHeader).set tenantHeader tenantID
  let h := if principalID ≠ "" then h.set principalHeader principalID else h
  if s.backendSecret ≠ "" then h.set gatewaySecretHeader s.backendSecret else h

/-- The request with the identity, signed. -/
def identified (s : Server) (tenantID principalID : String) (now : Instant) (r : Request) : Request :=
  signRequest { r with header := identityHeaders s tenantID principalID r.header }
    s.gatewayIdentity s.signingKey now

/-- `authenticate`: the request that the next handler gets. -/
def authenticate (s : Server) (now : Instant) (r : Request) : Except Problem Request := do
  let (tenantID, principalID) ← identityFromRequest s r
  return identified s tenantID principalID now r

/-! ### Routing -/

/-- `recommendationAction`: the last segment of the path, but for a slash at the end. -/
def recommendationAction (path : String) : String :=
  let path := trimSuffix path "/"
  if '/' ∈ path.toList then String.ofList (path.toList.reverse.takeWhile (· ≠ '/')).reverse else ""

def isRecommendationRead (method path : String) : Bool :=
  method = "GET" && hasPrefix path "/api/v1/recommendations/"

def isRecommendationCommand (method path : String) : Bool :=
  if method ≠ "POST" || !hasPrefix path "/api/v1/recommendations/" then false
  else recommendationAction path ∈ ["approve", "reject", "suppress", "execute"]

/-- The switch of `route`; `none` is the answer 404. -/
def route (method path : String) : Option Backend :=
  if path = "/api/v1/clusters" || hasPrefix path "/api/v1/clusters/" then some .clusterRegistry
  else if path = "/api/v1/prices/catalog" || path = "/api/v1/prices/effective" ||
      path = "/api/v1/billing/charges" then some .pricing
  else if path = "/api/v1/recommendations" || isRecommendationRead method path then some .query
  else if isRecommendationCommand method path then some .workflow
  else if path = "/api/v1/data-quality" || path = "/api/v1/usage" || path = "/api/v1/costs" ||
      path = "/api/v1/allocation" then some .query
  else if path = "/api/v1/exports" || hasPrefix path "/api/v1/exports/" then some .export
  else if path = "/api/v1/tenant" || hasPrefix path "/api/v1/tenant/" then some .tenant
  else if path = "/api/v1/audit/events" then some .audit
  else if path = "/api/v1/identity/principal" then some .identity
  else if path = "/api/v1/policies" || hasPrefix path "/api/v1/policies/" then some .policy
  else if path = "/api/v1/integrations" || hasPrefix path "/api/v1/integrations/" then
    some .integrations
  else none

/-! ### Forwarding -/

/-- `proxy`: what `ReverseProxy` sends to the backend. Its director touches the URL and the
host only. -/
def proxy (r : Request) : Request := { r with header := r.header.removeHopByHop }

/-- The way of a request through the gateway. -/
def forward (s : Server) (now : Instant) (r : Request) : Except Problem (Backend × Request) := do
  let r ← authenticate s now r
  match route r.method r.path with
  | none => .error ⟨404, "not_found", "route not found"⟩
  | some backend => return (backend, proxy r)

theorem identityFromRequest_eq_ok {s : Server} {r : Request} {identity : String × String} :
    identityFromRequest s r = .ok identity ↔ ∃ token, bearerToken r = some token ∧
      s.tokenTenants token ≠ "" ∧ identity = (s.tokenTenants token, s.tokenPrincipals token) := by
  unfold identityFromRequest
  cases bearerToken r with
  | none => exact ⟨fun h => (nomatch h), fun ⟨_, h, _⟩ => (nomatch h)⟩
  | some token =>
    simp only [Option.some.injEq, exists_eq_left']
    split
    · rename_i hempty
      exact ⟨fun h => (nomatch h), fun h => absurd hempty h.1⟩
    · rename_i htenant
      rw [Except.ok.injEq, eq_comm, and_iff_right htenant]

/-- **What is forwarded.** The token is mapped to a tenant, the path has a backend, and the
backend gets the authenticated request without the hop-by-hop headers. -/
theorem forward_eq_ok {s : Server} {now : Instant} {r sent : Request} {backend : Backend} :
    forward s now r = .ok (backend, sent) ↔ route r.method r.path = some backend ∧
      ∃ token, bearerToken r = some token ∧ s.tokenTenants token ≠ "" ∧
        sent = proxy (identified s (s.tokenTenants token) (s.tokenPrincipals token) now r) := by
  have hroute : ∀ tenantID principalID,
      route (identified s tenantID principalID now r).method (identified s tenantID principalID now r).path =
        route r.method r.path := fun tenantID principalID => by
    rw [identified, (signRequest_url _ _ _ _).1, (signRequest_url _ _ _ _).2]
  unfold forward authenticate
  rw [bind_eq_ok]
  constructor
  · rintro ⟨authenticated, hauth, h⟩
    obtain ⟨identity, hidentity, hauth⟩ := bind_eq_ok.mp hauth
    obtain ⟨token, htoken, htenant, rfl⟩ := identityFromRequest_eq_ok.mp hidentity
    cases hauth
    rw [hroute] at h
    split at h
    · cases h
    · rename_i hbackend
      cases h
      exact ⟨hbackend, token, htoken, htenant, rfl⟩
  · rintro ⟨hbackend, token, htoken, htenant, rfl⟩
    refine ⟨_, bind_eq_ok.mpr ⟨_, identityFromRequest_eq_ok.mpr ⟨token, htoken, htenant, rfl⟩, rfl⟩, ?_⟩
    rw [hroute, hbackend]
    rfl

end Gateway
end KubeCost
