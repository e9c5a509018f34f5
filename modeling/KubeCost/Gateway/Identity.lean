/-
# Who a backend takes the client for

The backends take the tenant and the principal from two headers that only the gateway is to
set. Before it signs and forwards a request, `authenticate` overwrites them; but a client
may also send a `Connection` header, and the reverse proxy then deletes the headers that
it names, after the gateway has set them. So a client cannot forge an identity,
and can remove it (`tenant_removed`).

`sees_mapped_iff` says for one request when its backend sees the identity that the token is
mapped to, and `same_identity_iff` compares two requests with one token.
-/
import KubeCost.Gateway.Server

namespace KubeCost
namespace Gateway

/-- The values of the tenant and the principal header. -/
def seen (r : Request) : List String × List String :=
  (r.header (canonicalHeaderKey tenantHeader), r.header (canonicalHeaderKey principalHeader))

/-- The tenant and the principal that the token is mapped to; without a principal, no
header. -/
def mapped (s : Server) (token : String) : List String × List String :=
  ([s.tokenTenants token], if s.tokenPrincipals token = "" then [] else [s.tokenPrincipals token])

/-- **The request leaves the identity alone**: its `Connection` header names neither the
tenant header nor, if there is a principal, the principal header. -/
def LeavesIdentity (s : Server) (token : String) (r : Request) : Prop :=
  ¬ r.header.Named (canonicalHeaderKey tenantHeader) ∧
    (s.tokenPrincipals token ≠ "" → ¬ r.header.Named (canonicalHeaderKey principalHeader))

instance (s : Server) (token : String) (r : Request) : Decidable (LeavesIdentity s token r) :=
  inferInstanceAs (Decidable (_ ∧ _))

/-! ### The headers of a signed request -/

theorem signRequest_header {r : Request} {identity key k : String} {now : Instant}
    (hk : ∀ name ∈ [identityHeader, timestampHeader, signatureHeader], canonicalHeaderKey name ≠ k) :
    (signRequest r identity key now).header k = r.header k := by
  unfold signRequest
  simp only
  split
  · rfl
  · simp only
    rw [Header.set_of_ne (hk signatureHeader (by decide)),
      Header.set_of_ne (hk timestampHeader (by decide)), Header.set_of_ne (hk identityHeader (by decide))]

section

variable (s : Server) (tenantID principalID : String) (h : Header)

theorem identityHeaders_tenant : identityHeaders s tenantID principalID h
    (canonicalHeaderKey tenantHeader) = [tenantID] := by
  have hsecret : canonicalHeaderKey gatewaySecretHeader ≠ canonicalHeaderKey tenantHeader := by decide
  have hprincipal : canonicalHeaderKey principalHeader ≠ canonicalHeaderKey tenantHeader := by decide
  unfold identityHeaders
  split <;> split <;>
    simp only [Header.set_of_ne hsecret, Header.set_of_ne hprincipal, Header.set_self rfl]

theorem identityHeaders_principal : identityHeaders s tenantID principalID h
    (canonicalHeaderKey principalHeader) = if principalID = "" then [] else [principalID] := by
  have hsecret : canonicalHeaderKey gatewaySecretHeader ≠ canonicalHeaderKey principalHeader := by decide
  have hauth : canonicalHeaderKey authorizationHeader ≠ canonicalHeaderKey principalHeader := by decide
  have htenant : canonicalHeaderKey tenantHeader ≠ canonicalHeaderKey principalHeader := by decide
  -- what the client sent is deleted first
  have hdeleted : ((((h.del tenantHeader).del principalHeader).del authorizationHeader).del
      gatewaySecretHeader).set tenantHeader tenantID (canonicalHeaderKey principalHeader) = [] := by
    rw [Header.set_of_ne htenant, Header.del_of_ne hsecret, Header.del_of_ne hauth, Header.del_self rfl]
  unfold identityHeaders
  by_cases hp : principalID = ""
  · simp only [hp, ne_eq, not_true_eq_false, if_false, if_true]
    split
    · rwa [Header.set_of_ne hsecret]
    · exact hdeleted
  · simp only [hp, ne_eq, not_false_eq_true, if_true, if_false]
    split
    · rw [Header.set_of_ne hsecret, Header.set_self rfl]
    · rw [Header.set_self rfl]

theorem identityHeaders_connection :
    identityHeaders s tenantID principalID h "Connection" = h "Connection" := by
  have hne : ∀ name ∈ [tenantHeader, principalHeader, authorizationHeader, gatewaySecretHeader],
      canonicalHeaderKey name ≠ "Connection" := by decide
  have htenant := hne tenantHeader (by decide)
  have hprincipal := hne principalHeader (by decide)
  have hauth := hne authorizationHeader (by decide)
  have hsecret := hne gatewaySecretHeader (by decide)
  unfold identityHeaders
  split <;> split <;>
    simp only [Header.set_of_ne hsecret, Header.set_of_ne hprincipal, Header.set_of_ne htenant,
      Header.del_of_ne hsecret, Header.del_of_ne hauth, Header.del_of_ne hprincipal,
      Header.del_of_ne htenant]

end

/-! ### What the backend sees -/

/-- A header that the gateway sets is seen unless `Connection` names it or there is nothing
to see. -/
theorem removeHopByHop_eq_iff {h : Header} {k : String}
    (hhop : ∀ name ∈ Header.hopHeaders, canonicalHeaderKey name ≠ k) :
    h.removeHopByHop k = h k ↔ (h k ≠ [] → ¬ h.Named k) := by
  by_cases hnamed : h.Named k
  · rw [Header.removeHopByHop_of_named hnamed]
    exact ⟨fun heq hne => absurd heq.symm hne, fun h => by_contra fun hne => h (Ne.symm hne) hnamed⟩
  · exact ⟨fun _ _ => hnamed, fun _ => Header.removeHopByHop_of_not_named hnamed hhop⟩

section

variable (s : Server) (tenantID principalID : String) (now : Instant) (r : Request)

/-- Signing leaves the identity and the `Connection` header alone. -/
theorem identified_header {k : String}
    (hk : k ∈ [canonicalHeaderKey tenantHeader, canonicalHeaderKey principalHeader, "Connection"]) :
    (identified s tenantID principalID now r).header k =
      identityHeaders s tenantID principalID r.header k := by
  have hkeys : ∀ k ∈ [canonicalHeaderKey tenantHeader, canonicalHeaderKey principalHeader, "Connection"],
      ∀ name ∈ [identityHeader, timestampHeader, signatureHeader], canonicalHeaderKey name ≠ k := by
    decide
  exact signRequest_header (hkeys k hk)

theorem identified_tenant : (identified s tenantID principalID now r).header
    (canonicalHeaderKey tenantHeader) = [tenantID] := by
  rw [identified_header s tenantID principalID now r (by decide), identityHeaders_tenant]

theorem identified_principal : (identified s tenantID principalID now r).header
    (canonicalHeaderKey principalHeader) = if principalID = "" then [] else [principalID] := by
  rw [identified_header s tenantID principalID now r (by decide), identityHeaders_principal]

theorem identified_named (k : String) :
    (identified s tenantID principalID now r).header.Named k ↔ r.header.Named k := by
  rw [Header.Named, Header.Named, identified_header s tenantID principalID now r (by decide),
    identityHeaders_connection]

end

/-- **One request.** Its backend sees the identity that the token is mapped to exactly if the
request leaves the identity alone. -/
theorem sees_mapped_iff {s : Server} {now : Instant} {r sent : Request} {backend : Backend}
    {token : String} (h : forward s now r = .ok (backend, sent)) (htoken : bearerToken r = some token) :
    seen sent = mapped s token ↔ LeavesIdentity s token r := by
  obtain ⟨-, token', htoken', -, hsent⟩ := forward_eq_ok.mp h
  rw [htoken, Option.some.injEq] at htoken'
  subst htoken'
  have hhop : ∀ k ∈ [canonicalHeaderKey tenantHeader, canonicalHeaderKey principalHeader],
      ∀ name ∈ Header.hopHeaders, canonicalHeaderKey name ≠ k := by decide
  have htenant := identified_tenant s (s.tokenTenants token) (s.tokenPrincipals token) now r
  have hprincipal := identified_principal s (s.tokenTenants token) (s.tokenPrincipals token) now r
  have hnamed := identified_named s (s.tokenTenants token) (s.tokenPrincipals token) now r
  generalize identified s (s.tokenTenants token) (s.tokenPrincipals token) now r = signed at *
  have hfirst := removeHopByHop_eq_iff (h := signed.header)
    (hhop (canonicalHeaderKey tenantHeader) (by decide))
  have hsecond := removeHopByHop_eq_iff (h := signed.header)
    (hhop (canonicalHeaderKey principalHeader) (by decide))
  rw [hnamed, htenant] at hfirst
  rw [hnamed, hprincipal] at hsecond
  rw [hsent, seen, mapped, Prod.mk.injEq, LeavesIdentity]
  refine and_congr (hfirst.trans ?_) (hsecond.trans ?_)
  · exact forall_prop_of_true (List.cons_ne_nil _ _)
  · refine imp_congr_left ?_
    split
    · rename_i hp
      exact ⟨fun h => absurd rfl h, fun h => absurd hp h⟩
    · rename_i hp
      exact ⟨fun _ => hp, fun _ => List.cons_ne_nil _ _⟩

/-- **Two requests with one token.** They differ in their queries and other headers and both are
forwarded. Then both go to one backend, and it sees in both the one identity that the
token is mapped to exactly if both leave the identity alone. -/
theorem same_identity_iff {s : Server} {now now' : Instant} {r r' sent sent' : Request}
    {backend backend' : Backend} {token : String}
    (h : forward s now r = .ok (backend, sent)) (h' : forward s now' r' = .ok (backend', sent'))
    (htoken : bearerToken r = some token) (htoken' : bearerToken r' = some token)
    (hmethod : r.method = r'.method) (hpath : r.path = r'.path) :
    backend = backend' ∧
      ((seen sent = seen sent' ∧ seen sent = mapped s token) ↔
        LeavesIdentity s token r ∧ LeavesIdentity s token r') := by
  constructor
  · have hroute := (forward_eq_ok.mp h).1
    have hroute' := (forward_eq_ok.mp h').1
    rw [← hmethod, ← hpath, hroute] at hroute'
    exact Option.some.inj hroute'
  · rw [← sees_mapped_iff h htoken, ← sees_mapped_iff h' htoken']
    exact ⟨fun ⟨hsame, hseen⟩ => ⟨hseen, hsame ▸ hseen⟩,
      fun ⟨hseen, hseen'⟩ => ⟨hseen.trans hseen'.symm, hseen⟩⟩

/-- A gateway with one token, for the tenant `tenant-a` and the principal `user-a`. -/
def gateway : Server where
  tokenTenants := fun token => if token = "token-a" then "tenant-a" else ""
  tokenPrincipals := fun token => if token = "token-a" then "user-a" else ""
  backendSecret := "backend-secret"
  signingKey := "signing-key"
  gatewayIdentity := "gateway"

/-- A request for the usage with that token and two more headers. -/
def usageWith (connection tenant : List String) : Request where
  method := "GET"
  path := "/api/v1/usage"
  escapedPath := "/api/v1/usage"
  rawQuery := ""
  header := fun key =>
    if key = "Authorization" then ["Bearer token-a"]
    else if key = "Connection" then connection
    else if key = "X-Kube-Cost-Tenant-Id" then tenant
    else []

/-- What the gateway sends on. -/
def usageSent (connection tenant : List String) : Request :=
  proxy (identified gateway (gateway.tokenTenants "token-a") (gateway.tokenPrincipals "token-a") 0
    (usageWith connection tenant))

theorem bearerToken_usageWith (connection tenant : List String) :
    bearerToken (usageWith connection tenant) = some "token-a" := by
  have hauth : (usageWith connection tenant).header.get authorizationHeader = "Bearer token-a" := by
    have hkey : canonicalHeaderKey authorizationHeader = "Authorization" := by decide
    rw [Header.get, hkey]
    rfl
  rw [bearerToken, hauth]
  decide

theorem forward_usageWith (connection tenant : List String) :
    forward gateway 0 (usageWith connection tenant) = .ok (.query, usageSent connection tenant) := by
  have hroute : route "GET" "/api/v1/usage" = some .query := by decide
  exact forward_eq_ok.mpr ⟨hroute, "token-a", bearerToken_usageWith connection tenant, by decide, rfl⟩

theorem same_identity_iff_forged :
    seen (usageSent [] []) = seen (usageSent ["close"] ["forged-tenant"]) ∧
      seen (usageSent [] []) = mapped gateway "token-a" := by
  refine (same_identity_iff (forward_usageWith [] []) (forward_usageWith ["close"] ["forged-tenant"])
    (bearerToken_usageWith _ _) (bearerToken_usageWith _ _) rfl rfl).2.mpr ?_
  decide

/-- **A client removes its tenant.** The request is forwarded, and the backend gets the principal
and no tenant. -/
theorem tenant_removed :
    (forward gateway 0 (usageWith ["X-Kube-Cost-Tenant-ID"] [])).map (fun p => (p.1, seen p.2)) =
      .ok (.query, [], ["user-a"]) := by
  decide +kernel

end Gateway
end KubeCost
