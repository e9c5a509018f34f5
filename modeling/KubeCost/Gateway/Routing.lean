/-
# The gateway and the routes of the backends

Each backend registers its handlers with method-and-path patterns in its `Routes`, and
the gateway's `route` decides by hand which backend a request is for. The two should
agree: what a backend serves, the gateway should send there.

`route_iff` goes through the patterns of all ten backends. The gateway agrees with every one
of them, for all values of the wildcards, but for the query jobs, which it does not know
(`queries_not_routed`), and for a `HEAD` request for one recommendation: a pattern for `GET`
serves `HEAD` as well, and `isRecommendationRead` asks for `GET`.
-/
import KubeCost.Gateway.Server

namespace KubeCost
namespace Gateway

/-! ### Patterns -/

inductive Segment
  | literal (s : String)
  | wildcard
deriving DecidableEq

/-- A pattern of `http.ServeMux`, such as `GET /api/v1/clusters/…` with a wildcard. -/
structure Pattern where
  method : String
  segments : List Segment
deriving DecidableEq

/-- A pattern below `/api/v1`. -/
def api (method : String) (segments : List Segment) : Pattern :=
  ⟨method, .literal "api" :: .literal "v1" :: segments⟩

/-- The path with these values for the wildcards. A value is decoded, so it may be any
string. -/
def fill : List Segment → List String → String
  | [], _ => ""
  | .literal s :: segments, values => "/" ++ s ++ fill segments values
  | .wildcard :: segments, values => "/" ++ values.headD "" ++ fill segments values.tail

/-- A pattern for `GET` serves `HEAD` too. -/
def Pattern.Accepts (p : Pattern) (method : String) : Prop :=
  method = p.method ∨ p.method = "GET" ∧ method = "HEAD"

/-- The request is one that the pattern serves. -/
def Pattern.Matches (p : Pattern) (method path : String) : Prop :=
  p.Accepts method ∧ ∃ values, path = fill p.segments values

def createQueryJob : Pattern := api "POST" [.literal "queries"]
def queryJob : Pattern := api "GET" [.literal "queries", .wildcard]
def recommendation : Pattern := api "GET" [.literal "recommendations", .wildcard]

/-- What the `Routes` of the backends register. -/
def routes : Backend → List Pattern
  | .query => [api "GET" [.literal "data-quality"], api "GET" [.literal "usage"],
      api "GET" [.literal "costs"], api "GET" [.literal "allocation"], createQueryJob, queryJob,
      api "GET" [.literal "recommendations"], recommendation]
  | .clusterRegistry => [api "POST" [.literal "clusters"], api "GET" [.literal "clusters"],
      api "GET" [.literal "clusters", .wildcard]]
  | .pricing => [api "POST" [.literal "prices", .literal "catalog"],
      api "GET" [.literal "prices", .literal "effective"],
      api "POST" [.literal "billing", .literal "charges"]]
  | .workflow => [api "POST" [.literal "recommendations", .wildcard, .literal "approve"],
      api "POST" [.literal "recommendations", .wildcard, .literal "reject"],
      api "POST" [.literal "recommendations", .wildcard, .literal "suppress"],
      api "POST" [.literal "recommendations", .wildcard, .literal "execute"]]
  | .export => [api "POST" [.literal "exports"], api "GET" [.literal "exports", .wildcard]]
  | .tenant => [api "GET" [.literal "tenant"], api "GET" [.literal "tenant", .literal "members"],
      api "PUT" [.literal "tenant", .literal "members", .wildcard],
      api "DELETE" [.literal "tenant", .literal "members", .wildcard]]
  | .audit => [api "POST" [.literal "audit", .literal "events"],
      api "GET" [.literal "audit", .literal "events"]]
  | .identity => [api "GET" [.literal "identity", .literal "principal"]]
  | .policy => [api "GET" [.literal "policies"],
      api "POST" [.literal "policies", .wildcard, .literal "versions"],
      api "POST" [.literal "policies", .wildcard, .literal "versions", .wildcard, .literal "activate"]]
  | .integrations => [api "POST" [.literal "integrations"], api "GET" [.literal "integrations"],
      api "POST" [.literal "integrations", .wildcard, .literal "validate"]]

/-! ### Paths that begin alike -/

/-- The paths that `route` compares with. -/
def exactPaths : List String :=
  ["/api/v1/clusters", "/api/v1/prices/catalog", "/api/v1/prices/effective", "/api/v1/billing/charges",
    "/api/v1/recommendations", "/api/v1/data-quality", "/api/v1/usage", "/api/v1/costs",
    "/api/v1/allocation", "/api/v1/exports", "/api/v1/tenant", "/api/v1/audit/events",
    "/api/v1/identity/principal", "/api/v1/policies", "/api/v1/integrations"]

/-- The beginnings that `route` looks for. -/
def beginnings : List String :=
  ["/api/v1/clusters/", "/api/v1/recommendations/", "/api/v1/exports/", "/api/v1/tenant/",
    "/api/v1/policies/", "/api/v1/integrations/"]

section

variable {p q : String} (v : String)

theorem append_ne (h : hasPrefix q p = false) : p ++ v ≠ q := by
  rintro rfl
  rw [hasPrefix, String.toList_append, Bool.eq_false_iff] at h
  exact h (List.isPrefixOf_iff_prefix.mpr (List.prefix_append _ _))

/-- A beginning that is not longer than `p` is seen in `p` already. -/
theorem hasPrefix_append (h : hasPrefix p q = true ∨ hasPrefix q p = false) :
    hasPrefix (p ++ v) q = hasPrefix p q := by
  simp only [hasPrefix, Bool.eq_false_iff, ne_eq, List.isPrefixOf_iff_prefix] at h
  rw [hasPrefix, hasPrefix, Bool.eq_iff_iff, List.isPrefixOf_iff_prefix, List.isPrefixOf_iff_prefix,
    String.toList_append]
  constructor
  · intro hq
    rcases h with h | h
    · exact h
    · rcases List.prefix_or_prefix_of_prefix hq (List.prefix_append p.toList v.toList) with hqp | hpq
      · exact hqp
      · exact absurd hpq h
  · exact fun hq => hq.trans (List.prefix_append _ _)

end

/-- No beginning is a beginning of another, nor of the query jobs' paths, and none of the
paths begins with one. -/
theorem beginnings_apart : ∀ p ∈ "/api/v1/queries/" :: beginnings,
    (∀ q ∈ exactPaths, hasPrefix q p = false) ∧
      ∀ q ∈ beginnings, hasPrefix p q = decide (q = p) ∧ (hasPrefix p q = true ∨ hasPrefix q p = false) := by
  decide +kernel

/-- **Below a beginning, the beginning decides**, and for recommendations the method and the
action. -/
theorem route_below {p : String} (hp : p ∈ "/api/v1/queries/" :: beginnings) (method v : String) :
    route method (p ++ v) =
      if p = "/api/v1/clusters/" then some .clusterRegistry
      else if p = "/api/v1/recommendations/" then
        if method = "GET" then some .query
        else if method = "POST" ∧
          recommendationAction (p ++ v) ∈ ["approve", "reject", "suppress", "execute"] then some .workflow
        else none
      else if p = "/api/v1/exports/" then some .export
      else if p = "/api/v1/tenant/" then some .tenant
      else if p = "/api/v1/policies/" then some .policy
      else if p = "/api/v1/integrations/" then some .integrations
      else none := by
  obtain ⟨hexact, hbegin⟩ := beginnings_apart p hp
  have hne : ∀ q ∈ exactPaths, (p ++ v = q) = False := fun q hq => eq_false (append_ne v (hexact q hq))
  have hpre : ∀ q ∈ beginnings, hasPrefix (p ++ v) q = decide (q = p) := fun q hq =>
    (hasPrefix_append v (hbegin q hq).2).trans (hbegin q hq).1
  simp only [exactPaths, beginnings, List.forall_mem_cons, List.not_mem_nil, IsEmpty.forall_iff,
    implies_true, and_true] at hne hpre
  simp only [route, isRecommendationRead, isRecommendationCommand, hne, hpre, decide_false, Bool.or_false,
    Bool.false_or, Bool.false_eq_true, if_false]
  clear hne hpre hexact hbegin
  generalize recommendationAction (p ++ v) = action
  simp only [beginnings, List.mem_cons, List.not_mem_nil, or_false] at hp
  rcases hp with rfl | rfl | rfl | rfl | rfl | rfl | rfl
  all_goals simp

/-- The action of a path is what stands after its last slash. -/
theorem recommendationAction_append (s : String) {action : String} (hne : action ≠ "")
    (hslash : '/' ∉ action.toList) : recommendationAction (s ++ "/" ++ action) = action := by
  have hsep : "/".toList = ['/'] := rfl
  have hlist : (s ++ "/" ++ action).toList = s.toList ++ '/' :: action.toList := by
    simp only [String.toList_append, List.append_assoc, hsep, List.cons_append, List.nil_append]
  -- the path does not end in a slash, so `TrimSuffix` leaves it alone
  have htrim : trimSuffix (s ++ "/" ++ action) "/" = s ++ "/" ++ action := by
    rw [trimSuffix, if_neg]
    rw [List.isSuffixOf_iff_suffix, hlist, hsep]
    rintro ⟨front, hfront⟩
    rcases List.eq_nil_or_concat action.toList with hnil | ⟨first, c, hc⟩
    · exact hne (String.toList_inj.mp hnil)
    · rw [hc, List.concat_eq_append, ← List.cons_append, ← List.append_assoc] at hfront
      have hlast := (List.append_inj' hfront rfl).2
      have hmem : c ∈ action.toList := by
        rw [hc, List.concat_eq_append]
        exact List.mem_append_right _ (List.mem_singleton_self _)
      exact hslash ((List.cons.inj hlast).1 ▸ hmem)
  have hback : (s.toList ++ '/' :: action.toList).reverse.takeWhile (· ≠ '/') = action.toList.reverse := by
    rw [List.reverse_append, List.reverse_cons, List.append_assoc,
      List.takeWhile_append_of_pos]
    · simp
    · intro c hc
      rw [List.mem_reverse] at hc
      exact decide_eq_true fun h => hslash (h ▸ hc)
  rw [recommendationAction, htrim]
  simp only [hlist]
  rw [if_pos (List.mem_append_right _ List.mem_cons_self), hback, List.reverse_reverse,
    String.ofList_toList]

/-! ### The patterns -/

/-- The requests that the gateway does not send where they are served. -/
def Missed (p : Pattern) (method : String) : Prop :=
  p = createQueryJob ∨ p = queryJob ∨ p = recommendation ∧ method = "HEAD"

instance (p : Pattern) (method : String) : Decidable (Missed p method) :=
  inferInstanceAs (Decidable (_ ∨ _ ∨ _))

/-- What a pattern with no wildcard serves is one path, whatever the values. -/
theorem fill_literal : ∀ {segments : List Segment}, .wildcard ∉ segments → ∀ values,
    fill segments values = fill segments []
  | [], _, _ => rfl
  | .literal s :: segments, h, values => by
    rw [fill, fill, fill_literal (fun hmem => h (List.mem_cons_of_mem _ hmem))]
  | .wildcard :: segments, h, _ => absurd List.mem_cons_self h

/-- What a pattern with no wildcard serves, the gateway sends where it sends the one path. -/
theorem route_literal {p : Pattern} {backend : Backend} {method path : String} (h : p.Matches method path)
    (hliteral : .wildcard ∉ p.segments)
    (hroute : ∀ m ∈ [p.method, "HEAD"], route m (fill p.segments []) = some backend) :
    route method path = some backend := by
  obtain ⟨haccepts, values, rfl⟩ := h
  rw [fill_literal hliteral]
  apply hroute
  rcases haccepts with rfl | ⟨-, rfl⟩
  · exact List.mem_cons_self
  · exact List.mem_cons_of_mem _ List.mem_cons_self

/-- What a longer pattern serves begins with its first segment and a slash. -/
theorem exists_below {m s method path : String} {segment : Segment} {segments : List Segment}
    (h : (api m (.literal s :: segment :: segments)).Matches method path) :
    ∃ rest, path = "/api/v1/" ++ s ++ "/" ++ rest := by
  obtain ⟨-, values, rfl⟩ := h
  have hcons : ∃ rest, fill (segment :: segments) values = "/" ++ rest := by
    cases segment with
    | literal t => exact ⟨t ++ fill segments values, by rw [fill, String.append_assoc]⟩
    | wildcard => exact ⟨values.headD "" ++ fill segments values.tail, by rw [fill, String.append_assoc]⟩
  obtain ⟨rest, hrest⟩ := hcons
  refine ⟨rest, ?_⟩
  rw [← String.toList_inj]
  simp only [api, fill, hrest, String.toList_append]
  simp

/-- What the pattern of a command serves ends in the action. -/
theorem exists_command {action method path : String}
    (h : (api "POST" [.literal "recommendations", .wildcard, .literal action]).Matches method path) :
    method = "POST" ∧ ∃ front, path = front ++ "/" ++ action := by
  obtain ⟨haccepts, values, rfl⟩ := h
  refine ⟨?_, "/api/v1/recommendations/" ++ values.headD "", ?_⟩
  · rcases haccepts with h | ⟨h, -⟩
    · exact h
    · exact absurd h (show "POST" ≠ "GET" by decide)
  · rw [← String.toList_inj]
    simp [api, fill]

/-- The backends that a beginning alone decides. -/
theorem route_of_below {m s method path : String} {segment : Segment} {segments : List Segment}
    {backend : Backend} (h : (api m (.literal s :: segment :: segments)).Matches method path)
    (hs : (s, backend) ∈ [("clusters", Backend.clusterRegistry), ("exports", .export),
      ("tenant", .tenant), ("policies", .policy), ("integrations", .integrations)]) :
    route method path = some backend := by
  obtain ⟨rest, rfl⟩ := exists_below h
  simp only [List.mem_cons, Prod.mk.injEq, List.not_mem_nil, or_false] at hs
  rcases hs with ⟨rfl, rfl⟩ | ⟨rfl, rfl⟩ | ⟨rfl, rfl⟩ | ⟨rfl, rfl⟩ | ⟨rfl, rfl⟩
  · exact (route_below (p := "/api/v1/clusters/") (by decide) method rest).trans (by simp)
  · exact (route_below (p := "/api/v1/exports/") (by decide) method rest).trans (by simp)
  · exact (route_below (p := "/api/v1/tenant/") (by decide) method rest).trans (by simp)
  · exact (route_below (p := "/api/v1/policies/") (by decide) method rest).trans (by simp)
  · exact (route_below (p := "/api/v1/integrations/") (by decide) method rest).trans (by simp)

/-- A read of one recommendation goes to the query service. -/
theorem route_recommendation {method path : String} (h : recommendation.Matches method path) :
    route method path = if method = "GET" then some .query else none := by
  obtain ⟨rest, rfl⟩ := exists_below h
  refine (route_below (p := "/api/v1/recommendations/") (by decide) method rest).trans ?_
  rcases h.1 with rfl | ⟨-, rfl⟩
  · rfl
  · rfl

/-- A command for a recommendation goes to the workflow service. -/
theorem route_command {action method path : String} (hne : action ≠ "") (hslash : '/' ∉ action.toList)
    (haction : action ∈ ["approve", "reject", "suppress", "execute"])
    (h : (api "POST" [.literal "recommendations", .wildcard, .literal action]).Matches method path) :
    route method path = some .workflow := by
  obtain ⟨rfl, front, hfront⟩ := exists_command h
  obtain ⟨rest, hrest⟩ := exists_below h
  have hpath : recommendationAction path = action := by
    rw [hfront, recommendationAction_append front hne hslash]
  rw [hrest] at hpath ⊢
  have hlast : recommendationAction ("/api/v1/recommendations/" ++ rest) = action := hpath
  refine (route_below (p := "/api/v1/recommendations/") (by decide) "POST" rest).trans ?_
  rw [if_neg (by decide), if_pos rfl, if_neg (by decide), if_pos ⟨rfl, hlast ▸ haction⟩]

/-- What is missed goes nowhere. -/
theorem route_of_missed {p : Pattern} {method path : String} (h : p.Matches method path)
    (hmissed : Missed p method) : route method path = none := by
  rcases hmissed with rfl | rfl | ⟨rfl, rfl⟩
  · obtain ⟨haccepts, values, rfl⟩ := h
    have hmethod : method = "POST" := by
      rcases haccepts with hpost | ⟨hget, -⟩
      · exact hpost
      · exact absurd hget (by decide)
    rw [fill_literal (by decide), hmethod]
    decide +kernel
  · obtain ⟨rest, rfl⟩ := exists_below h
    exact (route_below (p := "/api/v1/queries/") (by decide) method rest).trans (by simp)
  · exact route_recommendation h

/-- **The gateway against the routes.** A request that a backend's pattern serves is sent to
that backend, for every value of the wildcards, exactly if it is not one of those
missed. -/
theorem route_iff {backend : Backend} {p : Pattern} (hp : p ∈ routes backend) {method path : String}
    (h : p.Matches method path) : route method path = some backend ↔ ¬ Missed p method := by
  refine ⟨fun hroute hmissed => ?_, fun hmissed => ?_⟩
  · rw [route_of_missed h hmissed] at hroute
    cases hroute
  · cases backend <;> simp only [routes, List.mem_cons, List.not_mem_nil, or_false] at hp
    case query =>
      rcases hp with rfl | rfl | rfl | rfl | rfl | rfl | rfl | rfl
      case inr.inr.inr.inr.inl => exact absurd (.inl rfl) hmissed
      case inr.inr.inr.inr.inr.inl => exact absurd (.inr (.inl rfl)) hmissed
      case inr.inr.inr.inr.inr.inr.inr =>
        rw [route_recommendation h]
        rcases h.1 with hget | ⟨-, hhead⟩
        · exact if_pos hget
        · exact absurd (.inr (.inr ⟨rfl, hhead⟩)) hmissed
      all_goals exact route_literal h (by decide) (by decide +kernel)
    case clusterRegistry =>
      rcases hp with rfl | rfl | rfl
      · exact route_literal h (by decide) (by decide +kernel)
      · exact route_literal h (by decide) (by decide +kernel)
      · exact route_of_below h (by decide)
    case pricing =>
      rcases hp with rfl | rfl | rfl
      all_goals exact route_literal h (by decide) (by decide +kernel)
    case workflow =>
      rcases hp with rfl | rfl | rfl | rfl
      all_goals exact route_command (by decide) (by decide) (by decide) h
    case «export» =>
      rcases hp with rfl | rfl
      · exact route_literal h (by decide) (by decide +kernel)
      · exact route_of_below h (by decide)
    case tenant =>
      rcases hp with rfl | rfl | rfl | rfl
      · exact route_literal h (by decide) (by decide +kernel)
      all_goals exact route_of_below h (by decide)
    case audit =>
      rcases hp with rfl | rfl
      all_goals exact route_literal h (by decide) (by decide +kernel)
    case identity =>
      rw [hp] at h
      exact route_literal h (by decide) (by decide +kernel)
    case policy =>
      rcases hp with rfl | rfl | rfl
      · exact route_literal h (by decide) (by decide +kernel)
      all_goals exact route_of_below h (by decide)
    case integrations =>
      rcases hp with rfl | rfl | rfl
      · exact route_literal h (by decide) (by decide +kernel)
      · exact route_literal h (by decide) (by decide +kernel)
      · exact route_of_below h (by decide)

theorem route_iff_versions : route "POST" "/api/v1/policies/rightsizing/versions" = some .policy := by
  have hpattern : api "POST" [.literal "policies", .wildcard, .literal "versions"] ∈ routes .policy := by
    decide
  refine (route_iff hpattern ⟨.inl rfl, ["rightsizing"], ?_⟩).mpr (by decide)
  decide +kernel

/-- **The gateway does not know the query jobs**, which the query service serves; and it asks
for `GET` where the service answers `HEAD` too. -/
theorem queries_not_routed :
    createQueryJob ∈ routes .query ∧ createQueryJob.Matches "POST" "/api/v1/queries" ∧
    route "POST" "/api/v1/queries" = none ∧
    recommendation ∈ routes .query ∧ recommendation.Matches "HEAD" "/api/v1/recommendations/rec-1" ∧
    route "HEAD" "/api/v1/recommendations/rec-1" = none := by
  refine ⟨by decide, ⟨.inl rfl, [], ?_⟩, ?_, by decide, ⟨.inr ⟨rfl, rfl⟩, ["rec-1"], ?_⟩, ?_⟩
  all_goals decide +kernel

end Gateway
end KubeCost
