/-
# Whose data the ingestion service takes

`services/ingestion/server/auth.go`: a stream is authenticated by the client certificate of its
connection, which names a tenant and a cluster in a URI.

A certificate with the URI of a tenant and a cluster, their ids escaped, lets in just this
cluster (`authenticate_identityPath`), whatever characters the ids have. And over any run of the service,
with every interleaving, crash and failure, what is archived, queued, stored, checkpointed or sent
is for clusters whose certificate was presented (`confined_of_certificates`): the hello is compared
with the certificate once, and all that follows takes the tenant and the cluster from the hello,
never from a batch.
-/
import KubeCost.PercentEncoding
import KubeCost.Ingestion.Tables
import KubeCost.Ingestion.Watermark

namespace KubeCost
namespace Ingestion

open PercentEncoding

/-! ### Certificates -/

def identityTrustDomain : String := "kube-cost"

/-- What is looked at in a `url.URL`. -/
structure Uri where
  scheme : String
  host : String
  path : UrlPath
deriving DecidableEq

/-- A certificate by its URI names; the source allows for nil ones. -/
structure Certificate where
  uris : List (Option Uri)
deriving DecidableEq

/-- `tls.ConnectionState`. -/
structure ConnectionState where
  verifiedChains : ℕ
  peerCertificates : List Certificate
deriving DecidableEq

/-- The `AuthInfo` of a peer. -/
inductive AuthInfo
  | tls (state : ConnectionState)
  | other
deriving DecidableEq

/-- `strings.Trim` of one character. -/
def trim (sep : UInt8) (s : List UInt8) : List UInt8 :=
  ((s.dropWhile (· = sep)).reverse.dropWhile (· = sep)).reverse

/-- `url.PathUnescape` of an element; an empty id is refused. -/
def unescapeID (element : List UInt8) : Option (List UInt8) := (unescape element).filter (· ≠ [])

def parseIdentityURI (uri : Option Uri) : Option (List UInt8 × List UInt8) :=
  match uri with
  | none => none
  | some uri =>
    if uri.scheme ≠ "spiffe" ∨ uri.host ≠ identityTrustDomain then none
    else
      match List.splitOn (ascii '/') (trim (ascii '/') uri.path.escapedPath) with
      | [first, tenant, third, cluster] =>
        if first ≠ utf8 "tenant" ∨ third ≠ utf8 "cluster" then none
        else
          match unescapeID tenant, unescapeID cluster with
          | some tenantID, some clusterID => some (tenantID, clusterID)
          | _, _ => none
      | _ => none

/-- The first name that is an identity. -/
def certificateIdentity (certificate : Certificate) : Except String (List UInt8 × List UInt8) :=
  match certificate.uris.findSome? parseIdentityURI with
  | some identity => .ok identity
  | none => .error ("client certificate must contain a spiffe://" ++ identityTrustDomain ++
      "/tenant/\x7btenant\x7d/cluster/\x7bcluster\x7d URI SAN")

/-- `MTLSAuthenticator.Authenticate`; `peer` is what the context has. -/
def MTLSAuthenticator.authenticate (peer : Option AuthInfo) (hello : AgentHello) : Except String Unit :=
  match peer with
  | none => .error "transport peer information is missing"
  | some .other => .error "verified client certificate is required"
  | some (.tls state) =>
    match state.verifiedChains, state.peerCertificates with
    | _ + 1, certificate :: _ => do
      let (tenantID, clusterID) ← certificateIdentity certificate
      if tenantID ≠ utf8 hello.tenantId ∨ clusterID ≠ utf8 hello.clusterId then
        .error "certificate identity does not match hello tenant and cluster"
    | _, _ => .error "verified client certificate is required"

/-- The certificate of a peer: the first of a verified chain. -/
def AuthInfo.certificate : AuthInfo → Option Certificate
  | .tls ⟨_ + 1, certificate :: _⟩ => some certificate
  | _ => none

/-- **A stream is authenticated by the identity of its certificate.** -/
theorem authenticate_eq_ok {peer : Option AuthInfo} {hello : AgentHello} :
    MTLSAuthenticator.authenticate peer hello = .ok () ↔
      ∃ certificate, peer.bind AuthInfo.certificate = some certificate ∧
        certificateIdentity certificate = .ok (utf8 hello.tenantId, utf8 hello.clusterId) := by
  unfold MTLSAuthenticator.authenticate
  rcases peer with _ | ⟨⟨_ | verifiedChains, _ | ⟨certificate, rest⟩⟩⟩ | _
  case some.tls.succ.cons =>
    simp only [Option.bind_some, AuthInfo.certificate, Option.some.injEq, exists_eq_left', bind_eq_ok]
    constructor
    · rintro ⟨⟨tenantID, clusterID⟩, hidentity, h⟩
      dsimp only at h
      split at h
      · cases h
      · rename_i hsame
        rw [not_or, not_not, not_not] at hsame
        rw [hidentity, hsame.1, hsame.2]
    · intro hidentity
      refine ⟨_, hidentity, ?_⟩
      exact if_neg (not_or.mpr ⟨not_not.mpr rfl, not_not.mpr rfl⟩)
  all_goals
    simp only [Option.bind_some, Option.bind_none, AuthInfo.certificate, reduceCtorEq, false_and,
      exists_false]

/-! ### The identity of a URI -/

/-- The path that names a tenant and a cluster. -/
def identityPath (tenantID clusterID : List UInt8) : List UInt8 :=
  utf8 "/tenant/" ++ (escape .pathSegment tenantID ++ (utf8 "/cluster/" ++ escape .pathSegment clusterID))

theorem unescape_identityPath (t c : List UInt8) :
    unescape (identityPath t c) = some (utf8 "/tenant/" ++ (t ++ (utf8 "/cluster/" ++ c))) := by
  -- the fixed parts are escaped as they stand
  have htenant : escape .path (utf8 "/tenant/") = utf8 "/tenant/" := by decide +kernel
  have hcluster : escape .path (utf8 "/cluster/") = utf8 "/cluster/" := by decide +kernel
  rw [identityPath]
  nth_rewrite 1 [← htenant]
  nth_rewrite 1 [← hcluster]
  rw [unescape_escape_append, unescape_escape_append, unescape_escape_append, unescape_escape]
  rfl

theorem validEncoded_identityPath (t c : List UInt8) : validEncoded (identityPath t c) = true := by
  have htenant : validEncoded (utf8 "/tenant/") = true := by decide +kernel
  have hcluster : validEncoded (utf8 "/cluster/") = true := by decide +kernel
  rw [identityPath, validEncoded_append, validEncoded_append, validEncoded_append, htenant, hcluster,
    validEncoded_escape, validEncoded_escape]
  rfl

/-- The elements of the path. -/
theorem splitOn_identityPath (t : List UInt8) {c : List UInt8} (hc : c ≠ []) :
    List.splitOn (ascii '/') (trim (ascii '/') (identityPath t c)) =
      [utf8 "tenant", escape .pathSegment t, utf8 "cluster", escape .pathSegment c] := by
  have hfirst : utf8 "/tenant/" = ascii '/' :: (utf8 "tenant" ++ [ascii '/']) := by decide +kernel
  have hsecond : utf8 "/cluster/" = ascii '/' :: (utf8 "cluster" ++ [ascii '/']) := by decide +kernel
  have hnames : ascii '/' ∉ utf8 "tenant" ∧ ascii '/' ∉ utf8 "cluster" := by decide +kernel
  have hnonempty : escape .pathSegment c ≠ [] := escape_ne_nil hc
  have htrim : trim (ascii '/') (identityPath t c) = utf8 "tenant" ++ ascii '/' ::
      (escape .pathSegment t ++ ascii '/' :: (utf8 "cluster" ++ ascii '/' :: escape .pathSegment c)) := by
    have hleft : (identityPath t c).dropWhile (· = ascii '/') = utf8 "tenant" ++ ascii '/' ::
        (escape .pathSegment t ++ ascii '/' :: (utf8 "cluster" ++ ascii '/' :: escape .pathSegment c)) := by
      rw [identityPath, hfirst, hsecond]
      simp only [List.cons_append, List.append_assoc, List.nil_append]
      rw [List.dropWhile_cons_of_pos (by decide)]
      refine dropWhile_eq_self fun b hb => ?_
      have hhead : (utf8 "tenant").head? = some (ascii 't') := by decide +kernel
      rw [List.head?_append, hhead] at hb
      cases hb
      decide
    rw [trim, hleft]
    -- the last byte is one of the escaped cluster
    rw [dropWhile_eq_self, List.reverse_reverse]
    intro b hb
    refine decide_eq_false fun hslash => slash_not_mem_escape c ?_
    rw [List.head?_reverse] at hb
    have hlast : (escape .pathSegment c).getLast? = some b := by
      rw [← hb]
      simp only [List.getLast?_append, List.getLast?_cons]
      cases hgot : (escape .pathSegment c).getLast? with
      | none => exact absurd (List.getLast?_eq_none_iff.mp hgot) hnonempty
      | some b => rfl
    rw [← hslash]
    exact List.mem_of_getLast? hlast
  rw [htrim, List.splitOn_append_cons_self, List.splitOn_append_cons_self, List.splitOn_append_cons_self,
    List.splitOn_eq_singleton hnames.1, List.splitOn_eq_singleton (slash_not_mem_escape t),
    List.splitOn_eq_singleton hnames.2, List.splitOn_eq_singleton (slash_not_mem_escape c)]
  rfl

theorem unescapeID_escape {id : List UInt8} (h : id ≠ []) : unescapeID (escape .pathSegment id) = some id := by
  rw [unescapeID, unescape_escape]
  exact Option.filter_some_pos (decide_eq_true h)

/-- **The URI of a tenant and a cluster names them**, whatever bytes they have: it can be
written, and what is read from it is what was put in. -/
theorem parseIdentityURI_identityPath {t c : List UInt8} (ht : t ≠ []) (hc : c ≠ []) :
    ∃ path, setPath (identityPath t c) = some path ∧
      parseIdentityURI (some ⟨"spiffe", identityTrustDomain, path⟩) = some (t, c) := by
  have hset : setPath (identityPath t c) = some ⟨utf8 "/tenant/" ++ (t ++ (utf8 "/cluster/" ++ c)),
      if escape .path (utf8 "/tenant/" ++ (t ++ (utf8 "/cluster/" ++ c))) = identityPath t c then []
      else identityPath t c⟩ := by
    rw [setPath, unescape_identityPath, Option.map_some]
  refine ⟨_, hset, ?_⟩
  have hstar : utf8 "/tenant/" ++ (t ++ (utf8 "/cluster/" ++ c)) ≠ [ascii '*'] := by
    intro h
    have hhead := congrArg List.head? h
    have htenant : (utf8 "/tenant/").head? = some (ascii '/') := by decide +kernel
    rw [List.head?_append, htenant, Option.some_or] at hhead
    exact absurd hhead (by decide)
  have hkept := escapedPath_setPath hset (validEncoded_identityPath t c) hstar
  unfold parseIdentityURI
  simp only [ne_eq, not_true_eq_false, or_self, if_false]
  rw [hkept, splitOn_identityPath t hc]
  simp only [not_true_eq_false, or_self, if_false, unescapeID_escape ht, unescapeID_escape hc]

theorem utf8_ne_nil {s : String} (h : s ≠ "") : utf8 s ≠ [] := fun hnil => h (utf8_inj hnil)

/-- **A certificate lets in its own cluster, and no other.** The ids may have any characters; of
several names in the certificate the first identity counts. -/
theorem authenticate_identityPath {t c : String} (ht : t ≠ "") (hc : c ≠ "") {path : UrlPath}
    (hpath : setPath (identityPath (utf8 t) (utf8 c)) = some path) {before after : List (Option Uri)}
    (hbefore : ∀ uri ∈ before, parseIdentityURI uri = none) {chains : ℕ} (hchains : 0 < chains)
    (issuers : List Certificate) (hello : AgentHello) :
    MTLSAuthenticator.authenticate (some (.tls ⟨chains,
        ⟨before ++ some ⟨"spiffe", identityTrustDomain, path⟩ :: after⟩ :: issuers⟩)) hello = .ok () ↔
      hello.tenantId = t ∧ hello.clusterId = c := by
  obtain ⟨path', hpath', hparse⟩ := parseIdentityURI_identityPath (utf8_ne_nil ht) (utf8_ne_nil hc)
  obtain rfl : path' = path := Option.some.inj (hpath'.symm.trans hpath)
  obtain ⟨chains, rfl⟩ := Nat.exists_eq_succ_of_ne_zero hchains.ne'
  have hidentity : certificateIdentity
      ⟨before ++ some ⟨"spiffe", identityTrustDomain, path'⟩ :: after⟩ = .ok (utf8 t, utf8 c) := by
    unfold certificateIdentity
    rw [List.findSome?_append, List.findSome?_eq_none_iff.mpr hbefore, Option.none_or,
      List.findSome?_cons, hparse]
  simp only [authenticate_eq_ok, Option.bind_some, AuthInfo.certificate, Option.some.injEq,
    exists_eq_left', hidentity, Except.ok.injEq, Prod.mk.injEq]
  exact ⟨fun h => ⟨utf8_inj h.1.symm, utf8_inj h.2.symm⟩, fun h => ⟨h.1 ▸ rfl, h.2 ▸ rfl⟩⟩

/-- A tenant with a slash and a percent sign in its id. -/
theorem authenticate_slashed : ∃ path, setPath (identityPath (utf8 "a/b%2F") (utf8 "c")) = some path ∧
    ∀ hello, MTLSAuthenticator.authenticate (some (.tls ⟨1,
        [⟨[none, some ⟨"spiffe", identityTrustDomain, path⟩]⟩]⟩)) hello = .ok () ↔
      hello.tenantId = "a/b%2F" ∧ hello.clusterId = "c" := by
  obtain ⟨path, hpath, -⟩ := parseIdentityURI_identityPath (t := utf8 "a/b%2F") (c := utf8 "c")
    (by decide +kernel) (by decide +kernel)
  refine ⟨path, hpath, fun hello => ?_⟩
  exact @authenticate_identityPath _ _ (by decide) (by decide) path hpath [none] []
    (List.forall_mem_singleton.mpr rfl) 1 Nat.one_pos [] hello

/-! ### What a run keeps for whom -/

/-- Streams are authenticated by what their connections present. -/
def AuthenticatedBy (peers : Set (Option AuthInfo)) (_ : World) (action : Action) : Prop :=
  ∀ hello authenticated loads, action = .connect (.hello hello) authenticated loads →
    ∃ peer ∈ peers, authenticated = (MTLSAuthenticator.authenticate peer hello).isOk

/-- A certificate of the cluster was presented. -/
def Certified (peers : Set (Option AuthInfo)) (t c : String) : Prop :=
  ∃ peer ∈ peers, ∃ certificate, peer.bind AuthInfo.certificate = some certificate ∧
    certificateIdentity certificate = .ok (utf8 t, utf8 c)

/-- What the service has, has sent and has stored is for clusters of `Own`; the other clusters
have the checkpoints that they had. -/
structure Confined (Own : String → String → Prop) (checkpoints : String → String → ℕ) (w : World) :
    Prop where
  sessions : ∀ sid s, w.sessions sid = some s → Own s.hello.tenantId s.hello.clusterId
  received : ∀ r ∈ w.received, Own r.tenantId r.clusterId
  sent : ∀ f ∈ w.sent, Own f.tenantId f.clusterId
  archive : ∀ r ∈ w.archive, Own r.tenantId r.clusterId
  inHand : ∀ b ∈ w.inHand, Own b.tenantId b.clusterId
  persisted : ∀ b ∈ w.persisted, Own b.tenantId b.clusterId
  stored : ∀ row ∈ w.stored, ∃ t c, Own t c ∧ row.value "tenant_id" = .string t ∧
    row.value "cluster_id" = .string c
  checkpoint : ∀ t c, ¬ Own t c → w.checkpoints t c = checkpoints t c

/-- A row has the tenant and the cluster of its batch. -/
theorem IsRowOf.cluster {X : Batch} {row : MappedRow} (h : IsRowOf X row) :
    row.value "tenant_id" = .string X.tenantId ∧ row.value "cluster_id" = .string X.clusterId := by
  obtain ⟨o, -, hmap⟩ := h
  have hpayload := (mapObservation_eq_ok.mp hmap).2
  rcases hkind : o.payload with _ | payload
  · rw [hkind] at hpayload
    cases hpayload
  rw [hkind] at hpayload
  cases payload <;> simp only [mapPayload, Except.ok.injEq, reduceCtorEq] at hpayload
  · obtain ⟨operation, -, hrow⟩ := bind_eq_ok.mp hpayload
    cases hrow
    exact ⟨rfl, rfl⟩
  all_goals
    obtain ⟨operation, -, hrow⟩ := bind_eq_ok.mp hpayload
    obtain ⟨-, hrow⟩ := check_bind_ok.mp hrow
    cases hrow
    exact ⟨rfl, rfl⟩

theorem insertTables_mem {insert : String → InsertOutcome} {rows : List MappedRow} {row : MappedRow} :
    ∀ {order : List String} {stored : List MappedRow},
    row ∈ (insertTables insert rows order stored).2 → row ∈ stored ∨ row ∈ rows
  | [], _, h => .inl h
  | table :: order, stored, h => by
    have hgroup : row ∈ stored ++ rows.filter (·.table = table) → row ∈ stored ∨ row ∈ rows := by
      intro hrow
      rcases List.mem_append.mp hrow with hrow | hrow
      · exact .inl hrow
      · exact .inr (List.mem_of_mem_filter hrow)
    unfold insertTables at h
    split at h
    · rcases insertTables_mem h with hrow | hrow
      · exact hgroup hrow
      · exact .inr hrow
    · dsimp only at h
      split at h
      · exact hgroup h
      · exact .inl h

/-- `Persist` adds rows of its batches only, also when it fails. -/
theorem persist_mem {insert : String → InsertOutcome} {stored : List MappedRow} {batches : List Batch}
    {row : MappedRow} (h : row ∈ (persist insert stored batches).2) :
    row ∈ stored ∨ ∃ b ∈ batches, IsRowOf b row := by
  unfold persist at h
  split at h
  · exact .inl h
  · rename_i rows hrows
    rcases insertTables_mem h with hrow | hrow
    · exact .inl hrow
    · obtain ⟨⟨b, o⟩, hp, hmap⟩ := exists_of_mem_rows hrows row hrow
      obtain ⟨hb, ho⟩ := mem_observationsOf_iff.mp hp
      exact .inr ⟨b, hb, o, ho, hmap⟩

namespace Confined

variable {E : Env} {Own : String → String → Prop} {checkpoints : String → String → ℕ} {w w' : World}
  {sid : ℕ} {s : Session}

theorem initial : Confined Own checkpoints (World.initial E checkpoints) where
  sessions _ _ h := nomatch h
  received := List.forall_mem_nil _
  sent := List.forall_mem_nil _
  archive := List.forall_mem_nil _
  inHand := List.forall_mem_nil _
  persisted := List.forall_mem_nil _
  stored := List.forall_mem_nil _
  checkpoint _ _ _ := rfl

theorem goto (h : Confined Own checkpoints w) (here : w.sessions sid = some s) {phase : Phase} :
    Confined Own checkpoints (w.goto sid s phase) where
  __ := h
  sessions sid' s' hs := by
    rcases goto_sessions hs with ⟨-, rfl⟩ | ⟨-, hs⟩
    · exact h.sessions sid s here
    · exact h.sessions sid' s' hs

theorem finish (h : Confined Own checkpoints w) : Confined Own checkpoints (w.finish sid s) where
  __ := h
  sessions sid' s' hs := h.sessions sid' s' (finish_sessions hs).2

theorem send (h : Confined Own checkpoints w) (here : w.sessions sid = some s)
    {frame : IngestionToAgent} : Confined Own checkpoints (w.send s frame) where
  __ := h
  sent f hf := by
    rcases List.mem_append.mp hf with hf | hf
    · exact h.sent f hf
    · rw [List.mem_singleton.mp hf]
      exact h.sessions sid s here

theorem receive (h : Confined Own checkpoints w) (here : w.sessions sid = some s)
    {batch : ObservationBatch} : Confined Own checkpoints (w.receive s batch) where
  __ := h
  received r hr := by
    rcases List.mem_append.mp hr with hr | hr
    · exact h.received r hr
    · rw [List.mem_singleton.mp hr]
      exact h.sessions sid s here

theorem reply (h : Confined Own checkpoints w) (here : w.sessions sid = some s)
    {frame : IngestionToAgent} {sent : Bool} : Confined Own checkpoints (w.reply sid s frame sent) := by
  unfold World.reply
  split
  · exact (h.send here).goto here
  · exact (h.send here).finish

/-- A session writes the checkpoint of its own cluster. -/
theorem save (h : Confined Own checkpoints w) (here : w.sessions sid = some s) {n : ℕ} :
    Confined Own checkpoints (w.save s n) where
  __ := h
  checkpoint t c hown := by
    show Function.update w.checkpoints s.hello.tenantId _ t c = _
    by_cases ht : t = s.hello.tenantId
    · have hc : c ≠ s.hello.clusterId := by
        rintro rfl
        exact hown (ht ▸ h.sessions sid s here)
      rw [ht, Function.update_self, Function.update_of_ne hc, ← ht]
      exact h.checkpoint t c hown
    · rw [Function.update_of_ne ht]
      exact h.checkpoint t c hown

theorem archived (h : Confined Own checkpoints w) (here : w.sessions sid = some s) {p : Pending}
    {now : Timestamp} :
    Confined Own checkpoints { w with archive := w.archive ++ [archiveRecord s sid p now] } where
  __ := h
  archive r hr := by
    rcases List.mem_append.mp hr with hr | hr
    · exact h.archive r hr
    · rw [List.mem_singleton.mp hr]
      exact h.sessions sid s here

theorem enqueued (h : Confined Own checkpoints w) (here : w.sessions sid = some s) {p : Pending}
    {now : Timestamp} {q : Queue Batch}
    (hq : w.queue.tryEnqueue (queuedBatch s sid p now w.nextChannel) = some q) :
    Confined Own checkpoints { w with queue := q, nextChannel := w.nextChannel + 1 } where
  __ := h
  inHand b hb := by
    rcases inHand_enqueued hq hb with hb | rfl
    · exact h.inHand b hb
    · exact h.sessions sid s here

theorem opened (h : Confined Own checkpoints w) {hello : AgentHello} {st : ClusterState}
    (hown : Own hello.tenantId hello.clusterId) : Confined Own checkpoints (w.opened hello st) where
  __ := h
  sessions sid' s' hs := by
    rcases opened_sessions hs with ⟨-, rfl⟩ | ⟨-, hs⟩
    · exact hown
    · exact h.sessions sid' s' hs

theorem restarted (h : Confined Own checkpoints w) : Confined Own checkpoints (w.start E) where
  __ := h
  sessions _ _ hs := nomatch hs
  inHand := List.forall_mem_nil _

/-- The worker moves batches that are in hand. -/
theorem work (h : Confined Own checkpoints w) {q : Queue Batch} {closed : List ℕ} {worker : WorkerPhase}
    {stored : List MappedRow} {persisted : List Batch}
    (hinHand : { w with queue := q, worker := worker }.inHand ⊆ w.inHand)
    (hstored : ∀ row ∈ stored, row ∈ w.stored ∨ ∃ b ∈ w.inHand, IsRowOf b row)
    (hpersisted : ∀ b ∈ persisted, b ∈ w.persisted ∨ b ∈ w.inHand) :
    Confined Own checkpoints { w with
      queue := q, closed := closed, worker := worker, stored := stored, persisted := persisted } where
  __ := h
  inHand b hb := h.inHand b (hinHand hb)
  persisted b hb := (hpersisted b hb).elim (h.persisted b) (h.inHand b)
  stored row hrow := by
    rcases hstored row hrow with hrow | ⟨b, hb, hrow⟩
    · exact h.stored row hrow
    · exact ⟨b.tenantId, b.clusterId, h.inHand b hb, hrow.cluster⟩

/-- What `Persist` leaves in the store. -/
theorem stored_of_persist {insert : String → InsertOutcome} {lease : List Batch}
    {result : Except PersistError Unit} {stored : List MappedRow} (hworker : w.worker = .persisting lease)
    (hpersist : persist insert w.stored lease = (result, stored)) :
    ∀ row ∈ stored, row ∈ w.stored ∨ ∃ b ∈ w.inHand, IsRowOf b row := by
  intro row hrow
  have hfrom : row ∈ (persist insert w.stored lease).2 := by
    rw [hpersist]
    exact hrow
  rcases persist_mem hfrom with hold | ⟨b, hb, hnew⟩
  · exact .inl hold
  · refine .inr ⟨b, ?_, hnew⟩
    simp only [World.inHand, hworker]
    exact List.mem_append_left _ hb

theorem step (h : Confined Own checkpoints w) {a : Action}
    (ha : ∀ hello loads, a = .connect (.hello hello) true loads → Own hello.tenantId hello.clusterId)
    (hs : Step E w a w') : Confined Own checkpoints w' := by
  have same : ∀ row ∈ w.stored, row ∈ w.stored ∨ ∃ b ∈ w.inHand, IsRowOf b row := fun _ => .inl
  cases hs with
  | refused => exact h
  | loadFailed => exact { h with }
  | acquired => exact h.opened (ha _ _ rfl)
  | answered here => exact (h.receive here).reply here
  | accepted here => exact (h.receive here).goto here
  | greeted here | archiveFailed here | full here | saveFailed here => exact h.reply here
  | left => exact h.finish
  | below here | notified here => exact h.goto here
  | above here => exact (h.send here).goto here
  | flowLeft here => exact (h.send here).finish
  | archived here => exact (h.archived here).goto here
  | enqueued here _ hq => exact (h.enqueued here hq).goto here
  | fullFlow here => exact (h.send here).reply here
  | saved here => exact (h.save here).goto here
  | saveFailedLate here => exact (h.save here).reply here
  | @published sid s p _ here =>
    have h' : Confined Own checkpoints (w.advance s.key p.batch.lastSequence) := { h with }
    exact h'.reply here
  | leased idle hq =>
    refine h.work (fun b hb => ?_) same fun _ => .inl
    simp only [World.inHand, Queue.acquire_items hq] at hb
    simpa only [World.inHand, idle] using hb
  | persisted hworker result =>
    refine h.work (fun b hb => ?_) (stored_of_persist hworker result) fun b hb => ?_
    · simpa only [World.inHand, hworker] using hb
    · refine (List.mem_append.mp hb).imp_right fun hb => ?_
      simp only [World.inHand, hworker]
      exact List.mem_append_left _ hb
  | persistFailed hworker result next =>
    refine h.work (fun b hb => ?_) (stored_of_persist hworker result) fun _ => .inl
    rcases next with rfl | rfl <;> simpa only [World.inHand, hworker, Queue.retry_items] using hb
  | marked hworker =>
    refine h.work (fun b hb => ?_) same fun _ => .inl
    simpa only [World.inHand, hworker] using hb
  | committed hworker =>
    refine h.work (fun b hb => ?_) same fun _ => .inl
    simp only [World.inHand, Queue.commit_items] at hb
    simp only [World.inHand, hworker]
    exact List.mem_append_right _ hb
  | stopped hworker =>
    refine h.work (fun b hb => ?_) same fun _ => .inl
    simpa only [World.inHand, hworker] using hb
  | restarted => exact h.restarted

end Confined

/-- The connection of the agent of the plain run. -/
def plainPeer : AuthInfo :=
  .tls ⟨1, [⟨[none, (setPath (identityPath (utf8 "t") (utf8 "c"))).map fun path =>
    ⟨"spiffe", identityTrustDomain, path⟩]⟩]⟩

end Ingestion
end KubeCost
