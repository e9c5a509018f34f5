/-
# Signed requests

`internal/gatewayauth/gatewayauth.go`. The gateway signs what it forwards: an
HMAC-SHA256 under a shared key over the method, the escaped path, the raw query, the
tenant header, the gateway's identity and the second of signing, one to a line.
A backend verifies the signature and that the second is not far from its own clock.

`message_inj`: fields without a newline are determined by the lines. So under a key
for which no two of the messages in play collide, and whose signatures only
`SignRequest` makes, a request is accepted exactly if it was signed, not long ago
(`verifyRequest_iff`). "Not long ago" has one exception: `Time.Sub` cuts a difference to
the greatest `time.Duration`, so that skew allows every time (`accepted_long_after`).
-/
import KubeCost.Base64
import KubeCost.Hash
import KubeCost.Header
import KubeCost.Time

namespace KubeCost
namespace Gateway

/-- An HTTP request: `path` is `URL.Path`, with the escapes decoded, and `escapedPath` is
`URL.EscapedPath()`. -/
structure Request where
  method : String
  path : String
  escapedPath : String
  rawQuery : String
  header : Header

def tenantHeader : String := "X-Kube-Cost-Tenant-ID"
def identityHeader : String := "X-Kube-Cost-Gateway-Identity"
def timestampHeader : String := "X-Kube-Cost-Gateway-Timestamp"
def signatureHeader : String := "X-Kube-Cost-Gateway-Signature"

inductive VerifyError
  | missingSignature
  | invalidTimestamp
  | expiredSignature
  | invalidSignature
deriving DecidableEq

def VerifyError.text : VerifyError → String
  | .missingSignature => "gateway signature is required"
  | .invalidTimestamp => "gateway signature timestamp is invalid"
  | .expiredSignature => "gateway signature timestamp is outside allowed skew"
  | .invalidSignature => "gateway signature is invalid"

/-- What `signature` writes to the MAC. -/
def message (r : Request) (identity timestamp : String) : List UInt8 :=
  utf8 r.method ++ 10 :: (utf8 r.escapedPath ++ 10 :: (utf8 r.rawQuery ++ 10 ::
    (utf8 (r.header.get tenantHeader) ++ 10 :: (utf8 identity ++ 10 :: utf8 timestamp))))

def signature (r : Request) (identity timestamp key : String) : String :=
  Base64.encode (Hash.hmacSHA256 (utf8 key) (message r identity timestamp))

/-- The identity that is signed: trimmed, and `gateway` for a blank one. -/
def identityOrDefault (identity : String) : String :=
  let identity := trimSpace identity
  if identity = "" then "gateway" else identity

def signRequest (r : Request) (identity key : String) (now : Instant) : Request :=
  let key := trimSpace key
  if key = "" then r
  else
    let identity := identityOrDefault identity
    let timestamp := formatInt now.unix
    let h := (r.header.set identityHeader identity).set timestampHeader timestamp
    { r with header := h.set signatureHeader (signature { r with header := h } identity timestamp key) }

def verifyRequest (r : Request) (key : String) (now maxSkew : Instant) : Except VerifyError Unit :=
  let key := trimSpace key
  if key = "" then .ok ()
  else
    let identity := trimSpace (r.header.get identityHeader)
    let timestamp := trimSpace (r.header.get timestampHeader)
    let actual := trimSpace (r.header.get signatureHeader)
    if identity = "" ∨ timestamp = "" ∨ actual = "" then .error .missingSignature
    else
      match parseInt timestamp with
      | none => .error .invalidTimestamp
      | some seconds =>
        let signedAt := Instant.ofUnix seconds
        if maxSkew > 0 ∧ (now.sub signedAt > maxSkew ∨ signedAt.sub now > maxSkew) then
          .error .expiredSignature
        else if actual ≠ signature r identity timestamp key then .error .invalidSignature
        else .ok ()

/-! ### Messages -/

/-- The field has no newline, the separator of the message. -/
def NewlineFree (s : String) : Prop := 10 ∉ utf8 s

instance (s : String) : Decidable (NewlineFree s) := inferInstanceAs (Decidable (¬ _))

/-- The fields that a signature binds, besides the identity, have no newline. -/
structure Lines (r : Request) (identity : String) : Prop where
  method : NewlineFree r.method
  escapedPath : NewlineFree r.escapedPath
  rawQuery : NewlineFree r.rawQuery
  tenant : NewlineFree (r.header.get tenantHeader)
  identity : NewlineFree identity

/-- **The message determines its fields.** -/
theorem message_inj {r r' : Request} {identity identity' timestamp timestamp' : String}
    (h : Lines r identity) (h' : Lines r' identity')
    (heq : message r identity timestamp = message r' identity' timestamp') :
    r.method = r'.method ∧ r.escapedPath = r'.escapedPath ∧ r.rawQuery = r'.rawQuery ∧
      r.header.get tenantHeader = r'.header.get tenantHeader ∧ identity = identity' ∧
      timestamp = timestamp' := by
  obtain ⟨hmethod, heq⟩ := append_sep_inj h.method h'.method heq
  obtain ⟨hpath, heq⟩ := append_sep_inj h.escapedPath h'.escapedPath heq
  obtain ⟨hquery, heq⟩ := append_sep_inj h.rawQuery h'.rawQuery heq
  obtain ⟨htenant, heq⟩ := append_sep_inj h.tenant h'.tenant heq
  obtain ⟨hidentity, heq⟩ := append_sep_inj h.identity h'.identity heq
  exact ⟨utf8_inj hmethod, utf8_inj hpath, utf8_inj hquery, utf8_inj htenant, utf8_inj hidentity,
    utf8_inj heq⟩

/-! ### What signing produces -/

theorem identityOrDefault_ne (identity : String) : identityOrDefault identity ≠ "" := by
  unfold identityOrDefault
  simp only
  split
  · decide
  · assumption

theorem trimSpace_identityOrDefault (identity : String) :
    trimSpace (identityOrDefault identity) = identityOrDefault identity := by
  unfold identityOrDefault
  simp only
  split
  · decide
  · exact trimSpace_trimSpace identity

theorem signature_ne (r : Request) (identity timestamp key : String) :
    signature r identity timestamp key ≠ "" :=
  Base64.encode_ne (Hash.hmacSHA256_ne_nil _ _)

theorem trimSpace_signature (r : Request) (identity timestamp key : String) :
    trimSpace (signature r identity timestamp key) = signature r identity timestamp key :=
  Base64.trimSpace_encode _

/-- Signing touches the headers only. -/
theorem signRequest_url (r : Request) (identity key : String) (now : Instant) :
    (signRequest r identity key now).method = r.method ∧ (signRequest r identity key now).path = r.path := by
  unfold signRequest
  simp only
  split
  · exact ⟨rfl, rfl⟩
  · exact ⟨rfl, rfl⟩

section

variable {key : String} (hkey : trimSpace key ≠ "") (r : Request) (identity : String) (now : Instant)

include hkey

theorem signRequest_identity : (signRequest r identity key now).header.get identityHeader =
    identityOrDefault identity := by
  have hid : canonicalHeaderKey signatureHeader ≠ canonicalHeaderKey identityHeader := by decide
  have hts : canonicalHeaderKey timestampHeader ≠ canonicalHeaderKey identityHeader := by decide
  simp only [signRequest, if_neg hkey, Header.get_set, if_neg hid, if_neg hts, if_true]

theorem signRequest_timestamp : (signRequest r identity key now).header.get timestampHeader =
    formatInt now.unix := by
  have hts : canonicalHeaderKey signatureHeader ≠ canonicalHeaderKey timestampHeader := by decide
  simp only [signRequest, if_neg hkey, Header.get_set, if_neg hts, if_true]

theorem signRequest_signature : (signRequest r identity key now).header.get signatureHeader =
    signature r (identityOrDefault identity) (formatInt now.unix) (trimSpace key) := by
  have hid : canonicalHeaderKey identityHeader ≠ canonicalHeaderKey tenantHeader := by decide
  have hts : canonicalHeaderKey timestampHeader ≠ canonicalHeaderKey tenantHeader := by decide
  -- neither header that is set before the signature is the one it covers
  simp only [signRequest, if_neg hkey, Header.get_set, if_true, signature, message, if_neg hid,
    if_neg hts]

end

/-! ### Verification -/

/-- A `time.Duration` is an `int64`. -/
def maxDuration : Instant := 9223372036854775807

/-- The instants are not further apart than the skew. -/
def Within (skew s t : Instant) : Prop := s - t ≤ skew ∧ t - s ≤ skew

instance (skew s t : Instant) : Decidable (Within skew s t) := inferInstanceAs (Decidable (_ ∧ _))

/-- A skew below the greatest duration is kept, the greatest one allows every time. -/
theorem not_expired_iff {now signedAt maxSkew : ℤ} (hskew : maxSkew ≤ maxDuration) :
    ¬ (Instant.sub now signedAt > maxSkew ∨ Instant.sub signedAt now > maxSkew) ↔
      Within maxSkew now signedAt ∨ maxSkew = maxDuration := by
  have hskew : maxSkew ≤ 9223372036854775807 := hskew
  show ¬ (max (-9223372036854775808) (min 9223372036854775807 (now - signedAt)) > maxSkew ∨
      max (-9223372036854775808) (min 9223372036854775807 (signedAt - now)) > maxSkew) ↔
    (now - signedAt ≤ maxSkew ∧ signedAt - now ≤ maxSkew) ∨ maxSkew = 9223372036854775807
  omega

/-- **What `VerifyRequest` accepts.** -/
theorem verifyRequest_eq_ok {r : Request} {key : String} (hkey : trimSpace key ≠ "")
    {now maxSkew : Instant} (hpos : 0 < maxSkew) (hskew : maxSkew ≤ maxDuration) :
    verifyRequest r key now maxSkew = .ok () ↔
      (trimSpace (r.header.get identityHeader) ≠ "" ∧ trimSpace (r.header.get timestampHeader) ≠ "" ∧
        trimSpace (r.header.get signatureHeader) ≠ "") ∧
      (∃ seconds, parseInt (trimSpace (r.header.get timestampHeader)) = some seconds ∧
        (Within maxSkew now (Instant.ofUnix seconds) ∨ maxSkew = maxDuration)) ∧
      trimSpace (r.header.get signatureHeader) = signature r (trimSpace (r.header.get identityHeader))
        (trimSpace (r.header.get timestampHeader)) (trimSpace key) := by
  rw [verifyRequest]
  simp only
  rw [if_neg hkey]
  split
  · rename_i hmissing
    refine ⟨fun h => (nomatch h), fun h => ?_⟩
    obtain ⟨⟨hid, hts, hsig⟩, -⟩ := h
    rcases hmissing with hmissing | hmissing | hmissing
    · exact absurd hmissing hid
    · exact absurd hmissing hts
    · exact absurd hmissing hsig
  · rename_i hpresent
    rw [not_or, not_or] at hpresent
    rw [and_iff_right hpresent]
    cases parseInt (trimSpace (r.header.get timestampHeader)) with
    | none => exact ⟨fun h => (nomatch h), fun h => (nomatch h.1)⟩
    | some seconds =>
      simp only [Option.some.injEq, exists_eq_left']
      rw [← not_expired_iff hskew]
      split
      · rename_i hexpired
        exact ⟨fun h => (nomatch h), fun h => absurd hexpired.2 h.1⟩
      · rename_i hfresh
        rw [and_iff_right fun hexpired => hfresh ⟨hpos, hexpired⟩]
        split
        · rename_i hne
          exact ⟨fun h => (nomatch h), fun h => absurd h hne⟩
        · rename_i heq
          exact ⟨fun _ => not_not.mp heq, fun _ => rfl⟩

/-! ### Calls of `SignRequest` -/

/-- A call of `SignRequest` under the key. -/
structure Call where
  request : Request
  identity : String
  time : Instant

/-- The request as the call leaves it. -/
def Call.signed (key : String) (call : Call) : Request :=
  signRequest call.request call.identity key call.time

def Call.message (call : Call) : List UInt8 :=
  Gateway.message call.request (identityOrDefault call.identity) (formatInt call.time.unix)

/-- The whole second of the call. -/
def Call.second (call : Call) : Instant := call.time / 1000000000 * 1000000000

/-- What `VerifyRequest` takes for the message of the request. -/
def receivedMessage (r : Request) : List UInt8 :=
  message r (trimSpace (r.header.get identityHeader)) (trimSpace (r.header.get timestampHeader))

/-- **The request is the one that the call signed**: the fields are the same, and the
three headers are those of the call up to surrounding blanks. -/
structure Call.Signs (key : String) (call : Call) (r : Request) : Prop where
  method : call.request.method = r.method
  escapedPath : call.request.escapedPath = r.escapedPath
  rawQuery : call.request.rawQuery = r.rawQuery
  tenant : call.request.header.get tenantHeader = r.header.get tenantHeader
  headers : ∀ name ∈ [identityHeader, timestampHeader, signatureHeader],
    trimSpace (r.header.get name) = trimSpace ((call.signed key).header.get name)

/-- What is assumed of HMAC-SHA256 under the key, for the messages in play: none collides
with that of the request, and a valid signature is one that a call has made. -/
structure Secure (key : String) (calls : List Call) (r : Request) : Prop where
  collisionFree : ∀ call ∈ calls, Hash.hmacSHA256 (utf8 (trimSpace key)) call.message =
    Hash.hmacSHA256 (utf8 (trimSpace key)) (receivedMessage r) → call.message = receivedMessage r
  unforgeable : trimSpace (r.header.get signatureHeader) =
      Base64.encode (Hash.hmacSHA256 (utf8 (trimSpace key)) (receivedMessage r)) →
    ∃ call ∈ calls, (call.signed key).header.get signatureHeader =
      trimSpace (r.header.get signatureHeader)

theorem Call.Signs.message_eq {key : String} (hkey : trimSpace key ≠ "") {call : Call} {r : Request}
    (h : call.Signs key r) : trimSpace (r.header.get identityHeader) = identityOrDefault call.identity ∧
      trimSpace (r.header.get timestampHeader) = formatInt call.time.unix ∧
      trimSpace (r.header.get signatureHeader) =
        signature r (identityOrDefault call.identity) (formatInt call.time.unix) (trimSpace key) := by
  refine ⟨?_, ?_, ?_⟩
  · rw [h.headers identityHeader (by decide), Call.signed, signRequest_identity hkey,
      trimSpace_identityOrDefault]
  · rw [h.headers timestampHeader (by decide), Call.signed, signRequest_timestamp hkey,
      trimSpace_formatInt]
  · rw [h.headers signatureHeader (by decide), Call.signed, signRequest_signature hkey,
      trimSpace_signature, signature, signature, Gateway.message, Gateway.message, h.method,
      h.escapedPath, h.rawQuery, h.tenant]

/-- **Signatures bind the request.** Under a key that is secure for the messages in play,
and for fields without newlines, a request is accepted exactly if some call signed it
at a second within the skew of now; the greatest skew allows every second. -/
theorem verifyRequest_iff {key : String} (hkey : trimSpace key ≠ "") {calls : List Call} {r : Request}
    (hsecure : Secure key calls r) (hr : Lines r (trimSpace (r.header.get identityHeader)))
    (hcalls : ∀ call ∈ calls, Lines call.request (identityOrDefault call.identity) ∧ call.time.Representable)
    {now maxSkew : Instant} (hpos : 0 < maxSkew) (hskew : maxSkew ≤ maxDuration) :
    verifyRequest r key now maxSkew = .ok () ↔
      ∃ call ∈ calls, call.Signs key r ∧ (Within maxSkew now call.second ∨ maxSkew = maxDuration) := by
  rw [verifyRequest_eq_ok hkey hpos hskew]
  have hsecond : ∀ call ∈ calls, Instant.ofUnix call.time.unix = call.second := fun call hcall =>
    Instant.ofUnix_unix (hcalls call hcall).2
  have hparse : ∀ call : Call, parseInt (formatInt call.time.unix) = some call.time.unix := fun call =>
    parseInt_formatInt (Instant.unix_bounds _).1 (Instant.unix_bounds _).2
  constructor
  · rintro ⟨-, ⟨seconds, hseconds, hwithin⟩, hsig⟩
    obtain ⟨call, hcall, hproduced⟩ := hsecure.unforgeable hsig
    have hmac : call.message = receivedMessage r := by
      refine hsecure.collisionFree call hcall (Base64.encode_inj ?_)
      rw [hsig, Call.signed, signRequest_signature hkey] at hproduced
      exact hproduced
    obtain ⟨hmethod, hpath, hquery, htenant, hidentity, htimestamp⟩ :=
      message_inj (hcalls call hcall).1 hr hmac
    refine ⟨call, hcall, ⟨hmethod, hpath, hquery, htenant, fun name hname => ?_⟩, ?_⟩
    · simp only [List.mem_cons, List.not_mem_nil, or_false] at hname
      rcases hname with rfl | rfl | rfl
      · rw [Call.signed, signRequest_identity hkey, trimSpace_identityOrDefault, hidentity]
      · rw [Call.signed, signRequest_timestamp hkey, trimSpace_formatInt, htimestamp]
      · rw [hproduced, trimSpace_trimSpace]
    · rw [← htimestamp, hparse, Option.some.injEq] at hseconds
      rwa [← hsecond call hcall, hseconds]
  · rintro ⟨call, hcall, hsigns, hwithin⟩
    obtain ⟨hidentity, htimestamp, hsig⟩ := hsigns.message_eq hkey
    rw [hidentity, htimestamp, hsig]
    refine ⟨⟨identityOrDefault_ne _, formatInt_ne _, signature_ne _ _ _ _⟩,
      ⟨call.time.unix, hparse call, ?_⟩, rfl⟩
    rwa [hsecond call hcall]

/-- A request for the usage of a tenant, before it is signed. -/
def usageRequest : Request where
  method := "GET"
  path := "/api/v1/usage"
  escapedPath := "/api/v1/usage"
  rawQuery := ""
  header := fun key => if key = "X-Kube-Cost-Tenant-Id" then ["tenant-a"] else []

/-- One call, a second after the epoch. -/
def usageCall : Call := ⟨usageRequest, " gateway ", 1500000000⟩

theorem secure_usageCall : Secure "key" [usageCall] (usageCall.signed "key") := by
  constructor
  · intro call hcall _
    rw [List.mem_singleton.mp hcall]
    rw [receivedMessage, Call.signed, signRequest_identity (by decide),
      signRequest_timestamp (by decide), trimSpace_identityOrDefault, trimSpace_formatInt]
    decide +kernel
  · intro _
    refine ⟨usageCall, List.mem_singleton_self _, ?_⟩
    rw [Call.signed, signRequest_signature (by decide), trimSpace_signature]

theorem lines_usageCall : Lines (usageCall.signed "key")
    (trimSpace ((usageCall.signed "key").header.get identityHeader)) :=
  ⟨by decide +kernel, by decide +kernel, by decide +kernel, by decide +kernel, by decide +kernel⟩

theorem verifyRequest_iff_usageCall :
    verifyRequest (usageCall.signed "key") "key" 2000000000 300000000000 = .ok () := by
  refine (verifyRequest_iff (by decide) secure_usageCall lines_usageCall ?_ (by decide)
    (by decide)).mpr ?_
  · refine List.forall_mem_singleton.mpr ⟨?_, by decide⟩
    exact ⟨by decide, by decide, by decide, by decide, by decide⟩
  · refine ⟨usageCall, List.mem_singleton_self _, ⟨rfl, rfl, rfl, ?_, fun _ _ => rfl⟩, .inl (by decide)⟩
    decide +kernel

/-- **The greatest skew allows a signature of any age.** The only call was made a second after
the epoch, and its request is accepted three hundred years later. -/
theorem accepted_long_after : Secure "key" [usageCall] (usageCall.signed "key") ∧
    verifyRequest (usageCall.signed "key") "key" 10000000000000000000 maxDuration = .ok () ∧
    ¬ ∃ call ∈ [usageCall], call.Signs "key" (usageCall.signed "key") ∧
      Within maxDuration 10000000000000000000 call.second := by
  refine ⟨secure_usageCall, by decide +kernel, ?_⟩
  rintro ⟨call, hcall, -, hwithin⟩
  rw [List.mem_singleton.mp hcall] at hwithin
  exact absurd hwithin (by decide)

end Gateway
end KubeCost
