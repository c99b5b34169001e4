import Maskura.Backend.Addresses
import Maskura.Iceberg.Names
import Maskura.Policy.Canonical

/-!
Where the gateway may send a tenant's requests. Endpoints that a workspace has
configured and presigned URLs that come with a request have a policy each: both
match the host against a list of trusted hosts, resolve it, and look at every
address of the answer. The URL parser, the address parser, the public suffix
list and the HTTP client are other people's code and stay parameters.
-/

namespace Maskura.Backend

open Maskura.Lib Maskura.Lib.Text
open Maskura.Iceberg (parseU64)
open Maskura.Policy (trim)

abbrev Text := List Char

def httpScheme : Text := "http".toList

def httpsScheme : Text := "https".toList

/-- What the code reads of a parsed URL. The host is as `host_str` gives it. -/
structure Url where
  scheme : Text
  username : Text
  password : Option Text
  host : Option Text
  path : Text
  query : Option Text
  fragment : Option Text
  deriving DecidableEq, Repr

structure SocketAddr where
  ip : IpAddr
  port : ℕ
  deriving DecidableEq, Repr

/-- An HTTP client without redirects and proxies, with one host pinned. -/
structure HttpClient where
  host : Text
  pinned : SocketAddr
  deriving DecidableEq, Repr

/-- `AddressResolver::resolve`. -/
abbrev AddressResolver := (host : Text) → (port : ℕ) → Option (List SocketAddr)

structure Platform where
  /-- `Url::parse`. -/
  parseUrl : Text → Option Url
  /-- `Url::port_or_known_default`. -/
  portOrKnownDefault : Url → Option ℕ
  /-- `Url::query_pairs`. -/
  queryPairs : Url → List (Text × Text)
  /-- `str::parse::<IpAddr>`. -/
  parseIp : Text → Option IpAddr
  /-- `IpAddr::to_string`. -/
  showIp : IpAddr → Text
  /-- `psl::domain_str`. -/
  domainStr : Text → Option Text
  /-- `reqwest`'s client builder accepts the pinned host. -/
  buildsClient : Text → SocketAddr → Bool

/-! ### Host names -/

def isAscii (c : Char) : Bool := c.val < 128

/-- `str::to_ascii_lowercase`. -/
def toAsciiLowercase (text : Text) : Text := text.map Char.toLower

def invalidHostname : String := "workspace endpoint allowlist contains an invalid hostname"

-- the lengths are in bytes, which makes a difference only to names that are
-- not ASCII and rejected anyway
def validLabel (label : Text) : Bool :=
  label ≠ [] ∧ label.length ≤ 63 ∧ label.head? ≠ some '-' ∧ label.getLast? ≠ some '-' ∧
    label.all fun c => c.isAlphanum || c == '-'

def validateDnsName (platform : Platform) (host : Text) : Except String Unit := do
  rejectIf (host = [] ∨ 253 < host.length ∨ ¬ host.all isAscii ∨
    (platform.parseIp host).isSome ∨ host.getLast? = some '.') invalidHostname
  rejectIf (¬ (host.splitOn '.').all validLabel) invalidHostname

def mappedMessage : String := "workspace endpoint uses a forbidden IPv4-mapped IPv6 address"

/-- The text without the brackets around it, if it has both. -/
def stripBrackets (host : Text) : Text :=
  match host with
  | '[' :: rest => (rest.dropSuffix? [']']).getD host
  | _ => host

def normalizeEndpointHost (platform : Platform) (host : Text) : Except String Text := do
  let host := toAsciiLowercase (stripBrackets host)
  rejectIf (host.getLast? = some '.') "workspace endpoint host must not have a trailing dot"
  match platform.parseIp host with
  | some ip => do
      rejectIf (isIpv4Mapped ip = true) mappedMessage
      pure (platform.showIp ip)
  | none => pure host

inductive TrustedHostPattern
  | exact (host : Text)
  | suffix (domain : Text)
  deriving DecidableEq, Repr

def TrustedHostPattern.parse (platform : Platform) (value : Text) :
    Except String TrustedHostPattern := do
  let value := toAsciiLowercase (trim value)
  rejectIf (value = []) "workspace endpoint allowlist contains an empty entry"
  match value.dropPrefix? ['*', '.'] with
  | some domain => do
      rejectIf ('*' ∈ domain ∨ (platform.domainStr domain).isNone)
        "workspace endpoint allowlist contains a broad wildcard"
      validateDnsName platform domain
      pure (.suffix domain)
  | none => do
      rejectIf ('*' ∈ value) "workspace endpoint allowlist contains an invalid wildcard"
      validateDnsName platform value
      pure (.exact value)

/-- A suffix is matched behind a dot that something stands before. -/
def TrustedHostPattern.matches (pattern : TrustedHostPattern) (host : Text) : Bool :=
  match pattern with
  | .exact allowed => host = allowed
  | .suffix domain =>
      match host.dropSuffix? domain with
      | some front => 1 < front.length ∧ front.getLast? = some '.'
      | none => false

/-! ### Endpoints of a workspace -/

structure WorkspaceEndpointPolicy where
  explicitSingleTenant : Bool
  trustedHosts : List TrustedHostPattern
  privateAllowedHosts : List Text
  resolver : AddressResolver

/-- What stands between `://` and the next slash, question mark or hash. -/
def authorityOf (endpoint : Text) : Text :=
  (((splitAtFirst "://".toList endpoint).map (·.2)).getD []).takeWhile
    fun c => c ≠ '/' ∧ c ≠ '?' ∧ c ≠ '#'

/-- HTTPS, or HTTP where it is allowed. -/
def requireScheme (allowHttp : Bool) (scheme : Text) (plain unsupported : String) :
    Except String Unit :=
  if scheme = httpsScheme then .ok ()
  else if scheme = httpScheme then (if allowHttp then .ok () else .error plain)
  else .error unsupported

/-- The addresses a host of a workspace endpoint resolved to. -/
def WorkspaceEndpointPolicy.checkAddresses (policy : WorkspaceEndpointPolicy) (host : Text)
    (addresses : List SocketAddr) : Except String Unit := do
  rejectIf (addresses = []) "workspace endpoint DNS resolution returned no addresses"
  rejectIf (addresses.any (isIpv4Mapped ·.ip) = true) mappedMessage
  rejectIf (addresses.any (isForbiddenEndpointIp ·.ip) = true ∧
    (policy.explicitSingleTenant = false ∨ ¬policy.privateAllowedHosts.contains host))
    "workspace endpoint resolves to a forbidden address range"

/-- The host of a workspace endpoint, as it is resolved. -/
def WorkspaceEndpointPolicy.trustedHost (platform : Platform) (policy : WorkspaceEndpointPolicy)
    (url : Url) : Except String Text := do
  let host ← okOr url.host "workspace endpoint must have a host"
  let host ← normalizeEndpointHost platform host
  if (platform.parseIp host).isNone then validateDnsName platform host
  rejectIf (policy.explicitSingleTenant = false ∧ (platform.parseIp host).isSome)
    "multi-tenant workspace endpoints require a trusted provider hostname"
  rejectIf (policy.explicitSingleTenant = false ∧ policy.trustedHosts.any (·.matches host) = false)
    "workspace endpoint host is not in MASKURA_WORKSPACE_ENDPOINT_ALLOWLIST"
  pure host

def WorkspaceEndpointPolicy.validate (platform : Platform) (policy : WorkspaceEndpointPolicy)
    (endpoint : Text) : Except String Url := do
  rejectIf (¬ endpoint.all isAscii) "workspace endpoint must use an ASCII hostname"
  rejectIf ((authorityOf endpoint).any Char.isUpper = true)
    "workspace endpoint host must be lowercase"
  let url ← okOr (platform.parseUrl endpoint)
    "workspace endpoint must be an absolute HTTP(S) URL"
  requireScheme policy.explicitSingleTenant url.scheme "workspace endpoints require HTTPS"
    "workspace endpoint URL scheme is not supported"
  rejectIf (url.username ≠ [] ∨ url.password.isSome ∨ url.query.isSome ∨ url.fragment.isSome)
    "workspace endpoint userinfo, query strings, and fragments are forbidden"
  let host ← policy.trustedHost platform url
  let port ← okOr (platform.portOrKnownDefault url) "workspace endpoint has no usable port"
  let addresses ← okOr (policy.resolver host port) "workspace endpoint DNS resolution failed"
  policy.checkAddresses host addresses
  pure url

/-! ### Presigned URLs -/

/-- Nanoseconds since the epoch; the seconds fit in an `i64`. -/
def systemTimeBound : ℕ := 2 ^ 63 * 10 ^ 9

/-- `SystemTime::checked_add`. -/
def checkedAdd (time duration : ℕ) : Option ℕ :=
  if time + duration < systemTimeBound then some (time + duration) else none

def fromSecs (seconds : ℕ) : ℕ := seconds * 10 ^ 9

/-- Two bytes as a two-digit number. Bytes behind `9` count as larger digits. -/
def bytePair (bytes : List UInt8) (index : ℕ) : Option ℕ := do
  let tens ← bytes[index]?
  let ones ← bytes[index + 1]?
  guard (48 ≤ tens.toNat ∧ 48 ≤ ones.toNat)
  some ((tens.toNat - 48) * 10 + (ones.toNat - 48))

/-- Days since the epoch of a date of the Gregorian calendar. -/
def daysFromCivil (year month day : ℤ) : ℤ :=
  let adjusted := if month ≤ 2 then year - 1 else year
  let era := (if 0 ≤ adjusted then adjusted else adjusted - 399).tdiv 400
  let yearOfEra := adjusted - era * 400
  let dayOfYear := (153 * ((month + 9) % 12) + 2) / 5 + day - 1
  era * 146097 + (yearOfEra * 365 + yearOfEra / 4 - yearOfEra / 100 + dayOfYear) - 719468

def parseAmzTimestamp (value : Text) : Option ℕ := do
  let bytes := value.flatMap String.utf8EncodeChar
  guard (bytes.length = 16 ∧ bytes[8]? = some 'T'.toUInt8 ∧ bytes[15]? = some 'Z'.toUInt8)
  let year := (← bytePair bytes 0) * 100 + (← bytePair bytes 2)
  let month ← bytePair bytes 4
  let day ← bytePair bytes 6
  let hour ← bytePair bytes 9
  let minute ← bytePair bytes 11
  let second ← bytePair bytes 13
  guard (1 ≤ month ∧ month ≤ 12 ∧ 1 ≤ day ∧ day ≤ 31 ∧ hour ≤ 23 ∧ minute ≤ 59 ∧ second ≤ 60)
  let seconds := daysFromCivil year month day * 86400 + hour * 3600 + minute * 60 + second
  guard (0 ≤ seconds)
  some (fromSecs seconds.toNat)

def amzDateName : Text := "x-amz-date".toList

def amzExpiresName : Text := "x-amz-expires".toList

def expiresName : Text := "expires".toList

/-- When the presigned URL expires, by the first pairs of the names. -/
def expiryOf (query : List (Text × Text)) : Except String ℕ :=
  let get (name : Text) : Option Text := (query.find? (·.1 = name)).map (·.2)
  match get amzDateName, get amzExpiresName with
  | some date, some validFor => do
      let signedAt ← okOr (parseAmzTimestamp date) "presigned URL has an invalid X-Amz-Date"
      let validFor ← okOr (parseU64 validFor) "presigned URL has an invalid X-Amz-Expires"
      okOr (checkedAdd signedAt (fromSecs validFor)) "presigned URL expiry overflows"
  | _, _ =>
      match get expiresName with
      | some expires => do
          let timestamp ← okOr (parseU64 expires) "presigned URL has an invalid Expires value"
          okOr (checkedAdd 0 (fromSecs timestamp)) "presigned URL expiry overflows"
      | none => .error "presigned source URL must contain an explicit expiry"

def validateExpiry (platform : Platform) (url : Url) (now minimumValidity : ℕ) :
    Except String Unit := do
  let expiresAt ← expiryOf
    ((platform.queryPairs url).map fun (name, value) => (toAsciiLowercase name, value))
  let requiredUntil ← okOr (checkedAdd now minimumValidity)
    "presigned URL validity calculation overflowed"
  rejectIf (expiresAt ≤ requiredUntil) "presigned source URL expires too soon"

structure PresignedHttpPolicy where
  allowedHosts : List TrustedHostPattern
  privateAllowedHosts : List Text
  allowHttp : Bool
  minimumValidity : ℕ
  resolver : AddressResolver

def PresignedHttpPolicy.hostAllowed (policy : PresignedHttpPolicy) (host : Text) : Bool :=
  policy.privateAllowedHosts.contains host || policy.allowedHosts.any (·.matches host)

/-- The client for the addresses a presigned host resolved to. -/
def PresignedHttpPolicy.pinnedClient (platform : Platform) (policy : PresignedHttpPolicy)
    (host : Text) (addresses : List SocketAddr) : Except String HttpClient := do
  rejectIf (addresses.any (isIpv4Mapped ·.ip) = true ∨
    (¬policy.privateAllowedHosts.contains host ∧ addresses.any (isForbiddenEndpointIp ·.ip) = true))
    "presigned URL resolves to a forbidden address range"
  let pinned ← okOr addresses.head? "presigned URL DNS resolution returned no addresses"
  rejectIf (platform.buildsClient host pinned = false) "presigned HTTP client construction failed"
  pure ⟨host, pinned⟩

def PresignedHttpPolicy.clientForOperation (platform : Platform) (policy : PresignedHttpPolicy)
    (url : Url) (now minimumValidity : ℕ) (requireHttps : Bool) : Except String HttpClient := do
  let host ← okOr url.host "presigned URL must have a host"
  let host := toAsciiLowercase host
  rejectIf (policy.hostAllowed host = false)
    "presigned URL host is not in MASKURA_PRESIGNED_HTTP_ALLOWLIST"
  requireScheme (policy.allowHttp && !requireHttps) url.scheme
    "presigned HTTP sources require HTTPS" "presigned source URL scheme is not supported"
  rejectIf (url.username ≠ [] ∨ url.password.isSome ∨ url.fragment.isSome)
    "presigned URL userinfo and fragments are forbidden"
  validateExpiry platform url now minimumValidity
  let port ← okOr (platform.portOrKnownDefault url) "presigned URL has no usable port"
  let addresses ← okOr (policy.resolver host port) "presigned URL DNS resolution failed"
  rejectIf (addresses = []) "presigned URL DNS resolution returned no addresses"
  policy.pinnedClient platform host addresses

/-! ### Accepted endpoints -/

variable {platform : Platform}

theorem requireScheme_eq_ok {allowHttp : Bool} {scheme : Text} {plain unsupported : String}
    (h : requireScheme allowHttp scheme plain unsupported = .ok ()) :
    scheme = httpsScheme ∨ allowHttp = true ∧ scheme = httpScheme := by
  unfold requireScheme at h
  split_ifs at h with hhttps hhttp hallow
  · exact .inl hhttps
  · exact .inr ⟨hallow, hhttp⟩

/-- What is true of an endpoint that the policy accepts. -/
structure WorkspaceEndpointPolicy.Accepts (platform : Platform) (policy : WorkspaceEndpointPolicy)
    (endpoint : Text) (url : Url) (host : Text) (addresses : List SocketAddr) : Prop where
  parsed : platform.parseUrl endpoint = some url
  scheme : url.scheme = httpsScheme ∨ policy.explicitSingleTenant = true ∧ url.scheme = httpScheme
  username : url.username = []
  password : url.password = none
  query : url.query = none
  fragment : url.fragment = none
  trusted : policy.trustedHost platform url = .ok host
  resolved : ∃ port, platform.portOrKnownDefault url = some port ∧
    policy.resolver host port = some addresses
  checked : policy.checkAddresses host addresses = .ok ()

theorem WorkspaceEndpointPolicy.accepts_of_validate {policy : WorkspaceEndpointPolicy}
    {endpoint : Text} {url : Url} (h : policy.validate platform endpoint = .ok url) :
    ∃ host addresses, policy.Accepts platform endpoint url host addresses := by
  simp only [WorkspaceEndpointPolicy.validate, bind_eq_ok, rejectIf_eq_ok, okOr_eq_ok] at h
  obtain ⟨-, -, -, -, url', hparsed, ⟨⟩, hscheme, -, hplain, host, htrusted, port, hport,
    addresses, hresolved, ⟨⟩, hchecked, hurl⟩ := h
  obtain rfl : url' = url := Except.ok.inj hurl
  simp only [not_or, not_not, Bool.not_eq_true, Option.isSome_eq_false_iff,
    Option.isNone_iff_eq_none] at hplain
  obtain ⟨husername, hpassword, hquery, hfragment⟩ := hplain
  exact ⟨host, addresses, hparsed, requireScheme_eq_ok hscheme, husername, hpassword, hquery,
    hfragment, htrusted, ⟨port, hport, hresolved⟩, hchecked⟩

/-- Every address of an accepted endpoint is no disguised IPv4 address, and it
is a forbidden one only where the host has a private exception. -/
theorem WorkspaceEndpointPolicy.Accepts.addresses {policy : WorkspaceEndpointPolicy}
    {endpoint : Text} {url : Url} {host : Text} {addresses : List SocketAddr}
    (h : policy.Accepts platform endpoint url host addresses) :
    ∀ address ∈ addresses, isIpv4Mapped address.ip = false ∧
      (isForbiddenEndpointIp address.ip = true →
        policy.explicitSingleTenant = true ∧ host ∈ policy.privateAllowedHosts) := by
  have hchecked := h.checked
  simp only [WorkspaceEndpointPolicy.checkAddresses, bind_eq_ok, rejectIf_eq_ok] at hchecked
  obtain ⟨-, -, -, hmapped, hforbidden⟩ := hchecked
  intro address hmem
  simp only [Bool.not_eq_true, List.any_eq_false] at hmapped
  refine ⟨by simpa using hmapped address hmem, fun hip => ?_⟩
  have hany : addresses.any (isForbiddenEndpointIp ·.ip) = true :=
    List.any_eq_true.2 ⟨address, hmem, hip⟩
  rw [not_and, not_or, not_not, Bool.not_eq_false, List.contains_iff_mem] at hforbidden
  exact hforbidden hany

/-- The host that a presigned URL is resolved under. -/
def Url.presignedHost (url : Url) : Option Text := url.host.map toAsciiLowercase

/-- The addresses of a presigned host that the policy makes a client for. -/
theorem PresignedHttpPolicy.addresses_of_client {policy : PresignedHttpPolicy} {url : Url}
    {now minimumValidity : ℕ} {requireHttps : Bool} {client : HttpClient}
    (h : policy.clientForOperation platform url now minimumValidity requireHttps = .ok client) :
    ∃ host port addresses, url.presignedHost = some host ∧
      platform.portOrKnownDefault url = some port ∧ policy.resolver host port = some addresses ∧
      client.pinned ∈ addresses ∧
      ∀ address ∈ addresses, isIpv4Mapped address.ip = false ∧
        (isForbiddenEndpointIp address.ip = true → host ∈ policy.privateAllowedHosts) := by
  simp only [PresignedHttpPolicy.clientForOperation, PresignedHttpPolicy.pinnedClient, bind_eq_ok,
    rejectIf_eq_ok, okOr_eq_ok] at h
  obtain ⟨host, hhost, -, -, -, -, -, -, -, -, port, hport, addresses, hresolved, -, -, -, hips,
    pinned, hpinned, -, -, hclient⟩ := h
  obtain rfl : _ = client := Except.ok.inj hclient
  refine ⟨toAsciiLowercase host, port, addresses, by simp [Url.presignedHost, hhost], hport,
    hresolved, List.mem_of_head? hpinned, fun address hmem => ?_⟩
  rw [not_or, not_and] at hips
  obtain ⟨hmapped, hforbidden⟩ := hips
  simp only [Bool.not_eq_true, List.any_eq_false] at hmapped
  refine ⟨by simpa using hmapped address hmem, fun hip => ?_⟩
  by_contra hhost
  exact hforbidden (by rwa [List.contains_iff_mem]) (List.any_eq_true.2 ⟨address, hmem, hip⟩)

end Maskura.Backend
