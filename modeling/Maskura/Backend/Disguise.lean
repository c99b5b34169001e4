import Maskura.Backend.Endpoint

/-!
Whether an address that passes the checks can lead to a forbidden host all the
same. Of the forms in which an IPv6 address carries an IPv4 address, all but
one are forbidden as a whole. The well-known NAT64 block is an exception as a
whole, whatever IPv4 address stands in it.
-/

namespace Maskura.Backend

open Maskura.Lib

/-- `64:ff9b::7f00:1` is not forbidden and carries `127.0.0.1`, which is. -/
theorem nat64_carries_loopback :
    let ip := IpAddr.v6 (ipv6 0x64 0xff9b 0 0 0 0 0x7f00 1)
    isIpv4Mapped ip = false ∧ isForbiddenEndpointIp ip = false ∧
      ipv4 127 0 0 1 ∈ carried ip ∧ isForbiddenEndpointIp (.v4 (ipv4 127 0 0 1)) = true := by
  decide

theorem carried_allowed_iff {ip : IpAddr} (h : isForbiddenEndpointIp ip = false) :
    (∀ bits ∈ carried ip, isForbiddenEndpointIp (.v4 bits) = false) ↔
      ¬ TranslatesForbidden ip := by
  rw [← leadsTo_allowed_iff h]
  simp [leadsTo, h]

theorem addresses_lead_outside_iff {addresses : List SocketAddr}
    (h : ∀ address ∈ addresses, isForbiddenEndpointIp address.ip = true → False) :
    (∀ address ∈ addresses, ∀ reached ∈ leadsTo address.ip,
        isForbiddenEndpointIp reached = false) ↔
      ∀ address ∈ addresses, ¬ TranslatesForbidden address.ip :=
  forall₂_congr fun address hmem =>
    leadsTo_allowed_iff (Bool.eq_false_iff.2 fun hip => h address hmem hip)

/-- An address that is not forbidden carries no forbidden IPv4 address, and
what a policy accepts for a host without a private exception leads only to
hosts outside the forbidden ranges, exactly when no forbidden IPv4 address
stands behind the well-known NAT64 block. -/
theorem accepted_addresses_lead_outside_iff (bits : BitVec 128) (platform : Platform)
    (workspace : WorkspaceEndpointPolicy) (presigned : PresignedHttpPolicy) (url : Url) :
    (isIpv4Mapped (.v6 bits) = false → isForbiddenEndpointIp (.v6 bits) = false →
      ((∀ embedded ∈ carried (.v6 bits), isForbiddenEndpointIp (.v4 embedded) = false) ↔
        ¬ TranslatesForbidden (.v6 bits))) ∧
    (∀ endpoint : Text, workspace.validate platform endpoint = .ok url →
      ∃ host port addresses, workspace.trustedHost platform url = .ok host ∧
        platform.portOrKnownDefault url = some port ∧ workspace.resolver host port = some addresses ∧
        (¬ (workspace.explicitSingleTenant = true ∧ host ∈ workspace.privateAllowedHosts) →
          ((∀ address ∈ addresses, ∀ reached ∈ leadsTo address.ip,
              isForbiddenEndpointIp reached = false) ↔
            ∀ address ∈ addresses, ¬ TranslatesForbidden address.ip))) ∧
    (∀ (now minimumValidity : ℕ) (requireHttps : Bool) (client : HttpClient),
      presigned.clientForOperation platform url now minimumValidity requireHttps = .ok client →
      ∃ host port addresses, url.presignedHost = some host ∧
        platform.portOrKnownDefault url = some port ∧ presigned.resolver host port = some addresses ∧
        client.pinned ∈ addresses ∧
        (host ∉ presigned.privateAllowedHosts →
          ((∀ address ∈ addresses, ∀ reached ∈ leadsTo address.ip,
              isForbiddenEndpointIp reached = false) ↔
            ∀ address ∈ addresses, ¬ TranslatesForbidden address.ip))) := by
  refine ⟨fun _ h => carried_allowed_iff h, ?_, ?_⟩
  · intro endpoint hvalid
    obtain ⟨host, addresses, haccepts⟩ := WorkspaceEndpointPolicy.accepts_of_validate hvalid
    obtain ⟨port, hport, hresolved⟩ := haccepts.resolved
    refine ⟨host, port, addresses, haccepts.trusted, hport, hresolved, fun hprivate => ?_⟩
    exact addresses_lead_outside_iff fun address hmem hip =>
      hprivate ((haccepts.addresses address hmem).2 hip)
  · intro now minimumValidity requireHttps client hclient
    obtain ⟨host, port, addresses, hhost, hport, hresolved, hpinned, hips⟩ :=
      PresignedHttpPolicy.addresses_of_client hclient
    refine ⟨host, port, addresses, hhost, hport, hresolved, hpinned, fun hprivate => ?_⟩
    exact addresses_lead_outside_iff fun address hmem hip => hprivate ((hips address hmem).2 hip)

def sampleHost : Text := "s3.ab".toList

/-- `https://s3.ab/`. -/
def sampleUrl : Url :=
  { scheme := httpsScheme, username := [], password := none, host := some sampleHost,
    path := ['/'], query := none, fragment := none }

def sampleEndpoint : Text := httpsScheme ++ "://".toList ++ sampleHost

def samplePlatform : Platform :=
  { parseUrl := fun text => if text = sampleEndpoint then some sampleUrl else none
    portOrKnownDefault := fun url => if url.scheme = httpsScheme then some 443 else none
    queryPairs := fun url => if url.query.isSome then [(expiresName, "999".toList)] else []
    parseIp := fun _ => none
    showIp := fun _ => []
    domainStr := fun _ => none
    buildsClient := fun _ _ => true }

/-- A name server with one answer, `64:ff9b::808:808`. -/
def sampleResolver : AddressResolver :=
  fun _ port => some [⟨.v6 (ipv6 0x64 0xff9b 0 0 0 0 0x808 0x808), port⟩]

/-- The address and both policies at `64:ff9b::808:808`, which carries `8.8.8.8`. -/
theorem global_translation_leads_outside :
    (∀ embedded ∈ carried (.v6 (ipv6 0x64 0xff9b 0 0 0 0 0x808 0x808)),
      isForbiddenEndpointIp (.v4 embedded) = false) ∧
    (∃ host port addresses,
      sampleResolver host port = some addresses ∧ addresses ≠ [] ∧
        ((∀ address ∈ addresses, ∀ reached ∈ leadsTo address.ip,
            isForbiddenEndpointIp reached = false) ↔
          ∀ address ∈ addresses, ¬ TranslatesForbidden address.ip)) ∧
    (∃ host port addresses,
      sampleResolver host port = some addresses ∧
        ((∀ address ∈ addresses, ∀ reached ∈ leadsTo address.ip,
            isForbiddenEndpointIp reached = false) ↔
          ∀ address ∈ addresses, ¬ TranslatesForbidden address.ip)) := by
  have hleads := accepted_addresses_lead_outside_iff (ipv6 0x64 0xff9b 0 0 0 0 0x808 0x808)
    samplePlatform ⟨false, [.exact sampleHost], [], sampleResolver⟩
    ⟨[.exact sampleHost], [], false, 0, sampleResolver⟩
  refine ⟨((hleads sampleUrl).1 (by decide) (by decide)).2 (by decide), ?_, ?_⟩
  · obtain ⟨host, port, addresses, -, -, hresolved, houtside⟩ :=
      (hleads sampleUrl).2.1 sampleEndpoint (by decide)
    refine ⟨host, port, addresses, hresolved, ?_, houtside (by simp)⟩
    rintro rfl
    cases hresolved
  · obtain ⟨host, port, addresses, -, -, hresolved, -, houtside⟩ :=
      (hleads { sampleUrl with query := some (expiresName ++ "=999".toList) }).2.2 0 0 true
        ⟨sampleHost, .v6 (ipv6 0x64 0xff9b 0 0 0 0 0x808 0x808), 443⟩ (by decide)
    exact ⟨host, port, addresses, hresolved, houtside (by simp)⟩

end Maskura.Backend
