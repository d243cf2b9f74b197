import NewApi.GoStrings

/-!
# Outbound fetches

A URL that a user or an upstream has given is fetched by a client that checks every hop: the
host is resolved, all its addresses are checked against the configured policy, and the request
is sent to one of these addresses and not to the name. A redirect is one more hop. The parsers
of the packages `net` and `net/url` are parameters.
-/
namespace NewApi.Outbound

/-- An address; one of four bytes can also be written as one of sixteen. -/
inductive IP where
  | v4 (a : BitVec 32)
  | v6 (a : BitVec 128)
  deriving DecidableEq

namespace IP

/-- The address as an IPv4 address, if it is one or an IPv6 address that stands for one. -/
def to4 : IP → Option (BitVec 32)
  | v4 a => some a
  | v6 a => if a.extractLsb' 32 96 = 0xffff then some (a.extractLsb' 0 32) else none

/-- The bytes of an IPv6 address, from the first. -/
def byte (a : BitVec 128) (i : ℕ) : BitVec 8 := a.extractLsb' (120 - 8 * i) 8

/-- Two forms of one address are equal. -/
def equal (x y : IP) : Bool :=
  match x.to4, y.to4 with
  | some a, some b => decide (a = b)
  | none, none => decide (x = y)
  | _, _ => false

/-- The address zero, in either form. -/
def isUnspecified (ip : IP) : Bool := ip.equal (v4 0) || ip.equal (v6 0)

/-- A test for IPv4 addresses and one for the others. -/
def test (on4 : BitVec 32 → Bool) (on6 : BitVec 128 → Bool) (ip : IP) : Bool :=
  match ip.to4, ip with
  | some a, _ => on4 a
  | none, v6 a => on6 a
  | none, v4 _ => false

def isLoopback : IP → Bool := test (fun a => a.extractLsb' 24 8 = 127) fun a => a = 1

/-- Addresses of the link, with those of cloud metadata. -/
def isLinkLocalUnicast : IP → Bool :=
  test (fun a => a.extractLsb' 16 16 = 0xa9fe) fun a => a.extractLsb' 118 10 = 0x3fa

/-- Groups on the link. -/
def isLinkLocalMulticast : IP → Bool :=
  test (fun a => a.extractLsb' 8 24 = 0xe00000)
    fun a => decide (byte a 0 = 0xff) && decide (byte a 1 &&& 0x0f = 0x02)

/-- Groups on the machine; there are none with four bytes. -/
def isInterfaceLocalMulticast : IP → Bool :=
  test (fun _ => false) fun a => decide (byte a 0 = 0xff) && decide (byte a 1 &&& 0x0f = 0x01)

def isPrivate : IP → Bool :=
  test (fun a => decide (a.extractLsb' 24 8 = 10) || decide (a.extractLsb' 20 12 = 0xac1) ||
      decide (a.extractLsb' 16 16 = 0xc0a8))
    fun a => byte a 0 &&& 0xfe = 0xfc

end IP

/-- A network with the length of its mask. -/
inductive IPNet where
  | v4 (base : BitVec 32) (ones : ℕ)
  | v6 (base : BitVec 128) (ones : ℕ)

/-- Whether the leading bits are those of the network. -/
def IPNet.contains (n : IPNet) (ip : IP) : Bool :=
  match n, ip.to4, ip with
  | .v4 base ones, some a, _ => decide (a >>> (32 - ones) = base >>> (32 - ones))
  | .v6 base ones, none, .v6 a => decide (a >>> (128 - ones) = base >>> (128 - ones))
  | _, _, _ => false

def quad (a b c d : BitVec 8) : BitVec 32 := a ++ b ++ c ++ d

/-- The networks that count as private, with four bytes. -/
def privateIPv4Nets : List IPNet :=
  [.v4 (quad 0 0 0 0) 8, .v4 (quad 10 0 0 0) 8, .v4 (quad 100 64 0 0) 10, .v4 (quad 127 0 0 0) 8,
    .v4 (quad 169 254 0 0) 16, .v4 (quad 172 16 0 0) 12, .v4 (quad 192 0 0 0) 24,
    .v4 (quad 192 0 2 0) 24, .v4 (quad 192 168 0 0) 16, .v4 (quad 198 18 0 0) 15,
    .v4 (quad 198 51 100 0) 24, .v4 (quad 203 0 113 0) 24, .v4 (quad 224 0 0 0) 4,
    .v4 (quad 240 0 0 0) 4, .v4 (quad 255 255 255 255) 32]

/-- An IPv6 address by its first two groups; the others are zero. -/
def groups (a b : BitVec 16) : BitVec 128 := a ++ b ++ (0 : BitVec 96)

/-- The networks that count as private, with sixteen bytes. -/
def privateIPv6Nets : List IPNet :=
  [.v6 0 128, .v6 1 128, .v6 0xffff00000000 96, .v6 (groups 0x64 0xff9b) 96,
    .v6 (groups 0x100 0) 64, .v6 (groups 0x2001 0) 23, .v6 (groups 0x2001 0xdb8) 32,
    .v6 (groups 0xfc00 0) 7, .v6 (groups 0xfe80 0) 10, .v6 (groups 0xff00 0) 8]

/-- Addresses that are private, reserved or for a special purpose. -/
def isPrivateIP (ip : IP) : Bool :=
  ip.isUnspecified || ip.isLoopback || ip.isLinkLocalUnicast || ip.isLinkLocalMulticast ||
    ip.isInterfaceLocalMulticast ||
    if ip.to4.isSome then privateIPv4Nets.any fun n => n.contains ip
    else (privateIPv6Nets.any fun n => n.contains ip) || ip.isPrivate

example : isPrivateIP (.v4 (quad 169 254 169 254)) = true := by decide
example : isPrivateIP (.v6 0xffff7f000001) = true := by decide
example : isPrivateIP (.v4 (quad 8 8 8 8)) = false := by decide

/-- An entry of the address list: a network, an address, or text that is neither. -/
inductive IpEntry where
  | cidr (n : IPNet)
  | single (ip : IP)
  | invalid

/-- An entry that cannot be read matches nothing. -/
def isIpInCIDRList (ip : IP) (list : List IpEntry) : Bool :=
  list.any fun
    | .cidr n => n.contains ip
    | .single listed => ip.equal listed
    | .invalid => false

/-- The settings as an administrator has stored them. -/
structure FetchSetting where
  (enableSSRFProtection allowPrivateIp domainFilterMode ipFilterMode : Bool)
  domainList : List String
  ipList : List IpEntry
  allowedPorts : List String
  applyIPFilterForDomain : Bool

/-- The settings after the ports are parsed. -/
structure SSRFProtection where
  (allowPrivateIp domainFilterMode : Bool)
  domainList : List String
  ipFilterMode : Bool
  ipList : List IpEntry
  allowedPorts : List ℤ
  applyIPFilterForDomain : Bool

def validPort (port : ℤ) : Bool := decide (1 ≤ port) && decide (port ≤ 65535)

/-- The ports of one entry: a number, or a range of them. -/
def parsePortEntry (config : String) : Except String (List ℤ) :=
  if containsText config "-" then
    match splitText '-' config with
    | [first, last] =>
      match atoi (trimSpace first), atoi (trimSpace last) with
      | none, _ => .error ("invalid start port in range " ++ config)
      | _, none => .error ("invalid end port in range " ++ config)
      | some first, some last =>
        if first > last then
          .error ("invalid port range " ++ config ++ ": start port cannot be greater than end port")
        else if !validPort first || !validPort last then
          .error ("port range " ++ config ++ " contains invalid port numbers (must be 1-65535)")
        else .ok ((List.range (last - first + 1).toNat).map fun i => first + i)
    | _ => .error ("invalid port range format: " ++ config)
  else
    match atoi config with
    | none => .error ("invalid port number: " ++ config)
    | some port =>
      if validPort port then .ok [port]
      else .error ("invalid port number " ++ toString port ++ " (must be 1-65535)")

/-- The ports of all entries; blank ones are passed over. -/
def parsePortRanges : List String → Except String (List ℤ)
  | [] => .ok []
  | config :: rest => do
    let ports ← if trimSpace config = "" then pure [] else parsePortEntry (trimSpace config)
    return ports ++ (← parsePortRanges rest)

/-- Settings whose ports cannot be read refuse every request. -/
def newSSRFProtectionWithFetchSetting (f : FetchSetting) : Except String SSRFProtection :=
  match parsePortRanges f.allowedPorts with
  | .error e => .error ("request reject - invalid port configuration: " ++ e)
  | .ok ports =>
    .ok ⟨f.allowPrivateIp, f.domainFilterMode, f.domainList, f.ipFilterMode, f.ipList, ports,
      f.applyIPFilterForDomain⟩

/-- A wildcard matches the domain itself and all below it. -/
def matchesItem (domain item : String) : Bool :=
  let item := toLower (trimSuffix (trimSpace item) ".")
  if item = "" then false
  else
    decide (domain = item) ||
      (startsWith item "*." &&
        (let suffix := String.ofList (item.toList.drop 2)
         hasSuffix domain ("." ++ suffix) || decide (domain = suffix)))

/-- Whether some entry matches, without case. -/
def isDomainListed (domain : String) (list : List String) : Bool :=
  list.any (matchesItem (toLower domain))

namespace SSRFProtection
variable (p : SSRFProtection)

/-- An empty list allows every port. -/
def isAllowedPort (port : ℤ) : Bool :=
  p.allowedPorts.isEmpty || p.allowedPorts.any fun allowed => decide (port = allowed)

/-- The list is of the allowed domains or of the refused ones. -/
def isDomainAllowed (domain : String) : Bool :=
  if p.domainFilterMode then isDomainListed domain p.domainList
  else !isDomainListed domain p.domainList

/-- Private addresses need a setting of their own, whatever the list says. -/
def isIPAccessAllowed (ip : IP) : Bool :=
  if isPrivateIP ip && !p.allowPrivateIp then false
  else if p.ipFilterMode then isIpInCIDRList ip p.ipList
  else !isIpInCIDRList ip p.ipList

end SSRFProtection

/-- The parts of a URL that are read. -/
structure ParsedURL where
  (scheme opaqueData host hostname port : String)
  deriving DecidableEq

/-- What the packages `net/url` and `net` compute. -/
structure NetLib where
  parseURL : String → Except String ParsedURL
  parseIP : String → Option IP
  ipString : IP → String

/-- A checked endpoint. A host name that is not resolved has no address. -/
structure Target where
  host : String
  port : ℤ
  ip : Option IP

/-- The port of the URL, or that of its scheme. -/
def targetPort (u : ParsedURL) : Except String ℤ :=
  if u.port = "" ∧ hasSuffix u.host ":" then .error "URL port is empty"
  else
    let port := if u.port ≠ "" then u.port
      else if toLower u.scheme = "https" then "443" else "80"
    match atoi port with
    | some n => if validPort n then .ok n else .error ("invalid port: " ++ port)
    | none => .error ("invalid port: " ++ port)

/-- Host and port of a URL that may be fetched at all. -/
def parseSSRFTargetURL (lib : NetLib) (url : String) : Except String (String × ℤ) := do
  let u ← lib.parseURL url
  let scheme := toLower u.scheme
  if scheme ≠ "http" ∧ scheme ≠ "https" then
    .error ("unsupported protocol: " ++ u.scheme ++ " (only http/https allowed)")
  else if u.opaqueData ≠ "" then .error "opaque URL is not allowed"
  else
    let host := toLower (trimSuffix (trimSpace u.hostname) ".")
    if host = "" then .error "URL host is empty"
    else if containsText host "%" then .error "scoped IP address is not allowed"
    else return (host, ← targetPort u)

/-- The error names the rule that refuses the address. -/
def validateResolvedIP (lib : NetLib) (p : SSRFProtection) (host : String) (ip : IP) :
    Except String Unit :=
  let text := lib.ipString ip
  let target := if host = text then text else host ++ " resolves to " ++ text
  if p.isIPAccessAllowed ip then .ok ()
  else if isPrivateIP ip then .error ("private IP address not allowed: " ++ target)
  else if p.ipFilterMode then .error ("ip not in whitelist: " ++ target)
  else .error ("ip in blacklist: " ++ target)

/-- An address of a domain is checked if the policy applies to domains. -/
def checkDomainIP (lib : NetLib) (p : SSRFProtection) (host : String) (ip : IP) :
    Except String Unit :=
  if p.applyIPFilterForDomain then validateResolvedIP lib p host ip else .ok ()

/-- The first IPv4 address of the answer, or else the first address. -/
def selectIP (lib : NetLib) (p : SSRFProtection) (host : String) :
    List (Option IP) → Option IP → Except String (Option IP)
  | [], chosen => .ok chosen
  | none :: rest, chosen => selectIP lib p host rest chosen
  | some ip :: rest, chosen =>
    checkDomainIP lib p host ip >>= fun _ =>
      let better := match chosen with
        | none => true
        | some old => old.to4.isNone && ip.to4.isSome
      selectIP lib p host rest (if better then some ip else chosen)

/-- All addresses of the answer are checked before one is taken. -/
def resolveDomain (lib : NetLib) (p : SSRFProtection) (host : String) (port : ℤ)
    (answer : Except String (List (Option IP))) : Except String Target :=
  match answer with
  | .error e => .error ("DNS resolution failed for " ++ host ++ ": " ++ e)
  | .ok [] => .error ("DNS resolution returned no addresses for " ++ host)
  | .ok ips =>
    selectIP lib p host ips none >>= fun
      | some ip => .ok ⟨host, port, some ip⟩
      | none => .error ("DNS resolution returned no usable addresses for " ++ host)

/-- The check of a host. `answer` is what the resolver says when it is asked for it. -/
def resolveHost (lib : NetLib) (p : SSRFProtection) (host : String) (port : ℤ)
    (answer : Except String (List (Option IP))) (forceResolveDomain : Bool) :
    Except String Target :=
  match lib.parseIP host with
  | some ip =>
    validateResolvedIP lib p (lib.ipString ip) ip >>= fun _ => .ok ⟨host, port, some ip⟩
  | none =>
    if !p.isDomainAllowed host then
      .error ((if p.domainFilterMode then "domain not in whitelist: "
        else "domain in blacklist: ") ++ host)
    else if !forceResolveDomain && !p.applyIPFilterForDomain then .ok ⟨host, port, none⟩
    else resolveDomain lib p host port answer

/-- The port is checked first, then the host. -/
def resolveURL (lib : NetLib) (p : SSRFProtection) (url : String)
    (answer : Except String (List (Option IP))) (forceResolveDomain : Bool) :
    Except String Target :=
  parseSSRFTargetURL lib url >>= fun (host, port) =>
    if p.isAllowedPort port then resolveHost lib p host port answer forceResolveDomain
    else .error ("port " ++ toString port ++ " is not allowed")

/-- Where a connection is dialed: an address, a name that the dialer resolves, or a proxy. -/
inductive Dialed where
  | literal (ip : IP) (port : ℤ)
  | name (url : String)
  | proxy (url : String)
  deriving DecidableEq

/-- The proxy of a client. -/
structure Proxy where
  url : String
  isHTTPS : Bool

/-- One request of a chain: its URL, the settings and the proxy at that time, the resolver's
answer, and whether the check of the wrapped client stops the chain here. -/
structure Hop where
  url : String
  setting : FetchSetting
  proxy : Option Proxy
  answer : Except String (List (Option IP))
  refused : Bool

/-- Only a checked address is dialed. -/
def dialAddress (t : Target) : Option (IP × ℤ) :=
  t.ip.bind fun ip => if t.port ≤ 0 then none else some (ip, t.port)

/-- Every hop is checked anew, redirects included. -/
def roundTrip (lib : NetLib) (hop : Hop) : Except String Dialed :=
  if !hop.setting.enableSSRFProtection then
    .ok (match hop.proxy with
      | some proxy => .proxy proxy.url
      | none => .name hop.url)
  else do
    let p ← newSSRFProtectionWithFetchSetting hop.setting
    let target ← resolveURL lib p hop.url hop.answer true
    match dialAddress target, hop.proxy with
    | none, _ => .error "request reject: URL did not resolve to a usable endpoint"
    | some _, some proxy =>
      if proxy.isHTTPS then
        .error "SSRF-protected requests do not support HTTPS forward proxies"
      else .ok (.proxy proxy.url)
    | some (ip, port), none => .ok (.literal ip port)

/-- The requests that the client makes for a chain of redirects, with the connections that are
dialed. `via` counts the requests before. -/
def connections (lib : NetLib) : ℕ → List Hop → List (Hop × Dialed)
  | _, [] => []
  | via, hop :: rest =>
    if 0 < via ∧ (10 ≤ via ∨ hop.refused = true) then []
    else
      match roundTrip lib hop with
      | .error _ => []
      | .ok dialed => (hop, dialed) :: connections lib (via + 1) rest

/-- The address and the port are those of the hop: the policy accepts both, and the address is
the host of the URL itself or was in the resolver's answer for it. -/
structure Approved (lib : NetLib) (hop : Hop) (ip : IP) (port : ℤ) : Prop where
  policy : ∃ p, newSSRFProtectionWithFetchSetting hop.setting = .ok p ∧
    p.isIPAccessAllowed ip = true ∧ p.isAllowedPort port = true
  notPrivate : isPrivateIP ip = false
  resolved : ∃ host, parseSSRFTargetURL lib hop.url = .ok (host, port) ∧
    (lib.parseIP host = some ip ∨
      lib.parseIP host = none ∧ ∃ ips, hop.answer = .ok ips ∧ some ip ∈ ips)

/-- The settings of the hop: protection on, no private addresses, addresses of domains checked,
no proxy. -/
structure Protected (hop : Hop) : Prop where
  enabled : hop.setting.enableSSRFProtection = true
  noPrivate : hop.setting.allowPrivateIp = false
  filtersDomains : hop.setting.applyIPFilterForDomain = true
  noProxy : hop.proxy = none

section
variable {lib : NetLib} {p : SSRFProtection}

theorem bind_ok {ε α β : Type} {x : Except ε α} {f : α → Except ε β} {b : β}
    (h : (x >>= f) = .ok b) : ∃ a, x = .ok a ∧ f a = .ok b := by
  cases x with
  | error e => cases h
  | ok a => exact ⟨a, rfl, h⟩

variable {host : String} {ip : IP}

theorem validateResolvedIP_ok
    (h : validateResolvedIP lib p host ip = .ok ()) : p.isIPAccessAllowed ip = true := by
  unfold validateResolvedIP at h
  split_ifs at h with hall
  exact hall

theorem isIPAccessAllowed_notPrivate (hp : p.allowPrivateIp = false)
    (h : p.isIPAccessAllowed ip = true) : isPrivateIP ip = false := by
  unfold SSRFProtection.isIPAccessAllowed at h
  split_ifs at h with hpriv
  all_goals simpa [hp] using hpriv

section
variable (hfil : p.applyIPFilterForDomain = true)
include hfil

/-- The address chosen from an answer is in it and was checked. -/
theorem selectIP_ok
    {ips : List (Option IP)} {chosen : Option IP}
    (h : selectIP lib p host ips chosen = .ok (some ip)) :
    chosen = some ip ∨ some ip ∈ ips ∧ p.isIPAccessAllowed ip = true := by
  induction ips generalizing chosen with
  | nil =>
    cases h
    exact .inl rfl
  | cons head rest ih =>
    cases head with
    | none => exact (ih h).imp_right fun hin => ⟨List.mem_cons_of_mem none hin.1, hin.2⟩
    | some first =>
      obtain ⟨⟨⟩, hval, hrest⟩ := bind_ok h
      rw [checkDomainIP, if_pos hfil] at hval
      obtain hchosen | ⟨hin, hall⟩ := ih hrest
      · split_ifs at hchosen with hbetter
        · cases hchosen
          exact .inr ⟨List.mem_cons_self, validateResolvedIP_ok hval⟩
        · exact .inl hchosen
      · exact .inr ⟨List.mem_cons_of_mem _ hin, hall⟩

variable {answer : Except String (List (Option IP))} {t : Target}

/-- The address that is taken was checked. -/
theorem resolveDomain_ok {port : ℤ}
    (h : resolveDomain lib p host port answer = .ok t) :
    ∃ ip ips, t = ⟨host, port, some ip⟩ ∧ p.isIPAccessAllowed ip = true ∧ answer = .ok ips ∧
      some ip ∈ ips := by
  unfold resolveDomain at h
  split at h
  · cases h
  · cases h
  next ips hne =>
    obtain ⟨chosen, hselect, h⟩ := bind_ok h
    cases chosen with
    | none => cases h
    | some ip =>
      cases h
      obtain hno | ⟨hin, hchec⟩ := selectIP_ok hfil hselect
      · cases hno
      · exact ⟨ip, ips, rfl, hchec, rfl, hin⟩

/-- A host is an allowed address, or resolves to one. -/
theorem resolveHost_ok {port : ℤ}
    (h : resolveHost lib p host port answer true = .ok t) :
    ∃ ip, t = ⟨host, port, some ip⟩ ∧ p.isIPAccessAllowed ip = true ∧ (lib.parseIP host = some ip ∨
        lib.parseIP host = none ∧ ∃ ips, answer = .ok ips ∧ some ip ∈ ips) := by
  unfold resolveHost at h
  split at h
  next ip hip =>
    obtain ⟨⟨⟩, hval, h⟩ := bind_ok h
    cases h
    exact ⟨ip, rfl, validateResolvedIP_ok hval, .inl hip⟩
  next hip =>
    by_cases hdomain : (!p.isDomainAllowed host) = true
    · rw [if_pos hdomain] at h
      cases h
    · rw [if_neg hdomain, if_neg (by simp)] at h
      obtain ⟨ip, ips, ht, hchec, hanswer, hin⟩ := resolveDomain_ok hfil h
      exact ⟨ip, ht, hchec, .inr ⟨hip, ips, hanswer, hin⟩⟩

end

theorem roundTrip_approved {hop : Hop} {dialed : Dialed} (hp : Protected hop)
    (h : roundTrip lib hop = .ok dialed) :
    ∃ ip port, dialed = .literal ip port ∧ Approved lib hop ip port := by
  unfold roundTrip at h
  rw [hp.enabled] at h
  obtain ⟨p, hpolicy, h⟩ := bind_ok h
  obtain ⟨target, htgt, h⟩ := bind_ok h
  have hsett : p.allowPrivateIp = false ∧ p.applyIPFilterForDomain = true := by
    unfold newSSRFProtectionWithFetchSetting at hpolicy
    split at hpolicy
    · cases hpolicy
    · cases hpolicy
      exact ⟨hp.noPrivate, hp.filtersDomains⟩
  obtain ⟨⟨host, port⟩, hparse, htgt⟩ := bind_ok htgt
  dsimp only at htgt
  split_ifs at htgt with hport
  obtain ⟨ip, rfl, hall, hres⟩ := resolveHost_ok hsett.2 htgt
  rw [hp.noProxy] at h
  have happ : Approved lib hop ip port :=
    ⟨⟨p, hpolicy, hall, hport⟩, isIPAccessAllowed_notPrivate hsett.1 hall, host, hparse,
      hres⟩
  by_cases hlow : port ≤ 0
  · simp only [dialAddress, Option.bind_some, if_pos hlow] at h
    cases h
  · simp only [dialAddress, Option.bind_some, if_neg hlow] at h
    cases h
    exact ⟨ip, port, rfl, happ⟩

/-- For every chain of redirects and every answer of the resolver, each connection of the
protected client is dialed to an address and a port that were approved for its hop. -/
theorem connections_approved (lib : NetLib) (hops : List Hop) (hp : ∀ hop ∈ hops, Protected hop)
    (c : Hop × Dialed) (hc : c ∈ connections lib 0 hops) :
    c.1 ∈ hops ∧ ∃ ip port, c.2 = .literal ip port ∧ Approved lib c.1 ip port := by
  generalize 0 = via at hc
  induction hops generalizing via with
  | nil => cases hc
  | cons hop rest ih =>
    rw [connections] at hc
    split_ifs at hc with hstop
    · cases hc
    cases hrnd : roundTrip lib hop with
    | error e => rw [hrnd] at hc; cases hc
    | ok dialed =>
      rw [hrnd] at hc
      obtain rfl | hrest := List.mem_cons.mp hc
      · exact ⟨List.mem_cons_self, roundTrip_approved (hp hop List.mem_cons_self) hrnd⟩
      · obtain ⟨hin, happ⟩ := ih (fun h hh => hp h (List.mem_cons_of_mem _ hh)) _ hrest
        exact ⟨List.mem_cons_of_mem _ hin, happ⟩

end

def guardedSetting : FetchSetting := ⟨true, false, false, false, [], [], ["80", "443"], true⟩

def sampleLib : NetLib where
  parseURL := fun _ => .ok ⟨"http", "", "a.example", "a.example", ""⟩
  parseIP := fun _ => none
  ipString := fun _ => ""

def publicHop : Hop :=
  ⟨"http://a.example/", guardedSetting, none, .ok [some (.v4 (quad 8 8 8 8))], false⟩

/-- The same URL, which now resolves to a private address. -/
def reboundHop : Hop := { publicHop with answer := .ok [some (.v4 (quad 10 0 0 1))] }

theorem connections_approved_sample :
    (connections sampleLib 0 [publicHop, reboundHop]).map Prod.snd =
        [.literal (.v4 (quad 8 8 8 8)) 80] ∧
      Approved sampleLib publicHop (.v4 (quad 8 8 8 8)) 80 := by
  have hprot : ∀ hop ∈ [publicHop, reboundHop], Protected hop := by
    simp only [List.forall_mem_cons]
    exact ⟨⟨rfl, rfl, rfl, rfl⟩, ⟨rfl, rfl, rfl, rfl⟩, by simp⟩
  have hmem : (publicHop, Dialed.literal (.v4 (quad 8 8 8 8)) 80) ∈
      connections sampleLib 0 [publicHop, reboundHop] := List.mem_cons_self
  obtain ⟨-, ip, port, hdialed, happ⟩ :=
    connections_approved sampleLib [publicHop, reboundHop] hprot _ hmem
  cases hdialed
  exact ⟨by decide +kernel, happ⟩

end NewApi.Outbound
