import NewApi.Lib.NetIP
import NewApi.Relay.StatusCodes

/-!
# The protection of outgoing requests

`ValidateURL` admits a URL whose scheme is HTTP or HTTPS, whose port is allowed, and whose host is an address that the
IP filter admits, or a name that the domain filter and, through its addresses, the IP filter admit.

The filters are sound, and blind to letter case (`hostAllowed_congr`) and to a default port that is written
(`SameTarget.entered_iff`). But they are not blind to a dot at the end of the host, with which a name is not on a list
that has it without, and an address is a name. And `net.SplitHostPort` fails also where there is a port, for a host with
colons that has no brackets; then the default port is checked in its place. `validateURL_iff` says where neither matters.
-/

namespace NewApi.SSRF

open NewApi.NetIP

/-- The characters that addresses are made of, and the brackets around them. -/
def isAddrChar (c : Char) : Bool := (hexDigit? c).isSome || isMark c || c = '[' || c = ']'

/-- A name without the dot at its end. -/
def withoutDot (name : List Char) : List Char := if name.getLast? = some '.' then name.dropLast else name

/-- What `net/url` makes of a URL. The host of the request is put together again from these parts (`host`); it has a
colon without brackets only before a port, which has digits only, and a bracket at its beginning only with one at its
end. -/
structure Url where
  scheme : String
  bracketed : Bool := false
  hostname : String
  port : Option String := none
  port_digits : ∀ p ∈ port, p.toList.all Char.isDigit = true
  colon : bracketed = false → port = none → ':' ∉ hostname.toList
  bracket : bracketed = false → hostname.toList.head? ≠ some '['

/-- `u.Host`. -/
def Url.host (u : Url) : List Char :=
  (if u.bracketed then '[' :: (u.hostname.toList ++ [']']) else u.hostname.toList) ++
    u.port.elim [] fun p => ':' :: p.toList

/-- What is not in the repository: `url.Parse`; `net.LookupIP`, which depends on the name up to letter case and a
dot at its end; `IP.String`; and the tables of `unicode.ToLower`, which agree with ASCII on ASCII, and outside of it lead
to no character of an address. -/
structure Library where
  parse : String → Except String Url
  lookupIP : String → Except String (List IP)
  ipString : IP → String
  lower : Char → Char
  lower_ascii : ∀ c, c.toNat < 128 → lower c = c.toLower
  lower_other : ∀ c, 128 ≤ c.toNat → isAddrChar (lower c) = false
  lookupIP_congr : ∀ name name', withoutDot (name.toList.map lower) = withoutDot (name'.toList.map lower) →
    lookupIP name = lookupIP name'

structure SSRFProtection where
  allowPrivateIp : Bool
  domainFilterMode : Bool
  domainList : List String
  ipFilterMode : Bool
  ipList : List String
  allowedPorts : List Int
  applyIPFilterForDomain : Bool

/-! ## The filters -/

def privateIPv4Nets : List IPNet := [
  ⟨.ofV4 0 0 0 0, cidrMask 8 32⟩,
  ⟨.ofV4 10 0 0 0, cidrMask 8 32⟩,
  ⟨.ofV4 100 64 0 0, cidrMask 10 32⟩,
  ⟨.ofV4 127 0 0 0, cidrMask 8 32⟩,
  ⟨.ofV4 169 254 0 0, cidrMask 16 32⟩,
  ⟨.ofV4 172 16 0 0, cidrMask 12 32⟩,
  ⟨.ofV4 192 0 0 0, cidrMask 24 32⟩,
  ⟨.ofV4 192 0 2 0, cidrMask 24 32⟩,
  ⟨.ofV4 192 168 0 0, cidrMask 16 32⟩,
  ⟨.ofV4 198 18 0 0, cidrMask 15 32⟩,
  ⟨.ofV4 198 51 100 0, cidrMask 24 32⟩,
  ⟨.ofV4 203 0 113 0, cidrMask 24 32⟩,
  ⟨.ofV4 224 0 0 0, cidrMask 4 32⟩,
  ⟨.ofV4 240 0 0 0, cidrMask 4 32⟩,
  ⟨.ofV4 255 255 255 255, cidrMask 32 32⟩]

def privateIPv6Nets : List IPNet :=
  ["::/128", "::1/128", "::ffff:0:0/96", "64:ff9b::/96", "100::/64", "2001::/23", "2001:db8::/32", "fc00::/7",
    "fe80::/10", "ff00::/8"].filterMap parseCIDR

def isPrivateIP (ip : IP) : Bool :=
  if ip = [] then true
  else if IP.isUnspecified ip then true
  else if IP.isLoopback ip ∨ IP.isLinkLocalUnicast ip ∨ IP.isLinkLocalMulticast ip then true
  else if IP.isInterfaceLocalMulticast ip then true
  else
    match IP.to4 ip with
    | some v4 => privateIPv4Nets.any (·.contains v4)
    | none => if privateIPv6Nets.any (·.contains ip) then true else IP.isPrivate ip

/-- `IsIpInCIDRList`. -/
def isIpInCIDRList (ip : IP) (cidrList : List String) : Bool :=
  cidrList.any fun cidr =>
    match parseCIDR cidr with
    | none => (parseIP cidr).any (IP.equal ip)
    | some network => network.contains ip

def isIPListed (ip : IP) (list : List String) : Bool := if list.length = 0 then false else isIpInCIDRList ip list

section
variable (lib : Library) (p : SSRFProtection)

/-- `strings.ToLower`. -/
def toLower (s : String) : String := String.ofList (s.toList.map lib.lower)

def isDomainListed (domain : String) (list : List String) : Bool :=
  if list.length = 0 then false
  else
    let domain := toLower lib domain
    list.any fun item =>
      let item := toLower lib (GoString.trimSpace item)
      if item = "" then false
      else if domain = item then true
      else if GoString.hasPrefix item "*." then
        let suffix := GoString.after item "*."
        GoString.hasSuffix domain ("." ++ suffix) || domain = suffix
      else false

namespace SSRFProtection

def isAllowedPort (port : Int) : Bool := if p.allowedPorts.length = 0 then true else p.allowedPorts.contains port

def isDomainAllowed (domain : String) : Bool :=
  let listed := isDomainListed lib domain p.domainList
  if p.domainFilterMode then listed else !listed

def isIPAccessAllowed (ip : IP) : Bool :=
  if isPrivateIP ip ∧ ¬ p.allowPrivateIp then false
  else
    let listed := isIPListed ip p.ipList
    if p.ipFilterMode then listed else !listed

/-! ## The verdict -/

/-- The part of `ValidateURL` that looks at the host. -/
def validateHost (host : String) : Except String Unit :=
  match parseIP host with
  | some ip =>
    if ¬ p.isIPAccessAllowed ip then
      if isPrivateIP ip then .error ("private IP address not allowed: " ++ lib.ipString ip)
      else if p.ipFilterMode then .error ("ip not in whitelist: " ++ lib.ipString ip)
      else .error ("ip in blacklist: " ++ lib.ipString ip)
    else .ok ()
  | none =>
    if ¬ p.isDomainAllowed lib host then
      if p.domainFilterMode then .error ("domain not in whitelist: " ++ host) else .error ("domain in blacklist: " ++ host)
    else if ¬ p.applyIPFilterForDomain then .ok ()
    else
      match lib.lookupIP host with
      | .error err => .error ("DNS resolution failed for " ++ host ++ ": " ++ err)
      | .ok ips =>
        match ips.find? fun ip => ¬ p.isIPAccessAllowed ip with
        | none => .ok ()
        | some ip =>
          if isPrivateIP ip ∧ ¬ p.allowPrivateIp then
            .error ("private IP address not allowed: " ++ host ++ " resolves to " ++ lib.ipString ip)
          else if p.ipFilterMode then .error ("ip not in whitelist: " ++ host ++ " resolves to " ++ lib.ipString ip)
          else .error ("ip in blacklist: " ++ host ++ " resolves to " ++ lib.ipString ip)

end SSRFProtection

/-- `net.SplitHostPort`: the host and the port, if there is no error. -/
def splitHostPort (hostport : List Char) : Option (List Char × List Char) :=
  let port := (hostport.reverse.takeWhile (· ≠ ':')).reverse
  match hostport.reverse.dropWhile (· ≠ ':') with
  | [] => none
  | _ :: before =>
    if hostport.head? = some '[' then
      -- the first `]` has to be just before the last colon
      let host := (before.reverse.drop 1).takeWhile (· ≠ ']')
      if before.reverse = '[' :: (host ++ [']']) ∧ '[' ∉ host ∧ '[' ∉ port ∧ ']' ∉ port then some (host, port) else none
    else if ':' ∈ before ∨ '[' ∈ hostport ∨ ']' ∈ hostport then none
    else some (before.reverse, port)

def defaultPort (scheme : String) : String := if scheme = "https" then "443" else "80"

/-- The host and the port that are checked. -/
def Url.hostPort (u : Url) : String × String :=
  match splitHostPort u.host with
  | some (host, port) => (String.ofList host, String.ofList port)
  | none => (u.hostname, defaultPort u.scheme)

/-- `ValidateURL`, of a URL that is parsed. -/
def SSRFProtection.validateParsed (u : Url) : Except String Unit :=
  if u.scheme ≠ "http" ∧ u.scheme ≠ "https" then
    .error ("unsupported protocol: " ++ u.scheme ++ " (only http/https allowed)")
  else
    match StatusCodes.atoi u.hostPort.2 with
    | none => .error ("invalid port: " ++ u.hostPort.2)
    | some port =>
      if ¬ p.isAllowedPort port then .error ("port " ++ toString port ++ " is not allowed")
      else p.validateHost lib u.hostPort.1

def SSRFProtection.validateURL (urlStr : String) : Except String Unit :=
  match lib.parse urlStr with
  | .error err => .error ("invalid URL format: " ++ err)
  | .ok u => p.validateParsed lib u

/-! ## What the verdict is for -/

/-- The URL is accepted. -/
def verdict (u : Url) : Bool := (p.validateParsed lib u).toOption.isSome

/-- The number of the URL's own port, written or not. -/
def Url.portNumber (u : Url) : Option Int := StatusCodes.atoi (u.port.getD (defaultPort u.scheme))

/-- The addresses that a host denotes, as a literal or by DNS. -/
def denoted (host : String) : List IP :=
  match parseIP host with
  | some ip => [ip]
  | none => (lib.lookupIP host).toOption.getD []

/-- Not private unless that is allowed, and listed or not as the mode says. -/
def Admitted (ip : IP) : Prop :=
  (isPrivateIP ip = true → p.allowPrivateIp = true) ∧ isIPListed ip p.ipList = p.ipFilterMode

/-- Two URLs are spellings of one target: their hosts differ in letter case and a dot at the end at most, and their
ports are the same, written or not. -/
structure SameTarget (u u' : Url) : Prop where
  scheme : u'.scheme = u.scheme
  bracketed : u'.bracketed = u.bracketed
  hostname : withoutDot (u'.hostname.toList.map lib.lower) = withoutDot (u.hostname.toList.map lib.lower)
  port : u'.portNumber = u.portNumber

/-- What is accepted may be requested, and all spellings of a target have one verdict. -/
structure Sound (u : Url) : Prop where
  scheme : verdict lib p u = true → u.scheme = "http" ∨ u.scheme = "https"
  port : verdict lib p u = true → ∃ n ∈ u.portNumber, p.isAllowedPort n = true
  address : verdict lib p u = true → ∀ ip ∈ denoted lib u.hostname, Admitted p ip
  spelling : ∀ u', SameTarget lib u u' → verdict lib p u' = verdict lib p u

/-! ## Where it is so -/

/-- `SplitHostPort` finds the port of the URL if there is one. -/
def Url.Plain (u : Url) : Prop :=
  '[' ∉ u.hostname.toList ∧ ']' ∉ u.hostname.toList ∧ (u.bracketed = true ∨ ':' ∉ u.hostname.toList)

instance (u : Url) : Decidable u.Plain := inferInstanceAs (Decidable (_ ∧ _))

/-- The name has addresses, and the IP filter admits all. -/
def ResolvesAllowed (host : String) : Prop := ∃ ips, lib.lookupIP host = .ok ips ∧ ips.all p.isIPAccessAllowed = true

/-- The filters admit the host. -/
def HostAllowed (host : String) : Prop :=
  match parseIP host with
  | some ip => p.isIPAccessAllowed ip = true
  | none => p.isDomainAllowed lib host = true ∧ ResolvesAllowed lib p host

/-- The scheme is one of the two, and the port that is checked is allowed: that of the URL, or the default one where
`SplitHostPort` does not find it. -/
def Entered (u : Url) : Prop :=
  (u.scheme = "http" ∨ u.scheme = "https") ∧
    ∃ n ∈ if u.Plain then u.portNumber else StatusCodes.atoi (defaultPort u.scheme), p.isAllowedPort n = true

/-- The spelling of a host without a dot at the end, where the host is one of the two. -/
def undotted? (host : String) : Option String :=
  if host.toList.getLast? ≠ some '.' then some host
  else if host.toList.dropLast.getLast? ≠ some '.' then some (String.ofList host.toList.dropLast)
  else none

/-- A dot at the end of the host makes no difference: the domain list does not tell the two names, or an address is not
admitted; where the host is an address without the dot, that address is admitted just where the name with the dot is. -/
def DotBlind (host : String) : Prop :=
  match parseIP host with
  | none => ResolvesAllowed lib p host →
      isDomainListed lib host p.domainList = isDomainListed lib (host ++ ".") p.domainList
  | some ip => p.isIPAccessAllowed ip = true ↔
      p.isDomainAllowed lib (host ++ ".") = true ∧ ResolvesAllowed lib p (host ++ ".")

end

/-! ## Letter case -/

theorem isAddrChar_eq_false {c : Char} (h : isAddrChar c = false) :
    hexDigit? c = none ∧ decDigit? c = none ∧ ∀ x ∈ ['.', ':', '%', '[', ']'], c ≠ x := by
  unfold isAddrChar isMark at h
  simp only [Bool.or_eq_false_iff, decide_eq_false_iff_not, Option.isSome_eq_false_iff, Option.isNone_iff_eq_none] at h
  obtain ⟨⟨⟨hhex, ⟨hdot, hcolon⟩, hpercent⟩, hopen⟩, hclose⟩ := h
  refine ⟨hhex, ?_, ?_⟩
  · unfold hexDigit? at hhex
    unfold decDigit?
    split at hhex
    · cases hhex
    next hdec => rw [if_neg hdec]
  · simp [hdot, hcolon, hpercent, hopen, hclose]

theorem isAddrChar_of_le {c : Char} (h : 128 ≤ c.toNat) : isAddrChar c = false := by
  have hle : ∀ {d : Char}, d.toNat < 128 → ¬ c ≤ d := by
    intro d hd hcd
    have hval : c.toNat ≤ d.toNat := Char.le_def.1 hcd
    omega
  have hne : ∀ {d : Char}, d.toNat < 128 → c ≠ d := fun hd heq => hle hd (heq ▸ le_refl c)
  have hhex : hexDigit? c = none := by
    unfold hexDigit?
    rw [if_neg fun hc => hle (by decide) hc.2, if_neg fun hc => hle (by decide) hc.2, if_neg fun hc => hle (by decide) hc.2]
  unfold isAddrChar isMark
  simp [hhex, hne]

theorem toLower_of_not_capital {c : Char} (h : c.toNat ∉ List.range' 65 26) : c.toLower = c := by
  unfold Char.toLower
  split
  next hcapital =>
    have hle : 65 ≤ c.toNat ∧ c.toNat ≤ 90 := hcapital
    exact absurd (List.mem_range'_1.2 ⟨hle.1, by omega⟩) h
  · rfl

section
variable (lib : Library)

theorem lower_spec (c : Char) : hexDigit? (lib.lower c) = hexDigit? c ∧ decDigit? (lib.lower c) = decDigit? c ∧
    ∀ x ∈ ['.', ':', '%', '[', ']'], lib.lower c = x ↔ c = x := by
  rcases Nat.lt_or_ge c.toNat 128 with hlt | hge
  · have hcapital : ∀ n ∈ List.range' 65 26, hexDigit? (Char.ofNat n).toLower = hexDigit? (Char.ofNat n) ∧
        decDigit? (Char.ofNat n).toLower = decDigit? (Char.ofNat n) ∧
        (['.', ':', '%', '[', ']'].all fun x => (Char.ofNat n).toLower ≠ x && Char.ofNat n ≠ x) = true := by decide +kernel
    rw [lib.lower_ascii c hlt]
    by_cases hc : c.toNat ∈ List.range' 65 26
    · obtain ⟨hhex, hdec, hmarks⟩ := hcapital c.toNat hc
      rw [Char.ofNat_toNat] at hhex hdec hmarks
      refine ⟨hhex, hdec, fun x hx => ?_⟩
      have hne := List.all_eq_true.1 hmarks x hx
      rw [Bool.and_eq_true, decide_eq_true_iff, decide_eq_true_iff] at hne
      exact iff_of_false hne.1 hne.2
    · rw [toLower_of_not_capital hc]
      exact ⟨rfl, rfl, fun x _ => Iff.rfl⟩
  · obtain ⟨hhex, hdec, hmark⟩ := isAddrChar_eq_false (isAddrChar_of_le hge)
    obtain ⟨hhex', hdec', hmark'⟩ := isAddrChar_eq_false (lib.lower_other c hge)
    exact ⟨hhex'.trans hhex.symm, hdec'.trans hdec.symm, fun x hx => iff_of_false (hmark' x hx) (hmark x hx)⟩

theorem keepsAddr : KeepsAddr lib.lower where
  dec c := (lower_spec lib c).2.1
  hex c := (lower_spec lib c).1
  dot c := (lower_spec lib c).2.2 '.' (by decide)
  colon c := (lower_spec lib c).2.2 ':' (by decide)
  percent c := (lower_spec lib c).2.2 '%' (by decide)

variable {lib} {p : SSRFProtection} {host host' : String} {l : List Char}

theorem mem_map_lower {x : Char} (hx : x ∈ ['.', ':', '%', '[', ']']) : x ∈ l.map lib.lower ↔ x ∈ l := by
  rw [List.mem_map]
  simp only [(lower_spec lib _).2.2 x hx, exists_eq_right]

theorem hostAllowed_congr (h : host'.toList.map lib.lower = host.toList.map lib.lower) :
    HostAllowed lib p host' ↔ HostAllowed lib p host := by
  have hparse : parseIP host' = parseIP host := by
    rw [← parseIP_map (keepsAddr lib) host', h, parseIP_map (keepsAddr lib)]
  have hdomain : p.isDomainAllowed lib host' = p.isDomainAllowed lib host := by
    unfold SSRFProtection.isDomainAllowed isDomainListed toLower
    rw [h]
  have hlookup : lib.lookupIP host' = lib.lookupIP host := lib.lookupIP_congr _ _ (congrArg withoutDot h)
  unfold HostAllowed ResolvesAllowed
  rw [hparse, hdomain, hlookup]

/-! ## The dot at the end -/

theorem withoutDot_concat (l : List Char) : withoutDot (l ++ ['.']) = l := by
  unfold withoutDot
  rw [if_pos List.getLast?_concat, List.dropLast_concat]

theorem withoutDot_of_ne (h : l.getLast? ≠ some '.') : withoutDot l = l := if_neg h

theorem eq_withoutDot_or (l : List Char) :
    l.getLast? ≠ some '.' ∧ withoutDot l = l ∨ l.getLast? = some '.' ∧ l = withoutDot l ++ ['.'] := by
  by_cases h : l.getLast? = some '.'
  · have hl : l.dropLast ++ ['.'] = l := List.dropLast_append_getLast? '.' h
    refine .inr ⟨h, ?_⟩
    rw [← hl, withoutDot_concat]
  · exact .inl ⟨h, withoutDot_of_ne h⟩

theorem getLast?_map_lower : (l.map lib.lower).getLast? = some '.' ↔ l.getLast? = some '.' := by
  rw [List.getLast?_map, Option.map_eq_some_iff]
  simp only [(keepsAddr lib).dot, exists_eq_right]

theorem withoutDot_map : withoutDot (l.map lib.lower) = (withoutDot l).map lib.lower := by
  unfold withoutDot
  split
  next h => rw [if_pos (getLast?_map_lower.1 h), List.map_dropLast]
  next h => rw [if_neg fun hl => h (getLast?_map_lower.2 hl)]

theorem mem_withoutDot {x : Char} (hx : x ≠ '.') : x ∈ withoutDot l ↔ x ∈ l := by
  rcases eq_withoutDot_or l with ⟨-, h⟩ | ⟨-, h⟩
  · rw [h]
  · conv_rhs => rw [h]
    rw [List.mem_append, List.mem_singleton, or_iff_left hx]

theorem head?_withoutDot {x : Char} (hx : x ≠ '.') : (withoutDot l).head? = some x ↔ l.head? = some x := by
  rcases eq_withoutDot_or l with ⟨-, h⟩ | ⟨-, h⟩
  · rw [h]
  · conv_rhs => rw [h]
    cases withoutDot l with
    | nil => simp [hx.symm]
    | cons c l => simp

theorem undotted?_cases (h : undotted? host = some host') :
    host'.toList.getLast? ≠ some '.' ∧ (host = host' ∨ host = host' ++ ".") := by
  unfold undotted? at h
  split at h
  next hlast =>
    cases h
    exact ⟨hlast, .inl rfl⟩
  next hlast =>
    split at h
    next hdrop =>
      cases h
      rw [String.toList_ofList]
      refine ⟨hdrop, .inr ?_⟩
      rw [← String.toList_inj, String.toList_append, String.toList_ofList]
      exact (List.dropLast_append_getLast? '.' (not_not.1 hlast)).symm
    · cases h

theorem spelling_cases (h : withoutDot (host'.toList.map lib.lower) = withoutDot (host.toList.map lib.lower)) :
    host'.toList.map lib.lower = host.toList.map lib.lower ∨
      ∃ name ∈ undotted? host, host'.toList.map lib.lower = name.toList.map lib.lower ∨
        host'.toList.map lib.lower = (name ++ ".").toList.map lib.lower := by
  have hdot : lib.lower '.' = '.' := ((keepsAddr lib).dot '.').2 rfl
  rcases eq_withoutDot_or (host.toList.map lib.lower) with ⟨hlast, hname⟩ | ⟨hlast, hname⟩
  · have hundotted : undotted? host = some host := if_pos fun hl => hlast (getLast?_map_lower.2 hl)
    rw [hname] at h
    rcases eq_withoutDot_or (host'.toList.map lib.lower) with ⟨-, hname'⟩ | ⟨-, hname'⟩
    · exact .inl (hname'.symm.trans h)
    · refine .inr ⟨host, hundotted, .inr ?_⟩
      rw [hname', h, String.toList_append, List.map_append]
      exact congrArg (_ ++ [·]) hdot.symm
  · rcases eq_withoutDot_or (host'.toList.map lib.lower) with ⟨hlast', hname'⟩ | ⟨-, hname'⟩
    · have hl : host.toList.getLast? = some '.' := getLast?_map_lower.1 hlast
      have hmap : host'.toList.map lib.lower = host.toList.dropLast.map lib.lower := by
        rw [← hname', h, withoutDot_map, withoutDot, if_pos hl]
      have hdrop : host.toList.dropLast.getLast? ≠ some '.' := by
        intro hdrop
        rw [hmap] at hlast'
        exact hlast' (getLast?_map_lower.2 hdrop)
      refine .inr ⟨String.ofList host.toList.dropLast, ?_, .inl ?_⟩
      · unfold undotted?
        rw [if_neg (not_not.2 hl), if_pos hdrop]
        rfl
      · rw [hmap, String.toList_ofList]
    · exact .inl (by rw [hname', h, ← hname])

/-! ## Host and port -/

section
variable {u u' : Url} {port : List Char}

theorem reverse_takeWhile_colon (pre : List Char) (hport : ':' ∉ port) :
    (pre ++ ':' :: port).reverse.takeWhile (· ≠ ':') = port.reverse ∧
      (pre ++ ':' :: port).reverse.dropWhile (· ≠ ':') = ':' :: pre.reverse := by
  have hall : ∀ c ∈ port.reverse, decide (c ≠ ':') = true := by
    intro c hc
    refine decide_eq_true fun heq => hport ?_
    rw [← heq]
    exact List.mem_reverse.1 hc
  have hrev : (pre ++ ':' :: port).reverse = port.reverse ++ ':' :: pre.reverse := by simp
  rw [hrev, List.takeWhile_append_of_pos hall, List.dropWhile_append_of_pos hall]
  simp

theorem splitHostPort_port (pre : List Char) (hport : ':' ∉ port) (hopen : '[' ∉ port) (hclose : ']' ∉ port) :
    splitHostPort (pre ++ ':' :: port) =
      if (pre ++ [':']).head? = some '[' then
        let host := (pre.drop 1).takeWhile (· ≠ ']')
        if pre = '[' :: (host ++ [']']) ∧ '[' ∉ host then some (host, port) else none
      else if ':' ∈ pre ∨ '[' ∈ pre ∨ ']' ∈ pre then none
      else some (pre, port) := by
  obtain ⟨htake, hdrop⟩ := reverse_takeWhile_colon pre hport
  have hhead : (pre ++ ':' :: port).head? = (pre ++ [':']).head? := by cases pre <;> rfl
  unfold splitHostPort
  rw [htake, hdrop, hhead]
  simp [hopen, hclose]

theorem takeWhile_bracket_eq_iff {l : List Char} : (l ++ [']']).takeWhile (· ≠ ']') = l ↔ ']' ∉ l := by
  constructor
  · intro heq hmem
    have hall := List.mem_takeWhile_imp (heq.symm ▸ hmem : ']' ∈ (l ++ [']']).takeWhile (· ≠ ']'))
    simp at hall
  · intro hnot
    have hall : ∀ c ∈ l, decide (c ≠ ']') = true := fun c hc => decide_eq_true fun heq => hnot (heq ▸ hc)
    rw [List.takeWhile_append_of_pos hall]
    simp

theorem splitHostPort_of_none (hport : u.port = none) : splitHostPort u.host = none := by
  unfold Url.host
  rw [hport, Option.elim_none, List.append_nil]
  cases hbracketed : u.bracketed with
  | false =>
    have hnil : u.hostname.toList.reverse.dropWhile (· ≠ ':') = [] := by
      refine List.dropWhile_eq_nil_iff.2 fun c hc => decide_eq_true fun heq => u.colon hbracketed hport ?_
      rw [← heq]
      exact List.mem_reverse.1 hc
    unfold splitHostPort
    rw [if_neg Bool.false_ne_true, hnil]
  | true =>
    -- the closing bracket stands after the last colon
    have hclose : ']' ∈ (('[' :: (u.hostname.toList ++ [']'])).reverse.takeWhile (· ≠ ':')).reverse := by
      rw [List.mem_reverse]
      simp
    unfold splitHostPort
    rw [if_pos rfl]
    dsimp only
    split
    · rfl
    · rw [if_pos List.head?_cons, if_neg fun h => h.2.2.2 hclose]

theorem splitHostPort_host (u : Url) : splitHostPort u.host =
    u.port.bind fun port => if u.Plain then some (u.hostname.toList, port.toList) else none := by
  cases hport : u.port with
  | none => exact splitHostPort_of_none hport
  | some port =>
    have hdigits : ∀ c, c.isDigit = false → c ∉ port.toList := by
      intro c hc hmem
      exact absurd ((List.all_eq_true.1 (u.port_digits port hport) c hmem).symm.trans hc) (by decide)
    have hsplit := fun pre => splitHostPort_port pre (hdigits ':' (by decide)) (hdigits '[' (by decide))
      (hdigits ']' (by decide))
    unfold Url.host
    rw [hport, Option.elim_some, Option.bind_some, hsplit]
    by_cases hbracketed : u.bracketed = true
    · rw [if_pos hbracketed, if_pos (by rfl)]
      simp only [List.drop_one, List.tail_cons]
      by_cases hclose : ']' ∈ u.hostname.toList
      · rw [if_neg (show ¬ u.Plain from fun hplain => hplain.2.1 hclose), if_neg]
        rintro ⟨heq, -⟩
        exact takeWhile_bracket_eq_iff.1 (List.append_cancel_right (List.cons_inj_right _ |>.1 heq)).symm hclose
      · rw [takeWhile_bracket_eq_iff.2 hclose]
        by_cases hopen : '[' ∈ u.hostname.toList
        · rw [if_neg (show ¬ u.Plain from fun hplain => hplain.1 hopen), if_neg fun h => h.2 hopen]
        · rw [if_pos ⟨rfl, hopen⟩, if_pos ⟨hopen, hclose, .inl hbracketed⟩]
    · have hhead : (u.hostname.toList ++ [':']).head? ≠ some '[' := by
        have hopen := u.bracket (Bool.eq_false_iff.2 hbracketed)
        cases hname : u.hostname.toList with
        | nil => simp
        | cons c l =>
          rw [hname] at hopen
          exact hopen
      have hplain : u.Plain ↔ ¬ (':' ∈ u.hostname.toList ∨ '[' ∈ u.hostname.toList ∨ ']' ∈ u.hostname.toList) := by
        unfold Url.Plain
        tauto
      rw [if_neg hbracketed, if_neg hhead]
      by_cases hmarks : ':' ∈ u.hostname.toList ∨ '[' ∈ u.hostname.toList ∨ ']' ∈ u.hostname.toList
      · rw [if_pos hmarks, if_neg fun h => hplain.1 h hmarks]
      · rw [if_neg hmarks, if_pos (hplain.2 hmarks)]

theorem hostPort_eq (u : Url) : u.hostPort =
    (u.hostname, if u.Plain then u.port.getD (defaultPort u.scheme) else defaultPort u.scheme) := by
  unfold Url.hostPort
  rw [splitHostPort_host]
  cases u.port with
  | none => simp
  | some port =>
    rw [Option.bind_some]
    by_cases hplain : u.Plain
    · rw [if_pos hplain, if_pos hplain]
      simp
    · rw [if_neg hplain, if_neg hplain]

/-! ## The verdict -/

variable {lib : Library} {p : SSRFProtection} {host : String} {ip : IP}

theorem isIPAccessAllowed_iff : p.isIPAccessAllowed ip = true ↔ Admitted p ip := by
  unfold SSRFProtection.isIPAccessAllowed Admitted
  cases isPrivateIP ip <;> cases p.allowPrivateIp <;> cases p.ipFilterMode <;> cases isIPListed ip p.ipList <;> decide

theorem validateHost_iff (hfilter : p.applyIPFilterForDomain = true) :
    (p.validateHost lib host).toOption.isSome = true ↔ HostAllowed lib p host := by
  unfold SSRFProtection.validateHost HostAllowed ResolvesAllowed
  cases parseIP host with
  | some ip =>
    dsimp only
    by_cases hallowed : p.isIPAccessAllowed ip = true
    · rw [if_neg (not_not.2 hallowed)]
      exact iff_of_true rfl hallowed
    · rw [if_pos hallowed]
      refine iff_of_false ?_ hallowed
      split
      · nofun
      · split <;> nofun
  | none =>
    dsimp only
    by_cases hdomain : p.isDomainAllowed lib host = true
    · rw [if_neg (not_not.2 hdomain), if_neg (not_not.2 hfilter), and_iff_right hdomain]
      cases lib.lookupIP host with
      | error err => exact iff_of_false nofun fun ⟨ips, h, _⟩ => nomatch h
      | ok ips =>
        dsimp only
        cases hfind : ips.find? fun ip => decide ¬ p.isIPAccessAllowed ip = true with
        | none =>
          refine iff_of_true rfl ⟨ips, rfl, List.all_eq_true.2 fun ip hip => ?_⟩
          simpa using List.find?_eq_none.1 hfind ip hip
        | some ip =>
          have hip : ip ∈ ips := List.mem_of_find?_eq_some hfind
          have hnot : ¬ p.isIPAccessAllowed ip = true := by simpa using List.find?_some hfind
          refine iff_of_false ?_ fun ⟨ips', h, hall⟩ => ?_
          · dsimp only
            split
            · nofun
            · split <;> nofun
          · cases h
            exact hnot (List.all_eq_true.1 hall ip hip)
    · rw [if_pos hdomain]
      refine iff_of_false ?_ fun h => hdomain h.1
      split <;> nofun

theorem verdict_iff (hfilter : p.applyIPFilterForDomain = true) :
    verdict lib p u = true ↔ Entered p u ∧ HostAllowed lib p u.hostname := by
  have hport : StatusCodes.atoi u.hostPort.2 =
      if u.Plain then u.portNumber else StatusCodes.atoi (defaultPort u.scheme) := by
    rw [hostPort_eq]
    exact apply_ite StatusCodes.atoi ..
  have hhost : u.hostPort.1 = u.hostname := by rw [hostPort_eq]
  unfold verdict SSRFProtection.validateParsed Entered
  rw [hport, hhost]
  by_cases hscheme : u.scheme = "http" ∨ u.scheme = "https"
  · rw [if_neg (by tauto), and_iff_right hscheme]
    cases (if u.Plain then u.portNumber else StatusCodes.atoi (defaultPort u.scheme)) with
    | none => exact iff_of_false nofun fun h => nomatch h.1
    | some n =>
      dsimp only
      by_cases hallowed : p.isAllowedPort n = true
      · rw [if_neg (not_not.2 hallowed), validateHost_iff hfilter]
        exact (and_iff_right ⟨n, rfl, hallowed⟩).symm
      · rw [if_pos hallowed]
        refine iff_of_false nofun fun h => ?_
        obtain ⟨n', hn', hn⟩ := h.1
        cases hn'
        exact hallowed hn
  · rw [if_pos (by tauto)]
    exact iff_of_false nofun fun h => hscheme h.1.1

theorem validateURL_ok_iff {urlStr : String} :
    (p.validateURL lib urlStr).toOption.isSome = true ↔ ∃ u, lib.parse urlStr = .ok u ∧ verdict lib p u = true := by
  unfold SSRFProtection.validateURL verdict
  cases lib.parse urlStr with
  | error err => exact iff_of_false nofun fun ⟨u, h, _⟩ => nomatch h
  | ok u =>
    refine ⟨fun h => ⟨u, rfl, h⟩, fun ⟨u', h, hv⟩ => ?_⟩
    cases h
    exact hv

theorem admitted_of_hostAllowed (h : HostAllowed lib p host) (hip : ip ∈ denoted lib host) : Admitted p ip := by
  unfold HostAllowed at h
  unfold denoted at hip
  cases hparse : parseIP host with
  | some ip' =>
    rw [hparse] at h hip
    rw [List.mem_singleton.1 hip]
    exact isIPAccessAllowed_iff.1 h
  | none =>
    rw [hparse] at h hip
    obtain ⟨-, ips, hlookup, hall⟩ := h
    rw [hlookup] at hip
    exact isIPAccessAllowed_iff.1 (List.all_eq_true.1 hall ip hip)

theorem SameTarget.entered_iff (h : SameTarget lib u u') : Entered p u' ↔ Entered p u := by
  have hmem : ∀ x ∈ ['.', ':', '%', '[', ']'], x ≠ '.' → (x ∈ u'.hostname.toList ↔ x ∈ u.hostname.toList) := by
    intro x hx hdot
    rw [← mem_withoutDot hdot, ← mem_map_lower hx, ← withoutDot_map, h.hostname, withoutDot_map, mem_map_lower hx,
      mem_withoutDot hdot]
  have hplain : u'.Plain ↔ u.Plain := by
    unfold Url.Plain
    rw [hmem '[' (by decide) (by decide), hmem ']' (by decide) (by decide), hmem ':' (by decide) (by decide), h.bracketed]
  unfold Entered
  rw [h.scheme, h.port]
  simp only [hplain]

/-- The URL with the host in another spelling. -/
def Url.withHostname (u : Url) (name : String) (h : withoutDot name.toList = withoutDot u.hostname.toList) : Url :=
  { u with
    hostname := name
    colon := fun hbracketed hport hmem => by
      rw [← mem_withoutDot (by decide), h, mem_withoutDot (by decide)] at hmem
      exact u.colon hbracketed hport hmem
    bracket := fun hbracketed hhead => by
      rw [← head?_withoutDot (by decide), h, head?_withoutDot (by decide)] at hhead
      exact u.bracket hbracketed hhead }

theorem toList_dot : (host ++ ".").toList = host.toList ++ ['.'] := String.toList_append

theorem dotBlind_iff (hlast : host.toList.getLast? ≠ some '.') :
    (HostAllowed lib p (host ++ ".") ↔ HostAllowed lib p host) ↔ DotBlind lib p host := by
  have hlookup : lib.lookupIP (host ++ ".") = lib.lookupIP host := by
    refine lib.lookupIP_congr _ _ ?_
    rw [withoutDot_map, withoutDot_map, toList_dot, withoutDot_concat, withoutDot_of_ne hlast]
  have hresolves : ResolvesAllowed lib p (host ++ ".") ↔ ResolvesAllowed lib p host := by
    unfold ResolvesAllowed
    rw [hlookup]
  have hdot : HostAllowed lib p (host ++ ".") ↔
      p.isDomainAllowed lib (host ++ ".") = true ∧ ResolvesAllowed lib p (host ++ ".") := by
    unfold HostAllowed
    rw [parseIP_concat_dot]
  rw [hdot]
  unfold HostAllowed DotBlind
  cases parseIP host with
  | some ip => exact iff_comm
  | none =>
    dsimp only
    rw [hresolves, and_congr_left_iff]
    refine imp_congr_right fun _ => ?_
    unfold SSRFProtection.isDomainAllowed
    cases isDomainListed lib (host ++ ".") p.domainList <;> cases isDomainListed lib host p.domainList <;>
      cases p.domainFilterMode <;> decide

end

end

section
variable {lib : Library} {p : SSRFProtection} {u u' : Url} {host name : String}

/-- Where all spellings have one verdict, and the entry is not refused, the filters admit all names of the host or
none. -/
theorem Sound.hostAllowed_iff (hfilter : p.applyIPFilterForDomain = true) (h : Sound lib p u) (hentered : Entered p u)
    (hname : withoutDot name.toList = withoutDot u.hostname.toList) :
    HostAllowed lib p name ↔ HostAllowed lib p u.hostname := by
  have htarget : SameTarget lib u (u.withHostname name hname) := by
    refine ⟨rfl, rfl, ?_, rfl⟩
    show withoutDot (name.toList.map lib.lower) = _
    rw [withoutDot_map, withoutDot_map, hname]
  have hverdict := h.spelling _ htarget
  rw [Bool.eq_iff_iff, verdict_iff hfilter, verdict_iff hfilter, htarget.entered_iff, and_congr_right_iff] at hverdict
  exact hverdict hentered

theorem withoutDot_undotted? (h : undotted? host = some name) :
    withoutDot name.toList = withoutDot host.toList ∧ withoutDot (name ++ ".").toList = withoutDot host.toList := by
  obtain ⟨hlast, rfl | rfl⟩ := undotted?_cases h
  · rw [toList_dot, withoutDot_concat, withoutDot_of_ne hlast]
    exact ⟨rfl, rfl⟩
  · rw [toList_dot, withoutDot_concat, withoutDot_of_ne hlast]
    exact ⟨rfl, rfl⟩

theorem hostAllowed_spelling (hblind : ∀ name ∈ undotted? host, DotBlind lib p name) {host' : String}
    (h : withoutDot (host'.toList.map lib.lower) = withoutDot (host.toList.map lib.lower)) :
    HostAllowed lib p host' ↔ HostAllowed lib p host := by
  rcases spelling_cases h with hsame | ⟨name, hname, hspelling⟩
  · exact hostAllowed_congr hsame
  · obtain ⟨hlast, hhost⟩ := undotted?_cases hname
    have hdot := (dotBlind_iff hlast).2 (hblind name hname)
    have hown : HostAllowed lib p name ↔ HostAllowed lib p host := by
      rcases hhost with rfl | rfl
      · rfl
      · exact hdot.symm
    rcases hspelling with hspelling | hspelling
    · exact (hostAllowed_congr hspelling).trans hown
    · exact ((hostAllowed_congr hspelling).trans hdot).trans hown

end

section
variable (lib : Library) (p : SSRFProtection) (u : Url)

/-- What is accepted may be requested and all spellings of a target have one verdict, just where the scheme or the port
that is checked is refused, or the URL's own port is allowed or its host is refused, and a dot at the end of the host
makes no difference. -/
theorem validateURL_iff (hfilter : p.applyIPFilterForDomain = true) : Sound lib p u ↔
    (Entered p u → (u.Plain ∨ u.port = none ∨ (∃ n ∈ u.portNumber, p.isAllowedPort n = true) ∨
        ¬ HostAllowed lib p u.hostname) ∧
      ∀ name ∈ undotted? u.hostname, DotBlind lib p name) := by
  constructor
  · intro h hentered
    refine ⟨?_, fun name hname => ?_⟩
    · by_cases hallowed : HostAllowed lib p u.hostname
      · exact .inr (.inr (.inl (h.port ((verdict_iff hfilter).2 ⟨hentered, hallowed⟩))))
      · exact .inr (.inr (.inr hallowed))
    · obtain ⟨hplain, hdotted⟩ := withoutDot_undotted? hname
      refine (dotBlind_iff (undotted?_cases hname).1).1 ?_
      rw [h.hostAllowed_iff hfilter hentered hplain, h.hostAllowed_iff hfilter hentered hdotted]
  · intro h
    have hport : Entered p u → HostAllowed lib p u.hostname → ∃ n ∈ u.portNumber, p.isAllowedPort n = true := by
      intro hentered hallowed
      obtain ⟨n, hn, hn'⟩ := hentered.2
      rcases (h hentered).1 with hplain | hnone | hown | hrefused
      · rw [if_pos hplain] at hn
        exact ⟨n, hn, hn'⟩
      · have hown : u.portNumber = StatusCodes.atoi (defaultPort u.scheme) := by
          unfold Url.portNumber
          rw [hnone, Option.getD_none]
        rw [hown, ite_self] at hn
        exact ⟨n, hown.symm ▸ hn, hn'⟩
      · exact hown
      · exact absurd hallowed hrefused
    refine ⟨fun hv => ((verdict_iff hfilter).1 hv).1.1, fun hv => ?_, fun hv ip hip => ?_, fun u' htarget => ?_⟩
    · obtain ⟨hentered, hallowed⟩ := (verdict_iff hfilter).1 hv
      exact hport hentered hallowed
    · exact admitted_of_hostAllowed ((verdict_iff hfilter).1 hv).2 hip
    · rw [Bool.eq_iff_iff, verdict_iff hfilter, verdict_iff hfilter, htarget.entered_iff, and_congr_right_iff]
      exact fun hentered => hostAllowed_spelling (h hentered).2 htarget.hostname

end

/-- A DNS that has one address for all names, and small letters of ASCII only. -/
def plainLibrary : Library where
  parse _ := .error "invalid"
  lookupIP _ := .ok [[93, 184, 216, 34]]
  ipString _ := ""
  lower := Char.toLower
  lower_ascii _ _ := rfl
  lower_other c hc := by
    have hcapital : c.toNat ∉ List.range' 65 26 := fun hmem => by
      have hrange := List.mem_range'_1.1 hmem
      omega
    rw [toLower_of_not_capital hcapital]
    exact isAddrChar_of_le hc
  lookupIP_congr _ _ _ := rfl

/-- One name is on the list of those that are refused, and only the port 80 is allowed. -/
def blacklist : SSRFProtection where
  allowPrivateIp := false
  domainFilterMode := false
  domainList := ["evil.com"]
  ipFilterMode := false
  ipList := []
  allowedPorts := [80]
  applyIPFilterForDomain := true

def namedUrl (hostname : String) (h : ':' ∉ hostname.toList) (h' : hostname.toList.head? ≠ some '[') : Url where
  scheme := "http"
  hostname := hostname
  port_digits _ hp := by cases hp
  colon _ _ := h
  bracket _ := h'

/-- An IPv6 address with a port, without brackets. -/
def colonUrl : Url where
  scheme := "http"
  hostname := "2606:4700::1111"
  port := some "8080"
  port_digits p hp := by
    cases hp
    decide
  colon _ h := by cases h
  bracket _ := by decide

/-- Two names that are not on the list, with a dot and without. -/
theorem validateURL_iff_named : Sound plainLibrary blacklist (namedUrl "example.com" (by decide) (by decide)) := by
  refine (validateURL_iff _ _ _ rfl).2 fun _ => ⟨.inr (.inl rfl), fun name hname => ?_⟩
  have hundotted : undotted? "example.com" = some "example.com" := by decide +kernel
  obtain rfl := Option.some.inj (hundotted.symm.trans hname)
  have hparse : parseIP "example.com" = none := by decide +kernel
  unfold DotBlind
  rw [hparse]
  exact fun _ => by decide +kernel

/-- A dot at the end takes a name off the list, and a port is not looked at. -/
theorem validateURL_unsound :
    ¬ Sound plainLibrary blacklist (namedUrl "evil.com" (by decide) (by decide)) ∧
      ¬ Sound plainLibrary blacklist colonUrl := by
  constructor
  · intro h
    have hspelling := h.spelling (namedUrl "evil.com." (by decide) (by decide)) ⟨rfl, rfl, by decide +kernel, rfl⟩
    exact absurd hspelling (by decide +kernel)
  · intro h
    obtain ⟨n, hn, hallowed⟩ := h.port (by decide +kernel)
    have hport : colonUrl.portNumber = some 8080 := by decide +kernel
    rw [Option.some.inj (hn.symm.trans hport)] at hallowed
    exact absurd hallowed (by decide)

end NewApi.SSRF
