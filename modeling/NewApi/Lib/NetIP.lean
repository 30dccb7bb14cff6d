import Mathlib.Algebra.Ring.Nat
import Mathlib.Data.List.Basic
import Mathlib.Data.Nat.Notation

/-!
# IP addresses

`net.IP` and `net.IPNet` of Go's library, and the parsers `net.ParseIP` and `net.ParseCIDR`. An address is a list of 4
or 16 bytes; the parsers give 16, and an IPv4 address has the form `::ffff:a.b.c.d` there.

An address is the same in capitals and small letters (`parseIP_map`), and none ends in a dot (`parseIP_concat_dot`).
-/

namespace NewApi.NetIP

/-- `net.IP`, where the empty list is nil. -/
abbrev IP := List UInt8

/-! ## Parsing -/

def decDigit? (c : Char) : Option ℕ := if '0' ≤ c ∧ c ≤ '9' then some (c.toNat - 48) else none

def hexDigit? (c : Char) : Option ℕ :=
  if '0' ≤ c ∧ c ≤ '9' then some (c.toNat - 48)
  else if 'a' ≤ c ∧ c ≤ 'f' then some (c.toNat - 87)
  else if 'A' ≤ c ∧ c ≤ 'F' then some (c.toNat - 55)
  else none

/-- The loop of `parseIPv4Fields`: the octet so far and the number of its digits, and the fields before it. -/
def parseIPv4Loop : List Char → ℕ → ℕ → List UInt8 → Option (List UInt8)
  | [], val, _, fields => if fields.length < 3 then none else some (fields ++ [UInt8.ofNat val])
  | c :: s, val, digLen, fields =>
    match decDigit? c with
    | some d =>
      if digLen = 1 ∧ val = 0 then none
      else if val * 10 + d > 255 then none
      else parseIPv4Loop s (val * 10 + d) (digLen + 1) fields
    | none =>
      if c = '.' then
        if digLen = 0 ∨ s = [] ∨ fields.length = 3 then none else parseIPv4Loop s 0 0 (fields ++ [UInt8.ofNat val])
      else none

def parseIPv4Fields (s : List Char) : Option (List UInt8) := parseIPv4Loop s 0 0 []

/-- The digits at the beginning of a text, and what comes after them. -/
def hexField : List Char → List ℕ × List Char
  | [] => ([], [])
  | c :: s =>
    match hexDigit? c with
    | some d => (d :: (hexField s).1, (hexField s).2)
    | none => ([], c :: s)

/-- The two bytes of a field. -/
def fieldBytes (digits : List ℕ) : List UInt8 :=
  let acc := digits.foldl (fun acc d => acc * 16 + d) 0
  [UInt8.ofNat (acc / 256), UInt8.ofNat (acc % 256)]

/-- The loop of `parseIPv6`, for as many fields as there is room for: the bytes of the fields before, and where the
ellipsis is in them. -/
def parseIPv6Loop : ℕ → List Char → List UInt8 → Option ℕ → Option (List UInt8 × Option ℕ)
  | 0, _, _, _ => none
  | room + 1, s, ip, ellipsis =>
    let (digits, rest) := hexField s
    if digits = [] ∨ digits.length > 4 then none
    else
      match rest with
      | [] => some (ip ++ fieldBytes digits, ellipsis)
      | c :: rest =>
        if c = '.' then
          if ellipsis = none ∧ ip.length ≠ 12 then none
          else if ip.length + 4 > 16 then none
          else (parseIPv4Fields s).map fun fields => (ip ++ fields, ellipsis)
        else if c = ':' then
          match rest with
          | [] => none
          | c' :: rest' =>
            if c' = ':' then
              if ellipsis ≠ none then none
              else if rest' = [] then some (ip ++ fieldBytes digits, some (ip.length + 2))
              else parseIPv6Loop room rest' (ip ++ fieldBytes digits) (some (ip.length + 2))
            else parseIPv6Loop room rest (ip ++ fieldBytes digits) ellipsis
        else none

/-- The ellipsis stands for as many zeros as are missing, and for one at least. -/
def expand (ip : List UInt8) (ellipsis : Option ℕ) : Option (List UInt8) :=
  match ellipsis with
  | none => if ip.length < 16 then none else some ip
  | some e =>
    if ip.length < 16 then some (ip.take e ++ List.replicate (16 - ip.length) 0 ++ ip.drop e) else none

/-- `parseIPv6`, without a zone. -/
def parseIPv6 (s : List Char) : Option (List UInt8) :=
  match s with
  | c :: c' :: rest =>
    if c = ':' ∧ c' = ':' then
      if rest = [] then some (List.replicate 16 0)
      else (parseIPv6Loop 8 rest [] (some 0)).bind fun r => expand r.1 r.2
    else (parseIPv6Loop 8 s [] none).bind fun r => expand r.1 r.2
  | s => (parseIPv6Loop 8 s [] none).bind fun r => expand r.1 r.2

inductive Addr
  | v4 (bytes : List UInt8)
  | v6 (bytes : List UInt8)
deriving DecidableEq

/-- The character that tells which kind of address a text is. -/
def isMark (c : Char) : Bool := c = '.' || c = ':' || c = '%'

/-- `netip.ParseAddr`, for addresses without a zone: the callers refuse one with a zone. -/
def parseAddr (s : List Char) : Option Addr :=
  match s.find? isMark with
  | none => none
  | some c =>
    if c = '.' then (parseIPv4Fields s).map .v4
    else if c = ':' then if '%' ∈ s then none else (parseIPv6 s).map .v6
    else none

def v4InV6Prefix : List UInt8 := [0, 0, 0, 0, 0, 0, 0, 0, 0, 0, 0xff, 0xff]

namespace Addr

def as16 : Addr → IP
  | v4 bytes => v4InV6Prefix ++ bytes
  | v6 bytes => bytes

def bitLen : Addr → ℕ
  | v4 _ => 32
  | v6 _ => 128

end Addr

/-- `net.ParseIP`. -/
def parseIP (s : String) : Option IP := (parseAddr s.toList).map Addr.as16

/-! ## Addresses -/

namespace IP

def to4 (ip : IP) : Option IP :=
  if ip.length = 4 then some ip
  else if ip.length = 16 ∧ ip.take 12 = v4InV6Prefix then some (ip.drop 12)
  else none

def equal (ip x : IP) : Bool :=
  if ip.length = x.length then ip = x
  else if ip.length = 4 ∧ x.length = 16 then v4InV6Prefix ++ ip = x
  else if ip.length = 16 ∧ x.length = 4 then ip = v4InV6Prefix ++ x
  else false

/-- `net.IPv4`. -/
def ofV4 (a b c d : UInt8) : IP := v4InV6Prefix ++ [a, b, c, d]

def isUnspecified (ip : IP) : Bool := equal ip (ofV4 0 0 0 0) || equal ip (List.replicate 16 0)

def isLoopback (ip : IP) : Bool :=
  match to4 ip with
  | some (a :: _) => a = 127
  | _ => equal ip (List.replicate 15 0 ++ [1])

def isPrivate (ip : IP) : Bool :=
  match to4 ip with
  | some (a :: b :: _) => a = 10 || a = 172 && b &&& 0xf0 = 16 || a = 192 && b = 168
  | _ => ip.length = 16 && ip.head?.any fun a => a &&& 0xfe = 0xfc

def isLinkLocalUnicast (ip : IP) : Bool :=
  match to4 ip, ip with
  | some (a :: b :: _), _ => a = 169 && b = 254
  | _, a :: b :: _ => ip.length = 16 && a = 0xfe && b &&& 0xc0 = 0x80
  | _, _ => false

def isLinkLocalMulticast (ip : IP) : Bool :=
  match to4 ip, ip with
  | some (a :: b :: c :: _), _ => a = 224 && b = 0 && c = 0
  | _, a :: b :: _ => ip.length = 16 && a = 0xff && b &&& 0x0f = 0x02
  | _, _ => false

def isInterfaceLocalMulticast (ip : IP) : Bool :=
  match ip with
  | a :: b :: _ => ip.length = 16 && a = 0xff && b &&& 0x0f = 0x01
  | _ => false

/-- `IP.Mask`, for a mask of the length of the address or of its IPv4 form. -/
def mask (ip : IP) (m : List UInt8) : IP :=
  let ip := if m.length = 4 ∧ ip.length = 16 ∧ ip.take 12 = v4InV6Prefix then ip.drop 12 else ip
  if ip.length = m.length then ip.zipWith (· &&& ·) m else []

end IP

/-! ## Networks -/

/-- `net.CIDRMask`. -/
def cidrMask (ones bits : ℕ) : List UInt8 :=
  (List.range (bits / 8)).map fun i => UInt8.ofNat (256 - 2 ^ (8 - min 8 (ones - 8 * i)))

/-- `net.IPNet`. -/
structure IPNet where
  ip : IP
  mask : List UInt8
deriving DecidableEq

namespace IPNet

/-- `networkNumberAndMask`. -/
def numberAndMask (n : IPNet) : Option (IP × List UInt8) :=
  let ip := (IP.to4 n.ip).getD n.ip
  if ip.length ≠ 4 ∧ ip.length ≠ 16 then none
  else if n.mask.length = ip.length then some (ip, n.mask)
  else if n.mask.length = 16 ∧ ip.length = 4 then some (ip, n.mask.drop 12)
  else none

def contains (n : IPNet) (ip : IP) : Bool :=
  match n.numberAndMask with
  | none => false
  | some (nn, m) =>
    let ip := (IP.to4 ip).getD ip
    ip.length = nn.length && nn.zipWith (· &&& ·) m = ip.zipWith (· &&& ·) m

end IPNet

/-- `net.ParseCIDR`, the network. -/
def parseCIDR (s : String) : Option IPNet :=
  let addr := s.toList.takeWhile (· ≠ '/')
  match s.toList.dropWhile (· ≠ '/') with
  | [] => none
  | _ :: mask =>
    (parseAddr addr).bind fun ipAddr =>
      if mask = [] ∨ ¬ mask.all (fun c => (decDigit? c).isSome) ∨ Nat.ofDigitChars 10 mask 0 > ipAddr.bitLen then none
      else
        let m := cidrMask (Nat.ofDigitChars 10 mask 0) ipAddr.bitLen
        some ⟨IP.mask ipAddr.as16 m, m⟩

example : parseIP "2001:db8::1.2.3.4" = some [0x20, 0x01, 0x0d, 0xb8, 0, 0, 0, 0, 0, 0, 0, 0, 1, 2, 3, 4] := by
  decide +kernel

example : (parseCIDR "10.0.0.0/8").map (·.contains (IP.ofV4 10 1 2 3)) = some true := by decide +kernel

/-! ## Letter case -/

/-- A map of characters that keeps the digits and the marks of addresses, and makes no other character one. -/
structure KeepsAddr (f : Char → Char) : Prop where
  dec : ∀ c, decDigit? (f c) = decDigit? c
  hex : ∀ c, hexDigit? (f c) = hexDigit? c
  dot : ∀ c, f c = '.' ↔ c = '.'
  colon : ∀ c, f c = ':' ↔ c = ':'
  percent : ∀ c, f c = '%' ↔ c = '%'

section
variable {f : Char → Char} (hf : KeepsAddr f)
include hf

theorem parseIPv4Loop_map (s : List Char) (val digLen : ℕ) (fields : List UInt8) :
    parseIPv4Loop (s.map f) val digLen fields = parseIPv4Loop s val digLen fields := by
  induction s generalizing val digLen fields with
  | nil => rfl
  | cons c s ih =>
    rw [List.map_cons, parseIPv4Loop, parseIPv4Loop, hf.dec]
    cases decDigit? c with
    | some d =>
      dsimp only
      rw [ih]
    | none =>
      dsimp only
      rw [ih]
      simp only [hf.dot, List.map_eq_nil_iff]

theorem hexField_map (s : List Char) : hexField (s.map f) = ((hexField s).1, (hexField s).2.map f) := by
  induction s with
  | nil => rfl
  | cons c s ih =>
    rw [List.map_cons, hexField, hexField, hf.hex]
    cases hexDigit? c with
    | some d =>
      dsimp only
      rw [ih]
    | none => rfl

theorem parseIPv6Loop_map (room : ℕ) (s : List Char) (ip : List UInt8) (ellipsis : Option ℕ) :
    parseIPv6Loop room (s.map f) ip ellipsis = parseIPv6Loop room s ip ellipsis := by
  induction room generalizing s ip ellipsis with
  | zero => rfl
  | succ room ih =>
    rw [parseIPv6Loop, parseIPv6Loop, hexField_map hf]
    have hfields : parseIPv4Fields (s.map f) = parseIPv4Fields s := parseIPv4Loop_map hf s 0 0 []
    rw [hfields]
    rcases hexField s with ⟨digits, rest⟩
    dsimp only
    cases rest with
    | nil => rfl
    | cons c rest =>
      rw [List.map_cons]
      dsimp only
      simp only [hf.dot, hf.colon]
      cases rest with
      | nil => rfl
      | cons c' rest =>
        rw [List.map_cons]
        dsimp only
        simp only [hf.colon, List.map_eq_nil_iff, ih]
        rw [← List.map_cons, ih]

theorem parseIPv6_map (s : List Char) : parseIPv6 (s.map f) = parseIPv6 s := by
  have hloop := parseIPv6Loop_map hf 8
  match s with
  | [] => rfl
  | [c] => exact congrArg (·.bind fun r => expand r.1 r.2) (hloop [c] [] none)
  | c :: c' :: rest =>
    rw [List.map_cons, List.map_cons, parseIPv6, parseIPv6]
    simp only [hf.colon, List.map_eq_nil_iff, hloop]
    rw [← List.map_cons, ← List.map_cons, hloop]

theorem parseAddr_map (s : List Char) : parseAddr (s.map f) = parseAddr s := by
  have hmark : ∀ c, isMark (f c) = isMark c := by
    intro c
    unfold isMark
    simp only [hf.dot, hf.colon, hf.percent]
  have hfind : (s.map f).find? isMark = (s.find? isMark).map f := by
    rw [List.find?_map]
    exact congrArg (Option.map f) (congrArg (List.find? · s) (funext hmark))
  have hpercent : '%' ∈ s.map f ↔ '%' ∈ s := by
    simp only [List.mem_map, hf.percent, exists_eq_right]
  have hfields : parseIPv4Fields (s.map f) = parseIPv4Fields s := parseIPv4Loop_map hf s 0 0 []
  unfold parseAddr
  rw [hfind, hfields, parseIPv6_map hf]
  cases s.find? isMark with
  | none => rfl
  | some c =>
    rw [Option.map_some]
    dsimp only
    simp only [hf.dot, hf.colon, hpercent]

/-- An address is the same under a map that keeps what it is made of. -/
theorem parseIP_map (s : String) : parseIP (String.ofList (s.toList.map f)) = parseIP s := by
  unfold parseIP
  rw [String.toList_ofList, parseAddr_map hf]

end

/-! ## A dot at the end -/

theorem parseIPv4Loop_concat_dot (s : List Char) (val digLen : ℕ) (fields : List UInt8) :
    parseIPv4Loop (s ++ ['.']) val digLen fields = none := by
  induction s generalizing val digLen fields with
  | nil =>
    rw [List.nil_append, parseIPv4Loop]
    simp [decDigit?]
  | cons c s ih =>
    rw [List.cons_append, parseIPv4Loop]
    cases decDigit? c with
    | some d =>
      dsimp only
      rw [ih]
      simp
    | none =>
      dsimp only
      rw [ih]
      simp

/-- The rest after a field of a text that ends in a dot ends in it too. -/
theorem hexField_concat_dot (s : List Char) : ∃ rest, (hexField (s ++ ['.'])).2 = rest ++ ['.'] := by
  induction s with
  | nil => exact ⟨[], rfl⟩
  | cons c s ih =>
    rw [List.cons_append, hexField]
    cases hexDigit? c with
    | some d => exact ih
    | none => exact ⟨c :: s, rfl⟩

theorem parseIPv6Loop_concat_dot (room : ℕ) (s : List Char) (ip : List UInt8) (ellipsis : Option ℕ) :
    parseIPv6Loop room (s ++ ['.']) ip ellipsis = none := by
  induction room generalizing s ip ellipsis with
  | zero => rfl
  | succ room ih =>
    have hfields : parseIPv4Fields (s ++ ['.']) = none := parseIPv4Loop_concat_dot s 0 0 []
    obtain ⟨rest, hrest⟩ := hexField_concat_dot s
    rw [parseIPv6Loop, hfields, ← Prod.eta (hexField (s ++ ['.'])), hrest]
    dsimp only
    match rest with
    | [] => simp
    | [c] =>
      have hdot : ∀ ip ellipsis, parseIPv6Loop room ['.'] ip ellipsis = none := ih []
      simp [hdot]
    | c :: c' :: rest =>
      have hcons : ∀ ip ellipsis, parseIPv6Loop room (c' :: (rest ++ ['.'])) ip ellipsis = none := ih (c' :: rest)
      simp [ih, hcons]

theorem parseIPv6_concat_dot (s : List Char) : parseIPv6 (s ++ ['.']) = none := by
  have hloop := parseIPv6Loop_concat_dot 8
  match s with
  | [] => rfl
  | [c] =>
    have hcons : ∀ ip ellipsis, parseIPv6Loop 8 [c, '.'] ip ellipsis = none := hloop [c]
    simp [parseIPv6, hcons]
  | c :: c' :: rest =>
    have hcons : ∀ ip ellipsis, parseIPv6Loop 8 (c :: c' :: (rest ++ ['.'])) ip ellipsis = none := hloop (c :: c' :: rest)
    simp [parseIPv6, hloop, hcons]

/-- No address ends in a dot. -/
theorem parseIP_concat_dot (s : String) : parseIP (s ++ ".") = none := by
  have hfields : parseIPv4Fields (s.toList ++ ['.']) = none := parseIPv4Loop_concat_dot s.toList 0 0 []
  have htoList : (s ++ ".").toList = s.toList ++ ['.'] := String.toList_append
  unfold parseIP parseAddr
  rw [htoList, hfields, parseIPv6_concat_dot]
  cases (s.toList ++ ['.']).find? isMark with
  | none => rfl
  | some c => simp

end NewApi.NetIP
