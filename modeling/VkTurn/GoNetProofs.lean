import VkTurn.GoTextProofs

/-! # Go network addresses

    A `net.IP` is a slice of bytes, 4 or 16 of them when it is an address; an
    IPv4 address has both forms, and the functions of the package take either.
    This file has the ones that turn a remote address into a canonical text
    (`To4`, `To16`, `String`, `SplitHostPort`, `JoinHostPort`, `ParseIP`), and that
    `To4` depends on the 16-byte form alone. -/

namespace GoNet

open GoText

/-! ## The two forms of an address -/

/-- The first twelve bytes of an IPv4 address in its 16-byte form. -/
def v4InV6 : Bytes := List.replicate 10 0 ++ [0xFF, 0xFF]

/-- `IP.To4`. -/
def to4 (ip : Bytes) : Option Bytes :=
  if ip.length = 4 then some ip
  else if ip.length = 16 ∧ ip.take 12 = v4InV6 then some (ip.drop 12)
  else none

/-- `IP.To16`. -/
def to16 (ip : Bytes) : Option Bytes :=
  if ip.length = 4 then some (v4InV6 ++ ip)
  else if ip.length = 16 then some ip
  else none

/-- An IPv4 address and its mapped form have the same 16-byte form. -/
theorem to16_mapped {ip : Bytes} (h : ip.length = 4) : to16 (v4InV6 ++ ip) = to16 ip := by
  have hlen : (v4InV6 ++ ip).length = 16 := by
    rw [List.length_append, h]
    rfl
  rw [to16, to16, if_pos h, hlen, if_neg (by decide), if_pos rfl]

/-- `To4` of an address is `To4` of its 16-byte form. -/
theorem to4_eq_to16 (ip : Bytes) : to4 ip = (to16 ip).bind to4 := by
  by_cases h4 : ip.length = 4
  · have hlen : (v4InV6 ++ ip).length = 16 := by
      rw [List.length_append, h4]
      rfl
    rw [to16, if_pos h4, Option.bind_some, to4, if_pos h4, to4, hlen, if_neg (by decide),
      if_pos ⟨rfl, List.take_left' rfl⟩]
    have hdrop : (v4InV6 ++ ip).drop 12 = ip := List.drop_left' rfl
    rw [hdrop]
  · by_cases h16 : ip.length = 16
    · rw [to16, if_neg h4, if_pos h16, Option.bind_some]
    · rw [to16, if_neg h4, if_neg h16, Option.bind_none, to4, if_neg h4,
        if_neg fun h => h16 h.1]

/-! ## Text -/

/-- The parts with a separator between them. -/
def joinWith (sep : UInt8) (parts : List Bytes) : Bytes := [sep].intercalate parts

/-- Lower-case hexadecimal digits, without leading zeros. -/
def hexDigits (n : Nat) : Bytes := (Nat.toDigits 16 n).map fun c => UInt8.ofNat c.toNat

/-- The eight 16-bit groups of an address. -/
def groups : Bytes → List Nat
  | hi :: lo :: rest => (hi.toNat * 256 + lo.toNat) :: groups rest
  | _ => []

/-- The first of the longest runs of at least two zero groups: where it starts,
    and its length, which is 0 when there is none. -/
def zeroRun (gs : List Nat) : Nat × Nat :=
  (List.range 8).foldl (fun best i =>
    let l := ((gs.drop i).takeWhile (· = 0)).length
    if l ≥ 2 ∧ l > best.2 then (i, l) else best) (0, 0)

/-- An IPv6 address in text. -/
def text6 (ip : Bytes) : Bytes :=
  let gs := groups ip
  let (start, len) := zeroRun gs
  let part (gs : List Nat) := joinWith 0x3A (gs.map hexDigits)
  if len = 0 then part gs
  else part (gs.take start) ++ ascii "::" ++ part (gs.drop (start + len))

/-- An IPv4 address in text. -/
def text4 (ip : Bytes) : Bytes := joinWith 0x2E (ip.map fun b => decimal b.toNat)

/-- `IP.String`. -/
def ipString (ip : Bytes) : Bytes :=
  if ip = [] then ascii "<nil>"
  else if ip.length ≠ 4 ∧ ip.length ≠ 16 then
    ascii "?" ++ (ip.map fun b =>
      hexDigits (b.toNat / 16) ++ hexDigits (b.toNat % 16)).flatten
  else
    match to4 ip with
    | some p4 => text4 p4
    | none => text6 ip

/-! ## `host:port` -/

/-- The errors of `SplitHostPort`. -/
inductive SplitError where
  | missingPort
  | tooManyColons
  | missingBracket
  | unexpectedOpen
  | unexpectedClose
  deriving DecidableEq, Repr

/-- The position of the last occurrence. -/
def lastIndex (b : UInt8) (s : Bytes) : Option Nat :=
  (s.reverse.idxOf? b).map fun i => s.length - 1 - i

/-- The end of `SplitHostPort`: no bracket where none may be. -/
def splitEnd (hostport host : Bytes) (i j k : Nat) : Except SplitError (Bytes × Bytes) :=
  if 0x5B ∈ hostport.drop j then .error .unexpectedOpen
  else if 0x5D ∈ hostport.drop k then .error .unexpectedClose
  else .ok (host, hostport.drop (i + 1))

/-- `SplitHostPort`. -/
def splitHostPort (hostport : Bytes) : Except SplitError (Bytes × Bytes) :=
  match lastIndex 0x3A hostport with
  | none => .error .missingPort
  | some i =>
      if hostport.head? = some 0x5B then
        match hostport.idxOf? 0x5D with
        | none => .error .missingBracket
        | some e =>
            if e + 1 = hostport.length then .error .missingPort
            else if e + 1 = i then splitEnd hostport ((hostport.take e).drop 1) i 1 (e + 1)
            else if hostport[e + 1]? = some 0x3A then .error .tooManyColons
            else .error .missingPort
      else if 0x3A ∈ hostport.take i then .error .tooManyColons
      else splitEnd hostport (hostport.take i) i 0 0

/-- `JoinHostPort`: a host with colons stands in brackets. -/
def joinHostPort (host port : Bytes) : Bytes :=
  if 0x3A ∈ host then ascii "[" ++ host ++ ascii "]:" ++ port
  else host ++ ascii ":" ++ port

/-- `UDPAddr.String` and `TCPAddr.String`. -/
def endpointString (ip : Bytes) (port : Int) (zone : Bytes) : Bytes :=
  let host := if ip = [] then [] else ipString ip
  if zone ≠ [] then joinHostPort (host ++ ascii "%" ++ zone) (itoa port)
  else joinHostPort host (itoa port)

/-! ## `ParseIP` -/

/-- One field of a dotted address: digits, no leading zero, at most 255. -/
def octet (s : Bytes) : Option UInt8 :=
  if s = [] ∨ (s.length > 1 ∧ s.head? = some 0x30) then none
  else if s.all (within 0x30 0x39) then
    let n := s.foldl (fun n b => n * 10 + (b.toNat - 0x30)) 0
    if n ≤ 255 then some (UInt8.ofNat n) else none
  else none

/-- A dotted address. -/
def parseIPv4 (s : Bytes) : Option Bytes :=
  match s.splitOn 0x2E with
  | [a, b, c, d] =>
      match octet a, octet b, octet c, octet d with
      | some a, some b, some c, some d => some [a, b, c, d]
      | _, _, _, _ => none
  | _ => none

/-- The value of a hexadecimal digit. -/
def hexDigit (b : UInt8) : Option Nat :=
  if within 0x30 0x39 b then some (b.toNat - 0x30)
  else if within 0x61 0x66 b then some (b.toNat - 0x61 + 10)
  else if within 0x41 0x46 b then some (b.toNat - 0x41 + 10)
  else none

/-- The two bytes of a group of hexadecimal digits. -/
def groupBytes (ds : Bytes) : Bytes :=
  let n := ds.foldl (fun n b => n * 16 + (hexDigit b).getD 0) 0
  [UInt8.ofNat (n / 256), UInt8.ofNat n]

/-- The loop over the groups of an IPv6 address, of which at most `n` are left:
    the bytes so far, and where among them the `::` was.  The last groups can be
    a dotted address. -/
def parseGroups : Nat → Bytes → Option Nat → Bytes → Option (Bytes × Option Nat)
  | 0, out, ellipsis, s => if s = [] then some (out, ellipsis) else none
  | n + 1, out, ellipsis, s =>
      let ds := s.takeWhile fun b => (hexDigit b).isSome
      if ds.length = 0 ∨ ds.length > 4 then none
      else
        match s.drop ds.length with
        | [] => some (out ++ groupBytes ds, ellipsis)
        | c :: more =>
            if c = 0x2E then
              if (ellipsis = none ∧ out.length ≠ 12) ∨ out.length + 4 > 16 then none
              else (parseIPv4 s).map fun v4 => (out ++ v4, ellipsis)
            else if c ≠ 0x3A then none
            else
              let out := out ++ groupBytes ds
              match more with
              | [] => none
              | d :: more' =>
                  if d = 0x3A then
                    if ellipsis.isSome then none
                    else if more' = [] then some (out, some out.length)
                    else parseGroups n out (some out.length) more'
                  else parseGroups n out ellipsis more

/-- The groups with the zeros of the `::` put in. -/
def expand : Bytes × Option Nat → Option Bytes
  | (out, none) => if out.length = 16 then some out else none
  | (out, some e) =>
      if out.length < 16 then
        some (out.take e ++ List.replicate (16 - out.length) 0 ++ out.drop e)
      else none

/-- An address with colons. -/
def parseIPv6 (s : Bytes) : Option Bytes :=
  if s.take 2 = ascii "::" then
    if s.length = 2 then some (List.replicate 16 0)
    else (parseGroups 8 [] (some 0) (s.drop 2)).bind expand
  else (parseGroups 8 [] none s).bind expand

/-- `ParseIP`: the first dot or colon decides which kind of address it is, and a
    zone is not accepted. -/
def parseIP (s : Bytes) : Option Bytes :=
  if 0x25 ∈ s then none
  else
    match s.find? fun b => b = 0x2E ∨ b = 0x3A with
    | none => none
    | some b =>
        if b = 0x2E then (parseIPv4 s).map (v4InV6 ++ ·) else parseIPv6 s

example : parseIP (ascii "::ffff:192.0.2.10") = to16 [192, 0, 2, 10] := by decide

example : (parseIP (ascii "2001:DB8:0:0:1::")).map ipString
    = some (ascii "2001:db8:0:0:1::") := by decide

end GoNet
