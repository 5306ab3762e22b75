/-!
# Addresses and identifiers as text

IP addresses from the bytes of a record, and the text the standard library writes
for them: an IPv6 address is written in groups, its longest run of two or more zero
groups left out.
-/

namespace CyberGuard.Agent
set_option autoImplicit false

/-- `{:x}` of a number. -/
def lowerHex (n : Nat) : String := String.ofList (Nat.toDigits 16 n)

structure Ipv4Addr where
  a : UInt8
  b : UInt8
  c : UInt8
  d : UInt8
  deriving DecidableEq, Repr

def Ipv4Addr.text (ip : Ipv4Addr) : String :=
  toString ip.a.toNat ++ "." ++ toString ip.b.toNat ++ "." ++ toString ip.c.toNat ++ "." ++
    toString ip.d.toNat

structure Ipv6Addr where
  octets : List UInt8
  length_octets : octets.length = 16
  deriving DecidableEq, Repr

def groupsOf : List UInt8 → List Nat
  | high :: low :: rest => (high.toNat * 256 + low.toNat) :: groupsOf rest
  | _ => []

structure Span where
  start : Nat
  len : Nat
  deriving DecidableEq, Repr

/-- The run with the zero group at place `i`, which follows it or begins a new one. -/
def Span.extend (current : Span) (i : Nat) : Span :=
  ⟨if current.len = 0 then i else current.start, current.len + 1⟩

/-- The loop over the groups: the place of the next one, the run that ends here and the longest so
far. -/
def longestZeroes : Nat → Span → Span → List Nat → Span
  | _, _, longest, [] => longest
  | i, current, longest, group :: rest =>
    if group = 0 then
      longestZeroes (i + 1) (current.extend i)
        (if longest.len < (current.extend i).len then current.extend i else longest) rest
    else longestZeroes (i + 1) ⟨0, 0⟩ longest rest

def fmtSubslice : List Nat → String
  | [] => ""
  | first :: tail => lowerHex first ++ String.join (tail.map fun group => ":" ++ lowerHex group)

namespace Ipv6Addr

def segments (ip : Ipv6Addr) : List Nat := groupsOf ip.octets

def toIpv4Mapped (ip : Ipv6Addr) : Option Ipv4Addr :=
  match ip.octets with
  | [0, 0, 0, 0, 0, 0, 0, 0, 0, 0, 0xff, 0xff, a, b, c, d] => some ⟨a, b, c, d⟩
  | _ => none

def text (ip : Ipv6Addr) : String :=
  match ip.toIpv4Mapped with
  | some v4 => "::ffff:" ++ v4.text
  | none =>
    let zeroes := longestZeroes 0 ⟨0, 0⟩ ⟨0, 0⟩ ip.segments
    if 1 < zeroes.len then
      fmtSubslice (ip.segments.take zeroes.start) ++ "::" ++
        fmtSubslice (ip.segments.drop (zeroes.start + zeroes.len))
    else fmtSubslice ip.segments

end Ipv6Addr

inductive IpAddr where
  | v4 (ip : Ipv4Addr)
  | v6 (ip : Ipv6Addr)
  deriving DecidableEq, Repr

namespace IpAddr

def text : IpAddr → String
  | .v4 ip => ip.text
  | .v6 ip => ip.text

def unmapped : IpAddr → IpAddr
  | .v4 ip => .v4 ip
  | .v6 ip =>
    match ip.toIpv4Mapped with
    | some mapped => .v4 mapped
    | none => .v6 ip

end IpAddr

example : (IpAddr.v6 ⟨[0x20, 1, 0xd, 0xb8, 0, 0, 0, 0, 0, 1, 0, 0, 0, 0, 0, 1], rfl⟩).text =
    "2001:db8::1:0:0:1" := by
  decide

structure Uuid where
  bytes : List UInt8
  length_bytes : bytes.length = 16
  deriving DecidableEq, Repr

def hexByte (byte : UInt8) : List Char :=
  [(byte.toNat / 16).digitChar, (byte.toNat % 16).digitChar]

def hexBytes (bytes : List UInt8) : String := String.ofList (bytes.flatMap hexByte)

def Uuid.text (uuid : Uuid) : String :=
  hexBytes (uuid.bytes.take 4) ++ "-" ++ hexBytes ((uuid.bytes.drop 4).take 2) ++ "-" ++
    hexBytes ((uuid.bytes.drop 6).take 2) ++ "-" ++ hexBytes ((uuid.bytes.drop 8).take 2) ++ "-" ++
    hexBytes (uuid.bytes.drop 10)

end CyberGuard.Agent
