import HermesEnterprise.Foundation.Cidr
import HermesEnterprise.Inbound.Text

/-! # Which addresses a fetch may reach

An address is parsed from its text, and refused by the range that it lies in. An IPv6 address that carries an
IPv4 one is judged as that.
-/
namespace HermesEnterprise.Security
open HermesEnterprise.Inbound

structure IpVerdict where
  allowed : Bool
  range : Option Text
  deriving DecidableEq, Repr

def ipAllowed : IpVerdict := ⟨true,none⟩

def refuseRange (range : Text) : IpVerdict := ⟨false,some range⟩

structure Octets where
  a : ℕ
  b : ℕ
  c : ℕ
  d : ℕ
  deriving DecidableEq, Repr

section Parsing

/-- `^\d{1,3}$` -/
def shortDigits (part : Text) : Bool := !part.isEmpty && decide (part.length ≤ 3) && part.all isDigit

def octet (part : Text) : Option ℕ :=
  if shortDigits part then
    let n := parseInt 10 part
    if 255 < n then none else some n
  else none

def parseIpv4 (value : Text) : Option Octets :=
  match value.splitOn (unit '.') with
  | [a,b,c,d] => do return ⟨← octet a,← octet b,← octet c,← octet d⟩
  | _ => none

/-- `[0-9a-fA-F]` -/
def isHexUnit (c : CodeUnit) : Bool :=
  isDigit c || (unit 'a' ≤ c && c ≤ unit 'f') || (unit 'A' ≤ c && c ≤ unit 'F')

/-- `replace(/^\[|\]$/g, '')` -/
def withoutBrackets (value : Text) : Text :=
  let value := if value.head? = some (unit '[') then value.drop 1 else value
  if value.getLast? = some (unit ']') then value.dropLast else value

def hexGroup (part : Text) : Option ℕ :=
  if !part.isEmpty && decide (part.length ≤ 4) && part.all isHexUnit then some (parseInt 16 part) else none

def hexGroups (part : Text) : Option (List ℕ) :=
  if part.isEmpty then some [] else (part.splitOn (unit ':')).mapM hexGroup

/-- An IPv6 literal, with or without `::`, as its eight groups. -/
def parseIpv6 (value : Text) : Option (List ℕ) :=
  let raw := (withoutBrackets value).takeWhile (· ≠ unit '%')
  if unit ':' ∉ raw then none
  else
    match splitAtFirst (text "::") raw with
    | none => (hexGroups raw).filter fun left => left.length = 8
    | some (head,tail) =>
      if (splitAtFirst (text "::") tail).isSome then none
      else do
        let left ← hexGroups head
        let right ← hexGroups tail
        if 8 < left.length + right.length then none
        else return left ++ List.replicate (8 - left.length - right.length) 0 ++ right

end Parsing

section Checks

def checkIpv4 (octets : Octets) : IpVerdict :=
  if octets.a = 0 then refuseRange (text "0.0.0.0/8")
  else if octets.a = 10 then refuseRange (text "10.0.0.0/8")
  else if octets.a = 127 then refuseRange (text "127.0.0.0/8")
  else if octets.a = 100 ∧ 64 ≤ octets.b ∧ octets.b ≤ 127 then refuseRange (text "100.64.0.0/10")
  else if octets.a = 169 ∧ octets.b = 254 then refuseRange (text "169.254.0.0/16")
  else if octets.a = 172 ∧ 16 ≤ octets.b ∧ octets.b ≤ 31 then refuseRange (text "172.16.0.0/12")
  else if octets.a = 192 ∧ octets.b = 0 then refuseRange (text "192.0.0.0/24")
  else if octets.a = 192 ∧ octets.b = 168 then refuseRange (text "192.168.0.0/16")
  else if octets.a = 198 ∧ (octets.b = 18 ∨ octets.b = 19) then refuseRange (text "198.18.0.0/15")
  else if 224 ≤ octets.a then refuseRange (text "224.0.0.0/4 and above")
  else ipAllowed

/-- The IPv4 address that two groups carry. -/
def embeddedIpv4 (high low : ℕ) : Octets :=
  ⟨(high >>> 8) &&& 0xff,high &&& 0xff,(low >>> 8) &&& 0xff,low &&& 0xff⟩

/-- The IPv4 address inside an IPv6 one, and the name of the embedding. -/
def ipv4Inside (groups : List ℕ) : Option (Octets × Text) :=
  let g := fun i => groups.getD i 0
  let zeroThrough := fun n => (groups.take n).all (· = 0)
  if zeroThrough 5 = true ∧ g 5 = 0xffff then some (embeddedIpv4 (g 6) (g 7),text "::ffff:0:0/96")
  else if zeroThrough 5 = true ∧ g 5 = 0 ∧ ¬(g 6 = 0 ∧ g 7 ≤ 1) then some (embeddedIpv4 (g 6) (g 7),text "::/96")
  else if g 0 = 0x0064 ∧ g 1 = 0xff9b ∧ g 2 = 0 ∧ g 3 = 0 ∧ g 4 = 0 ∧ g 5 = 0 then
    some (embeddedIpv4 (g 6) (g 7),text "64:ff9b::/96")
  else if g 0 = 0x0064 ∧ g 1 = 0xff9b ∧ g 2 = 0x0001 then
    some (embeddedIpv4 (g 6) (g 7),text "64:ff9b:1::/48")
  else if g 0 = 0x2002 then some (embeddedIpv4 (g 1) (g 2),text "2002::/16")
  else none

def checkIpv6 (groups : List ℕ) : IpVerdict :=
  let first := groups.getD 0 0
  if groups.all (· = 0) = true then refuseRange (text "::")
  else if (groups.take 7).all (· = 0) = true ∧ groups[7]? = some 1 then refuseRange (text "::1")
  else
    match ipv4Inside groups with
    | some (octets,via) =>
      match checkIpv4 octets with
      | ⟨false,range⟩ => refuseRange (via ++ text " -> " ++ range.getD (text "undefined"))
      | verdict => verdict
    | none =>
      if first &&& 0xfe00 = 0xfc00 then refuseRange (text "fc00::/7")
      else if first &&& 0xffc0 = 0xfe80 then refuseRange (text "fe80::/10")
      else if first &&& 0xff00 = 0xff00 then refuseRange (text "ff00::/8")
      else if first &&& 0xffc0 = 0xfec0 then refuseRange (text "fec0::/10")
      else if first = 0x2001 ∧ groups.getD 1 0 = 0x0db8 then refuseRange (text "2001:db8::/32")
      else if first = 0x0100 ∧ ((groups.drop 1).take 3).all (· = 0) = true then refuseRange (text "100::/64")
      else ipAllowed

/-- What is dotted behind `::ffff:`, in either case. -/
def mappedDotted (address : Text) : Option Text :=
  (afterPrefix (text "::ffff:") address).filter fun rest =>
    decide ((rest.splitOn (unit '.')).length = 4) && (rest.splitOn (unit '.')).all shortDigits

/-- Whether an address is one that a tool may fetch. -/
def checkAddress (value : Text) : IpVerdict :=
  let address := trim value
  match mappedDotted address with
  | some dotted =>
    match parseIpv4 dotted with
    | some octets => checkIpv4 octets
    | none => refuseRange (text "unparseable")
  | none =>
    match parseIpv4 address, parseIpv6 address with
    | some octets, _ => checkIpv4 octets
    | none, some groups => checkIpv6 groups
    | none, none => refuseRange (text "unparseable")

/-- Whether a host name is itself an address, which skips the resolver. -/
def isIpLiteral (hostname : Text) : Bool :=
  let bare := withoutBrackets hostname
  (parseIpv4 bare).isSome || (parseIpv6 bare).isSome

end Checks
end HermesEnterprise.Security
