import GitPublish.Url.Domain
import GitPublish.Url.Ipv4
import GitPublish.Url.Ipv6

/-!
# Hosts

A host is a name or an address. In the schemes of the web a host is looked up, so a name there is a
domain name or an IPv4 address; in every other scheme it is any text without the characters that
divide a URL.
-/
namespace GitPublish.Url

inductive Error where
  | emptyHost
  | invalidDomain
  | invalidPort
  | invalidIpv4
  | invalidIpv6
  | invalidHostCharacter
  | noScheme
  deriving DecidableEq, Repr

def Error.message : Error → String
  | emptyHost => "empty host"
  | invalidDomain => "invalid international domain name"
  | invalidPort => "invalid port number"
  | invalidIpv4 => "invalid IPv4 address"
  | invalidIpv6 => "invalid IPv6 address"
  | invalidHostCharacter => "invalid domain character"
  | noScheme => "relative URL without a base"

inductive Host where
  | name (text : List Char)
  | ipv4 (address : Nat)
  | ipv6 (pieces : List Nat)
  deriving DecidableEq, Repr

namespace Host

/-- A host as a URL shows it. -/
def text : Host → String
  | name cs => String.ofList cs
  | ipv4 address => Ipv4.text address
  | ipv6 pieces => "[" ++ Ipv6.text pieces ++ "]"

def ofBrackets (rest : List Char) : Except Error Host :=
  match rest.getLast? with
  | some ']' =>
    match Ipv6.parse? rest.dropLast with
    | some pieces => .ok (ipv6 pieces)
    | none => .error .invalidIpv6
  | _ => .error .invalidIpv6

/-- A host that is looked up. -/
def ofDomain (cs : List Char) : Except Error Host :=
  match cs with
  | '[' :: rest => ofBrackets rest
  | cs =>
    match String.fromUTF8? (ByteArray.mk (unescape cs).toArray) with
    | none => .error .invalidDomain
    | some plain =>
      match Domain.toAscii? plain.toList with
      | none => .error .invalidDomain
      | some [] => .error .emptyHost
      | some domain =>
        if Ipv4.endsInNumber domain then
          match Ipv4.parse? domain with
          | some address => .ok (ipv4 address)
          | none => .error .invalidIpv4
        else .ok (name domain)

def isForbidden (c : Char) : Bool := "\x00\t\n\r #/:<>?@[\\]^|".toList.contains c

/-- A host that is not looked up. -/
def ofOpaque (cs : List Char) : Except Error Host :=
  match cs with
  | '[' :: rest => ofBrackets rest
  | cs =>
    if cs.any isForbidden then .error .invalidHostCharacter
    else .ok (name (escape controlSet cs))

end Host
end GitPublish.Url
