import Workflow.Number.Base
import Workflow.Number.Read
import Workflow.Text.Blank
import Workflow.Text.Cut

namespace Workflow.Schema

namespace Address

open Number

/-- Characters beyond ASCII count as letters unless they are blank. -/
def isLetterOrDigit (c : Char) : Bool := c.isAlphanum || (c.toNat > 127 && !Text.isBlank c)

/-- Labels of at most 63 characters between dots, with no hyphen at either end. -/
def isHostname (cs : List Char) : Bool :=
  !cs.isEmpty && cs.head? != some '-' && cs.getLast? != some '-' && cs.length ≤ 255
    && cs.all (fun c => isLetterOrDigit c || c = '-' || c = '.')
    && (Text.split '.' cs).all (fun label => label.length ≤ 63)

/-- A number up to 255 without zeros in front. -/
def isOctet (cs : List Char) : Bool :=
  match cs with
  | [] => false
  | ['0'] => true
  | '0' :: _ => false
  | _ => cs.length ≤ 3 && cs.all Char.isDigit && ofDigits cs ≤ 255

def isIpv4 (cs : List Char) : Bool :=
  let parts := Text.split '.' cs
  parts.length = 4 && parts.all isOctet

/-- Sixteen bits of an IPv6 address. -/
def isGroup (cs : List Char) : Bool :=
  !cs.isEmpty && cs.length ≤ 4 && cs.all (fun c => (hexDigit? c).isSome)

/-- The number of groups between colons. An IPv4 address at the end stands for two of them. -/
def groups? (ipv4AtEnd : Bool) (cs : List Char) : Option Nat :=
  let parts := Text.split ':' cs
  if cs.isEmpty then some 0
  else if parts.all isGroup then some parts.length
  else if ipv4AtEnd ∧ parts.dropLast.all isGroup ∧ parts.getLast?.any isIpv4 then
    some (parts.length + 1)
  else none

/-- Eight groups, or fewer when two colons stand for the missing ones. -/
def isIpv6 (cs : List Char) : Bool :=
  match Text.cut? [':', ':'] cs with
  | none => groups? true cs = some 8
  | some (before, after) =>
    match groups? false before, groups? true after with
    | some m, some n => m + n ≤ 7
    | _, _ => false

/-- Characters that no host holds. -/
def breaksHost (c : Char) : Bool :=
  c ∈ ['\x00', '\t', '\n', '\r', ' ', '#', '/', ':', '<', '>', '?', '@', '[', '\\', ']', '^', '|']

/-- Characters that no domain name holds. -/
def breaksDomain (c : Char) : Bool := breaksHost c || c < ' ' || c = '%' || c = '\x7f'

/-- A text with its percent signs resolved where two hexadecimal digits follow. -/
def resolvePercents : List Char → List Char
  | '%' :: a :: b :: rest =>
    match hexDigit? a, hexDigit? b with
    | some m, some n => Char.ofNat (16 * m + n) :: resolvePercents rest
    | _, _ => '%' :: resolvePercents (a :: b :: rest)
  | c :: rest => c :: resolvePercents rest
  | [] => []

/-- A part of an address of numbers: decimal, octal after a zero, or hexadecimal after `0x`. -/
def looseNumber? : List Char → Option Nat
  | [] => none
  | '0' :: x :: rest => if x = 'x' ∨ x = 'X' then ofBase? 16 rest else ofBase? 8 (x :: rest)
  | cs => ofBase? 10 cs

/-- The labels of a domain name without an empty last one. -/
def labels (cs : List Char) : List (List Char) :=
  let parts := Text.split '.' cs
  if 1 < parts.length ∧ parts.getLast? = some [] then parts.dropLast else parts

def endsInNumber (cs : List Char) : Bool :=
  (labels cs).getLast?.any (fun label =>
    (!label.isEmpty && label.all Char.isDigit) || (looseNumber? label).isSome)

/-- At most four numbers; the last one fills the bytes that the others leave. -/
def isLooseIpv4 (cs : List Char) : Bool :=
  match (labels cs).mapM looseNumber? with
  | none => false
  | some ns =>
    ns.length ≤ 4 && ns.dropLast.all (· ≤ 255)
      && ns.getLast?.any (· < Nat.pow 256 (5 - ns.length))

def isDomain (cs : List Char) : Bool :=
  let name := resolvePercents cs
  !name.isEmpty && !name.any breaksDomain && (!endsInNumber name || isLooseIpv4 name)

/-- A host: an IPv6 address in brackets, a domain name where the scheme wants one, or any text. -/
def isHost (wantsDomain : Bool) : List Char → Bool
  | '[' :: rest => rest.getLast? = some ']' && isIpv6 rest.dropLast
  | cs => if wantsDomain then isDomain cs else !cs.any breaksHost

/-- A host and the port after the first colon outside brackets. -/
def splitPort (inside : Bool) : List Char → List Char × Option (List Char)
  | [] => ([], none)
  | c :: rest =>
    if c = ':' ∧ !inside then ([], some rest)
    else
      let (host, port) := splitPort (if c = '[' then true else if c = ']' then false else inside) rest
      (c :: host, port)

def isPort (cs : List Char) : Bool := cs.all Char.isDigit && ofDigits cs ≤ 65535

/-- A host with a user before it and a port after it. Only a host alone may be empty, and only where the
scheme wants no domain name. -/
def isAuthority (wantsDomain : Bool) (cs : List Char) : Bool :=
  let parts := Text.split '@' cs
  let (host, port) := splitPort false (parts.getLast?.getD [])
  if host.isEmpty then !wantsDomain && parts.length = 1 && port.isNone
  else isHost wantsDomain host && port.all isPort

def isSchemeChar (c : Char) : Bool := c.isAlphanum || c = '+' || c = '-' || c = '.'

/-- Schemes whose addresses name a domain. -/
def wantsDomain (scheme : List Char) : Bool :=
  String.ofList scheme ∈ ["http", "https", "ws", "wss", "ftp"]

def isSlash (c : Char) : Bool := c = '/' || c = '\\'

def endsAuthority (c : Char) : Bool := c = '/' || c = '?' || c = '#'

def isDriveLetter : List Char → Bool
  | [c, sep] => c.isAlpha && (sep = ':' || sep = '|')
  | _ => false

/-- Whether what follows the colon of a scheme completes an address. -/
def completes (scheme rest : List Char) : Bool :=
  if wantsDomain scheme then
    isAuthority true ((rest.dropWhile isSlash).takeWhile (fun c => !(endsAuthority c || c = '\\')))
  else
    match rest with
    | a :: b :: rest =>
      if String.ofList scheme = "file" then
        let host := rest.takeWhile (fun c => !(endsAuthority c || c = '\\'))
        !(isSlash a && isSlash b) || host.isEmpty || isDriveLetter host || isHost true host
      else !(a = '/' && b = '/') || isAuthority false (rest.takeWhile (fun c => !endsAuthority c))
    | _ => true

/-- A text without the spaces and control characters at both ends, and without tabs and line ends. -/
def stripped (cs : List Char) : List Char :=
  let isEdge (c : Char) : Bool := c ≤ ' '
  (((cs.dropWhile isEdge).reverse.dropWhile isEdge).reverse).filter (fun c =>
    c ≠ '\t' ∧ c ≠ '\n' ∧ c ≠ '\r')

/-- A scheme and an address of its form. -/
def isUri (cs : List Char) : Bool :=
  let cs := stripped cs
  let scheme := cs.takeWhile isSchemeChar
  match cs.drop scheme.length with
  | ':' :: rest => scheme.head?.any Char.isAlpha && completes (scheme.map Char.toLower) rest
  | _ => false

/-- A reference is any text without blanks and backslashes. -/
def isUriReference (cs : List Char) : Bool := !cs.any (fun c => c = '\\' || Text.isBlank c)

end Address

end Workflow.Schema
