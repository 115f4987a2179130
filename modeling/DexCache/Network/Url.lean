import DexCache.Network.Address
import DexCache.Network.Domain
import DexCache.Network.Percent

/-!
# URLs

A URL is a scheme, perhaps a host with a user and a port, a path, a query and a fragment.
The schemes of the web always have a host, which is a domain name or an address, and take
backslashes for slashes; a file has a host if it likes; elsewhere a host begins behind two
slashes and is any text.
-/

namespace DexCache.Network

/-- Why a text is not a URL. -/
inductive UrlFault where
  | noScheme
  | emptyHost
  | hostCharacter
  | domain
  | port
  | ipv4
  | ipv6
deriving DecidableEq, Repr

/-- The report of a fault. -/
def UrlFault.message : UrlFault → String
  | .noScheme => "relative URL without a base"
  | .emptyHost => "empty host"
  | .hostCharacter => "invalid domain character"
  | .domain => "invalid international domain name"
  | .port => "invalid port number"
  | .ipv4 => "invalid IPv4 address"
  | .ipv6 => "invalid IPv6 address"

/-- What the rest of a URL is read by. -/
inductive Scheme where
  | web
  | file
  | other
deriving DecidableEq, Repr

/-- The kind of a scheme, whose name may have letters of either case. -/
def Scheme.ofName (name : List Char) : Scheme :=
  let name := String.ofList (name.map Char.toLower)
  if ["http", "https", "ws", "wss", "ftp"].contains name then .web
  else if name = "file" then .file
  else .other

/-- Is the character a slash under this scheme? -/
def Scheme.isSlash (s : Scheme) (c : Char) : Bool :=
  c = '/' || (s ≠ .other && c = '\\')

/-- Does the character end a host with its user and port? -/
def Scheme.endsAuthority (s : Scheme) (c : Char) : Bool :=
  s.isSlash c || c = '?' || c = '#'

/-- A URL, as far as it tells how to reach something: its texts are as they are written. -/
structure Url where
  user : List Char := []
  password : List Char := []
  host : List Char := []
  query : List Char := []
deriving DecidableEq, Repr

namespace Url

/-- Drops control characters and blanks at both ends, and tabs and line ends everywhere. -/
def clean (cs : List Char) : List Char :=
  let isEdge (c : Char) : Bool := decide (c.toNat ≤ 0x20)
  ((cs.dropWhile isEdge).reverse.dropWhile isEdge).reverse.filter fun c =>
    c ≠ '\t' && c ≠ '\n' && c ≠ '\r'

/-- Splits the name of a scheme from what stands behind its colon. -/
def splitScheme? (cs : List Char) : Option (List Char × List Char) :=
  match cs.span fun c => c ≠ ':' with
  | (c :: name, _ :: rest) =>
    if c.isAlpha && name.all fun c => c.isAlphanum || c = '+' || c = '-' || c = '.' then
      some (c :: name, rest)
    else none
  | _ => none

/-- The query in what follows a host. -/
def queryOf (cs : List Char) : List Char :=
  ((cs.takeWhile fun c => c ≠ '#').dropWhile fun c => c ≠ '?').drop 1

/-- Splits at the last `@`: the user in front of it, if there is one, and the host with its
port. -/
def splitUser (authority : List Char) : Option (List Char) × List Char :=
  let host := (authority.reverse.takeWhile fun c => c ≠ '@').reverse
  if host.length = authority.length then (none, host)
  else (some (authority.take (authority.length - host.length - 1)), host)

/-- Splits a host from its port, at the first colon outside of brackets. -/
def splitPort : Bool → List Char → List Char × List Char
  | _, [] => ([], [])
  | inside, c :: cs =>
    if c = ':' && !inside then ([], c :: cs)
    else
      let (host, port) := splitPort (c = '[' || (inside && c ≠ ']')) cs
      (c :: host, port)

/-- What is wrong with an address between brackets, if anything is; `cs` begins behind the
first one. -/
def bracketFault? (cs : List Char) : Option UrlFault :=
  if cs.getLast? = some ']' && isIPv6 cs.dropLast then none else some .ipv6

/-- What is wrong with a domain name or an address, if anything is. -/
def domainFault? (host : List Char) : Option UrlFault :=
  match Text.Utf8.decode (percentDecode host) with
  | .error _ => some .domain
  | .ok cs =>
    match domain? cs with
    | none => some .domain
    | some [] => some .emptyHost
    | some name => if endsInNumber name && !isLooseIPv4 name then some .ipv4 else none

/-- May the character stand in a host that is any text? -/
def isHostChar (c : Char) : Bool :=
  !"\x00 #/:<>?@[\\]^|".toList.contains c

/-- What is wrong with a host, if anything is; a host that is any text may be empty. -/
def hostFault? (scheme : Scheme) (host : List Char) : Option UrlFault :=
  match host with
  | '[' :: rest => bracketFault? rest
  | _ =>
    match scheme with
    | .other => if host.all isHostChar then none else some .hostCharacter
    | .file => if host.isEmpty then none else domainFault? host
    | .web => if host.isEmpty then some .emptyHost else domainFault? host

/-- What is wrong with a port behind a host, if anything is; it begins with its colon and
ends at a backslash. -/
def portFault? (host port : List Char) : Option UrlFault :=
  match port with
  | [] => none
  | _ :: cs =>
    let digits := cs.takeWhile fun c => c ≠ '\\'
    if host.isEmpty then some .emptyHost
    else if digits.isEmpty || isPort digits then none
    else some .port

/-- A URL that has a host, from behind its slashes.  A host may only be left out together
with its port and the user in front of it. -/
def readAuthority (scheme : Scheme) (cs : List Char) : Except UrlFault Url :=
  let (authority, path) := cs.span fun c => !scheme.endsAuthority c
  let (login, hostAndPort) := splitUser authority
  let (user, password) := (login.getD []).span fun c => c ≠ ':'
  let password := password.drop 1
  let (host, port) := splitPort false hostAndPort
  if login = some [] && hostAndPort.isEmpty && !path.isEmpty then .error .emptyHost
  else
    match (hostFault? scheme host).or (portFault? host port) with
    | some fault => .error fault
    | none =>
      if host.isEmpty && !(user.isEmpty && password.isEmpty) then .error .emptyHost
      else .ok { user, password, host, query := queryOf path }

/-- Is the text a drive, a letter with a colon or a bar behind it? -/
def isDrive : List Char → Bool
  | [c, d] => c.isAlpha && (d = ':' || d = '|')
  | _ => false

/-- The URL of a file, from behind the colon. -/
def readFile (cs : List Char) : Except UrlFault Url :=
  match cs with
  | a :: b :: rest =>
    if Scheme.file.isSlash a && Scheme.file.isSlash b then
      let (host, path) := rest.span fun c => !Scheme.file.endsAuthority c
      if isDrive host then .ok { query := queryOf path }
      else
        match hostFault? .file host with
        | some fault => .error fault
        | none => .ok { host, query := queryOf path }
    else .ok { query := queryOf cs }
  | _ => .ok { query := queryOf cs }

/-- Reads a whole text as a URL. -/
def read (text : String) : Except UrlFault Url :=
  match splitScheme? (clean text.toList) with
  | none => .error .noScheme
  | some (name, rest) =>
    match Scheme.ofName name, rest with
    | .web, rest => readAuthority .web (rest.dropWhile Scheme.web.isSlash)
    | .file, rest => readFile rest
    | .other, '/' :: '/' :: rest => readAuthority .other rest
    | .other, rest => .ok { query := queryOf rest }

end Url

end DexCache.Network
