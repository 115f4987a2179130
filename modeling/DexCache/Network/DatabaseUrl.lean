import DexCache.Network.Url
import DexCache.Text.Quoted

/-!
# URLs of databases

What a URL says about the connection to a database: its user and password are texts with
percent signs, and some parts of its query are settings with values of their own kind.
-/

namespace DexCache.Network

/-- Why a text is not a number within bounds. -/
inductive NumberFault where
  | empty
  | digit
  | tooLarge
deriving DecidableEq, Repr

/-- The report of a fault. -/
def NumberFault.message : NumberFault → String
  | .empty => "cannot parse integer from empty string"
  | .digit => "invalid digit found in string"
  | .tooLarge => "number too large to fit in target type"

/-- What is wrong with digits read onto a value up to `bound`, if anything is: the first
character that cannot be read decides. -/
def digitsFault? (bound : Nat) : Nat → List Char → Option NumberFault
  | _, [] => none
  | n, c :: cs =>
    if !c.isDigit then some .digit
    else
      let n := n * 10 + (c.toNat - 48)
      if bound < n then some .tooLarge else digitsFault? bound n cs

/-- What is wrong with a number up to `bound`, if anything is; a plus sign may stand in
front of its digits. -/
def numberFault? (bound : Nat) (cs : List Char) : Option NumberFault :=
  match cs with
  | [] => some .empty
  | '+' :: d :: digits => digitsFault? bound 0 (d :: digits)
  | _ => digitsFault? bound 0 cs

namespace DatabaseUrl

/-- Why a text is not the URL of a database. -/
inductive Fault where
  | url (fault : UrlFault)
  | text (fault : Text.Utf8.Fault)
  | number (fault : NumberFault)
  | address
  | encryption (mode : String)
deriving DecidableEq, Repr

/-- The report of a setting that is wrong, with the reason and its whole report. -/
def settingReport (reason report : String) : String :=
  "error with configuration: " ++ reason ++ ": " ++ report

/-- The report of a fault; one of an encryption mode is wrapped twice. -/
def Fault.message : Fault → String
  | .url fault => settingReport fault.message fault.message
  | .text fault => settingReport fault.message fault.message
  | .number fault => settingReport fault.message fault.message
  | .address =>
    let reason := "invalid IP address syntax"
    settingReport reason reason
  | .encryption mode =>
    let reason := "unknown value " ++ Text.reportQuoted mode ++ " for `ssl_mode`"
    settingReport ("error with configuration: " ++ reason) (settingReport reason reason)

/-- What is wrong with a text with percent signs, if anything is. -/
def textFault? (cs : List Char) : Option Fault :=
  match Text.Utf8.decode (percentDecode cs) with
  | .error fault => some (.text fault)
  | .ok _ => none

/-- What is wrong with a host that is the path of a socket, if it is one and anything is. -/
def socketFault? (host : List Char) : Option Fault :=
  if (percentDecode host).head? = some 0x2F then textFault? host else none

/-- The ways to ask for encryption. -/
def encryptionModes : List String :=
  ["disable", "allow", "prefer", "require", "verify-ca", "verify-full"]

/-- What is wrong with a part of the query, if anything is. -/
def partFault? (name value : List Char) : Option Fault :=
  let name := String.ofList name
  if name = "sslmode" || name = "ssl-mode" then
    if encryptionModes.contains (String.ofList (value.map Char.toLower)) then none
    else some (.encryption (String.ofList value))
  else if name = "statement-cache-capacity" then
    (numberFault? 18446744073709551615 value).map .number
  else if name = "port" then (numberFault? 65535 value).map .number
  else if name = "hostaddr" then if isIPv4 value || isIPv6 value then none else some .address
  else none

/-- What is wrong with the URL of a database, if anything is. -/
def fault? (text : String) : Option Fault :=
  match Url.read text with
  | .error fault => some (.url fault)
  | .ok url =>
    (((socketFault? url.host).or (textFault? url.user)).or (textFault? url.password)).or
      ((queryPairs url.query).findSome? fun (name, value) => partFault? name value)

end DatabaseUrl

end DexCache.Network
