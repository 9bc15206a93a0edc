import StubGen.Json.Number
import StubGen.Text.Split

/-!
# Origins

The part of an address that says which machine is meant, and how it is reached: over a secure
connection or not, the host, and the number of its endpoint. What follows in the address is the
target of a request.
-/

namespace StubGen

structure Origin where
  isSecure : Bool
  host : String
  endpoint : Nat
deriving DecidableEq, Repr

namespace Origin

/-- Why an address leads nowhere. -/
inductive Refusal where
  | emptyHost
  | invalidHost
  | invalidEndpoint
deriving DecidableEq, Repr

def Refusal.message : Refusal → String
  | .emptyHost => "empty host"
  | .invalidHost => "invalid international domain name"
  | .invalidEndpoint => "invalid port number"

/-- The endpoint of an address that names none. -/
def usualEndpoint (isSecure : Bool) : Nat := if isSecure then 443 else 80

/-- Whether a character cannot be part of the name of a host. -/
def isForbidden (c : Char) : Bool :=
  c.toNat ≤ 32 || c.toNat = 127 || "#%/:<>?@[\\]^|".toList.contains c

/-- A host as it is written in an address. Numbers of six parts stand in brackets. -/
def readHost (cs : List Char) : Except Refusal String :=
  match cs with
  | [] => .error .emptyHost
  | '[' :: _ => .ok (String.ofList (cs.map Char.toLower))
  | _ => if cs.any isForbidden then .error .invalidHost else .ok (String.ofList (cs.map Char.toLower))

/-- The number of an endpoint behind the colon, the usual one if there are no digits. -/
def readEndpoint (isSecure : Bool) (digits : List Char) : Except Refusal Nat :=
  if digits.isEmpty then .ok (usualEndpoint isSecure)
  else if digits.all Char.isDigit && Json.readDigits digits < 65536 then
    .ok (Json.readDigits digits)
  else .error .invalidEndpoint

/-- Whether a character ends the name of a machine. -/
def isEnd (c : Char) : Bool := c = '/' || c = '\\' || c = '?' || c = '#'

/-- The origin that an address begins with, and what follows. A user who is named before the host
does not count. -/
def read (address : String) : Except Refusal (Origin × String) := do
  let (isSecure, rest) := match Text.after? "https:" address with
    | some rest => (true, rest.toList)
    | none => (false, ((Text.after? "http:" address).getD address).toList)
  let (machine, target) :=
    (rest.dropWhile fun c => c = '/' || c = '\\').span fun c => !isEnd c
  let machine := (machine.reverse.takeWhile fun c => c ≠ '@').reverse
  let (host, endpoint) := match machine with
    | '[' :: _ =>
      let (inner, rest) := machine.span (fun c => c ≠ ']')
      (inner ++ rest.take 1, rest.drop 1)
    | _ => machine.span (fun c => c ≠ ':')
  let host ← readHost host
  let endpoint ← readEndpoint isSecure (endpoint.drop 1)
  return (⟨isSecure, host, endpoint⟩, String.ofList target)

/-- An origin as it is written, without the usual endpoint. -/
def render (origin : Origin) : String :=
  let start := if origin.isSecure then "https://" else "http://"
  let number :=
    if origin.endpoint = usualEndpoint origin.isSecure then ""
    else ":" ++ String.ofList (Json.natDigits origin.endpoint)
  start ++ origin.host ++ number

/-- Whether an origin is the local host at an endpoint, without a secure connection. -/
def isLocal (origin : Origin) (endpoint : Nat) : Bool :=
  !origin.isSecure && (origin.host = "localhost" || origin.host = "127.0.0.1") &&
    origin.endpoint = endpoint

end Origin

end StubGen
