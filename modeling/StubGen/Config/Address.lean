import StubGen.Text.Blank
import StubGen.Text.Numeric
import StubGen.Text.Split

/-!
# Addresses of the service

The service is reached at a hosted tenant in one of the known regions or at a local host; when
custom hosts are allowed, any host over a secure connection will do.
-/

namespace StubGen.Address

/-- The regions of hosted tenants. -/
def regions : List String := ["na1", "na2", "eu1", "eu2", "dev"]

/-- Characters without one slash at the end. -/
def dropSlash (cs : List Char) : List Char :=
  if cs.getLast? = some '/' then cs.dropLast else cs

/-- Whether an address is that of a hosted tenant. -/
def isTenant (address : String) : Bool :=
  regions.any fun region =>
    dropSlash address.toList = ("https://" ++ region ++ ".polyapi.io").toList

/-- Whether the number of an endpoint, if there is one, is well written. -/
def isEndpoint : List Char → Bool
  | [] => true
  | c :: digits => c = ':' && !digits.isEmpty && digits.all Text.isDecimalDigit

/-- Whether an address is that of a local host. -/
def isLocal (address : String) : Bool :=
  ["http://localhost", "https://localhost", "http://127.0.0.1", "https://127.0.0.1"].any
    fun start =>
      match Text.afterChars? start.toList (dropSlash address.toList) with
      | some rest => isEndpoint rest
      | none => false

/-- Whether an address is that of any host over a secure connection. -/
def isSecure (address : String) : Bool :=
  match Text.afterChars? "https://".toList address.toList with
  | none => false
  | some rest =>
    let host := rest.takeWhile (· ≠ '/')
    !host.isEmpty && rest.all fun c => !Text.isBlank c

/-- Whether the service may be reached at an address. -/
def isAccepted (allowsCustomHosts : Bool) (address : String) : Bool :=
  isLocal address || isTenant address || (allowsCustomHosts && isSecure address)

/-- An address without slashes at its end. -/
def trimSlashes (address : String) : String :=
  String.ofList (address.toList.reverse.dropWhile (· = '/')).reverse

end StubGen.Address
