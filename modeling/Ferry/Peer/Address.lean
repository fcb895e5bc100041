import Ferry.Peer.Error
import Ferry.Text.Blank
import Ferry.Text.Decimal

/-!
# Addresses of peers

A peer is given as a host and a port or as a URL. Blank characters around the address and slashes at
its end do not matter; an address without a scheme gets one. What is left over must not be empty.
-/

namespace Ferry.Peer

namespace Address

/-- The schemes that an address may have. -/
def schemes : List (List Char) := ["http://".toList, "https://".toList]

/-- The scheme of an address that gives none. -/
def defaultScheme : List Char := "http://".toList

/-- The address without the blank characters around it and the slashes at its end. -/
def core (address : String) : List Char :=
  Text.dropEndWhile (· == '/') (Text.trim address.toList)

/-- The URL to which the paths of the endpoints are appended. -/
def baseUrl? (address : String) : Except Error String :=
  let core := core address
  if core = [] then .error (.invalidAddress "")
  else if schemes.any fun scheme => scheme.isPrefixOf core then .ok (String.ofList core)
  else .ok (String.ofList (defaultScheme ++ core))

/-- The host and the port of an address: what stands before and after its last colon. -/
def socket? (address : String) : Option (String × UInt16) :=
  let reversed := address.toList.reverse
  match reversed.dropWhile (· != ':') with
  | [] => none
  | _ :: host =>
      (Text.unsigned? UInt16.size (reversed.takeWhile (· != ':')).reverse).map fun port =>
        (String.ofList host.reverse, port.toUInt16)

/-- Where a URL leads: a host, a port, and the path before those of the endpoints. -/
structure Target where
  host : String
  port : UInt16
  path : String
  deriving DecidableEq, Repr

/-- The place to which a URL leads. Only the default scheme can be followed; it has port 80. -/
def target? (url : String) : Option Target :=
  let characters := url.toList
  if defaultScheme.isPrefixOf characters then
    let rest := characters.drop defaultScheme.length
    let authority := String.ofList (rest.takeWhile (· != '/'))
    let path := String.ofList (rest.dropWhile (· != '/'))
    match socket? authority with
    | some (host, port) => some ⟨host, port, path⟩
    | none => some ⟨authority, 80, path⟩
  else none

end Address

end Ferry.Peer
