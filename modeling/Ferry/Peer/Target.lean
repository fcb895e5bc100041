import Ferry.Bytes

/-!
# Targets of requests

A request names what it asks for by a target: a path, an asterisk, a whole URL, or an authority
alone. A query may follow a path, and after it a fragment, which is not looked at. Only the path
matters for the answer, but a target that breaks these forms cannot be read at all.
-/

namespace Ferry.Peer

namespace Target

/-- A target has at most 65534 bytes. -/
def maxLength : Nat := 65534

/-- The characters that a path may hold: neither blanks, controls nor some of the signs. -/
def isPathChar (c : Char) : Bool := ' ' < c && c ∉ ['#', '<', '>', '?', '\x60']

/-- The characters that a query may hold: neither blanks, controls nor some of the signs. -/
def isQueryChar (c : Char) : Bool := ' ' < c && c ∉ ['"', '#', '<', '>']

/-- The characters that a scheme may hold. -/
def isSchemeChar (c : Char) : Bool := c.isAlphanum || c ∈ ['+', '-', '.', '~']

/-- The characters that have no meaning of their own in an authority. -/
def isPlainAuthorityChar (c : Char) : Bool :=
  c.isAlphanum || c ∈ "!$&\x27()*+,-.;=_~".toList

/-- The signs that end an authority. -/
def endsAuthority (c : Char) : Bool := c = '/' || c = '?' || c = '#'

/-- A scheme has at most 64 characters. -/
def maxScheme : Nat := 64

/-- No part of an authority has more than 8 colons. -/
def maxColons : Nat := 8

/-- The path at the start of the rest of a target, before a query and a fragment. An empty path stands
for the root. -/
def pathOf? (text : List Char) : Option String :=
  let shown := text.takeWhile (· != '#')
  let path := shown.takeWhile (· != '?')
  let query := (shown.dropWhile (· != '?')).drop 1
  if path.all isPathChar && query.all isQueryChar then
    some (if path = [] then "/" else String.ofList path)
  else none

/-- What has been read of an authority. A user and a host in brackets end parts of it. -/
structure AuthorityReading where
  /-- The number of colons in the last part. -/
  colons : Nat := 0
  /-- Whether there is a percent sign in the last part. -/
  percent : Bool := false
  opened : Bool := false
  closed : Bool := false
  deriving DecidableEq, Repr

/-- Reads one more character of an authority, unless none may stand there. -/
def AuthorityReading.read? (before : AuthorityReading) (c : Char) : Option AuthorityReading :=
  if c = ':' then
    if before.colons < maxColons then some { before with colons := before.colons + 1 } else none
  else if c = '[' then
    if before.percent || before.opened then none else some { before with opened := true }
  else if c = ']' then
    if before.opened && !before.closed then some { opened := true, closed := true } else none
  else if c = '@' then some { before with colons := 0, percent := false }
  else if c = '%' then some { before with percent := true }
  else if isPlainAuthorityChar c then some before
  else none

/-- Whether an authority may end there: brackets are closed, and the last part is a host with at
most one colon, for its port, and no percent sign. -/
def AuthorityReading.mayEnd (read : AuthorityReading) : Bool :=
  read.opened == read.closed && read.colons ≤ 1 && !read.percent

/-- Whether a text is an authority. A user must be followed by a host. -/
def isAuthority (text : List Char) : Bool :=
  text != [] && text.getLast? != some '@' &&
    (text.foldlM AuthorityReading.read? {}).any AuthorityReading.mayEnd

/-- The path of a URL, given its scheme and what follows the two slashes. -/
def pathOfUrl? (scheme rest : List Char) : Option String :=
  if scheme.length ≤ maxScheme && isAuthority (rest.takeWhile (!endsAuthority ·)) then
    pathOf? (rest.dropWhile (!endsAuthority ·))
  else none

/-- The path that a target asks for, if it can be read. An authority alone asks for the empty
path. -/
def path? (target : String) : Option String :=
  let text := target.toList
  if maxLength < (Bytes.ofText target).length then none
  else if target = "*" then some target
  else if text.head? = some '/' then pathOf? text
  else
    let scheme := text.takeWhile isSchemeChar
    let rest := text.drop scheme.length
    if "://".toList.isPrefixOf rest then pathOfUrl? scheme (rest.drop 3)
    else if isAuthority text then some ""
    else none

end Target

end Ferry.Peer
