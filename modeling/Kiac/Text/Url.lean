import Kiac.Text.Netip

/-!
# URLs

`url.Parse` and `URL.String`. Escapes in the path, the host and the fragment are decoded; the user
information is only checked.
-/

namespace Kiac

/-- What a part of a URL may hold without an escape. -/
inductive Encoding where
  | path
  | host
  | zone
  | fragment
deriving DecidableEq

structure Url where
  scheme : Str := []
  rootless : Str := []
  user : Option Str := none
  host : Str := []
  path : Str := []
  rawPath : Str := []
  omitHost : Bool := false
  forceQuery : Bool := false
  rawQuery : Str := []
  fragment : Str := []
  rawFragment : Str := []
deriving DecidableEq

namespace Url

def isLetter (b : UInt8) : Bool :=
  (byte 'a' ≤ b && b ≤ byte 'z') || (byte 'A' ≤ b && b ≤ byte 'Z')

/-- `shouldEscape`. -/
def shouldEscape (mode : Encoding) (b : UInt8) : Bool :=
  if isLetter b || Str.isDigit b then false
  else if (mode = .host ∨ mode = .zone) ∧ b ∈ str "!$&'()*+,;=:[]<>\"" then false
  else if b ∈ str "-_.~" then false
  else if b ∈ str "$&+,/:;=?@" ∧ mode = .path then b == byte '?'
  else if b ∈ str "$&+,/:;=?@" ∧ mode = .fragment then false
  else if b ∈ str "!()*" ∧ mode = .fragment then false
  else true

/-- Whether `%ab` may stand for a byte; in a host only bytes that are not ASCII are escaped. -/
def validEscape (mode : Encoding) (high low : ℕ) : Bool :=
  let value := UInt8.ofNat (16 * high + low)
  match mode with
  | .host => 8 ≤ high || value == byte '%'
  | .zone => value == byte '%' || value == byte ' ' || !shouldEscape .host value
  | _ => true

def unescape (mode : Encoding) : Str → Option Str
  | [] => some []
  | b :: rest =>
    if b = byte '%' then
      match rest with
      | x :: y :: rest =>
        match Str.hexDigit? x, Str.hexDigit? y with
        | some high, some low =>
          if validEscape mode high low then
            (unescape mode rest).map (UInt8.ofNat (16 * high + low) :: ·)
          else none
        | _, _ => none
      | _ => none
    else if (mode = .host ∨ mode = .zone) ∧ b < 128 ∧ shouldEscape mode b then none
    else (unescape mode rest).map (b :: ·)

def upperHex (n : ℕ) : UInt8 := if n < 10 then UInt8.ofNat (48 + n) else UInt8.ofNat (55 + n)

def escape (mode : Encoding) (s : Str) : Str :=
  s.flatMap fun b =>
    if shouldEscape mode b then [byte '%', upperHex (b.toNat / 16), upperHex (b.toNat % 16)] else [b]

/-- `getScheme`: the scheme, if there is one, and what follows it. -/
def getScheme (s : Str) : Option (Str × Str) :=
  let name := s.takeWhile fun b => isLetter b || Str.isDigit b || b ∈ str "+-."
  match s.drop name.length with
  | b :: rest =>
    if b = byte ':' then
      match name with
      | [] => none
      | first :: _ => if isLetter first then some (name, rest) else some ([], s)
    else some ([], s)
  | [] => some ([], s)

/-- `validOptionalPort`: nothing, or a colon and digits. -/
def validOptionalPort : Str → Bool
  | [] => true
  | b :: rest => b == byte ':' && rest.all Str.isDigit

/-- The name inside the brackets of an IP literal; after `%25` stands a zone. -/
def unescapeLiteral (name : Str) : Option Str :=
  match (List.range name.length).find? fun i => Str.hasPrefix (name.drop i) (str "%25") with
  | some i => do
      let address ← unescape .host (name.take i)
      let zone ← unescape .zone (name.drop i)
      pure (address ++ zone)
  | none => unescape .host name

/-- `parseHost`; what stands in brackets is an IPv6 address. -/
def parseHost (host : Str) : Option Str :=
  match Str.lastIndex [byte '['] host with
  | some (_ + 1) => none
  | some 0 =>
    match Str.lastIndex [byte ']'] host with
    | none => none
    | some i =>
      if validOptionalPort (host.drop (i + 1)) then
        match unescapeLiteral ((host.take i).drop 1) with
        | none => none
        | some name =>
          match Netip.parseAddr name with
          | some (.v6 _ _) => some (byte '[' :: name ++ byte ']' :: host.drop (i + 1))
          | _ => none
      else none
  | none =>
    match host.cut (byte ':') with
    | (_, none) => unescape .host host
    | (_, some port) => if port.all Str.isDigit then unescape .host host else none

def validUserinfo (s : Str) : Bool :=
  s.all fun b => isLetter b || Str.isDigit b || b ∈ str "-._:~!$&'()*+,;=%@"

/-- `parseAuthority`: the user information, if there is any, and the host. -/
def parseAuthority (authority : Str) : Option (Option Str × Str) :=
  match Str.lastIndex [byte '@'] authority with
  | none => (parseHost authority).map fun host => (none, host)
  | some i => do
      let host ← parseHost (authority.drop (i + 1))
      let user := authority.take i
      if validUserinfo user && (unescape .path user).isSome then pure (some user, host) else none

def setPath (url : Url) (s : Str) : Option Url :=
  (unescape .path s).map fun path =>
    { url with path := path, rawPath := if s = escape .path path then [] else s }

def setFragment (url : Url) (s : Str) : Option Url :=
  (unescape .fragment s).map fun fragment =>
    { url with fragment := fragment, rawFragment := if s = escape .fragment fragment then [] else s }

/-- The query: whether there is only its question mark, the text before it, and the query. -/
def cutQuery (s : Str) : Bool × Str × Str :=
  if s.hasSuffix [byte '?'] && s.count (byte '?') == 1 then (true, s.dropLast, [])
  else (false, (s.cut (byte '?')).1, (s.cut (byte '?')).2.getD [])

/-- `parse`, for a text without a fragment. -/
def parseUnfragmented (s : Str) : Option Url :=
  if s.any fun b => b < 32 || b == 127 then none
  else if s = str "*" then some { path := str "*" }
  else
    match getScheme s with
    | none => none
    | some (name, afterScheme) =>
      let scheme := name.toLower
      let (forceQuery, rest, rawQuery) := cutQuery afterScheme
      let url : Url := { scheme := scheme, forceQuery := forceQuery, rawQuery := rawQuery }
      if !rest.hasPrefix (str "/") && scheme != [] then some { url with rootless := rest }
      else if !rest.hasPrefix (str "/") && byte ':' ∈ (rest.cut (byte '/')).1 then none
      else if (scheme != [] || !rest.hasPrefix (str "///")) && rest.hasPrefix (str "//") then
        let authority := (rest.drop 2).takeWhile (· != byte '/')
        match parseAuthority authority with
        | none => none
        | some (user, host) =>
          setPath { url with user := user, host := host } (rest.drop (2 + authority.length))
      else setPath { url with omitHost := scheme != [] && rest.hasPrefix (str "/") } rest

/-- `url.Parse`. -/
def parse (s : Str) : Option Url :=
  match s.cut (byte '#') with
  | (text, none) => parseUnfragmented text
  | (text, some []) => parseUnfragmented text
  | (text, some fragment) => parseUnfragmented text >>= fun url => setFragment url fragment

/-- `validEncoded`: every byte may stand where it stands. -/
def validEncoded (mode : Encoding) (s : Str) : Bool :=
  s.all fun b => b ∈ str "!$&'()*+,;=:@[]%" || !shouldEscape mode b

/-- The escaped form that was parsed, or else the default one. -/
def escapedPath (url : Url) : Str :=
  if url.rawPath ≠ [] ∧ validEncoded .path url.rawPath ∧
      unescape .path url.rawPath = some url.path then url.rawPath
  else if url.path = str "*" then str "*"
  else escape .path url.path

def escapedFragment (url : Url) : Str :=
  if url.rawFragment ≠ [] ∧ validEncoded .fragment url.rawFragment ∧
      unescape .fragment url.rawFragment = some url.fragment then url.rawFragment
  else escape .fragment url.fragment

/-- The authority with the slashes before it, where `String` writes one. -/
def authorityText (url : Url) : Str :=
  if url.scheme = [] ∧ url.host = [] ∧ url.user = none then []
  else if url.omitHost ∧ url.host = [] ∧ url.user = none then []
  else
    (if url.host ≠ [] ∨ url.path ≠ [] ∨ url.user ≠ none then str "//" else []) ++
      (match url.user with | none => [] | some user => user ++ [byte '@']) ++ escape .host url.host

/-- `URL.String`. -/
def text (url : Url) : Str :=
  let scheme := if url.scheme = [] then [] else url.scheme ++ [byte ':']
  let path := url.escapedPath
  let before := scheme ++ url.authorityText
  let slash := if path ≠ [] ∧ path.head? ≠ some (byte '/') ∧ url.host ≠ [] then [byte '/'] else []
  let relative :=
    if before = [] ∧ slash = [] ∧ byte ':' ∈ path.takeWhile (· != byte '/') then str "./" else []
  (if url.rootless ≠ [] then scheme ++ url.rootless else before ++ slash ++ relative ++ path) ++
    (if url.forceQuery ∨ url.rawQuery ≠ [] then byte '?' :: url.rawQuery else []) ++
    (if url.fragment ≠ [] then byte '#' :: url.escapedFragment else [])

/-- The host without and with its port: `Hostname` and `Port`. -/
def splitHost (url : Url) : Str × Str :=
  let (host, port) :=
    match Str.lastIndex [byte ':'] url.host with
    | some i =>
      if validOptionalPort (url.host.drop i) then (url.host.take i, url.host.drop (i + 1))
      else (url.host, [])
    | none => (url.host, [])
  if Str.hasPrefix host [byte '['] && Str.hasSuffix host [byte ']'] then
    ((host.drop 1).dropLast, port)
  else (host, port)

def hostname (url : Url) : Str := url.splitHost.1

def port (url : Url) : Str := url.splitHost.2

end Url

end Kiac
