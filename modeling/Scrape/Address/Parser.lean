import Scrape.Address.Host
import Scrape.Text.Blank

/-!
# Address — Parser

Reading addresses.  A text without a scheme refers to an address from another one, its base
(`ofText?`); `join` is the address that a link on a page leads to.
-/

namespace Scrape.Address

/-- The text without the blanks and control characters at its ends, and without tabs and line
ends. -/
def cleaned (s : List Char) : List Char :=
  let outer (c : Char) : Bool := c.toNat ≤ 0x20
  let s := ((s.dropWhile outer).reverse.dropWhile outer).reverse
  s.filter fun c => !(c = '\t' || c = '\n' || c = '\r')

/-- The scheme at the start of a text, made small, and the text after its colon. -/
def readScheme? (s : List Char) : Option (List Char × List Char) :=
  let continues (c : Char) : Bool :=
    Text.isAsciiLetter c || Text.isDigit c || c = '+' || c = '-' || c = '.'
  if !s.head?.any Text.isAsciiLetter then none
  else match s.span continues with
    | (scheme, ':' :: r) => some (Text.asciiLower scheme, r)
    | _                  => none

/-- Whether the character is a slash in addresses of the scheme. -/
def isSlash (scheme : List Char) (c : Char) : Bool := c = '/' || (c = '\\' && isSpecial scheme)

/-- Whether the character is a slash of either kind. -/
def isAnySlash (c : Char) : Bool := c = '/' || c = '\\'

/-! ### Ends -/

/-- The query and the fragment at the end of an address. -/
def readTail (scheme s : List Char) : Option (List Char) × Option (List Char) :=
  let (before, after) := s.span (· ≠ '#')
  let query? := match before with
    | '?' :: q => some (encoded (queryReserved scheme) q)
    | _        => none
  let fragment? := match after with
    | '#' :: f => some (encoded fragmentReserved f)
    | _        => none
  (query?, fragment?)

/-- The address with the query and the fragment that a text ends in. -/
def withTail (a : Address) (s : List Char) : Address :=
  let (query?, fragment?) := readTail a.scheme s
  { a with query? := query?, fragment? := fragment? }

/-! ### Paths -/

/-- Whether the segment stands for the one above. -/
def isDoubleDot (s : List Char) : Bool :=
  ["..", ".%2e", "%2e.", "%2e%2e"].any fun t => t.toList == Text.asciiLower s

/-- Whether the segment stands for itself. -/
def isSingleDot (s : List Char) : Bool := s == ['.'] || Text.asciiLower s == "%2e".toList

/-- Whether the segment names a drive. -/
def isDrive : List Char → Bool
  | [c, d] => Text.isAsciiLetter c && (d = ':' || d = '|')
  | _      => false

/-- Whether the text starts with a segment that names a drive. -/
def startsWithDrive (s : List Char) : Bool :=
  isDrive (s.take 2) && (s.drop 2).head?.all fun c => isAnySlash c || c = '?' || c = '#'

/-- The segments, held in reverse, without the last, which stays if it is the drive of a file. -/
def shortened (scheme : List Char) (segments : List (List Char)) : List (List Char) :=
  match segments with
  | [s] => if scheme == fileScheme && isDrive s then [s] else []
  | l   => l.drop 1

/-- The segments, held in reverse, after one more, which a slash ends or the path. -/
def pushSegment (scheme : List Char) (segments : List (List Char)) (s : List Char)
    (slash : Bool) : List (List Char) :=
  if isDoubleDot s then
    let rest := shortened scheme segments
    if slash then rest else [] :: rest
  else if isSingleDot s then if slash then segments else [] :: segments
  else
    match segments, s with
    | [], [c, d] =>
      if scheme == fileScheme && isDrive s then [[c, ':']] else [[c, d]]
    | _, _ => s :: segments

/-- The segments of a path after those given, held in reverse, and the text after the path; `fuel`
bounds the length of the text. -/
def readSegments (scheme : List Char) :
    Nat → List (List Char) → List Char → List (List Char) × List Char
  | 0,        segments, s => (segments, s)
  | fuel + 1, segments, s =>
    let ends (c : Char) : Bool := isSlash scheme c || c = '?' || c = '#'
    let (raw, r) := Text.breakAt ends s
    let segment := encoded pathReserved raw
    match r with
    | c :: r' =>
      if isSlash scheme c then
        readSegments scheme fuel (pushSegment scheme segments segment true) r'
      else (pushSegment scheme segments segment false, r)
    | [] => (pushSegment scheme segments segment false, [])

/-- The segments of a path that starts with the segments `start`, and the text after the path.  The
path of a file begins with no empty segment. -/
def readPath (scheme : List Char) (start : List (List Char)) (s : List Char) :
    Path × List Char :=
  let (reversed, r) := readSegments scheme (s.length + 1) start.reverse s
  let list := reversed.reverse
  if scheme == fileScheme then
    let kept := list.dropWhile List.isEmpty
    (.segments (if kept.isEmpty then [[]] else kept), r)
  else (.segments list, r)

/-- The address with the path, query and fragment of a text. -/
def withPath (a : Address) (start : List (List Char)) (s : List Char) : Address :=
  let (path, r) := readPath a.scheme start s
  { a with path := path }.withTail r

/-- The address whose path starts after an authority. -/
def afterAuthority (a : Address) (s : List Char) : Address :=
  match s with
  | [] => if isSpecial a.scheme then a.withPath [] [] else a
  | c :: r =>
    if isSlash a.scheme c then a.withPath [] r
    else if isSpecial a.scheme then a.withPath [] s
    else if c = '?' || c = '#' then a.withTail s
    else a.withPath [] s

/-! ### Authorities -/

/-- A name and a password as they are written, with the sign after them. -/
def userText (s : List Char) : List Char :=
  let (name, rest) := s.span (· ≠ ':')
  let password := encoded userReserved (rest.drop 1)
  let name := encoded userReserved name
  let text := if password.isEmpty then name else name ++ ':' :: password
  if text.isEmpty then [] else text ++ ['@']

/-- The text before the port of a host, and the text from its colon on; a colon within brackets
belongs to the host. -/
def splitPort (inside : Bool) : List Char → List Char × List Char
  | []     => ([], [])
  | c :: r =>
    if c = ':' && !inside then ([], c :: r)
    else
      let (host, port) := splitPort (if c = '[' then true else if c = ']' then false else inside) r
      (c :: host, port)

/-- A port as it is written after a host: nothing if it goes without saying. -/
def portText? (scheme s : List Char) : Option (List Char) :=
  match s with
  | []          => some []
  | _ :: digits =>
    if digits.isEmpty then some []
    else if !digits.all Text.isDigit then none
    else
      let port := (Text.readNat? 10 digits).getD 0
      if 65535 < port then none
      else if defaultPort? scheme = some port then some []
      else some (':' :: Text.decimal port)

/-- The address after the two slashes before an authority. -/
def withAuthority? (scheme s : List Char) : Option Address :=
  let (all, rest) := Text.breakAt (fun c => isSlash scheme c || c = '?' || c = '#') s
  let (user, hostPort) := match Text.cutLast? ['@'] all with
    | some (user, hostPort) => (user, hostPort)
    | none                  => ([], all)
  let hasUser := all.contains '@'
  let user := userText user
  let (host, port) := splitPort false hostPort
  if host.isEmpty && (isSpecial scheme || !port.isEmpty || hasUser) then none
  else do
    let host ← if isSpecial scheme then host? host else opaqueHost? host
    let port ← portText? scheme port
    pure (afterAuthority ⟨scheme, some (user ++ host ++ port), .segments [], none, none⟩ rest)

/-! ### References -/

/-- The address that a text refers to from a base of the same scheme. -/
def relative? (base : Address) (s : List Char) : Option Address :=
  let segments := match base.path with
    | .segments l   => l
    | .opaqueText _ => []
  match s with
  | []       => some { base with fragment? := none }
  | '?' :: _ => some (base.withTail s)
  | '#' :: _ => some { base with fragment? := (readTail base.scheme s).2 }
  | c :: r   =>
    if isAnySlash c then
      if r.head?.any isAnySlash then
        match Text.after? ['/', '/'] s with
        | some rest => withAuthority? base.scheme rest
        | none      => withAuthority? base.scheme (s.dropWhile isAnySlash)
      else some (base.withPath [] r)
    else some (base.withPath segments.dropLast s)

/-- The host of a file, which is empty if it is this one, and the text after it. -/
def fileHost? (s : List Char) : Option (List Char × List Char) :=
  let (host, rest) := Text.breakAt (fun c => isAnySlash c || c = '?' || c = '#') s
  if isDrive host then some ([], s)
  else if host.isEmpty then some ([], rest)
  else (host? host).map fun h => (if h == "localhost".toList then [] else h, rest)

/-- The address of a file, perhaps from the address of another one. -/
def file? (base? : Option Address) (s : List Char) : Option Address :=
  let blank : Address := ⟨fileScheme, some [], .segments [], none, none⟩
  match s with
  | c :: r =>
    if isAnySlash c then
      match r with
      | d :: r' =>
        if isAnySlash d then
          (fileHost? r').map fun (host, rest) =>
            let rest := match rest with
              | e :: rest' => if isAnySlash e then rest' else rest
              | []         => []
            { blank with authority? := some host }.withPath [] rest
        else some (atRoot blank r)
      | [] => some (atRoot blank r)
    else
      match base? with
      | some base =>
        if c ≠ '?' && c ≠ '#' && startsWithDrive s then some (blank.withPath [] s)
        else relative? base s
      | none => some (blank.withPath [] s)
  | [] =>
    match base? with
    | some base => relative? base []
    | none      => some (blank.withPath [] [])
where
  /-- The file of a path from the root, on the host and the drive of the base. -/
  atRoot (blank : Address) (path : List Char) : Address :=
    if startsWithDrive path then blank.withPath [] path
    else
      match base? with
      | none      => blank.withPath [] path
      | some base =>
        match base.path with
        | .segments (drive :: _) =>
          if isDrive drive then blank.withPath [drive] path
          else { blank with authority? := base.authority? }.withPath [] path
        | _ => { blank with authority? := base.authority? }.withPath [] path

/-- The address of a text with a scheme. -/
def withScheme? (base? : Option Address) (scheme s : List Char) : Option Address :=
  if scheme == fileScheme then file? (base?.filter fun b => b.scheme == fileScheme) s
  else if isSpecial scheme then
    let slashes := (s.takeWhile isAnySlash).length
    match base?.filter fun b => b.scheme == scheme && slashes < 2 with
    | some base => relative? base s
    | none      => withAuthority? scheme (s.drop slashes)
  else
    let blank : Address := ⟨scheme, none, .segments [], none, none⟩
    match s with
    | '/' :: '/' :: r => withAuthority? scheme r
    | '/' :: r        => some (blank.withPath [] r)
    | r               =>
      let (text, rest) := Text.breakAt (fun c => c = '?' || c = '#') r
      some ({ blank with path := .opaqueText (encoded [] text) }.withTail rest)

/-- The address that a text refers to, perhaps from a base. -/
def ofText? (base? : Option Address) (s : List Char) : Option Address :=
  let s := cleaned s
  match readScheme? s with
  | some (scheme, r) => withScheme? base? scheme r
  | none =>
    match base? with
    | none      => none
    | some base =>
      match s, base.path with
      | '#' :: _, _             => relative? base s
      | _,        .opaqueText _ => none
      | _,        _             =>
        if base.scheme == fileScheme then file? (some base) s else relative? base s

/-- The link made absolute from the address of its page; nothing if one of the two is no
address. -/
def join? (base link : List Char) : Option (List Char) :=
  match ofText? none base with
  | none      => none
  | some base => (ofText? (some base) link).map text

end Scrape.Address
