import Parley.Uri.Basic

/-!
# Reading URIs

- `Uri.parse`: the URI that a text is.

The scheme decides how the rest is read: `file` names local files, some schemes have hosts that
name machines, and all others keep what they have.
-/

namespace Parley.Uri

/-- How the rest of a URI is read. -/
inductive SchemeKind where
  | file
  /-- The port is left out if it is the usual one. -/
  | machine (port : Nat)
  | other
  deriving DecidableEq, Repr

/-- The kind of a scheme. -/
def schemeKind (scheme : List Char) : SchemeKind :=
  if scheme = "file".toList then .file
  else if scheme = "http".toList ∨ scheme = "ws".toList then .machine 80
  else if scheme = "https".toList ∨ scheme = "wss".toList then .machine 443
  else if scheme = "ftp".toList then .machine 21
  else .other

/-- Whether a backslash counts as a slash. -/
def SchemeKind.special : SchemeKind → Bool
  | .other => false
  | _ => true

/-- The characters of a scheme after its first letter. -/
def isSchemeChar (c : Char) : Bool :=
  c.isAlphanum || c = '+' || c = '-' || c = '.'

/-- The scheme, in lower case, and what follows its colon. -/
def takeScheme (cs : List Char) : Option (List Char × List Char) :=
  match cs, cs.dropWhile isSchemeChar with
  | c :: _, ':' :: rest =>
    if c.isAlpha then some ((cs.takeWhile isSchemeChar).map Text.lowerAscii, rest) else none
  | _, _ => none

/-- Removes what is ignored in a URI: blanks and control characters around it, tabs and line ends
inside it. -/
def clean (cs : List Char) : List Char :=
  (Text.dropAround (fun c => c.toNat ≤ 0x20) cs).filter
    fun c => !(c = '\t' || c = '\n' || c = '\r')

/-- The characters that end an authority. -/
def endsAuthority (special : Bool) (c : Char) : Bool :=
  c = '/' || c = '?' || c = '#' || (special && c = '\\')

/-- The end of a path: a query or a fragment starts. -/
def endsPath (c : Char) : Bool :=
  c = '?' || c = '#'

/-! ## The parts of an authority -/

/-- What stands before the last `@` of an authority, and what follows it. -/
def splitUser (special : Bool) (cs : List Char) : Option (List Char × List Char) :=
  let authority := cs.takeWhile fun c => !endsAuthority special c
  let rest := cs.dropWhile fun c => !endsAuthority special c
  match authority.reverse.dropWhile (· ≠ '@') with
  | [] => none
  | _ :: user =>
    some (user.reverse, (authority.reverse.takeWhile (· ≠ '@')).reverse ++ rest)

/-- The user name and the password before an `@`. An empty password is left out. -/
def readUser (cs : List Char) : Option (List Char × Option (List Char)) :=
  let name := percentEncode inUserInfo (cs.takeWhile (· ≠ ':'))
  match (cs.dropWhile (· ≠ ':')).drop 1 with
  | [] => if name.isEmpty then none else some (name, none)
  | password => some (name, some (percentEncode inUserInfo password))

/-- The user of an authority and what follows it. -/
def takeUser (special : Bool) (cs : List Char) :
    Except UriError (Option (List Char × Option (List Char)) × List Char) :=
  match splitUser special cs with
  | none => .ok (none, cs)
  | some ([], rest) =>
    match rest with
    | c :: _ => if endsAuthority special c then .error .emptyHost else .ok (none, rest)
    | [] => .ok (none, rest)
  | some (user, rest) => .ok (readUser user, rest)

/-- The text of a host, which may hold colons between brackets, and what follows it. -/
def takeHostText (special inside : Bool) : List Char → List Char × List Char
  | [] => ([], [])
  | c :: cs =>
    if endsAuthority special c ∨ (c = ':' ∧ !inside) then ([], c :: cs)
    else
      let inside := if c = '[' then true else if c = ']' then false else inside
      let (host, rest) := takeHostText special inside cs
      (c :: host, rest)

/-- The host of an authority, none if it is empty, and what follows it. -/
def takeHost (kind : SchemeKind) (cs : List Char) :
    Except UriError (Option Host × List Char) :=
  let (text, rest) := takeHostText kind.special false cs
  if text.isEmpty then
    if kind.special || rest.head? = some ':' then .error .emptyHost else .ok (none, rest)
  else
    let host := if kind.special then Host.ofSpecial text else Host.ofOpaque text
    match host with
    | .error e => .error e
    | .ok host => .ok (some host, rest)

/-- The digits of a port and what follows them. -/
def portDigits (port : Nat) (any : Bool) : List Char → Except UriError (Option Nat × List Char)
  | [] => .ok (if any then some port else none, [])
  | c :: cs =>
    if c.isDigit then
      let port := port * 10 + (c.toNat - 0x30)
      if 65535 < port then .error .badPort else portDigits port true cs
    else if endsAuthority true c then .ok (if any then some port else none, c :: cs)
    else .error .badPort

/-- The port of an authority, unless it is the usual one, and what follows it. -/
def takePort (kind : SchemeKind) (cs : List Char) : Except UriError (Option Nat × List Char) :=
  match cs with
  | ':' :: cs =>
    match portDigits 0 false cs with
    | .error e => .error e
    | .ok (port, rest) =>
      .ok (port.filter fun p => kind ≠ .machine p, rest)
  | cs => .ok (none, cs)

/-! ## What follows the authority -/

/-- Adds the query and the fragment that stand at the end of a text. -/
def addQuery (special : Bool) (u : Uri) (cs : List Char) : Uri :=
  let query := cs.takeWhile (· ≠ '#')
  let fragment := (cs.dropWhile (· ≠ '#')).tail?
  { u with
    query := query.tail?.map (percentEncode (inQuery special))
    fragment := fragment.map (percentEncode inFragment) }

/-- The URI with the path and all that follows it in a text. The first slash of the path has been
read. -/
def withPath (kind : SchemeKind) (scheme : List Char) (authority : Option Authority)
    (cs : List Char) : Uri :=
  let path := cs.takeWhile fun c => !endsPath c
  let rest := cs.dropWhile fun c => !endsPath c
  let segs := segmentsOf (kind = .file) kind.special path
  let u : Uri := ⟨scheme, authority, segs.text, none, none⟩
  let u : Uri :=
    if kind = .file then
      { u with
        authority := if segs.drive then some {} else authority
        path := oneSlash segs.text }
    else u
  addQuery kind.special u rest

/-- Reads what follows the two slashes of an authority, for any scheme but `file`. -/
def readAuthority (kind : SchemeKind) (scheme cs : List Char) : Except UriError Uri :=
  match takeUser kind.special cs with
  | .error e => .error e
  | .ok (user, cs) =>
    match takeHost kind cs with
    | .error e => .error e
    | .ok (host, cs) =>
      match takePort kind cs with
      | .error e => .error e
      | .ok (port, cs) =>
        if host.isNone && user.isSome then .error .emptyHost
        else
          let authority : Option Authority := some ⟨user, host, port⟩
          match cs with
          | [] =>
            if kind.special then .ok (withPath kind scheme authority [])
            else .ok ⟨scheme, authority, [], none, none⟩
          | c :: rest =>
            if c = '/' || (kind.special && c = '\\') then
              .ok (withPath kind scheme authority rest)
            else if !kind.special && endsPath c then
              .ok (addQuery false ⟨scheme, authority, [], none, none⟩ cs)
            else .ok (withPath kind scheme authority (c :: rest))

/-- Reads what follows `file://`. A drive in the place of the host belongs to the path. -/
def readFileHost (scheme cs : List Char) : Except UriError Uri :=
  let text := cs.takeWhile fun c => !endsAuthority true c
  let rest := cs.dropWhile fun c => !endsAuthority true c
  if text.isEmpty then .ok (withPath .file scheme (some {}) cs)
  else if isDrive text then .ok (withPath .file scheme (some {}) cs)
  else
    match Host.ofSpecial text with
    | .error e => .error e
    | .ok host =>
      if host = .name "localhost".toList then .ok (withPath .file scheme (some {}) rest)
      else
        let authority : Option Authority := some ⟨none, some host, none⟩
        match rest with
        | c :: after =>
          if c = '/' || c = '\\' then .ok (withPath .file scheme authority after)
          else .ok (withPath .file scheme authority rest)
        | [] => .ok (withPath .file scheme authority [])

/-- A slash or a backslash. -/
def isSlash (c : Char) : Bool :=
  c = '/' || c = '\\'

/-- Reads what follows the scheme of a local file. -/
def readFile (scheme : List Char) : List Char → Except UriError Uri
  | c :: d :: cs =>
    if isSlash c && isSlash d then readFileHost scheme cs
    else if isSlash c then .ok (withPath .file scheme (some {}) (d :: cs))
    else .ok (withPath .file scheme (some {}) (c :: d :: cs))
  | [c] => .ok (withPath .file scheme (some {}) (if isSlash c then [] else [c]))
  | [] => .ok (withPath .file scheme (some {}) [])

/-- Reads what follows the scheme of anything that names no machine. -/
def readOther (scheme : List Char) : List Char → Except UriError Uri
  | '/' :: '/' :: cs => readAuthority .other scheme cs
  | '/' :: cs => .ok (withPath .other scheme none cs)
  | cs =>
    let path := cs.takeWhile fun c => !endsPath c
    .ok (addQuery false ⟨scheme, none, percentEncode isControl path, none, none⟩
      (cs.dropWhile fun c => !endsPath c))

/-- The URI that a text is. -/
def parse (s : String) : Except UriError Uri :=
  match takeScheme (clean s.toList) with
  | none => .error .relative
  | some (scheme, rest) =>
    match schemeKind scheme with
    | .file => readFile scheme rest
    | .machine port => readAuthority (.machine port) scheme (rest.dropWhile isSlash)
    | .other => readOther scheme rest

end Parley.Uri
