import Parley.Uri.Host
import Parley.Uri.Path

/-!
# URIs

- `Uri`: the parts of a URI in their normal form.
- `Uri.text`: the URI itself.
- `Uri.localPath?`: the path of a local file that a URI names.
- `Uri.matchPath`: what globs are matched against.
-/

namespace Parley

open Uri (Host)

/-- The part of a URI that says whom to ask. -/
structure Authority where
  /-- A user name and a password. -/
  user : Option (List Char × Option (List Char)) := none
  host : Option Host := none
  port : Option Nat := none
  deriving DecidableEq, Repr

/-- A URI in its normal form. Two spellings of one URI give the same value. -/
structure Uri where
  scheme : List Char
  authority : Option Authority
  path : List Char
  query : Option (List Char)
  fragment : Option (List Char)
  deriving DecidableEq, Repr

/-- The text of an authority. -/
def Authority.text (a : Authority) : List Char :=
  let user := match a.user with
    | none => []
    | some (name, none) => name ++ ['@']
    | some (name, some password) => name ++ ':' :: password ++ ['@']
  let port := match a.port with
    | none => []
    | some p => ':' :: Nat.toDigits 10 p
  user ++ (a.host.elim [] Host.text) ++ port

namespace Uri

/-- The text of a URI. A path that starts with two slashes is kept apart from an authority. -/
def text (u : Uri) : String :=
  let front := match u.authority with
    | some a => '/' :: '/' :: a.text
    | none => if ['/', '/'].isPrefixOf u.path then ['/', '.'] else []
  String.ofList (u.scheme ++ ':' :: front ++ u.path
    ++ (u.query.elim [] ('?' :: ·)) ++ (u.fragment.elim [] ('#' :: ·)))

/-- Whether a local path ends in a drive. -/
def endsInDrive (bs : List UInt8) : Bool :=
  match bs.reverse with
  | b :: a :: _ :: _ =>
    (b = 0x3A || b = 0x7C) && ((0x41 ≤ a && a ≤ 0x5A) || (0x61 ≤ a && a ≤ 0x7A))
  | _ => false

/-- The bytes of the path of a local file. The file may not be on another host. -/
def localPath? (u : Uri) : Option (List UInt8) :=
  if u.scheme = "file".toList ∧ (u.authority.bind Authority.host).isNone then
    let bs := percentDecode (Utf8.encodeChars u.path)
    some (if endsInDrive bs then bs ++ [0x2F] else bs)
  else none

/-- What globs are matched against: the bytes of the path of a local file, with U+FFFD for those
that are no text, and the path as it is written for any other URI. -/
def matchPath (u : Uri) : List UInt8 :=
  match u.localPath? with
  | some bs => Utf8.encodeChars (Utf8.lossy bs)
  | none => Utf8.encodeChars u.path

end Uri

end Parley
