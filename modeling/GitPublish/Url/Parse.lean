import GitPublish.Url.Host
import GitPublish.Url.Path

/-!
# URLs

A URL is a scheme, then, in most cases, an authority (user, host and port) behind two slashes, and a
path. Tabs and line ends are skipped wherever they stand, and blanks and controls at both ends. What
follows the path, a query or a fragment, is read over: it is never wrong and names no part of a
repository.
-/
namespace GitPublish

/-- The parts of a URL that say where something is. The scheme is in lower case, the user name in
escaped form, and the usual port of the scheme is left out. -/
structure Url where
  scheme : String
  username : String
  host : Option Url.Host
  port : Option Nat
  path : String
  deriving DecidableEq, Repr

namespace Url

def usualPort? (scheme : List Char) : Option Nat :=
  match String.ofList scheme with
  | "http" => some 80
  | "ws" => some 80
  | "https" => some 443
  | "wss" => some 443
  | "ftp" => some 21
  | _ => none

/-- A text without controls and blanks at its ends, and without tabs and line ends. -/
def cleaned (cs : List Char) : List Char :=
  let start := cs.dropWhile (· ≤ ' ')
  let inner := (start.reverse.dropWhile (· ≤ ' ')).reverse
  inner.filter fun c => !(c = '\t' || c = '\n' || c = '\r')

def isSchemeChar (c : Char) : Bool := c.isAlphanum || c = '+' || c = '-' || c = '.'

/-- The scheme that a text starts with, and the text behind its colon. -/
def scheme? (cs : List Char) : Option (List Char × List Char) :=
  let scheme := cs.takeWhile isSchemeChar
  match cs.drop scheme.length with
  | ':' :: rest => if cs.head?.any Char.isAlpha then some (scheme.map Char.toLower, rest) else none
  | _ => none

def endsAuthority (kind : SchemeKind) (c : Char) : Bool := kind.isSlash c || Path.isEnd c

/-- The text before the last `@`, if there is one, and the text behind it. -/
def cutUser (authority : List Char) : Option (List Char) × List Char :=
  let back := authority.reverse
  match back.dropWhile (· ≠ '@') with
  | [] => (none, authority)
  | _ :: user => (some user.reverse, (back.takeWhile (· ≠ '@')).reverse)

/-- The end of a host: the first colon outside brackets, or the end of the text. -/
def cutHost (inBrackets : Bool) : List Char → List Char × List Char
  | [] => ([], [])
  | c :: rest =>
    if c = ':' && !inBrackets then ([], c :: rest)
    else
      let (host, port) := cutHost (c = '[' || (inBrackets && c ≠ ']')) rest
      (c :: host, port)

/-- The value of a port; `none` if the text is empty. -/
def port? (cs : List Char) : Except Error (Option Nat) :=
  let n := cs.foldl (fun n c => n * 10 + (c.toNat - 48)) 0
  if cs = [] then .ok none
  else if cs.all Char.isDigit && n < 65536 then .ok (some n)
  else .error .invalidPort

/-- The host of a URL that has an authority. Only the schemes of the web demand one. -/
def host? (kind : SchemeKind) (cs : List Char) : Except Error (Option Host) := do
  if kind = .web && cs = [] then throw .emptyHost
  let host ← if kind = .plain then Host.ofOpaque cs else Host.ofDomain cs
  pure (if host = .name [] then none else some host)

/-- Whether anything of a user name or password is written. -/
def hasUser (user : List Char) : Bool := user ≠ [] && user ≠ [':']

/-- The URL behind the two slashes of an authority. -/
def afterSlashes (scheme : List Char) (cs : List Char) : Except Error Url := do
  let kind := SchemeKind.ofScheme scheme
  let authority := cs.takeWhile fun c => !endsAuthority kind c
  let rest := cs.drop authority.length
  let (user, place) := cutUser authority
  if user = some [] && place = [] && rest ≠ [] then throw .emptyHost
  let user := user.getD []
  let (hostText, portText) := cutHost false place
  let host ← host? kind hostText
  if host = none && (portText ≠ [] || hasUser user) then throw .emptyHost
  -- In a plain scheme a backslash ends the port, and starts the path.
  let portDigits := portText.tail.takeWhile (· ≠ '\\')
  let port ← port? portDigits
  let rest := portText.tail.drop portDigits.length ++ rest
  let path :=
    match kind, rest with
    | .plain, [] => []
    | .plain, c :: _ =>
      if Path.isEnd c then [] else (Path.parse kind (if c = '/' then [] else ['/']) rest).1
    | _, c :: tail => (Path.parse kind ['/'] (if kind.isSlash c then tail else rest)).1
    | _, [] => (Path.parse kind ['/'] []).1
  pure
    { scheme := String.ofList scheme
      username := String.ofList (escape userSet (user.takeWhile (· ≠ ':')))
      host
      port := if port = usualPort? scheme then none else port
      path := String.ofList path }

/-- A URL without an authority in a plain scheme: its path starts with a slash, or it is not divided
into segments. -/
def withoutAuthority (scheme : List Char) (cs : List Char) : Url :=
  let path := match cs with
    | '/' :: rest => (Path.parse .plain ['/'] rest).1
    | cs => escape controlSet (cs.takeWhile fun c => !Path.isEnd c)
  { scheme := String.ofList scheme, username := "", host := none, port := none,
    path := String.ofList path }

/-- The host of a file URL and the text behind it. The name of a drive is no host, and the local
host need not be named. -/
def fileHost (cs : List Char) : Except Error (Option Host × List Char) := do
  let text := cs.takeWhile fun c => !endsAuthority .file c
  if text = [] then pure (none, cs)
  else if Path.isDriveLike text then pure (none, cs)
  else
    let host ← Host.ofDomain text
    let rest := cs.drop text.length
    pure (if host = .name "localhost".toList then none else some host, rest)

def ofFile (cs : List Char) : Except Error Url := do
  let build (host : Option Host) (path : List Char × Bool) : Url :=
    { scheme := "file", username := "", host := if path.2 then host else none, port := none,
      path := String.ofList path.1 }
  let isSlash := SchemeKind.file.isSlash
  match cs with
  | a :: b :: rest =>
    if isSlash a && isSlash b then
      let (host, rest) ← fileHost rest
      match host, rest with
      | some _, c :: tail =>
        pure (build host (Path.parse .file ['/'] (if isSlash c then tail else rest)))
      | _, rest => pure (build host (Path.parse .file ['/'] rest))
    else pure (build none (Path.parse .file (if isSlash a then [] else ['/']) cs))
  | a :: _ => pure (build none (Path.parse .file (if isSlash a then [] else ['/']) cs))
  | [] => pure (build none (Path.parse .file ['/'] cs))

def parse (text : String) : Except Error Url :=
  match scheme? (cleaned text.toList) with
  | none => .error .noScheme
  | some (scheme, rest) =>
    match SchemeKind.ofScheme scheme with
    | .file => ofFile rest
    | .web => afterSlashes scheme (rest.dropWhile (SchemeKind.web.isSlash ·))
    | .plain =>
      match rest with
      | '/' :: '/' :: rest => afterSlashes scheme rest
      | rest => .ok (withoutAuthority scheme rest)

end Url
end GitPublish
