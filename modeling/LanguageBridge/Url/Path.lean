import LanguageBridge.Fault
import LanguageBridge.Url.Address

namespace LanguageBridge.Url

/-! The path of a URL. A URL is a scheme and a colon, two slashes and a host, a path, parameters
after a semicolon, a query after a question mark, and a fragment after a number sign; all but the
path may be missing. -/

/-- Leading blanks and control characters do not count, and neither do line ends and tabs. -/
def clean (url : List Char) : List Char :=
  (url.dropWhile fun c => c.toNat ≤ 0x20).filter fun c => c ≠ '\t' && c ≠ '\r' && c ≠ '\n'

def isSchemeCharacter (c : Char) : Bool :=
  c.isAlphanum || c = '+' || c = '-' || c = '.'

def splitScheme (url : List Char) : String × List Char :=
  let name := url.takeWhile (· ≠ ':')
  match url.dropWhile (· ≠ ':') with
  | ':' :: rest =>
    if name.head?.any Char.isAlpha && name.all isSchemeCharacter then
      (String.ofList (name.map Char.toLower), rest)
    else
      ("", url)
  | _ => ("", url)

def endsHost (c : Char) : Bool :=
  c = '/' || c = '?' || c = '#'

def splitHost (url : List Char) : List Char × List Char :=
  match url with
  | '/' :: '/' :: rest =>
    (rest.takeWhile fun c => !endsHost c, rest.dropWhile fun c => !endsHost c)
  | _ => ([], url)

/-- Characters that are like one of the marks of a URL, or contain one. -/
def misleading : List Char :=
  ['⁇', '⁈', '⁉', '℀', '℁', '℅', '℆', '⩴', '︓', '︖', '﹕', '﹖', '﹟', '﹫', '＃', '／', '：', '？', '＠']

/-- Only an address of eight groups or of a later version stands in brackets. -/
def checkAddress (inside : List Char) : Except Fault Unit :=
  if inside.head? = some 'v' then
    if isLaterAddress inside then .ok () else .error .laterAddress
  else
    let address := String.ofList inside
    if isFourBytes address then .error .bracketedBytes
    else if isZonedGroups address then .ok ()
    else .error (.notAnAddress address)

def dropUser (host : List Char) : List Char :=
  (host.reverse.takeWhile (· ≠ '@')).reverse

/-- Brackets come in pairs. They enclose all of a host but the port; a host without brackets,
whose user has some, must be an address as well. -/
def checkBrackets (host : List Char) : Except Fault Unit :=
  if host.contains '[' ≠ host.contains ']' then .error .misplacedBrackets
  else if host.contains '[' then
    let place := dropUser host
    match place.dropWhile (· ≠ '[') with
    | [] => checkAddress (place.takeWhile (· ≠ ':'))
    | _ :: bracketed =>
      let port := (bracketed.dropWhile (· ≠ ']')).drop 1
      if place.head? ≠ some '[' ∨ (port ≠ [] ∧ port.head? ≠ some ':') then
        .error .misplacedBrackets
      else
        checkAddress (bracketed.takeWhile (· ≠ ']'))
  else
    .ok ()

def checkHost (host : List Char) : Except Fault Unit :=
  match checkBrackets host with
  | .error fault => .error fault
  | .ok () =>
    if host.any misleading.contains then .error (.misleadingHost (String.ofList host))
    else .ok ()

def parameterSchemes : List String :=
  ["", "ftp", "hdl", "prospero", "http", "imap", "https", "shttp", "rtsp", "rtspu", "sip", "sips",
   "mms", "sftp", "tel"]

def dropParameters (path : List Char) : List Char :=
  let last := (path.reverse.takeWhile (· ≠ '/')).reverse
  path.take (path.length - last.length) ++ last.takeWhile (· ≠ ';')

def path (url : String) : Except Fault String :=
  let (scheme, afterScheme) := splitScheme (clean url.toList)
  let (host, afterHost) := splitHost afterScheme
  (checkHost host).map fun _ =>
    let whole := (afterHost.takeWhile (· ≠ '#')).takeWhile (· ≠ '?')
    String.ofList (if scheme ∈ parameterSchemes then dropParameters whole else whole)

end LanguageBridge.Url
