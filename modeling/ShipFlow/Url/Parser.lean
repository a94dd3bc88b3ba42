import Mathlib.Data.List.Basic

/-! The parts of the URL parser that an absolute path goes through, for a special scheme: the
authority that it may turn out to have, dot segments, and percent-encoding. -/

namespace Url

/-! ## Percent-encoding -/

def hexDigits : List Char :=
  ['0', '1', '2', '3', '4', '5', '6', '7', '8', '9', 'A', 'B', 'C', 'D', 'E', 'F']

def hexDigit (n : Nat) : Char := hexDigits.getD n '0'

def percentEncodeByte (byte : UInt8) : List Char :=
  ['%', hexDigit (byte.toNat / 16), hexDigit (byte.toNat % 16)]

/-- UTF-8 percent-encode, for the characters of a set. -/
def percentEncode (set : Char → Bool) (input : List Char) : List Char :=
  input.flatMap fun c =>
    if set c then (String.utf8EncodeChar c).flatMap percentEncodeByte else [c]

def c0ControlSet (c : Char) : Bool := c.toNat ≤ 0x1f || 0x7e < c.toNat

def fragmentSet (c : Char) : Bool := c0ControlSet c || [' ', '"', '<', '>', '`'].contains c

def querySet (c : Char) : Bool := c0ControlSet c || [' ', '"', '#', '<', '>'].contains c

def specialQuerySet (c : Char) : Bool := querySet c || c == '\''

def pathSet (c : Char) : Bool := querySet c || ['?', '^', '`', '{', '}'].contains c

/-! ## Dot segments -/

def isSingleDot (segment : List Char) : Bool :=
  [['.'], ['%', '2', 'e']].contains (segment.map Char.toLower)

def isDoubleDot (segment : List Char) : Bool :=
  [['.', '.'], ['.', '%', '2', 'e'], ['%', '2', 'e', '.'],
    ['%', '2', 'e', '%', '2', 'e']].contains (segment.map Char.toLower)

/-- The end of a segment. After the last one, a dot segment leaves an empty segment. -/
def endSegment (path : List (List Char)) (buffer : List Char) (last : Bool) : List (List Char) :=
  if isDoubleDot buffer then
    if last then path.dropLast ++ [[]] else path.dropLast
  else if isSingleDot buffer then
    if last then path ++ [[]] else path
  else path ++ [buffer]

def endSegments (path : List (List Char)) : List (List Char) → List (List Char)
  | [] => path
  | [buffer] => endSegment path buffer true
  | buffer :: buffers => endSegments (endSegment path buffer false) buffers

/-! ## The parser -/

def isSlash (c : Char) : Bool := c == '/' || c == '\\'

def isControlOrSpace (c : Char) : Bool := c.toNat ≤ 0x20

def isTabOrNewline (c : Char) : Bool := c == '\t' || c == '\n' || c == '\r'

/-- Control characters and spaces go at both ends, tabs and newlines everywhere. -/
def clean (input : List Char) : List Char :=
  (((input.dropWhile isControlOrSpace).reverse.dropWhile isControlOrSpace).reverse).filter
    fun c => !isTabOrNewline c

structure Record (Origin : Type) where
  origin : Origin
  path : List (List Char)
  query : Option (List Char)
  fragment : Option (List Char)
  deriving DecidableEq, Repr

section Parser
variable {Origin : Type} (parseAuthority : List Char → Option Origin)

/-- The origin of a URL that begins with a slash, and what comes after the slash of its path. -/
def parseOrigin (base : Origin) (input : List Char) : Option (Origin × List Char) :=
  match clean input with
  | '/' :: rest =>
    if (rest.head?).any isSlash then
      let authority := (rest.dropWhile isSlash).takeWhile fun c => !isSlash c && c != '?' && c != '#'
      let after := (rest.dropWhile isSlash).dropWhile fun c => !isSlash c && c != '?' && c != '#'
      (parseAuthority authority).map fun origin =>
        (origin, if (after.head?).any isSlash then after.tail else after)
    else some (base, rest)
  | _ => none

/-- The segments of the path, percent-encoded, before dot segments are removed. -/
def pathBuffers (input : List Char) : List (List Char) :=
  ((input.takeWhile fun c => c != '?' && c != '#').splitOnP isSlash).map (percentEncode pathSet)

/-- What comes after a mark, if it stands there. -/
def afterMark : List Char → Option (List Char)
  | [] => none
  | _ :: text => some text

def queryText (input : List Char) : Option (List Char) :=
  afterMark ((input.takeWhile fun c => c != '#').dropWhile fun c => c != '?')

def fragmentText (input : List Char) : Option (List Char) :=
  afterMark (input.dropWhile fun c => c != '#')

def parsePath (origin : Origin) (input : List Char) : Record Origin where
  origin := origin
  path := endSegments [] (pathBuffers input)
  query := (queryText input).map (percentEncode specialQuerySet)
  fragment := (fragmentText input).map (percentEncode fragmentSet)

/-- The URL parser, on an input that begins with a slash. -/
def parse (base : Origin) (input : List Char) : Option (Record Origin) :=
  (parseOrigin parseAuthority base input).map fun (origin, rest) => parsePath origin rest

end Parser

/-- A query or a fragment with its mark, unless it is empty. -/
def component (mark : Char) : Option (List Char) → List Char
  | none | some [] => []
  | some text => mark :: text

namespace Record
variable {Origin : Type} (url : Record Origin)

def pathname : List Char := url.path.flatMap fun segment => '/' :: segment

def search : List Char := component '?' url.query

def hash : List Char := component '#' url.fragment

/-- What stands after the host in the URL. -/
def relative : List Char := url.pathname ++ url.search ++ url.hash

end Record
end Url
