import RecordAccess.Database.Providers
import RecordAccess.Text.Percent

/-!
# Addresses of databases

A database is addressed by a URL: a scheme, an authority with user, host and service number, a path
that names the database, and options.  `Address.isWellFormed` says which texts are such URLs.

`Database.connect` opens the connections: a malformed address fails at once, and a well-formed one
fails if no server answers.
-/

namespace RecordAccess

namespace Address

/-! ### Parts of a URL -/

/-- Whether a character can be dropped from the ends of a URL. -/
def isPadding (c : Char) : Bool := c.toNat ≤ 32

/-- The characters of a URL: without padding at the ends, and without tabs and new lines. -/
def clean (text : String) : List Char :=
  let inner := ((text.toList.dropWhile isPadding).reverse.dropWhile isPadding).reverse
  inner.filter fun c => c ≠ '\t' && c ≠ '\n' && c ≠ '\r'

/-- Whether a character may stand in a scheme after its first letter. -/
def isSchemeChar (c : Char) : Bool := c.isAlphanum || c = '+' || c = '-' || c = '.'

/-- Splits at the first character that satisfies a condition, which is dropped. -/
def splitAt (p : Char → Bool) (cs : List Char) : List Char × Option (List Char) :=
  match cs.dropWhile fun c => !p c with
  | [] => (cs, none)
  | _ :: rest => (cs.takeWhile fun c => !p c, some rest)

/-- Splits at the last character equal to `d`, which is dropped. -/
def splitAtLast (d : Char) (cs : List Char) : Option (List Char × List Char) :=
  match splitAt (· = d) cs.reverse with
  | (_, none) => none
  | (after, some before) => some (before.reverse, after.reverse)

/-- All parts between characters equal to `d`. -/
def partsAt (d : Char) : List Char → List (List Char)
  | [] => [[]]
  | c :: cs =>
    if c = d then [] :: partsAt d cs
    else
      match partsAt d cs with
      | part :: parts => (c :: part) :: parts
      | [] => [[c]]

/-! ### Hosts -/

/-- The value of a part of an address with dots, if it is one. -/
def octet? (cs : List Char) : Option Nat :=
  if cs.isEmpty || !cs.all Char.isDigit || (1 < cs.length && cs.head? = some '0') then none
  else if Decimal.value cs ≤ 255 then some (Decimal.value cs) else none

/-- Whether a text is a numeric address with dots. -/
def isDotted (cs : List Char) : Bool :=
  let parts := partsAt '.' cs
  parts.length = 4 && parts.all fun p => (octet? p).isSome

/-- The number of 16-bit pieces in groups separated by colons, the last of which may be dotted. -/
def pieces? : List (List Char) → Option Nat
  | [] => some 0
  | g :: rest =>
    if rest.isEmpty && isDotted g then some 2
    else if !g.isEmpty && g.length ≤ 4 && g.all fun c => (Json.Reader.hexValue? c).isSome then
      (pieces? rest).map (· + 1)
    else none

/-- The pieces of one side of a double colon. -/
def side? (cs : List Char) : Option Nat := if cs.isEmpty then some 0 else pieces? (partsAt ':' cs)

/-- Splits at the first double colon. -/
def splitDouble : List Char → Option (List Char × List Char)
  | ':' :: ':' :: rest => some ([], rest)
  | c :: rest => (splitDouble rest).map fun (a, b) => (c :: a, b)
  | [] => none

/-- Whether a text is a numeric address with colons. -/
def isColoned (cs : List Char) : Bool :=
  match splitDouble cs with
  | none => pieces? (partsAt ':' cs) = some 8
  | some (before, after) =>
    match side? before, side? after with
    | some a, some b => a + b ≤ 7 && !isDotted before
    | _, _ => false

/-- Whether a character must not stand in a host name. -/
def isForbidden (c : Char) : Bool :=
  c.toNat = 0 || " #/:<>?@[\\]^|".toList.contains c

/-- Whether a text is a host name or a numeric address in brackets. -/
def isHost : List Char → Bool
  | '[' :: rest =>
    match splitAt (· = ']') rest with
    | (inner, some []) => isColoned inner
    | _ => false
  | cs => cs.all fun c => !isForbidden c

/-- Whether a text is the number of a service on a host, which has 16 bits. -/
def isServiceNumber (cs : List Char) : Bool := cs.all Char.isDigit && Decimal.value cs ≤ 65535

/-- Splits a host from the number after it; the colons inside brackets belong to the host. -/
def splitNumber (cs : List Char) : List Char × Option (List Char) :=
  match cs with
  | '[' :: rest =>
    match splitAt (· = ']') rest with
    | (inner, some (':' :: number)) => ('[' :: inner ++ [']'], some number)
    | _ => (cs, none)
  | _ => splitAt (· = ':') cs

/-- Whether a text is an authority: an optional user, a host and an optional number.  A user or a
number needs a host. -/
def isAuthority (cs : List Char) : Bool :=
  let (user, rest) := match splitAtLast '@' cs with
    | none => ([], cs)
    | some (user, rest) => (user, rest)
  let (host, number) := splitNumber rest
  isHost host && number.all isServiceNumber &&
    !(host.isEmpty && (number.isSome || rest.length < cs.length)) &&
    (splitAt (· = ':') user).1.length ≤ user.length && Text.percentDecodesToText user

/-! ### Options -/

/-- The ways to secure a connection. -/
def sslModes : List String := ["disable", "allow", "prefer", "require", "verify-ca", "verify-full"]

/-- A percent-encoded text as text, with plus signs for blanks. -/
def optionText (cs : List Char) : String :=
  let spaced := cs.map fun c => if c = '+' then ' ' else c
  (String.fromUTF8? ⟨(Text.percentDecoded spaced).toArray⟩).getD ""

/-- Whether a text is a natural number below a bound. -/
def isNumberBelow (bound : Nat) (t : String) : Bool := (Decimal.bounded? (bound - 1) t).isSome

/-- Whether an option has a value that it can have. -/
def isOption (cs : List Char) : Bool :=
  let (name, value) := splitAt (· = '=') cs
  let name := optionText name
  let value := optionText (value.getD [])
  if name = "sslmode" || name = "ssl-mode" then sslModes.contains value.toLower
  else if name = "port" then isNumberBelow 65536 value
  else if name = "statement-cache-capacity" then isNumberBelow (Nat.pow 2 64) value
  else if name = "hostaddr" then isDotted value.toList || isColoned value.toList
  else true

/-! ### The whole address -/

/-- Whether what follows the scheme is well-formed. -/
def isRest (cs : List Char) : Bool :=
  let (cs, _) := splitAt (· = '#') cs
  let (path, query) := splitAt (· = '?') cs
  let (authority, path) : List Char × List Char :=
    match path with
    | '/' :: '/' :: rest => (rest.takeWhile (· ≠ '/'), rest.dropWhile (· ≠ '/'))
    | path => ([], path)
  isAuthority authority && Text.percentDecodesToText path &&
    (partsAt '&' (query.getD [])).all isOption

/-- Whether a text is the address of a database. -/
def isWellFormed (text : String) : Bool :=
  match splitAt (· = ':') (clean text) with
  | (c :: scheme, some rest) => c.isAlpha && scheme.all isSchemeChar && isRest rest
  | _ => false

end Address

/-- Opens the connections to the database at an address.  `server` is the database that answers
there, if one does. -/
def Database.connect (url : String) (server : Option Database) : Run Database :=
  if !Address.isWellFormed url then
    Run.raise (DatabaseCause.configuration "malformed address").toError
  else
    match server with
    | none => Run.raise DatabaseCause.poolTimedOut.toError
    | some d => pure d

end RecordAccess
