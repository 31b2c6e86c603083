import IndexVault.Bytes

namespace IndexVault.Http.MediaType

def isTokenChar (c : Char) : Bool :=
  c.isAlphanum || "!#$%&'*+-.^_`|~".toList.contains c

def isQuotedChar (c : Char) : Bool :=
  ' ' ≤ c && c ≤ '~'

/-- The rest behind a quoted value, from behind its opening quote. -/
def afterQuoted? : List Char → Option (List Char)
  | [] => none
  | first :: rest =>
    -- The value is not empty, so its first character may be a quote; the next quote ends it.
    let isInside (c : Char) : Bool := isQuotedChar c && c != '"'
    match isQuotedChar first, rest.dropWhile isInside with
    | true, '"' :: rest => some (rest.dropWhile (· == ' '))
    | _, _ => none

/-- The rest behind the value of a parameter, which is quoted or a token. -/
def afterValue? : List Char → Option (List Char)
  | '"' :: rest => afterQuoted? rest
  -- Only at the end of the text may there be no token.
  | [] => some []
  | c :: rest => if isTokenChar c then some (rest.dropWhile isTokenChar) else none

/-- Whether a text from behind a semicolon on is a run of parameters; `fuel` bounds their number. -/
def areParameters : Nat → List Char → Bool
  | 0, _ => false
  | fuel + 1, cs =>
    match cs.dropWhile (· == ' ') with
    | [] => true
    | c :: cs =>
      match isTokenChar c, cs.dropWhile isTokenChar with
      | true, '=' :: value =>
        match afterValue? value with
        | some [] => true
        | some (';' :: rest) => areParameters fuel rest
        | _ => false
      | _, _ => false

/-- A subtype divided at its last plus sign, unless that is its first character. -/
def splitSuffix (subtype : List Char) : List Char × Option (List Char) :=
  match subtype.reverse.dropWhile (· != '+') with
  | _ :: c :: front =>
    ((c :: front).reverse, some (subtype.reverse.takeWhile (· != '+')).reverse)
  | _ => (subtype, none)

/-- Whether a subtype is `json` before or after its last plus sign. -/
def isJsonSubtype (subtype : List Char) : Bool :=
  let (name, suffix) := splitSuffix subtype
  name == "json".toList || suffix == some "json".toList

/-- Whether the value of a `Content-Type` header announces JSON: a type and a subtype in any letter case,
then any parameters after semicolons. -/
def announcesJson (value : Bytes) : Bool :=
  let cs := (value.map fun b => Char.ofNat b.toNat).map Char.toLower
  match cs.dropWhile isTokenChar with
  | '/' :: rest =>
    cs.takeWhile isTokenChar == "application".toList &&
      isJsonSubtype (rest.takeWhile isTokenChar) &&
      match rest.dropWhile isTokenChar with
      | [] => true
      | ';' :: parameters => areParameters cs.length parameters
      | _ => false
  | _ => false

end IndexVault.Http.MediaType
