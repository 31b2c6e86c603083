import IndexVault.Failure
import IndexVault.Http.HeaderValue
import IndexVault.Text.Blank

namespace IndexVault.Bearer

/-- The word before the first space of a text and what follows the space. -/
def splitAtSpace? (s : String) : Option (String × String) :=
  match s.toList.dropWhile (· != ' ') with
  | [] => none
  | _ :: rest => some (String.ofList (s.toList.takeWhile (· != ' ')), String.ofList rest)

/-- The token of a header text: the word `bearer` in any letter case, a space, and a remainder that
is not blank. -/
def tokenOfText? (s : String) : Option String :=
  match splitAtSpace? (Text.trim s) with
  | none => none
  | some (scheme, rest) =>
    let token := Text.trim rest
    if !Text.eqIgnoringCase scheme "bearer" || token.isEmpty then none else some token

/-- The token of some `Authorization` headers, of which the first one counts. -/
def token (headers : List Bytes) : Except Failure String :=
  match (headers.head?.bind Http.headerText?).bind tokenOfText? with
  | some token => .ok token
  | none => .error .missingBearer

def forwarded (token : String) : Bytes := Bytes.ofText ("Bearer " ++ token)

/-- Whether a byte can stand in a header value. -/
def isSendable (b : UInt8) : Bool :=
  b == 0x09 || (0x20 ≤ b && b != 0x7f)

end IndexVault.Bearer
