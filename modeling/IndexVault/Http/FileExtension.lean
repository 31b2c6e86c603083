import IndexVault.Http.FileExtension.Table

namespace IndexVault.Http

namespace FileExtension

/-- The part of a file name after its last point; a point at the front starts no extension. -/
def ofName? (name : String) : Option (List Char) :=
  let reversed := name.toList.reverse
  match reversed.dropWhile (· != '.') with
  | _ :: _ :: _ => some (reversed.takeWhile (· != '.')).reverse
  | _ => none

/-- A file name without its extension and the point before it. -/
def stemOfName (name : String) : String :=
  match name.toList.reverse.dropWhile (· != '.') with
  | _ :: c :: rest => String.ofList (c :: rest).reverse
  | _ => name

/-- What a character becomes when case does not matter. Apart from the letters of ASCII these are
the characters that become such letters: the long s, the Kelvin sign, the sharp s and the ligatures.
-/
def foldCase (c : Char) : List Char :=
  match c with
  | '\u017f' => ['s']
  | '\u212a' => ['k']
  | '\u00df' | '\u1e9e' => ['s', 's']
  | '\ufb00' => ['f', 'f']
  | '\ufb01' => ['f', 'i']
  | '\ufb02' => ['f', 'l']
  | '\ufb03' => ['f', 'f', 'i']
  | '\ufb04' => ['f', 'f', 'l']
  | '\ufb05' | '\ufb06' => ['s', 't']
  | c => [c.toLower]

/-- The media type that an extension suggests, in any case of its letters. -/
def mediaType? (extension : List Char) : Option String :=
  let folded := String.ofList (extension.flatMap foldCase)
  (table.find? fun entry => entry.2.contains folded).map Prod.fst

end FileExtension

def unknownMediaType : String := "application/octet-stream"

/-- The media type that a file name suggests by its extension. -/
def mediaTypeOfName (name : String) : String :=
  ((FileExtension.ofName? name).bind FileExtension.mediaType?).getD unknownMediaType

end IndexVault.Http
