import IndexVault.Json.Tree

/-! Reading JSON texts as records. A record is written as an object, where unknown members are
passed over and a repeated known one is refused, or as an array of its fields in order. A text is
read from left to right, and the first fault found is the one reported. -/
namespace IndexVault.Json

/-- Why a text is not read: it is no JSON text, or not of the shape expected. -/
inductive Fault where
  | malformed
  | mismatch
  deriving DecidableEq, Repr

/-- A reader of values: the value and the rest of the text. -/
abbrev Reader (α : Type) := Bytes → Except Fault (α × Bytes)

/-- The fault of a value of the wrong kind. -/
def unexpectedValue (input : Bytes) : Fault :=
  match input with
  | [] => .malformed
  | b :: rest =>
    -- The value has to be sound as far as its kind asks: a word, a numeral or a string to its end,
    -- an array or an object up to its opening bracket.
    let sound : Bool :=
      if b == 0x22 then (readQuoted rest).isSome
      else if b == 0x5b || b == 0x7b then true
      else if b == 0x6e then (afterWord nullWord input).isSome
      else if b == 0x74 then (afterWord trueWord input).isSome
      else if b == 0x66 then (afterWord falseWord input).isSome
      else ((readNumeral input).bind fun n => n.1.number?).isSome
    if sound then .mismatch else .malformed

def readText : Reader String := fun input =>
  match skipBlank input with
  | 0x22 :: rest =>
    match readQuoted rest with
    | some (s, rest) => .ok (s, rest)
    | none => .error .malformed
  | rest => .error (unexpectedValue rest)

def readBool : Reader Bool := fun input =>
  let input := skipBlank input
  match afterWord trueWord input, afterWord falseWord input with
  | some rest, _ => .ok (true, rest)
  | _, some rest => .ok (false, rest)
  | _, _ => .error (unexpectedValue input)

/-- Reads a whole number from zero up to a bound, which it has to stay below. -/
def readNatBelow (bound : Nat) : Reader Nat := fun input =>
  let input := skipBlank input
  match readNumeral input with
  | some (n, rest) =>
    match n.number? with
    | some (.whole (.ofNat m)) => if m < bound then .ok (m, rest) else .error .mismatch
    | some _ => .error .mismatch
    | none => .error .malformed
  | none => .error (unexpectedValue input)

def readOptional {α : Type} (read : Reader α) : Reader (Option α) := fun input =>
  match skipBlank input with
  | 0x6e :: rest =>
    match afterWord nullWord (0x6e :: rest) with
    | some rest => .ok (none, rest)
    | none => .error .malformed
  | rest =>
    match read rest with
    | .ok (a, rest) => .ok (some a, rest)
    | .error e => .error e

/-- A field of a record: the names of its member, how a value is read into the record, and whether
the record can do without it as an object and as an array. -/
structure Field (σ : Type) where
  names : List String
  read : σ → Reader σ
  optionalInObject : Bool := true
  optionalInArray : Bool := true

/-- A field whose value is read on its own and then set. -/
def Field.setting {σ α : Type} (name : String) (read : Reader α) (set : σ → α → σ) : Field σ where
  names := [name]
  read s input :=
    match read input with
    | .ok (a, rest) => .ok (set s a, rest)
    | .error e => .error e

def fieldIndex? {σ : Type} (fields : List (Field σ)) (name : String) : Option Nat :=
  fields.findIdx? fun f => f.names.contains name

/-- Whether every field that an object needs was seen. -/
def allSeen {σ : Type} (fields : List (Field σ)) (seen : List Nat) : Bool :=
  (fields.zipIdx.all fun (f, i) => f.optionalInObject || seen.contains i)

/-- Reads the value of a member: into its field, or past it when there is none of that name. -/
def readMember {σ : Type} (field : Option (Field σ)) (s : σ) : Reader σ := fun input =>
  match skipBlank input with
  | 0x3a :: rest =>
    match field with
    | some f => f.read s rest
    | none =>
      match readTree rest with
      | some (_, rest) => .ok (s, rest)
      | none => .error .malformed
  | _ => .error .malformed

/-- Reads members from a name on up to the closing brace; `fuel` bounds their number. -/
def readMembers {σ : Type} (fields : List (Field σ)) :
    Nat → List Nat → σ → Bytes → Except Fault (σ × Bytes)
  | 0, _, _, _ => .error .malformed
  | fuel + 1, seen, s, input =>
    match skipBlank input with
    | 0x22 :: rest =>
      match readQuoted rest with
      | none => .error .malformed
      | some (name, rest) =>
        let place := fieldIndex? fields name
        -- A known name is refused at its second occurrence, before its value is read.
        if (place.map seen.contains).getD false then .error .mismatch
        else
          match readMember (place.bind (fields[·]?)) s rest with
          | .error e => .error e
          | .ok (s, rest) =>
            let seen := place.toList ++ seen
            match skipBlank rest with
            | 0x7d :: rest => if allSeen fields seen then .ok (s, rest) else .error .mismatch
            | 0x2c :: rest => readMembers fields fuel seen s rest
            | _ => .error .malformed
    | _ => .error .malformed

/-- Reads the items of an array as the fields in order, up to the closing bracket. -/
def readItems {σ : Type} : List (Field σ) → Bool → σ → Bytes → Except Fault (σ × Bytes)
  | [], _, s, input =>
    match skipBlank input with
    | 0x5d :: rest => .ok (s, rest)
    | _ => .error .malformed
  | f :: fields, first, s, input =>
    match skipBlank input, first with
    | 0x5d :: rest, _ =>
      if f.optionalInArray then readItems fields first s (0x5d :: rest) else .error .mismatch
    | 0x2c :: rest, false =>
      match skipBlank rest with
      | [] => .error .malformed
      | 0x5d :: _ => .error .malformed
      | rest =>
        match f.read s rest with
        | .ok (s, rest) => readItems fields false s rest
        | .error e => .error e
    | [], _ => .error .malformed
    | rest, true =>
      match f.read s rest with
      | .ok (s, rest) => readItems fields false s rest
      | .error e => .error e
    | _, false => .error .malformed

/-- Reads a record; what the text leaves out keeps the value it has in `start`. -/
def readRecord {σ : Type} (fields : List (Field σ)) (start : σ) : Reader σ := fun input =>
  match skipBlank input with
  | 0x7b :: rest =>
    match skipBlank rest with
    | 0x7d :: rest => if allSeen fields [] then .ok (start, rest) else .error .mismatch
    | rest => readMembers fields rest.length [] start rest
  | 0x5b :: rest => readItems fields true start rest
  | rest => .error (unexpectedValue rest)

/-- Reads the items of a list after its opening bracket; `fuel` bounds their number. -/
def readListItems {α : Type} (read : Reader α) : Nat → Bytes → Except Fault (List α × Bytes)
  | 0, _ => .error .malformed
  | fuel + 1, input =>
    match read input with
    | .error e => .error e
    | .ok (a, rest) =>
      match skipBlank rest with
      | 0x5d :: rest => .ok ([a], rest)
      | 0x2c :: rest =>
        match readListItems read fuel rest with
        | .ok (as, rest) => .ok (a :: as, rest)
        | .error e => .error e
      | _ => .error .malformed

def readList {α : Type} (read : Reader α) : Reader (List α) := fun input =>
  match skipBlank input with
  | 0x5b :: rest =>
    match skipBlank rest with
    | 0x5d :: rest => .ok ([], rest)
    | rest => readListItems read rest.length rest
  | rest => .error (unexpectedValue rest)

/-- The value at the front of a text, whatever follows it. -/
def readFront {α : Type} (read : Reader α) (input : Bytes) : Except Fault α :=
  (read input).map Prod.fst

/-- The value of a whole text. -/
def readWhole {α : Type} (read : Reader α) (input : Bytes) : Except Fault α :=
  match read input with
  | .error e => .error e
  | .ok (a, rest) => if (skipBlank rest).isEmpty then .ok a else .error .malformed

end IndexVault.Json
