import IndexVault.Json.Numeral
import IndexVault.Json.StringToken

/-! The grammar of JSON texts. Reading goes in two steps: a text is first taken apart into a tree
that keeps the units of its strings and its numerals, then the tree is given its meaning, where
strings have to spell text, numbers have to lie in range and nesting is bounded. An object whose
first member has a reserved name stands for the value whose text that member holds. -/
namespace IndexVault.Json

/-- A JSON text taken apart. -/
inductive Tree where
  | null
  | bool (b : Bool)
  | number (n : Numeral)
  | text (units : List StringUnit)
  | array (items : List Tree)
  | object (members : List (List StringUnit × Tree))

def isBlank (b : UInt8) : Bool :=
  b == 0x20 || b == 0x0a || b == 0x09 || b == 0x0d

def skipBlank (input : Bytes) : Bytes := input.dropWhile isBlank

/-- The rest of a text after an expected word. -/
def afterWord : Bytes → Bytes → Option Bytes
  | [], input => some input
  | _ :: _, [] => none
  | w :: ws, b :: rest => if w == b then afterWord ws rest else none

mutual

/-- Reads a value; `fuel` bounds the steps. -/
def readTreeWithin : Nat → Bytes → Option (Tree × Bytes)
  | 0, _ => none
  | fuel + 1, input =>
    match skipBlank input with
    | [] => none
    | b :: rest =>
      -- The first byte tells a string, an array, an object and the three words from a numeral.
      if b == 0x22 then (stringUnits rest).map fun (units, rest) => (.text units, rest)
      else if b == 0x5b then
        match skipBlank rest with
        | 0x5d :: rest => some (.array [], rest)
        | rest => (readItemsWithin fuel rest).map fun (items, rest) => (.array items, rest)
      else if b == 0x7b then
        match skipBlank rest with
        | 0x7d :: rest => some (.object [], rest)
        | rest => (readMembersWithin fuel rest).map fun (members, rest) => (.object members, rest)
      else if b == 0x6e then (afterWord nullWord (b :: rest)).map fun rest => (.null, rest)
      else if b == 0x74 then (afterWord trueWord (b :: rest)).map fun rest => (.bool true, rest)
      else if b == 0x66 then (afterWord falseWord (b :: rest)).map fun rest => (.bool false, rest)
      else (readNumeral (b :: rest)).map fun (n, rest) => (.number n, rest)

/-- Reads the items of an array up to its closing bracket; at least one is expected. -/
def readItemsWithin : Nat → Bytes → Option (List Tree × Bytes)
  | 0, _ => none
  | fuel + 1, input =>
    match readTreeWithin fuel input with
    | none => none
    | some (item, rest) =>
      match skipBlank rest with
      | 0x5d :: rest => some ([item], rest)
      | 0x2c :: rest => (readItemsWithin fuel rest).map fun (items, rest) => (item :: items, rest)
      | _ => none

/-- Reads the members of an object up to its closing brace; at least one is expected. -/
def readMembersWithin : Nat → Bytes → Option (List (List StringUnit × Tree) × Bytes)
  | 0, _ => none
  | fuel + 1, input =>
    match skipBlank input with
    | 0x22 :: rest =>
      match stringUnits rest with
      | none => none
      | some (name, rest) =>
        match skipBlank rest with
        | 0x3a :: rest =>
          match readTreeWithin fuel rest with
          | none => none
          | some (value, rest) =>
            match skipBlank rest with
            | 0x7d :: rest => some ([(name, value)], rest)
            | 0x2c :: rest =>
              (readMembersWithin fuel rest).map fun (members, rest) =>
                ((name, value) :: members, rest)
            | _ => none
        | _ => none
    | _ => none

end

/-- Reads a value from the front of a text. -/
def readTree (input : Bytes) : Option (Tree × Bytes) :=
  -- Every second step takes a byte, so the fuel is enough.
  readTreeWithin (2 * input.length + 2) input

/-- The reserved name of the only member of an object that embeds a value as text. -/
def embeddingName : Bytes :=
  [0x24, 0x73, 0x65, 0x72, 0x64, 0x65, 0x5f, 0x6a, 0x73, 0x6f, 0x6e, 0x3a, 0x3a, 0x70, 0x72, 0x69,
    0x76, 0x61, 0x74, 0x65, 0x3a, 0x3a, 0x52, 0x61, 0x77, 0x56, 0x61, 0x6c, 0x75, 0x65]

/-- Whether an object embeds a value, which its first member tells. -/
def isEmbedding (members : List (List StringUnit × Tree)) : Bool :=
  (members.head?.bind fun m => unitBytes? m.1) == some embeddingName

def embeddedText? : List (List StringUnit × Tree) → Option Bytes
  | [(_, .text units)] => (unitText? units).map Bytes.ofText
  | _ => none

mutual

/-- The meaning of a tree with at most `depth` nested arrays and objects; `read` reads the text of
an embedded value. -/
def Tree.meaning (read : Bytes → Option Value) (depth : Nat) : Tree → Option Value
  | .null => some .null
  | .bool b => some (.bool b)
  | .number n => n.number?.map .number
  | .text units => (unitText? units).map .text
  | .array items =>
    if depth = 0 then none else (itemsMeaning read (depth - 1) items).map .array
  | .object members =>
    if depth = 0 then none
    -- The nesting of an embedded text is counted from the start again.
    else if isEmbedding members then (embeddedText? members).bind read
    else (membersMeaning read (depth - 1) ∅ members).map .ofMap

def itemsMeaning (read : Bytes → Option Value) (depth : Nat) :
    List Tree → Option (List Value)
  | [] => some []
  | t :: rest =>
    match t.meaning read depth, itemsMeaning read depth rest with
    | some v, some vs => some (v :: vs)
    | _, _ => none

/-- The meaning of the members of an object after those before them; a repeated name takes the new
value. -/
def membersMeaning (read : Bytes → Option Value) (depth : Nat)
    (before : SortedMap String Value) :
    List (List StringUnit × Tree) → Option (SortedMap String Value)
  | [] => some before
  | (name, t) :: rest =>
    match unitText? name, t.meaning read depth with
    | some name, some v => membersMeaning read depth (before.insert name v) rest
    | _, _ => none

end

def maxDepth : Nat := 127

/-- The value of a whole text; `fuel` bounds the texts within texts. -/
def readValueWithin : Nat → Bytes → Option Value
  | 0, _ => none
  | fuel + 1, input =>
    match readTree input with
    | none => none
    | some (tree, rest) =>
      if (skipBlank rest).isEmpty then tree.meaning (readValueWithin fuel) maxDepth else none

/-- The value of a whole text. -/
def readValue (input : Bytes) : Option Value :=
  -- A text within a text is shorter than it, so the fuel is enough.
  readValueWithin (input.length + 1) input

end IndexVault.Json
