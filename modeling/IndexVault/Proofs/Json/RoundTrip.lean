import IndexVault.Json.Tree
import IndexVault.Proofs.Json.Numerals

namespace IndexVault.Json

theorem skipBlank_cons {b : UInt8} (h : isBlank b = false) (rest : Bytes) :
    skipBlank (b :: rest) = b :: rest := by
  apply List.dropWhile_cons_of_neg
  rw [h]
  exact Bool.false_ne_true

/-- Blanks are skipped, however many they are. -/
theorem skipBlank_blanks {blanks : Bytes} (hblanks : blanks.all isBlank = true) (rest : Bytes) :
    skipBlank (blanks ++ rest) = skipBlank rest :=
  List.dropWhile_append_of_pos (List.all_eq_true.1 hblanks)

theorem isBlank_iff {b : UInt8} : isBlank b = true ↔ b = 0x20 ∨ b = 0x0a ∨ b = 0x09 ∨ b = 0x0d := by
  simp [isBlank, or_assoc]

/-- Values that can be read back within some levels of nesting. -/
inductive Value.ReadsBack : Nat → Value → Prop
  | null (depth : Nat) : ReadsBack depth .null
  | bool (depth : Nat) (b : Bool) : ReadsBack depth (.bool b)
  | whole (depth : Nat) {n : Int} (hlow : Int64.minValue.toInt ≤ n) (hhigh : n < UInt64.size) :
    ReadsBack depth (.number (.whole n))
  | text (depth : Nat) (s : String) : ReadsBack depth (.text s)
  | array {depth : Nat} {items : List Value} (hitems : ∀ v ∈ items, ReadsBack depth v) :
    ReadsBack (depth + 1) (.array items)
  | object {depth : Nat} {members : List (String × Value)}
    (hmembers : ∀ m ∈ members, ReadsBack depth m.2) (hnames : SortedMap.Ascending members)
    (hfirst : ∀ m ∈ members.head?, Bytes.ofText m.1 ≠ embeddingName) :
    ReadsBack (depth + 1) (.object members)

/-- A value whose written form, wherever it stands, is taken apart into a tree that means the value. -/
structure Value.Reads (depth : Nat) (v : Value) : Prop where
  /-- It begins with a byte for which the reader of an array does not stop. -/
  starts : ∃ b tail, v.compact = b :: tail ∧ isBlank b = false ∧ b ≠ 0x5d
  reads : ∀ fuel rest, 2 * v.compact.length ≤ fuel → EndsNumeral rest →
    ∃ tree, readTreeWithin fuel (v.compact ++ rest) = some (tree, rest) ∧
      ∀ read, tree.meaning read depth = some v

/-- A written value has a first byte, so the fuel that its length asks for is not zero. -/
theorem exists_fuel {v : Value} {b : UInt8} {tail : Bytes} (hv : v.compact = b :: tail) {fuel : Nat}
    (h : 2 * v.compact.length ≤ fuel) : ∃ k, fuel = k + 1 := by
  rw [hv, List.length_cons] at h
  exact ⟨fuel - 1, by omega⟩

/-- A value that is written as a word of its own. -/
theorem reads_word {v : Value} (tree : Tree) {b : UInt8} {tail : Bytes} {depth : Nat}
    (hv : v.compact = b :: tail) (hb : isBlank b = false ∧ b ≠ 0x5d)
    (hread : ∀ k rest, readTreeWithin (k + 1) (b :: tail ++ rest) = some (tree, rest))
    (hmeaning : ∀ read, tree.meaning read depth = some v) : v.Reads depth := by
  refine ⟨⟨b, tail, hv, hb⟩, fun fuel rest hfuel _ => ?_⟩
  obtain ⟨k, rfl⟩ := exists_fuel hv hfuel
  rw [hv]
  exact ⟨tree, hread k rest, hmeaning⟩

theorem reads_null (depth : Nat) : Value.null.Reads depth :=
  reads_word .null rfl (by decide) (fun _ _ => rfl) fun _ => rfl

theorem reads_bool (depth : Nat) (b : Bool) : (Value.bool b).Reads depth := by
  cases b with
  | true => exact reads_word (.bool true) rfl (by decide) (fun _ _ => rfl) fun _ => rfl
  | false => exact reads_word (.bool false) rfl (by decide) (fun _ _ => rfl) fun _ => rfl

/-- The units as which a text is written. -/
def unitsOf (s : String) : List StringUnit := (Bytes.ofText s).map escapedUnit

theorem unitBytes?_unitsOf (s : String) : unitBytes? (unitsOf s) = some (Bytes.ofText s) :=
  unitBytes?_escapedUnits _

theorem unitText?_unitsOf (s : String) : unitText? (unitsOf s) = some s := by
  rw [unitText?, unitBytes?_unitsOf, Option.bind_some, Bytes.toText?_ofText]

/-- A written string is read as the units of its text. -/
theorem stringUnits_quoted (s : String) (rest : Bytes) :
    ∃ tail, quoted s ++ rest = 0x22 :: tail ∧ stringUnits tail = some (unitsOf s, rest) := by
  refine ⟨(Bytes.ofText s).flatMap escapeByte ++ 0x22 :: rest, ?_, stringUnits_escaped _ rest⟩
  simp [quoted]

/-- A text reads back at any depth. -/
theorem reads_text (depth : Nat) (s : String) : (Value.text s).Reads depth := by
  refine ⟨⟨0x22, _, rfl, by decide, by decide⟩, fun fuel rest hfuel _ => ?_⟩
  obtain ⟨k, rfl⟩ := exists_fuel rfl hfuel
  obtain ⟨tail, htail, hunits⟩ := stringUnits_quoted s rest
  refine ⟨.text (unitsOf s), ?_, fun read => ?_⟩
  · change readTreeWithin (k + 1) (quoted s ++ rest) = _
    rw [htail]
    change (stringUnits tail).map (fun x => (Tree.text x.1, x.2)) = _
    rw [hunits]
    rfl
  · rw [Tree.meaning, unitText?_unitsOf]
    rfl

/-- Whether a byte begins a whole number, as its first digit or its sign. -/
def beginsNumeral (b : UInt8) : Bool := Text.isDigit b || b == 0x2d

theorem ne_of_beginsNumeral {b c : UInt8} (hb : beginsNumeral b = true)
    (hc : beginsNumeral c = false) : b ≠ c := by
  rintro rfl
  rw [hc] at hb
  cases hb

theorem isBlank_of_beginsNumeral {b : UInt8} (hb : beginsNumeral b = true) : isBlank b = false := by
  rw [Bool.eq_false_iff, ne_eq, isBlank_iff]
  rintro (rfl | rfl | rfl | rfl) <;> cases hb

/-- A written number begins as a numeral. -/
theorem head_signedDigits (n : Int) :
    ∃ b tail, Text.signedDigits n = b :: tail ∧ beginsNumeral b = true := by
  cases n with
  | ofNat n =>
    obtain ⟨d, rest, hdigits, hd⟩ := exists_digits_cons n
    exact ⟨d, rest, hdigits, by rw [beginsNumeral, hd, Bool.true_or]⟩
  | negSucc n => exact ⟨0x2d, _, rfl, rfl⟩

/-- What begins like a numeral is read as one. -/
theorem readTreeWithin_of_beginsNumeral {b : UInt8} (hb : beginsNumeral b = true) (k : Nat)
    (tail : Bytes) : readTreeWithin (k + 1) (b :: tail) =
      (readNumeral (b :: tail)).map fun x => (.number x.1, x.2) := by
  -- Neither a digit nor the sign begins anything but a numeral.
  have hne (c : UInt8) (hc : beginsNumeral c = false) : b ≠ c := ne_of_beginsNumeral hb hc
  rw [readTreeWithin, skipBlank_cons (isBlank_of_beginsNumeral hb)]
  simp only [beq_false_of_ne (hne 0x22 rfl), beq_false_of_ne (hne 0x5b rfl),
    beq_false_of_ne (hne 0x7b rfl), beq_false_of_ne (hne 0x6e rfl), beq_false_of_ne (hne 0x74 rfl),
    beq_false_of_ne (hne 0x66 rfl), Bool.false_eq_true, if_false]

/-- A whole number of 64 bits reads back, with a sign or without. -/
theorem reads_whole (depth : Nat) {n : Int} (hlow : Int64.minValue.toInt ≤ n)
    (hhigh : n < UInt64.size) : (Value.number (.whole n)).Reads depth := by
  obtain ⟨b, tail, hdigits, hb⟩ := head_signedDigits n
  have hfits : n.natAbs < UInt64.size := by
    have hmin : Int64.minValue.toInt = -9223372036854775808 := rfl
    have hsize : (UInt64.size : Nat) = 18446744073709551616 := rfl
    omega
  refine ⟨⟨b, tail, hdigits, isBlank_of_beginsNumeral hb, ne_of_beginsNumeral hb rfl⟩,
    fun fuel rest hfuel hrest => ?_⟩
  have hcompact : (Value.number (.whole n)).compact = b :: tail := hdigits
  obtain ⟨k, rfl⟩ := exists_fuel hcompact hfuel
  refine ⟨.number (numeralOf n), ?_, fun read => ?_⟩
  · have hread := readNumeral_signedDigits hfits hrest
    change readTreeWithin (k + 1) (Text.signedDigits n ++ rest) = _
    rw [hdigits, List.cons_append] at hread ⊢
    rw [readTreeWithin_of_beginsNumeral hb, hread]
    rfl
  · rw [Tree.meaning, number?_numeralOf hlow]
    rfl

theorem compactItems_cons_cons (v v' : Value) (rest : List Value) :
    joined [0x2c] (compactItems (v :: v' :: rest)) =
      v.compact ++ 0x2c :: joined [0x2c] (compactItems (v' :: rest)) := by
  rw [compactItems, compactItems, joined, List.append_assoc]
  · rfl
  · intro h
    cases h

theorem compactItems_singleton (v : Value) :
    joined [0x2c] (compactItems [v]) = v.compact := rfl

/-- What stands behind an item or a member. -/
theorem endsNumeral_of_mark {b : UInt8} (hb : b = 0x2c ∨ b = 0x5d ∨ b = 0x7d) (rest : Bytes) :
    EndsNumeral (b :: rest) := by
  apply endsNumeral_cons
  rcases hb with rfl | rfl | rfl <;> decide

/-- Written items read back one by one, by induction on them. -/
theorem reads_items {depth : Nat} {v : Value} {items : List Value}
    (h : ∀ item ∈ v :: items, item.Reads depth) {fuel : Nat} (rest : Bytes)
    (hfuel : 2 * (joined [0x2c] (compactItems (v :: items))).length + 1 ≤ fuel) :
    ∃ trees, readItemsWithin fuel
        (joined [0x2c] (compactItems (v :: items)) ++ 0x5d :: rest) = some (trees, rest) ∧
      ∀ read, itemsMeaning read depth trees = some (v :: items) := by
  -- By induction on the items behind the first: the mark behind an item tells whether there is another.
  induction items generalizing v fuel with
  | nil =>
    rw [compactItems_singleton] at hfuel ⊢
    obtain ⟨k, rfl⟩ : ∃ k, fuel = k + 1 := ⟨fuel - 1, by omega⟩
    obtain ⟨tree, hread, hmeaning⟩ := (h v List.mem_cons_self).reads k (0x5d :: rest) (by omega)
      (endsNumeral_of_mark (by decide) rest)
    refine ⟨[tree], ?_, fun read => ?_⟩
    · rw [readItemsWithin, hread]
      rfl
    · rw [itemsMeaning, hmeaning]
      rfl
  | cons v' items ih =>
    rw [compactItems_cons_cons] at hfuel ⊢
    rw [List.length_append, List.length_cons] at hfuel
    obtain ⟨k, rfl⟩ : ∃ k, fuel = k + 1 := ⟨fuel - 1, by omega⟩
    obtain ⟨tree, hread, hmeaning⟩ := (h v List.mem_cons_self).reads k
      (0x2c :: (joined [0x2c] (compactItems (v' :: items)) ++ 0x5d :: rest)) (by omega)
      (endsNumeral_of_mark (by decide) _)
    obtain ⟨trees, hreads, hmeanings⟩ :=
      @ih v' (fun item hitem => h item (List.mem_cons_of_mem v hitem)) k (by omega)
    refine ⟨tree :: trees, ?_, fun read => ?_⟩
    · rw [List.append_assoc, List.cons_append, readItemsWithin, hread]
      change (readItemsWithin k _).map _ = _
      rw [hreads]
      rfl
    · rw [itemsMeaning, hmeaning, hmeanings]

/-- An array whose first item does not look like its end is read item by item. -/
theorem readTreeWithin_bracket {b : UInt8} (hblank : isBlank b = false) (hne : b ≠ 0x5d) (k : Nat)
    (tail : Bytes) : readTreeWithin (k + 1) (0x5b :: b :: tail) =
      (readItemsWithin k (b :: tail)).map fun x : List Tree × Bytes => (.array x.1, x.2) := by
  rw [readTreeWithin, skipBlank_cons (by decide)]
  simp only [skipBlank_cons hblank]
  rw [if_neg (by decide), if_pos (by decide)]
  split
  · rename_i heq
    exact absurd (List.cons.inj heq).1 hne
  · rfl

/-- An array reads back if its items do, one level deeper. -/
theorem reads_array {depth : Nat} {items : List Value} (h : ∀ v ∈ items, v.Reads depth) :
    (Value.array items).Reads (depth + 1) := by
  refine ⟨⟨0x5b, _, rfl, by decide, by decide⟩, fun fuel rest hfuel _ => ?_⟩
  obtain ⟨k, rfl⟩ := exists_fuel rfl hfuel
  cases items with
  | nil => exact ⟨.array [], rfl, fun _ => rfl⟩
  | cons v items =>
    have hcompact : (Value.array (v :: items)).compact =
        0x5b :: (joined [0x2c] (compactItems (v :: items)) ++ [0x5d]) := rfl
    rw [hcompact, List.length_cons, List.length_append, List.length_singleton] at hfuel
    obtain ⟨trees, hreads, hmeanings⟩ := reads_items h rest (show _ ≤ k by omega)
    obtain ⟨b, tail, hstart, hblank, hne⟩ := (h v List.mem_cons_self).starts
    -- The bracket is followed by the first item, whose first byte does not close the array.
    obtain ⟨tail', hjoined⟩ : ∃ tail', joined [0x2c] (compactItems (v :: items)) = b :: tail' := by
      cases items with
      | nil => exact ⟨tail, hstart⟩
      | cons v' items => exact ⟨_, by rw [compactItems_cons_cons, hstart, List.cons_append]⟩
    refine ⟨.array trees, ?_, fun read => ?_⟩
    · rw [hcompact, List.cons_append, List.append_assoc, List.singleton_append]
      rw [hjoined, List.cons_append] at hreads ⊢
      rw [readTreeWithin_bracket hblank hne, hreads]
      rfl
    · rw [Tree.meaning, if_neg (Nat.succ_ne_zero depth), Nat.add_sub_cancel, hmeanings]
      rfl

/-- Members in the order of their names are an object as they stand. -/
theorem ofMap_ofList {members : List (String × Value)} (h : SortedMap.Ascending members) :
    Value.ofMap (.ofList members) = .object members :=
  congrArg Value.object (SortedMap.toList_ofList_of_ascending h)

/-- A member with a meaning is written over those before it. -/
theorem membersMeaning_cons {read : Bytes → Option Value} {depth : Nat}
    {before : SortedMap String Value} {name : String} {t : Tree} {v : Value}
    (ht : t.meaning read depth = some v) (rest : List (List StringUnit × Tree)) :
    membersMeaning read depth before ((unitsOf name, t) :: rest) =
      membersMeaning read depth (before.insert name v) rest := by
  rw [membersMeaning, unitText?_unitsOf, ht]

theorem compactMembers_cons_cons (m m' : String × Value) (rest : List (String × Value)) :
    joined [0x2c] (compactMembers (m :: m' :: rest)) =
      quoted m.1 ++ 0x3a :: (m.2.compact ++ 0x2c :: joined [0x2c] (compactMembers (m' :: rest))) := by
  rw [compactMembers, compactMembers, joined, List.append_assoc, List.append_assoc]
  · rfl
  · intro h
    cases h

theorem compactMembers_singleton (m : String × Value) :
    joined [0x2c] (compactMembers [m]) = quoted m.1 ++ 0x3a :: m.2.compact := rfl

/-- A member is read up to its mark, and then further ones if that is a comma. -/
theorem readMembersWithin_quoted (k : Nat) (name : String) (input : Bytes) :
    readMembersWithin (k + 1) (quoted name ++ 0x3a :: input) =
      match readTreeWithin k input with
      | none => none
      | some (value, rest) =>
        match skipBlank rest with
        | 0x7d :: rest => some ([(unitsOf name, value)], rest)
        | 0x2c :: rest =>
          (readMembersWithin k rest).map fun (members, rest) =>
            ((unitsOf name, value) :: members, rest)
        | _ => none := by
  obtain ⟨tail, htail, hunits⟩ := stringUnits_quoted name (0x3a :: input)
  rw [htail, readMembersWithin, skipBlank_cons (by decide)]
  simp only [hunits]
  rfl

/-- Written members read back one by one, by induction on them. -/
theorem reads_members {depth : Nat} {m : String × Value} {members : List (String × Value)}
    (h : ∀ member ∈ m :: members, member.2.Reads depth) {fuel : Nat} (rest : Bytes)
    (hfuel : 2 * (joined [0x2c] (compactMembers (m :: members))).length + 1 ≤ fuel) :
    ∃ trees, readMembersWithin fuel
        (joined [0x2c] (compactMembers (m :: members)) ++ 0x7d :: rest) = some (trees, rest) ∧
      trees.head?.map Prod.fst = some (unitsOf m.1) ∧
      ∀ read before, membersMeaning read depth before trees =
        some (before.insertAll (m :: members)) := by
  -- As for items; the members that were read before are kept.
  induction members generalizing m fuel with
  | nil =>
    rw [compactMembers_singleton] at hfuel ⊢
    rw [List.length_append, List.length_cons] at hfuel
    obtain ⟨k, rfl⟩ : ∃ k, fuel = k + 1 := ⟨fuel - 1, by omega⟩
    obtain ⟨tree, hread, hmeaning⟩ := (h m List.mem_cons_self).reads k (0x7d :: rest) (by omega)
      (endsNumeral_of_mark (by decide) rest)
    refine ⟨[(unitsOf m.1, tree)], ?_, rfl, fun read before => ?_⟩
    · rw [List.append_assoc, List.cons_append, readMembersWithin_quoted, hread]
      rfl
    · rw [membersMeaning_cons (hmeaning read), membersMeaning]
      rfl
  | cons m' members ih =>
    rw [compactMembers_cons_cons] at hfuel ⊢
    rw [List.length_append, List.length_cons, List.length_append, List.length_cons] at hfuel
    obtain ⟨k, rfl⟩ : ∃ k, fuel = k + 1 := ⟨fuel - 1, by omega⟩
    obtain ⟨tree, hread, hmeaning⟩ := (h m List.mem_cons_self).reads k
      (0x2c :: (joined [0x2c] (compactMembers (m' :: members)) ++ 0x7d :: rest)) (by omega)
      (endsNumeral_of_mark (by decide) _)
    obtain ⟨trees, hreads, -, hmeanings⟩ :=
      @ih m' (fun member hmember => h member (List.mem_cons_of_mem m hmember)) k (by omega)
    refine ⟨(unitsOf m.1, tree) :: trees, ?_, rfl, fun read before => ?_⟩
    · rw [List.append_assoc, List.cons_append, List.append_assoc, List.cons_append,
        readMembersWithin_quoted, hread]
      change (readMembersWithin k _).map _ = _
      rw [hreads]
      rfl
    · rw [membersMeaning_cons (hmeaning read), hmeanings]
      rfl

/-- An object whose first member has a name is read member by member. -/
theorem readTreeWithin_brace (k : Nat) (tail : Bytes) :
    readTreeWithin (k + 1) (0x7b :: 0x22 :: tail) =
      (readMembersWithin k (0x22 :: tail)).map fun x : List (List StringUnit × Tree) × Bytes =>
        (.object x.1, x.2) := rfl

/-- An object embeds nothing if its first name is not the reserved one. -/
theorem isEmbedding_eq_false {trees : List (List StringUnit × Tree)} {name : String}
    (hhead : trees.head?.map Prod.fst = some (unitsOf name))
    (hname : Bytes.ofText name ≠ embeddingName) : isEmbedding trees = false := by
  obtain ⟨⟨units, t⟩, hfirst, rfl⟩ := Option.map_eq_some_iff.1 hhead
  rw [isEmbedding, hfirst, Option.bind_some, unitBytes?_unitsOf, beq_eq_false_iff_ne]
  exact fun heq => hname (Option.some.inj heq)

/-- An object reads back if the values of its members do and their names ascend. -/
theorem reads_object {depth : Nat} {members : List (String × Value)}
    (h : ∀ m ∈ members, m.2.Reads depth) (hnames : SortedMap.Ascending members)
    (hfirst : ∀ m ∈ members.head?, Bytes.ofText m.1 ≠ embeddingName) :
    (Value.object members).Reads (depth + 1) := by
  refine ⟨⟨0x7b, _, rfl, by decide, by decide⟩, fun fuel rest hfuel _ => ?_⟩
  obtain ⟨k, rfl⟩ := exists_fuel rfl hfuel
  -- the reader looks at the byte behind the brace, which begins the first name
  cases members with
  | nil => exact ⟨.object [], rfl, fun _ => rfl⟩
  | cons m members =>
    have hcompact : (Value.object (m :: members)).compact =
        0x7b :: (joined [0x2c] (compactMembers (m :: members)) ++ [0x7d]) := rfl
    rw [hcompact, List.length_cons, List.length_append, List.length_singleton] at hfuel
    obtain ⟨trees, hreads, hhead, hmeanings⟩ := reads_members h rest (show _ ≤ k by omega)
    obtain ⟨tail, hjoined⟩ : ∃ tail,
        joined [0x2c] (compactMembers (m :: members)) = 0x22 :: tail := by
      cases members with
      | nil => exact ⟨_, rfl⟩
      | cons m' members => exact ⟨_, by rw [compactMembers_cons_cons]; rfl⟩
    refine ⟨.object trees, ?_, fun read => ?_⟩
    · rw [hcompact, List.cons_append, List.append_assoc, List.singleton_append]
      rw [hjoined, List.cons_append] at hreads ⊢
      rw [readTreeWithin_brace, hreads]
      rfl
    · have hplain : isEmbedding trees = false := isEmbedding_eq_false hhead (hfirst m rfl)
      rw [Tree.meaning, if_neg (Nat.succ_ne_zero depth), if_neg (by rw [hplain]; decide),
        Nat.add_sub_cancel, hmeanings]
      exact congrArg some (ofMap_ofList hnames)

/-- By induction on the value, with one case for each way of building it. -/
theorem Value.ReadsBack.reads {depth : Nat} {v : Value} (h : v.ReadsBack depth) :
    v.Reads depth := by
  induction h with
  | null depth => exact reads_null depth
  | bool depth b => exact reads_bool depth b
  | whole depth hlow hhigh => exact reads_whole depth hlow hhigh
  | text depth s => exact reads_text depth s
  | array _ ih => exact reads_array ih
  | object _ hnames hfirst ih => exact reads_object ih hnames hfirst

/-- A value that can be read back is read back from its written form. -/
theorem readValue_compact {v : Value} (h : v.ReadsBack maxDepth) : readValue v.compact = some v := by
  -- The reader starts with more fuel than the tokens of its input can take.
  obtain ⟨tree, hread, hmeaning⟩ :=
    h.reads.reads (2 * v.compact.length + 2) [] (by omega) endsNumeral_nil
  rw [List.append_nil] at hread
  rw [readValue, readValueWithin, readTree, hread]
  exact hmeaning _

end IndexVault.Json
