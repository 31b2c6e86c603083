import IndexVault.Proofs.Json.RoundTrip

namespace IndexVault.Json

/-- A reader that reads the same when some bytes are put behind its input. -/
def Ignores {α : Type} (more : Bytes) (read : Bytes → Option (α × Bytes)) : Prop :=
  ∀ input a rest, read input = some (a, rest) → read (input ++ more) = some (a, rest ++ more)

/-- What follows the blanks is found also when the text goes on. -/
theorem skipBlank_append {input rest : Bytes} {b : UInt8} (h : skipBlank input = b :: rest)
    (more : Bytes) : skipBlank (input ++ more) = b :: (rest ++ more) := by
  rw [skipBlank, List.dropWhile_append, ← skipBlank, h]
  rfl

theorem afterWord_append {word input rest : Bytes} (h : afterWord word input = some rest)
    (more : Bytes) : afterWord word (input ++ more) = some (rest ++ more) := by
  fun_induction afterWord word input with
  | case1 input =>
    cases h
    rfl
  | case2 => cases h
  | case3 w ws b rest' hw ih =>
    rw [List.cons_append, afterWord, if_pos hw]
    exact ih h
  | case4 => cases h

/-- A unit is put in front of what was read of the rest. -/
theorem withUnit_eq_some {u : StringUnit} {read : Option (List StringUnit × Bytes)}
    {units : List StringUnit} {rest : Bytes} (h : withUnit u read = some (units, rest)) :
    ∃ units', read = some (units', rest) ∧ units = u :: units' := by
  cases read with
  | none => cases h
  | some found =>
    cases h
    exact ⟨_, rfl, rfl⟩

/-- A string ends at its quote, whatever follows. -/
theorem ignores_stringUnits (more : Bytes) : Ignores more stringUnits := by
  intro input
  fun_induction stringUnits input with
  | case1 | case3 | case5 | case7 =>
    intro units rest h
    cases h
  | case2 a b c d rest u hu ih =>
    intro units rest' h
    obtain ⟨units', hread, rfl⟩ := withUnit_eq_some h
    simp only [List.cons_append, stringUnits, hu, ih units' rest' hread]
    rfl
  | case4 b rest _ x hx ih =>
    intro units rest' h
    obtain ⟨units', hread, rfl⟩ := withUnit_eq_some h
    -- No unit of four digits begins here, for its letter is no short escape.
    have hb : b ≠ 0x75 := by
      rintro rfl
      cases hx
    rw [List.cons_append, List.cons_append, stringUnits.eq_3 _ _ fun _ _ _ _ _ heq => absurd heq hb,
      hx]
    simp only [ih units' rest' hread]
    rfl
  | case6 b rest _ _ hquote =>
    intro units rest' h
    cases h
    have hb : b ≠ 0x5c := by
      rintro rfl
      cases hquote
    rw [List.cons_append, stringUnits_cons hb, if_pos hquote]
  | case8 b rest _ _ hquote hplain ih =>
    intro units rest' h
    obtain ⟨units', hread, rfl⟩ := withUnit_eq_some h
    have hb : b ≠ 0x5c := by
      rintro rfl
      exact hplain rfl
    rw [List.cons_append, stringUnits_cons hb, if_neg hquote, if_neg hplain, ih units' rest' hread]
    rfl

theorem spanDigits_cons_of_pos {b : UInt8} (hb : Text.isDigit b = true) (rest : Bytes) :
    spanDigits (b :: rest) = (b :: (spanDigits rest).1, (spanDigits rest).2) := by
  rw [spanDigits, List.takeWhile_cons_of_pos hb, List.dropWhile_cons_of_pos hb]
  rfl

theorem spanDigits_cons_of_neg {b : UInt8} (hb : ¬Text.isDigit b = true) (rest : Bytes) :
    spanDigits (b :: rest) = ([], b :: rest) := by
  rw [spanDigits, List.takeWhile_cons_of_neg hb, List.dropWhile_cons_of_neg hb]

/-- Reads what follows the sign of a numeral. -/
def readUnsigned (negative : Bool) (unsigned : Bytes) : Option (Numeral × Bytes) :=
  let (whole, rest) := spanDigits unsigned
  if whole.isEmpty || (whole.head? == some 0x30 && whole.length != 1) then none
  else
    match readFraction rest with
    | none => none
    | some (fraction, rest) =>
      match readExponent rest with
      | none => none
      | some (exponent, rest) =>
        let (front, raised) := extendSignificand 0 whole
        let (significand, dropped) := extendSignificand front fraction
        some ({ negative := negative
                significand := significand
                exponent := exponent.getD 0 + raised - (fraction.length - dropped : Nat)
                isWhole := fraction.isEmpty && exponent.isNone }, rest)

theorem readNumeral_unsigned {b : UInt8} (hb : b ≠ 0x2d) (rest : Bytes) :
    readNumeral (b :: rest) = readUnsigned false (b :: rest) := by
  rw [readNumeral]
  · rfl
  · intro r heq
    exact hb (List.cons.inj heq).1

section Numerals

variable {more : Bytes} (hmore : EndsNumeral more)

include hmore

/-- Digits end where something else stands, so what follows that is left over. -/
theorem spanDigits_input_append (input : Bytes) :
    spanDigits (input ++ more) = ((spanDigits input).1, (spanDigits input).2 ++ more) := by
  induction input with
  | nil => exact spanDigits_append rfl hmore
  | cons b rest ih =>
    by_cases hb : Text.isDigit b = true
    · rw [List.cons_append, spanDigits_cons_of_pos hb, spanDigits_cons_of_pos hb, ih]
    · rw [List.cons_append, spanDigits_cons_of_neg hb, spanDigits_cons_of_neg hb, List.cons_append]

/-- One digit or more, with some meaning. -/
theorem ignores_digits {α : Type} (value : Bytes → α) :
    Ignores more fun input =>
      if (spanDigits input).1.isEmpty then none
      else some (value (spanDigits input).1, (spanDigits input).2) := by
  intro input a rest h
  dsimp only at h ⊢
  rw [spanDigits_input_append hmore]
  by_cases hempty : (spanDigits input).1.isEmpty = true
  · rw [if_pos hempty] at h
    cases h
  · rw [if_neg hempty] at h ⊢
    cases h
    rfl

/-- A fraction that was read is read again when the text goes on behind a byte that ends a numeral. -/
theorem ignores_readFraction : Ignores more readFraction := by
  intro input found rest h
  unfold readFraction at h
  split at h
  · rename_i tail
    exact ignores_digits hmore id tail found rest h
  · rename_i hpoint
    cases h
    cases input with
    | nil => exact readFraction_of_ends hmore
    | cons b tail =>
      rw [List.cons_append, readFraction]
      rintro rest' heq
      cases heq
      exact hpoint tail rfl

theorem ignores_readExponent : Ignores more readExponent := by
  intro input exponent rest h
  cases input with
  | nil =>
    cases h
    exact readExponent_of_ends hmore
  | cons b tail =>
    rw [List.cons_append]
    by_cases hmark : (b == 0x65 || b == 0x45) = true
    · simp only [readExponent, hmark, if_true] at h ⊢
      cases tail with
      | nil => cases h
      | cons c tail =>
        rw [List.cons_append]
        -- A sign is passed over, and the digits behind it have to be there.
        by_cases hplus : c = 0x2b
        · subst hplus
          exact ignores_digits hmore (fun found => some (Text.readNat found : Int)) tail exponent rest h
        by_cases hminus : c = 0x2d
        · subst hminus
          exact ignores_digits hmore (fun found => some (-(Text.readNat found : Int))) tail exponent
            rest h
        · simp only [List.cons.injEq, hplus, hminus, false_and, imp_false, not_false_eq_true,
            implies_true] at h ⊢
          exact ignores_digits hmore (fun found => some (Text.readNat found : Int)) (c :: tail) exponent
            rest h
    · simp only [readExponent, hmark] at h ⊢
      cases h
      rfl

theorem ignores_readUnsigned (negative : Bool) : Ignores more (readUnsigned negative) := by
  intro input n rest h
  rw [readUnsigned] at h ⊢
  rw [spanDigits_input_append hmore]
  cases hspan : spanDigits input with
  | mk whole tail =>
    rw [hspan] at h
    dsimp only at h ⊢
    by_cases hbad : (whole.isEmpty || (whole.head? == some 0x30 && whole.length != 1)) = true
    · rw [if_pos hbad] at h
      cases h
    rw [if_neg hbad] at h ⊢
    -- each of the two parts behind the digits ends before `more` does
    cases hfraction : readFraction tail with
    | none =>
      rw [hfraction] at h
      cases h
    | some fraction =>
      rw [hfraction] at h
      rw [ignores_readFraction hmore tail _ _ hfraction]
      dsimp only at h ⊢
      cases hexponent : readExponent fraction.2 with
      | none =>
        rw [hexponent] at h
        cases h
      | some exponent =>
        rw [hexponent] at h
        rw [ignores_readExponent hmore fraction.2 _ _ hexponent]
        cases h
        rfl

/-- A numeral that something ends is the same in a longer text. -/
theorem ignores_readNumeral : Ignores more readNumeral := by
  intro input n rest h
  cases input with
  | nil => cases h
  | cons b tail =>
    by_cases hminus : b = 0x2d
    · subst hminus
      exact ignores_readUnsigned hmore true tail n rest h
    · rw [readNumeral_unsigned hminus] at h
      rw [List.cons_append, readNumeral_unsigned hminus]
      exact ignores_readUnsigned hmore false (b :: tail) n rest h

end Numerals

theorem Ignores.map {α β : Type} {more : Bytes} {read : Bytes → Option (α × Bytes)}
    (h : Ignores more read) (f : α → β) {input rest : Bytes} {b : β}
    (hread : ((read input).map fun x => (f x.1, x.2)) = some (b, rest)) :
    ((read (input ++ more)).map fun x => (f x.1, x.2)) = some (b, rest ++ more) := by
  obtain ⟨found, hfound, heq⟩ := Option.map_eq_some_iff.1 hread
  cases heq
  rw [h input found.1 found.2 hfound]
  rfl

theorem readItemsWithin_nil (fuel : Nat) : readItemsWithin fuel [] = none := by
  cases fuel with
  | zero => rfl
  | succ k => cases k <;> rfl

theorem readMembersWithin_nil (fuel : Nat) : readMembersWithin fuel [] = none := by
  cases fuel <;> rfl

/-- Items are read one by one: the last is followed by the bracket, and any other by a comma. -/
theorem readItemsWithin_succ_iff {fuel : Nat} {input rest : Bytes} {items : List Tree} :
    readItemsWithin (fuel + 1) input = some (items, rest) ↔
      ∃ item tail, readTreeWithin fuel input = some (item, tail) ∧
        (skipBlank tail = 0x5d :: rest ∧ items = [item] ∨
          ∃ next others, skipBlank tail = 0x2c :: next ∧
            readItemsWithin fuel next = some (others, rest) ∧ items = item :: others) := by
  rw [readItemsWithin]
  constructor
  · intro h
    split at h
    · cases h
    · rename_i item tail hitem
      refine ⟨item, tail, hitem, ?_⟩
      split at h
      · rename_i hclose
        cases h
        exact Or.inl ⟨hclose, rfl⟩
      · rename_i next hcomma
        obtain ⟨others, hothers, heq⟩ := Option.map_eq_some_iff.1 h
        cases heq
        exact Or.inr ⟨next, others.1, hcomma, hothers, rfl⟩
      · cases h
  · rintro ⟨item, tail, hitem, ⟨hclose, rfl⟩ | ⟨next, others, hcomma, hothers, rfl⟩⟩
    · simp only [hitem, hclose]
    · simp only [hitem, hcomma, hothers, Option.map_some]

/-- Members are read one by one: a name, a colon and a value, then the brace or a comma. -/
theorem readMembersWithin_succ_iff {fuel : Nat} {input rest : Bytes}
    {members : List (List StringUnit × Tree)} :
    readMembersWithin (fuel + 1) input = some (members, rest) ↔
      ∃ quoted name mark spelled value tail, skipBlank input = 0x22 :: quoted ∧
        stringUnits quoted = some (name, mark) ∧ skipBlank mark = 0x3a :: spelled ∧
        readTreeWithin fuel spelled = some (value, tail) ∧
        (skipBlank tail = 0x7d :: rest ∧ members = [(name, value)] ∨
          ∃ next others, skipBlank tail = 0x2c :: next ∧
            readMembersWithin fuel next = some (others, rest) ∧
            members = (name, value) :: others) := by
  rw [readMembersWithin]
  constructor
  · intro h
    -- the reader matches the quote, the name, the colon, the value, and then the mark behind it
    split at h
    case h_2 => cases h
    rename_i quoted hquote
    split at h
    · cases h
    rename_i name mark hname
    split at h
    case h_2 => cases h
    rename_i spelled hcolon
    split at h
    · cases h
    rename_i value tail hvalue
    refine ⟨quoted, name, mark, spelled, value, tail, hquote, hname, hcolon, hvalue, ?_⟩
    split at h
    · rename_i hclose
      cases h
      exact Or.inl ⟨hclose, rfl⟩
    · rename_i next hcomma
      obtain ⟨others, hothers, heq⟩ := Option.map_eq_some_iff.1 h
      cases heq
      exact Or.inr ⟨next, others.1, hcomma, hothers, rfl⟩
    · cases h
  · rintro ⟨quoted, name, mark, spelled, value, tail, hquote, hname, hcolon, hvalue,
      ⟨hclose, rfl⟩ | ⟨next, others, hcomma, hothers, rfl⟩⟩
    · simp only [hquote, hname, hcolon, hvalue, hclose]
    · simp only [hquote, hname, hcolon, hvalue, hcomma, hothers, Option.map_some]

/-- Reads what stands behind an opening bracket or brace: the closing one at once, or parts. -/
def readParts {α : Type} (close : UInt8) (tree : List α → Tree)
    (read : Bytes → Option (List α × Bytes)) (input : Bytes) : Option (Tree × Bytes) :=
  match skipBlank input with
  | b :: rest =>
    if b = close then some (tree [], rest) else (read (b :: rest)).map fun x => (tree x.1, x.2)
  | [] => (read []).map fun x => (tree x.1, x.2)

/-- An array or an object is the same in a longer text if its parts are. -/
theorem readParts_append {α : Type} {close : UInt8} {tree : List α → Tree}
    {read read' : Bytes → Option (List α × Bytes)} {more input rest : Bytes} {t : Tree}
    (hnil : read [] = none) (hread : ∀ input parts rest, read input = some (parts, rest) →
      read' (input ++ more) = some (parts, rest ++ more))
    (h : readParts close tree read input = some (t, rest)) :
    readParts close tree read' (input ++ more) = some (t, rest ++ more) := by
  rw [readParts] at h ⊢
  -- an input of blanks only has no parts, since nothing can be read of an empty one
  cases hskip : skipBlank input with
  | nil =>
    rw [hskip] at h
    dsimp only at h
    rw [hnil] at h
    cases h
  | cons b tail =>
    rw [hskip] at h
    rw [skipBlank_append hskip more]
    dsimp only at h ⊢
    by_cases hclose : b = close
    · rw [if_pos hclose] at h ⊢
      cases h
      rfl
    · rw [if_neg hclose] at h ⊢
      obtain ⟨found, hfound, heq⟩ := Option.map_eq_some_iff.1 h
      cases heq
      have hparts := hread _ _ _ hfound
      rw [List.cons_append] at hparts
      rw [hparts]
      rfl

theorem readTreeWithin_of_bracket {input tail : Bytes} (h : skipBlank input = 0x5b :: tail)
    (fuel : Nat) : readTreeWithin (fuel + 1) input =
      readParts 0x5d Tree.array (readItemsWithin fuel) tail := by
  rw [readTreeWithin, h, readParts]
  dsimp only
  rw [if_neg (by decide), if_pos (by decide)]
  cases skipBlank tail with
  | nil => rfl
  | cons b rest =>
    by_cases hclose : b = 0x5d
    · subst hclose
      rfl
    · simp [hclose]

theorem readTreeWithin_of_brace {input tail : Bytes} (h : skipBlank input = 0x7b :: tail)
    (fuel : Nat) : readTreeWithin (fuel + 1) input =
      readParts 0x7d Tree.object (readMembersWithin fuel) tail := by
  rw [readTreeWithin, h, readParts]
  dsimp only
  rw [if_neg (by decide), if_neg (by decide), if_pos (by decide)]
  cases skipBlank tail with
  | nil => rfl
  | cons b rest =>
    by_cases hclose : b = 0x7d
    · subst hclose
      rfl
    · simp [hclose]

/-- The readers of trees read the same with bytes behind their input, with as much fuel or more. -/
structure IgnoreWithin (more : Bytes) (fuel : Nat) : Prop where
  tree : ∀ k, fuel ≤ k → ∀ input tree rest, readTreeWithin fuel input = some (tree, rest) →
    readTreeWithin k (input ++ more) = some (tree, rest ++ more)
  items : ∀ k, fuel ≤ k → ∀ input items rest, readItemsWithin fuel input = some (items, rest) →
    readItemsWithin k (input ++ more) = some (items, rest ++ more)
  members : ∀ k, fuel ≤ k → ∀ input members rest,
    readMembersWithin fuel input = some (members, rest) →
      readMembersWithin k (input ++ more) = some (members, rest ++ more)

theorem ignores_word (more word : Bytes) (t : Tree) :
    Ignores more fun input => (afterWord word input).map fun rest => (t, rest) := by
  intro input tree rest hread
  obtain ⟨rest', hword, heq⟩ := Option.map_eq_some_iff.1 hread
  cases heq
  dsimp only
  rw [afterWord_append hword]
  rfl

namespace IgnoreWithin

variable {more : Bytes} {fuel k : Nat} (h : IgnoreWithin more fuel) (hk : fuel ≤ k)

include h hk

/-- One more step of fuel for a value; its parts are read with less. -/
theorem tree_succ (hmore : EndsNumeral more) {input rest : Bytes} {tree : Tree}
    (hread : readTreeWithin (fuel + 1) input = some (tree, rest)) :
    readTreeWithin (k + 1) (input ++ more) = some (tree, rest ++ more) := by
  cases hskip : skipBlank input with
  | nil =>
    rw [readTreeWithin, hskip] at hread
    cases hread
  | cons b tail =>
    have hskip' := skipBlank_append hskip more
    -- The first byte tells what is read.
    by_cases harray : b = 0x5b
    · subst harray
      rw [readTreeWithin_of_bracket hskip] at hread
      rw [readTreeWithin_of_bracket hskip']
      exact readParts_append (readItemsWithin_nil fuel) (h.items k hk) hread
    by_cases hobject : b = 0x7b
    · subst hobject
      rw [readTreeWithin_of_brace hskip] at hread
      rw [readTreeWithin_of_brace hskip']
      exact readParts_append (readMembersWithin_nil fuel) (h.members k hk) hread
    rw [readTreeWithin, hskip] at hread
    rw [readTreeWithin, hskip']
    simp only [beq_false_of_ne harray, beq_false_of_ne hobject, Bool.false_eq_true, if_false]
      at hread ⊢
    by_cases htext : (b == 0x22) = true
    · rw [if_pos htext] at hread ⊢
      exact (ignores_stringUnits more).map Tree.text hread
    rw [if_neg htext] at hread ⊢
    by_cases hnull : (b == 0x6e) = true
    · rw [if_pos hnull] at hread ⊢
      exact ignores_word more nullWord .null (b :: tail) tree rest hread
    rw [if_neg hnull] at hread ⊢
    by_cases htrue : (b == 0x74) = true
    · rw [if_pos htrue] at hread ⊢
      exact ignores_word more trueWord (.bool true) (b :: tail) tree rest hread
    rw [if_neg htrue] at hread ⊢
    by_cases hfalse : (b == 0x66) = true
    · rw [if_pos hfalse] at hread ⊢
      exact ignores_word more falseWord (.bool false) (b :: tail) tree rest hread
    rw [if_neg hfalse] at hread ⊢
    exact (ignores_readNumeral hmore).map Tree.number hread

theorem items_succ {input rest : Bytes} {items : List Tree}
    (hread : readItemsWithin (fuel + 1) input = some (items, rest)) :
    readItemsWithin (k + 1) (input ++ more) = some (items, rest ++ more) := by
  obtain ⟨item, tail, hitem, hrest⟩ := readItemsWithin_succ_iff.1 hread
  refine readItemsWithin_succ_iff.2 ⟨item, tail ++ more, h.tree k hk _ _ _ hitem, ?_⟩
  rcases hrest with ⟨hclose, hlast⟩ | ⟨next, others, hcomma, hothers, hmany⟩
  · exact Or.inl ⟨skipBlank_append hclose more, hlast⟩
  · exact Or.inr ⟨next ++ more, others, skipBlank_append hcomma more, h.items k hk _ _ _ hothers, hmany⟩

theorem members_succ {input rest : Bytes} {members : List (List StringUnit × Tree)}
    (hread : readMembersWithin (fuel + 1) input = some (members, rest)) :
    readMembersWithin (k + 1) (input ++ more) = some (members, rest ++ more) := by
  obtain ⟨quoted, name, mark, spelled, value, tail, hquote, hname, hcolon, hvalue, hrest⟩ :=
    readMembersWithin_succ_iff.1 hread
  refine readMembersWithin_succ_iff.2 ⟨quoted ++ more, name, mark ++ more, spelled ++ more, value,
    tail ++ more, skipBlank_append hquote more, ignores_stringUnits more _ _ _ hname,
    skipBlank_append hcolon more, h.tree k hk _ _ _ hvalue, ?_⟩
  rcases hrest with ⟨hclose, hlast⟩ | ⟨next, others, hcomma, hothers, hmany⟩
  · exact Or.inl ⟨skipBlank_append hclose more, hlast⟩
  · exact Or.inr
      ⟨next ++ more, others, skipBlank_append hcomma more, h.members k hk _ _ _ hothers, hmany⟩

end IgnoreWithin

/-- By induction on the fuel, whatever was read is the same in a longer text. -/
theorem ignoreWithin {more : Bytes} (hmore : EndsNumeral more) (fuel : Nat) :
    IgnoreWithin more fuel := by
  induction fuel with
  | zero => exact ⟨fun _ _ _ _ _ h => (by cases h), fun _ _ _ _ _ h => (by cases h),
      fun _ _ _ _ _ h => (by cases h)⟩
  | succ fuel ih =>
    refine ⟨fun k hk input tree rest hread => ?_, fun k hk input items rest hread => ?_,
      fun k hk input members rest hread => ?_⟩
    all_goals obtain ⟨k, rfl⟩ : ∃ k', k = k' + 1 := ⟨k - 1, by omega⟩
    · exact ih.tree_succ (by omega) hmore hread
    · exact ih.items_succ (by omega) hread
    · exact ih.members_succ (by omega) hread

/-- A value that was read from the front of a text is read in the same way when more bytes follow that do
not prolong a numeral. -/
theorem ignores_readTree {more : Bytes} (hmore : EndsNumeral more) : Ignores more readTree := by
  intro input tree rest h
  refine (ignoreWithin hmore _).tree _ ?_ input tree rest h
  rw [List.length_append]
  omega

theorem skipBlank_isEmpty (input : Bytes) : (skipBlank input).isEmpty = input.all isBlank := by
  induction input with
  | nil => rfl
  | cons b rest ih =>
    rw [List.all_cons, ← ih, skipBlank]
    cases hb : isBlank b with
    | true =>
      rw [List.dropWhile_cons_of_pos hb]
      rfl
    | false =>
      rw [List.dropWhile_cons_of_neg (by rw [hb]; decide)]
      rfl

/-- A text that is a value is none with more behind it than blanks. -/
theorem readValue_append_eq_none {input more : Bytes} {v : Value} (h : readValue input = some v)
    (hmore : EndsNumeral more) (hblank : more.all isBlank = false) :
    readValue (input ++ more) = none := by
  rw [readValue, readValueWithin] at h ⊢
  cases htree : readTree input with
  | none =>
    rw [htree] at h
    cases h
  | some found =>
    rw [ignores_readTree hmore input found.1 found.2 htree]
    have hnot : (skipBlank (found.2 ++ more)).isEmpty = false := by
      rw [skipBlank_isEmpty, List.all_append, hblank, Bool.and_false]
    simp only [hnot, Bool.false_eq_true, if_false]

/-- Blanks in front of a value are passed over. -/
theorem readTreeWithin_blanks {blanks : Bytes} (hblanks : blanks.all isBlank = true) (fuel : Nat)
    (input : Bytes) : readTreeWithin fuel (blanks ++ input) = readTreeWithin fuel input := by
  cases fuel with
  | zero => rfl
  | succ k => rw [readTreeWithin, readTreeWithin, skipBlank_blanks hblanks]

/-- A written value reads back from behind blanks. -/
theorem readValue_blanks_compact {blanks : Bytes} (hblanks : blanks.all isBlank = true) {v : Value}
    (h : v.ReadsBack maxDepth) : readValue (blanks ++ v.compact) = some v := by
  obtain ⟨tree, hread, hmeaning⟩ := h.reads.reads (2 * (blanks ++ v.compact).length + 2) []
    (by rw [List.length_append]; omega) endsNumeral_nil
  rw [List.append_nil, ← readTreeWithin_blanks hblanks] at hread
  rw [readValue, readValueWithin, readTree, hread]
  exact hmeaning _

/-- Whether a value can begin with a byte. -/
def beginsValue (b : UInt8) : Bool :=
  b == 0x22 || b == 0x5b || b == 0x7b || b == 0x6e || b == 0x74 || b == 0x66 || beginsNumeral b

/-- No numeral begins with anything but a digit or a minus sign. -/
theorem readNumeral_eq_none {b : UInt8} (hb : beginsNumeral b = false) (rest : Bytes) :
    readNumeral (b :: rest) = none := by
  rw [beginsNumeral, Bool.or_eq_false_iff, beq_eq_false_iff_ne] at hb
  rw [readNumeral_unsigned hb.2, readUnsigned, spanDigits_cons_of_neg (Bool.eq_false_iff.1 hb.1)]
  rfl

/-- What begins no value spoils a text. -/
theorem readValue_eq_none {input tail : Bytes} {b : UInt8} (hskip : skipBlank input = b :: tail)
    (hb : beginsValue b = false) : readValue input = none := by
  have htree : readTree input = none := by
    simp only [beginsValue, Bool.or_eq_false_iff] at hb
    obtain ⟨⟨⟨⟨⟨⟨htext, harray⟩, hobject⟩, hnull⟩, htrue⟩, hfalse⟩, hnumeral⟩ := hb
    rw [readTree, readTreeWithin, hskip]
    simp only [htext, harray, hobject, hnull, htrue, hfalse, Bool.false_eq_true, if_false,
      readNumeral_eq_none hnumeral, Option.map_none]
  rw [readValue, readValueWithin, htree]

end IndexVault.Json
