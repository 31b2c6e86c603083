import IndexVault.Json.Record
import IndexVault.Proofs.Json.RoundTrip

namespace IndexVault.Json

/-- Behind blanks, and before anything that ends a numeral, the reader reads from a written form what was
written, and stops behind it. -/
def Recovers {α : Type} (read : Reader α) (written : Bytes) (a : α) : Prop :=
  ∀ blanks rest, blanks.all isBlank = true → EndsNumeral rest →
    read (blanks ++ (written ++ rest)) = .ok (a, rest)

theorem skipBlank_blanks_cons {blanks : Bytes} (hblanks : blanks.all isBlank = true) {b : UInt8}
    (hb : isBlank b = false) (rest : Bytes) : skipBlank (blanks ++ b :: rest) = b :: rest := by
  rw [skipBlank_blanks hblanks, skipBlank_cons hb]

theorem exists_readQuoted (s : String) (rest : Bytes) :
    ∃ tail, quoted s ++ rest = 0x22 :: tail ∧ readQuoted tail = some (s, rest) :=
  ⟨_, rfl, (readQuoted_quoted s rest).2⟩

/-- A text is recovered from its written form, and so are flags and numbers below. -/
theorem recovers_text (s : String) : Recovers readText (quoted s) s := by
  intro blanks rest hblanks _
  obtain ⟨tail, htail, hread⟩ := exists_readQuoted s rest
  rw [htail, readText, skipBlank_blanks_cons hblanks rfl]
  simp only [hread]

theorem recovers_bool (b : Bool) : Recovers readBool (boolWord b) b := by
  intro blanks rest hblanks _
  cases b with
  | true =>
    have hskip : skipBlank (blanks ++ (trueWord ++ rest)) = trueWord ++ rest :=
      skipBlank_blanks_cons hblanks rfl _
    rw [boolWord, if_pos rfl, readBool, hskip]
    rfl
  | false =>
    have hskip : skipBlank (blanks ++ (falseWord ++ rest)) = falseWord ++ rest :=
      skipBlank_blanks_cons hblanks rfl _
    rw [boolWord, if_neg Bool.false_ne_true, readBool, hskip]
    rfl

theorem recovers_nat {bound n : Nat} (hbound : n < bound) (hfits : n < UInt64.size) :
    Recovers (readNatBelow bound) (Text.digits n) n := by
  intro blanks rest hblanks hrest
  obtain ⟨d, tail, hdigits, hd⟩ := head_signedDigits n
  have hskip : skipBlank (blanks ++ (Text.digits n ++ rest)) = Text.digits n ++ rest := by
    rw [show Text.digits n = d :: tail from hdigits]
    exact skipBlank_blanks_cons hblanks (isBlank_of_beginsNumeral hd) _
  have hread : readNumeral (Text.digits n ++ rest) = some (numeralOf n, rest) :=
    readNumeral_signedDigits (n := (n : Int)) hfits hrest
  have hnumber : (numeralOf n).number? = some (.whole (.ofNat n)) :=
    number?_numeralOf (Int.le_trans (by decide) (Int.natCast_nonneg n))
  rw [readNatBelow, hskip]
  simp only [hread, hnumber, if_pos hbound]

/-- A value that is there is recovered as itself, if it does not begin like `null`. -/
theorem recovers_optional_some {α : Type} {read : Reader α} {b : Bytes} {a : α}
    (h : Recovers read b a) {c : UInt8} {tail : Bytes} (hb : b = c :: tail)
    (hc : isBlank c = false ∧ c ≠ 0x6e) : Recovers (readOptional read) b (some a) := by
  intro blanks rest hblanks hrest
  have hread := h [] rest rfl hrest
  rw [List.nil_append] at hread
  rw [readOptional, skipBlank_blanks hblanks]
  rw [hb, List.cons_append] at hread ⊢
  rw [skipBlank_cons hc.1]
  split
  · rename_i heq
    exact absurd (List.cons.inj heq).1 hc.2
  · simp only [hread]

theorem recovers_optional_none {α : Type} (read : Reader α) :
    Recovers (readOptional read) nullWord none := by
  intro blanks rest hblanks _
  have hskip : skipBlank (blanks ++ (nullWord ++ rest)) = nullWord ++ rest :=
    skipBlank_blanks_cons hblanks rfl _
  rw [readOptional, hskip]
  rfl

/-- An optional text is recovered, also when it is absent. -/
theorem recovers_optionalText (s : Option String) (level : Nat) :
    Recovers (readOptional readText) ((Value.ofOption .text s).prettyAt level) s := by
  cases s with
  | none => exact recovers_optional_none readText
  | some s => exact recovers_optional_some (recovers_text s) rfl (by decide)

variable {σ : Type}

/-- A field takes what is recovered of its value. -/
theorem Recovers.setting {α : Type} {read : Reader α} {written : Bytes} {a : α}
    (h : Recovers read written a) (name : String) (set : σ → α → σ) (s : σ) :
    Recovers ((Field.setting name read set).read s) written (set s a) := by
  intro blanks rest hblanks hrest
  simp only [Field.setting, h blanks rest hblanks hrest]

/-- Members that were written for the fields of a record, in their order: each is read into its field,
and a field may be left out if the record can do without it. -/
inductive WritesFields (level : Nat) : List (Field σ) → σ → List (String × Value) → σ → Prop
  | nil (s : σ) : WritesFields level [] s [] s
  | leftOut {f : Field σ} {fields : List (Field σ)} {s last : σ} {members : List (String × Value)}
    (hoptional : f.optionalInObject = true) (hrest : WritesFields level fields s members last) :
    WritesFields level (f :: fields) s members last
  | member {f : Field σ} {fields : List (Field σ)} {s s' last : σ} {name : String} {v : Value}
    {members : List (String × Value)} (hname : name ∈ f.names)
    (hread : Recovers (f.read s) (v.prettyAt level) s')
    (hrest : WritesFields level fields s' members last) :
    WritesFields level (f :: fields) s ((name, v) :: members) last

/-- A setting is written as one more member in front. -/
theorem WritesFields.setting {α : Type} {level : Nat} {name : String} {read : Reader α}
    {set : σ → α → σ} {v : Value} {a : α} {fields : List (Field σ)} {s last : σ}
    {members : List (String × Value)} (hread : Recovers read (v.prettyAt level) a)
    (hrest : WritesFields level fields (set s a) members last) :
    WritesFields level (.setting name read set :: fields) s ((name, v) :: members) last :=
  .member (List.mem_singleton_self name) (hread.setting name set s) hrest

/-- Where nothing is written, every field is one to do without. -/
theorem WritesFields.of_nil {level : Nat} {fields : List (Field σ)} {s last : σ}
    (h : WritesFields level fields s [] last) :
    last = s ∧ ∀ f ∈ fields, f.optionalInObject = true := by
  -- The induction is on what was written, so the members have to be a variable.
  generalize hnone : ([] : List (String × Value)) = members at h
  induction h with
  | nil s => exact ⟨rfl, fun f hf => (by cases hf)⟩
  | leftOut hoptional _ ih =>
    obtain ⟨hlast, hall⟩ := ih hnone
    exact ⟨hlast, List.forall_mem_cons.2 ⟨hoptional, hall⟩⟩
  | member => cases hnone

/-- A field is found under its name behind fields with other names. -/
theorem fieldIndex?_append {before : List (Field σ)} {f : Field σ} {name : String}
    (hbefore : ∀ g ∈ before, name ∉ g.names) (hname : name ∈ f.names) (after : List (Field σ)) :
    fieldIndex? (before ++ f :: after) name = some before.length := by
  have hcontains : f.names.contains name = true := List.contains_iff_mem.2 hname
  have hnone : before.findIdx? (fun g => g.names.contains name) = none := by
    rw [List.findIdx?_eq_none_iff]
    intro g hg
    exact Bool.eq_false_iff.2 fun hmem => hbefore g hg (List.contains_iff_mem.1 hmem)
  rw [fieldIndex?, List.findIdx?_append, hnone, List.findIdx?_cons, hcontains]
  simp

theorem allSeen_of_forall {fields : List (Field σ)} {seen : List Nat}
    (h : ∀ i f, fields[i]? = some f → f.optionalInObject = true ∨ i ∈ seen) :
    allSeen fields seen = true := by
  rw [allSeen, List.all_eq_true]
  rintro ⟨f, i⟩ hmem
  rw [Bool.or_eq_true, List.contains_iff_mem]
  exact h i f (List.mem_zipIdx_iff_getElem?.1 hmem)

/-- A member as it is written on its line. -/
def memberText (level : Nat) (name : String) (v : Value) : Bytes :=
  quoted name ++ 0x3a :: 0x20 :: v.prettyAt level

/-- A member is read into its field. -/
theorem readMember_of_recovers {f : Field σ} {s s' : σ} {level : Nat} {v : Value}
    (hread : Recovers (f.read s) (v.prettyAt level) s') {more : Bytes} (hmore : EndsNumeral more) :
    readMember (some f) s (0x3a :: 0x20 :: (v.prettyAt level ++ more)) = .ok (s', more) :=
  hread [0x20] more rfl hmore

/-- What the reader of members does behind one of them. -/
def readBehindMember (fields : List (Field σ)) (fuel : Nat) (seen : List Nat) (s : σ) (more : Bytes) :
    Except Fault (σ × Bytes) :=
  match skipBlank more with
  | 0x7d :: rest => if allSeen fields seen then .ok (s, rest) else .error .mismatch
  | 0x2c :: rest => readMembers fields fuel seen s rest
  | _ => .error .malformed

section

variable {fields : List (Field σ)} {f : Field σ} {seen : List Nat} {level : Nat} {s s' last : σ}
  {members : List (String × Value)} {blanks gap close rest : Bytes}

/-- A member is read up to the end of its value, if its field was not seen before. -/
theorem readMembers_step {name : String} {quoted mark more : Bytes}
    (hquoted : readQuoted quoted = some (name, mark))
    (hnew : ∀ k, fieldIndex? fields name = some k → k ∉ seen)
    (hread : readMember ((fieldIndex? fields name).bind (fields[·]?)) s mark = .ok (s', more))
    (hblanks : blanks.all isBlank = true) (fuel : Nat) :
    readMembers fields (fuel + 1) seen s (blanks ++ 0x22 :: quoted) =
      readBehindMember fields fuel ((fieldIndex? fields name).toList ++ seen) s' more := by
  have hseen : ((fieldIndex? fields name).map seen.contains).getD false = false := by
    cases hplace : fieldIndex? fields name with
    | none => rfl
    | some k => exact Bool.eq_false_iff.2 (mt List.contains_iff_mem.1 (hnew k hplace))
  rw [readMembers, skipBlank_blanks_cons hblanks rfl]
  simp only [hquoted, hseen, Bool.false_eq_true, if_false, hread]
  rfl

/-- A member of a field that was not seen before is read, and the rest goes on behind it. -/
theorem readMembers_member {i : Nat} {name : String} {v : Value} {more : Bytes}
    (hplace : fieldIndex? fields name = some i) (hfield : fields[i]? = some f) (hnew : i ∉ seen)
    (hread : Recovers (f.read s) (v.prettyAt level) s') (hblanks : blanks.all isBlank = true)
    (hmore : EndsNumeral more) (fuel : Nat) :
    readMembers fields (fuel + 1) seen s (blanks ++ (memberText level name v ++ more)) =
      readBehindMember fields fuel (i :: seen) s' more := by
  obtain ⟨tail, htail, hquoted⟩ :=
    exists_readQuoted name (0x3a :: 0x20 :: (v.prettyAt level ++ more))
  have htext : memberText level name v ++ more = 0x22 :: tail := by
    rw [← htail, memberText, List.append_assoc]
    rfl
  have hvalue : readMember ((fieldIndex? fields name).bind (fields[·]?)) s
      (0x3a :: 0x20 :: (v.prettyAt level ++ more)) = .ok (s', more) := by
    rw [hplace, Option.bind_some, hfield]
    exact readMember_of_recovers hread hmore
  have hseen : ∀ k, fieldIndex? fields name = some k → k ∉ seen := by
    intro k hk
    rw [hplace] at hk
    rwa [← Option.some.inj hk]
  rw [htext, readMembers_step hquoted hseen hvalue hblanks, hplace]
  rfl

theorem readBehindMember_blanks (hblanks : blanks.all isBlank = true) (fuel : Nat) (more : Bytes) :
    readBehindMember fields fuel seen s (blanks ++ more) =
      readBehindMember fields fuel seen s more := by
  rw [readBehindMember, readBehindMember, skipBlank_blanks hblanks]

/-- A brace ends the members if nothing that is needed is missing. -/
theorem readBehindMember_brace (hall : allSeen fields seen = true)
    (hclose : close.all isBlank = true) (fuel : Nat) (rest : Bytes) :
    readBehindMember fields fuel seen s (close ++ 0x7d :: rest) = .ok (s, rest) := by
  rw [readBehindMember_blanks hclose, readBehindMember, skipBlank_cons rfl]
  exact if_pos hall

theorem readBehindMember_comma (fuel : Nat) (rest : Bytes) :
    readBehindMember fields fuel seen s (0x2c :: rest) = readMembers fields fuel seen s rest := by
  rw [readBehindMember, skipBlank_cons rfl]
  rfl

theorem endsNumeral_blanks_mark (hclose : close.all isBlank = true) {b : UInt8}
    (hb : b = 0x2c ∨ b = 0x5d ∨ b = 0x7d) (rest : Bytes) : EndsNumeral (close ++ b :: rest) := by
  cases close with
  | nil => exact endsNumeral_of_mark hb rest
  | cons x close =>
    rw [List.all_cons, Bool.and_eq_true] at hclose
    apply endsNumeral_cons
    rcases isBlank_iff.1 hclose.1 with rfl | rfl | rfl | rfl <;> decide

/-- Members on lines of their own, with the comma of each at the end of its line. -/
def memberLines (level : Nat) (gap : Bytes) (members : List (String × Value)) : Bytes :=
  joined (0x2c :: gap) (prettyMembers level members)

theorem memberLines_singleton (name : String) (v : Value) :
    memberLines level gap [(name, v)] = memberText level name v := rfl

theorem memberLines_cons_cons (name : String) (v : Value) (m : String × Value) :
    memberLines level gap ((name, v) :: m :: members) =
      memberText level name v ++ 0x2c :: (gap ++ memberLines level gap (m :: members)) := by
  obtain ⟨name', v'⟩ := m
  simp [memberLines, prettyMembers, joined, memberText]

theorem exists_memberLines_cons (m : String × Value) (more : Bytes) :
    ∃ tail, memberLines level gap (m :: members) ++ more = 0x22 :: tail := by
  obtain ⟨name, v⟩ := m
  cases members with
  | nil => exact ⟨_, rfl⟩
  | cons m members =>
    rw [memberLines_cons_cons]
    exact ⟨_, rfl⟩

/-- There are not more members than bytes, so the fuel suffices for them. -/
theorem length_le_memberLines (level : Nat) (gap : Bytes) (members : List (String × Value)) :
    members.length ≤ (memberLines level gap members).length := by
  induction members with
  | nil => exact Nat.zero_le _
  | cons m members ih =>
    obtain ⟨name, v⟩ := m
    cases members with
    | nil => exact Nat.succ_le_succ (Nat.zero_le _)
    | cons m members =>
      rw [memberLines_cons_cons]
      simp only [List.length_append, List.length_cons] at ih ⊢
      omega

end

/-- The reader of members has passed some of the fields: the places seen are those of fields passed, and
nothing needed was passed unseen. -/
structure Passed (before : List (Field σ)) (seen : List Nat) : Prop where
  within : ∀ i ∈ seen, i < before.length
  required : ∀ i f, before[i]? = some f → f.optionalInObject = true ∨ i ∈ seen

namespace Passed

variable {before after : List (Field σ)} {f : Field σ} {seen : List Nat}

theorem nil : Passed ([] : List (Field σ)) [] :=
  ⟨fun _ hi => (by cases hi), fun _ _ hf => (by cases hf)⟩

/-- A field that the record can do without may be passed over. -/
theorem leftOut (h : Passed before seen) (hoptional : f.optionalInObject = true) :
    Passed (before ++ [f]) seen where
  within := by
    intro i hi
    rw [List.length_append]
    exact Nat.lt_add_right _ (h.within i hi)
  required := by
    intro i g hg
    by_cases hi : i < before.length
    · rw [List.getElem?_append_left hi] at hg
      exact h.required i g hg
    · rw [List.getElem?_append_right (Nat.le_of_not_lt hi)] at hg
      rw [List.mem_singleton.1 (List.mem_of_getElem? hg)]
      exact Or.inl hoptional

/-- A field that was read is seen. -/
theorem member (h : Passed before seen) : Passed (before ++ [f]) (before.length :: seen) where
  within := by
    intro i hi
    rw [List.length_append, List.length_singleton]
    rcases List.mem_cons.1 hi with rfl | hi
    · exact Nat.lt_succ_self _
    · exact Nat.lt_succ_of_lt (h.within i hi)
  required := by
    intro i g hg
    by_cases hi : i = before.length
    · exact Or.inr (hi ▸ List.mem_cons_self)
    · have hbefore : before[i]? = some g := by
        have hlt := (List.getElem?_eq_some_iff.1 hg).1
        rw [List.length_append, List.length_singleton] at hlt
        rwa [List.getElem?_append_left (by omega)] at hg
      exact (h.required i g hbefore).imp id (List.mem_cons_of_mem _)

/-- Fields that are passed and fields that can be left out are all that an object needs. -/
theorem allSeen (h : Passed before seen) (hafter : ∀ f ∈ after, f.optionalInObject = true) :
    allSeen (before ++ after) seen = true := by
  apply allSeen_of_forall
  intro i f hf
  by_cases hi : i < before.length
  · rw [List.getElem?_append_left hi] at hf
    exact h.required i f hf
  · rw [List.getElem?_append_right (Nat.le_of_not_lt hi)] at hf
    exact Or.inl (hafter f (List.mem_of_getElem? hf))

end Passed

section

variable {fields before after : List (Field σ)} {seen : List Nat} {level : Nat} {s last : σ}
  {members : List (String × Value)} {gap close : Bytes}

/-- The members of the fields that are left are read, whatever was read before. -/
theorem readMembers_of_writes (hfields : fields = before ++ after)
    (hnames : (fields.flatMap Field.names).Nodup) (hpassed : Passed before seen)
    (h : WritesFields level after s members last) (hne : members ≠ [])
    (hgap : gap.all isBlank = true) (hclose : close.all isBlank = true) {fuel : Nat}
    (hfuel : members.length ≤ fuel) {blanks : Bytes} (hblanks : blanks.all isBlank = true)
    (rest : Bytes) :
    readMembers fields fuel seen s
      (blanks ++ (memberLines level gap members ++ (close ++ 0x7d :: rest))) = .ok (last, rest) := by
  -- The induction is on the fields that are left; each of them passes from `after` to `before`.
  induction h generalizing before seen fuel blanks with
  | nil s => exact absurd rfl hne
  | @leftOut f after s last members hoptional hrest ih =>
    apply ih _ (hpassed.leftOut hoptional) hne hfuel hblanks
    rw [hfields, List.append_assoc]
    rfl
  | @member f after s s' last name v members hname hread hrest ih =>
    obtain ⟨k, rfl⟩ : ∃ k, fuel = k + 1 := by
      rw [List.length_cons] at hfuel
      exact ⟨fuel - 1, by omega⟩
    -- No field that was passed has the name, so it leads to the first of those that are left.
    have hbefore : ∀ g ∈ before, name ∉ g.names := by
      intro g hg hmem
      rw [hfields, List.flatMap_append, List.flatMap_cons] at hnames
      exact (List.nodup_append.1 hnames).2.2 name (List.mem_flatMap.2 ⟨g, hg, hmem⟩) name
        (List.mem_append_left _ hname) rfl
    have hplace : fieldIndex? fields name = some before.length := by
      rw [hfields]
      exact fieldIndex?_append hbefore hname after
    have hfield : fields[before.length]? = some f := by
      rw [hfields, List.getElem?_append_right (Nat.le_refl _), Nat.sub_self]
      rfl
    have hnew : before.length ∉ seen := fun hmem => Nat.lt_irrefl _ (hpassed.within _ hmem)
    have hnext : fields = (before ++ [f]) ++ after := by
      rw [hfields, List.append_assoc]
      rfl
    cases members with
    | nil =>
      -- The last member: the record can do without the fields behind it.
      obtain ⟨rfl, hafter⟩ := hrest.of_nil
      have hall : allSeen fields (before.length :: seen) = true := by
        rw [hnext]
        exact hpassed.member.allSeen hafter
      rw [memberLines_singleton, readMembers_member hplace hfield hnew hread hblanks
        (endsNumeral_blanks_mark hclose (by decide) rest), readBehindMember_brace hall hclose]
    | cons m members =>
      rw [memberLines_cons_cons, List.append_assoc, List.cons_append, List.append_assoc,
        readMembers_member hplace hfield hnew hread hblanks (endsNumeral_of_mark (by decide) _),
        readBehindMember_comma]
      exact ih hnext hpassed.member (List.cons_ne_nil _ _) (Nat.le_of_succ_le_succ hfuel) hgap

theorem all_isBlank_lineBreak (level : Nat) : (lineBreak level).all isBlank = true := by
  rw [lineBreak, List.all_cons, List.all_replicate]
  simp [isBlank]

/-- A record reads back from its members, written one a line in the order of its fields. -/
theorem recovers_record {start : σ} {m : String × Value} (hnames : (fields.flatMap Field.names).Nodup)
    (h : WritesFields (level + 1) fields start (m :: members) last) :
    Recovers (readRecord fields start) ((Value.object (m :: members)).prettyAt level) last := by
  intro blanks rest hblanks _
  let lines : Bytes := memberLines (level + 1) (lineBreak (level + 1)) (m :: members)
  have htext : (Value.object (m :: members)).prettyAt level ++ rest =
      0x7b :: (lineBreak (level + 1) ++ (lines ++ (lineBreak level ++ 0x7d :: rest))) := by
    simp [Value.prettyAt, lines, memberLines]
  obtain ⟨tail, htail⟩ : ∃ tail, lines ++ (lineBreak level ++ 0x7d :: rest) = 0x22 :: tail :=
    exists_memberLines_cons m _
  -- A member takes up a byte at least, so the text is fuel enough.
  have hfuel : (m :: members).length ≤ (0x22 :: tail : Bytes).length := by
    calc (m :: members).length ≤ lines.length := length_le_memberLines _ _ _
      _ ≤ (lines ++ (lineBreak level ++ 0x7d :: rest)).length := by
        rw [List.length_append]
        exact Nat.le_add_right _ _
      _ = (0x22 :: tail : Bytes).length := by rw [htail]
  have hread : readMembers fields (0x22 :: tail : Bytes).length [] start
      ([] ++ (lines ++ (lineBreak level ++ 0x7d :: rest))) = .ok (last, rest) :=
    readMembers_of_writes rfl hnames Passed.nil h (List.cons_ne_nil _ _)
      (all_isBlank_lineBreak (level + 1)) (all_isBlank_lineBreak level) hfuel rfl rest
  rw [List.nil_append, htail] at hread
  have hbegin : skipBlank (lineBreak (level + 1) ++ 0x22 :: tail) = 0x22 :: tail :=
    skipBlank_blanks_cons (all_isBlank_lineBreak (level + 1)) rfl tail
  rw [htext, htail, readRecord, skipBlank_blanks_cons hblanks rfl]
  simp only [hbegin]
  exact hread

end

end IndexVault.Json
