import Mathlib.Data.List.Nodup
import IndexVault.Proofs.Json.Grammar

namespace IndexVault.Json

variable {σ ι : Type}

/-- The parts of a record, apart from each other, and how each of them is read under its name: what is read
is set, and stands for what the part holds then. -/
structure Layout (σ ι : Type) where
  Part : ι → Type
  Raw : ι → Type
  name : ι → String
  get : (i : ι) → σ → Part i
  set : (i : ι) → σ → Raw i → σ
  value : (i : ι) → Raw i → Part i
  read : (i : ι) → Reader (Raw i)
  name_injective : ∀ i j, name i = name j → i = j
  get_set : ∀ i s a, get i (set i s a) = value i a
  get_set_of_ne : ∀ i j s a, j ≠ i → get j (set i s a) = get j s

/-- An object that gives some parts of a record, by members in any order and with no name repeated; a member
that has none of the names of the parts may be any value. -/
def SpellsRecord (name : ι → String) {V : ι → Type} (Spells : (i : ι) → V i → Bytes → Prop)
    (given : (i : ι) → Option (V i)) (b : Bytes) : Prop :=
  ∃ members, SpellsObject SpellsString b members ∧ (members.map Prod.fst).Nodup ∧
    (∀ i a, given i = some a → ∃ v, (name i, v) ∈ members ∧ Spells i a v) ∧
    (∀ i, given i = none → name i ∉ members.map Prod.fst) ∧
    ∀ m ∈ members, (∀ i, name i ≠ m.1) → IsValue m.2

namespace Layout

variable (L : Layout σ ι)

/-- The field of a part. -/
def field (i : ι) : Field σ := .setting (L.name i) (L.read i) (L.set i)

/-- Reading members leads from one record to another: a part is set to what its member gives, and a member
that is no part is passed over. -/
inductive Takes : σ → List (String × Bytes) → σ → Prop
  | nil (s : σ) : Takes s [] s
  | part {i : ι} {v : Bytes} {a : L.Raw i} {s last : σ} {members : List (String × Bytes)}
    (hread : Recovers (L.read i) v a) (hrest : Takes (L.set i s a) members last) :
    Takes s ((L.name i, v) :: members) last
  | other {name : String} {v : Bytes} {s last : σ} {members : List (String × Bytes)}
    (hname : ∀ i, L.name i ≠ name) (hv : IsValue v) (hrest : Takes s members last) :
    Takes s ((name, v) :: members) last

variable {L}

/-- Where each part that is named can be read, all members are taken, and each part holds in the end what
its member gave, or what it held before. -/
theorem exists_takes {Q : (i : ι) → L.Part i → Prop} {members : List (String × Bytes)}
    (hnames : (members.map Prod.fst).Nodup)
    (hparts : ∀ i v, (L.name i, v) ∈ members → ∃ a, Recovers (L.read i) v a ∧ Q i (L.value i a))
    (hother : ∀ m ∈ members, (∀ i, L.name i ≠ m.1) → IsValue m.2) (s : σ) :
    ∃ last, L.Takes s members last ∧
      ∀ i, (L.name i ∈ members.map Prod.fst → Q i (L.get i last)) ∧
        (L.name i ∉ members.map Prod.fst → L.get i last = L.get i s) := by
  induction members generalizing s with
  | nil => exact ⟨s, .nil s, fun i => ⟨fun hmem => (by cases hmem), fun _ => rfl⟩⟩
  | cons m members ih =>
    obtain ⟨name, v⟩ := m
    obtain ⟨hnew, hnames⟩ := List.nodup_cons.1 hnames
    have hrest := ih hnames (fun i v hv => hparts i v (List.mem_cons_of_mem _ hv))
      fun m hm => hother m (List.mem_cons_of_mem _ hm)
    by_cases hpart : ∃ i, L.name i = name
    · obtain ⟨i, rfl⟩ := hpart
      obtain ⟨a, hread, hQ⟩ := hparts i v List.mem_cons_self
      obtain ⟨last, htakes, hget⟩ := hrest (L.set i s a)
      refine ⟨last, .part hread htakes, fun j => ?_⟩
      -- The members behind it leave the part alone, for its name does not come again.
      by_cases hj : j = i
      · subst hj
        have hkept : L.get j last = L.value j a := by rw [(hget j).2 hnew, L.get_set]
        exact ⟨fun _ => by rw [hkept]; exact hQ, fun hmem => absurd List.mem_cons_self hmem⟩
      · have hne : L.name j ≠ L.name i := fun heq => hj (L.name_injective j i heq)
        rw [List.map_cons, List.mem_cons, or_iff_right hne]
        refine ⟨(hget j).1, fun hmem => ?_⟩
        rw [(hget j).2 hmem, L.get_set_of_ne i j s a hj]
    · have hname : ∀ i, L.name i ≠ name := fun i hi => hpart ⟨i, hi⟩
      obtain ⟨last, htakes, hget⟩ := hrest s
      refine ⟨last, .other hname (hother _ List.mem_cons_self hname) htakes, fun j => ?_⟩
      rw [List.map_cons, List.mem_cons, or_iff_right (hname j)]
      exact hget j

section Reading

variable {parts : List ι}

/-- The name of a part leads to its field. -/
theorem fieldIndex?_eq_some {name : String} {k : Nat}
    (h : fieldIndex? (parts.map L.field) name = some k) :
    ∃ i, (parts.map L.field)[k]? = some (L.field i) ∧ L.name i = name := by
  rw [fieldIndex?, List.findIdx?_eq_some_iff_getElem] at h
  obtain ⟨hk, hname, -⟩ := h
  rw [List.getElem_map, List.contains_iff_mem] at hname
  rw [List.length_map] at hk
  refine ⟨parts[k], ?_, (List.mem_singleton.1 hname).symm⟩
  rw [List.getElem?_map, List.getElem?_eq_getElem hk]
  rfl

/-- Every part is found among the fields under its name. -/
theorem exists_fieldIndex? {i : ι} (hi : i ∈ parts) :
    ∃ k, fieldIndex? (parts.map L.field) (L.name i) = some k ∧
      (parts.map L.field)[k]? = some (L.field i) := by
  have hfound : (fieldIndex? (parts.map L.field) (L.name i)).isSome = true := by
    rw [fieldIndex?, List.findIdx?_isSome, List.any_eq_true]
    exact ⟨L.field i, List.mem_map_of_mem hi, List.contains_iff_mem.2 (List.mem_singleton_self _)⟩
  obtain ⟨k, hk⟩ := Option.isSome_iff_exists.1 hfound
  obtain ⟨j, hfield, hname⟩ := fieldIndex?_eq_some hk
  rw [L.name_injective j i hname] at hfield
  exact ⟨k, hk, hfield⟩

/-- A name that no part has is not found. -/
theorem fieldIndex?_of_other {name : String} (h : ∀ i, L.name i ≠ name) :
    fieldIndex? (parts.map L.field) name = none := by
  cases hplace : fieldIndex? (parts.map L.field) name with
  | none => rfl
  | some k =>
    obtain ⟨i, -, hname⟩ := fieldIndex?_eq_some hplace
    exact absurd hname (h i)

/-- Different names do not lead to one field. -/
theorem fieldIndex?_injective {name name' : String} {k : Nat}
    (h : fieldIndex? (parts.map L.field) name = some k)
    (h' : fieldIndex? (parts.map L.field) name' = some k) : name = name' := by
  obtain ⟨i, hfield, rfl⟩ := fieldIndex?_eq_some h
  obtain ⟨j, hfield', rfl⟩ := fieldIndex?_eq_some h'
  rw [hfield] at hfield'
  have hnames := congrArg Field.names (Option.some.inj hfield')
  exact List.singleton_inj.1 hnames

/-- An object may leave out any part. -/
theorem allSeen_field (seen : List Nat) : allSeen (parts.map L.field) seen = true := by
  apply allSeen_of_forall
  intro k f hf
  obtain ⟨i, -, rfl⟩ := List.mem_map.1 (List.mem_of_getElem? hf)
  exact Or.inl rfl

variable {before gap space part more : Bytes} {name : String} {v : Bytes} {s s' last : σ}

/-- The member of a part is read into this part. -/
theorem readMember_of_part {i : ι} {a : L.Raw i} (hread : Recovers (L.read i) v a)
    (hgap : AreBlanks gap) (hspace : AreBlanks space) (hmore : EndsNumeral more) :
    readMember (some (L.field i)) s (gap ++ 0x3a :: (space ++ (v ++ more))) =
      .ok (L.set i s a, more) := by
  rw [readMember, skipBlank_blanks_cons hgap rfl]
  exact hread.setting (L.name i) (L.set i) s space more hspace hmore

/-- A value that is no part is passed over. -/
theorem readMember_of_other (hv : IsValue v) (hgap : AreBlanks gap) (hspace : AreBlanks space)
    (hmore : EndsNumeral more) :
    readMember (none : Option (Field σ)) s (gap ++ 0x3a :: (space ++ (v ++ more))) =
      .ok (s, more) := by
  obtain ⟨tree, htree⟩ := (reads_of_isValue hv).reads (2 * (space ++ (v ++ more)).length + 2) more
    (by simp only [List.length_append]; omega) hmore
  have hread : readTree (space ++ (v ++ more)) = some (tree, more) := by
    rw [readTree, readTreeWithin_blanks hspace, htree]
  rw [readMember, skipBlank_blanks_cons hgap rfl]
  simp only [hread]

/-- One member is read, and then the others from what it has made of the record. -/
theorem readMembers_of_spells {fields : List (Field σ)} {seen : List Nat}
    (hpart : SpellsMember SpellsString part (name, v)) (hbefore : AreBlanks before)
    (hnew : ∀ k, fieldIndex? fields name = some k → k ∉ seen)
    (hread : ∀ gap space, AreBlanks gap → AreBlanks space →
      readMember ((fieldIndex? fields name).bind (fields[·]?)) s
        (gap ++ 0x3a :: (space ++ (v ++ more))) = .ok (s', more)) (fuel : Nat) :
    readMembers fields (fuel + 1) seen s (before ++ (part ++ more)) =
      readBehindMember fields fuel ((fieldIndex? fields name).toList ++ seen) s' more := by
  obtain ⟨quoted, gap, space, ⟨body, rfl, hchars⟩, hgap, hspace, rfl⟩ := hpart
  have htext : (0x22 :: (body ++ [0x22]) ++ (gap ++ 0x3a :: (space ++ v))) ++ more =
      0x22 :: (body ++ 0x22 :: (gap ++ 0x3a :: (space ++ (v ++ more)))) := by simp
  rw [htext]
  exact readMembers_step (readQuoted_of_spells hchars _) hnew (hread gap space hgap hspace) hbefore fuel

/-- Each member is taken in or passed over, as the list of members tells. -/
theorem Takes.exists_readMember (hall : ∀ i, i ∈ parts) {members : List (String × Bytes)}
    (h : L.Takes s ((name, v) :: members) last) :
    ∃ s', L.Takes s' members last ∧ ∀ gap space more, AreBlanks gap → AreBlanks space →
      EndsNumeral more →
        readMember ((fieldIndex? (parts.map L.field) name).bind ((parts.map L.field)[·]?)) s
          (gap ++ 0x3a :: (space ++ (v ++ more))) = .ok (s', more) := by
  cases h with
  | @part i _ a _ _ _ hread hrest =>
    obtain ⟨k, hplace, hfield⟩ := exists_fieldIndex? (hall i)
    refine ⟨_, hrest, fun gap space more hgap hspace hmore => ?_⟩
    rw [hplace, Option.bind_some, hfield]
    exact readMember_of_part hread hgap hspace hmore
  | other hname hv hrest =>
    refine ⟨_, hrest, fun gap space more hgap hspace hmore => ?_⟩
    rw [fieldIndex?_of_other hname]
    exact readMember_of_other hv hgap hspace hmore

/-- A field that the first member leads to is not one of those that later members lead to. -/
theorem not_mem_seen_cons {m : String × Bytes} {members : List (String × Bytes)} {seen : List Nat}
    (hnames : ((m :: members).map Prod.fst).Nodup)
    (hseen : ∀ m' ∈ m :: members, ∀ k,
      fieldIndex? (parts.map L.field) m'.1 = some k → k ∉ seen) :
    ∀ m' ∈ members, ∀ k, fieldIndex? (parts.map L.field) m'.1 = some k →
      k ∉ (fieldIndex? (parts.map L.field) m.1).toList ++ seen := by
  intro m' hm' k hk hmem
  rcases List.mem_append.1 hmem with hfirst | hold
  · have hsame : m.1 = m'.1 := fieldIndex?_injective (Option.mem_toList.1 hfirst) hk
    refine (List.nodup_cons.1 hnames).1 ?_
    rw [hsame]
    exact List.mem_map_of_mem hm'
  · exact hseen m' (List.mem_cons_of_mem _ hm') k hk hold

/-- By induction on the members, an object is read to what the list of them makes of the record. -/
theorem readMembers_of_takes (hall : ∀ i, i ∈ parts) {body : Bytes} {pieces : List Bytes}
    {members : List (String × Bytes)} (hbody : CommaSeparated body pieces)
    (hmembers : List.Forall₂ (SpellsMember SpellsString) pieces members)
    (hnames : (members.map Prod.fst).Nodup) (htakes : L.Takes s members last) {seen : List Nat}
    (hseen : ∀ m ∈ members, ∀ k, fieldIndex? (parts.map L.field) m.1 = some k → k ∉ seen)
    {fuel : Nat} (hfuel : members.length ≤ fuel) (rest : Bytes) :
    readMembers (parts.map L.field) fuel seen s (body ++ 0x7d :: rest) = .ok (last, rest) := by
  -- By induction on the text; what was seen grows by the field of each member.
  induction hbody generalizing members s seen fuel with
  | @last before piece after hbefore hafter =>
    cases hmembers with
    | @cons _ m _ _ hpiece hnone =>
      cases hnone
      obtain ⟨k, rfl⟩ : ∃ k, fuel = k + 1 := ⟨fuel - 1, by rw [List.length_cons] at hfuel; omega⟩
      obtain ⟨s', hrest, hread⟩ := htakes.exists_readMember hall
      cases hrest
      have hends : EndsNumeral (after ++ 0x7d :: rest) :=
        endsNumeral_blanks_mark hafter (by decide) rest
      rw [List.append_assoc, List.append_assoc,
        readMembers_of_spells hpiece hbefore (hseen m List.mem_cons_self)
          (fun gap space hgap hspace => hread gap space _ hgap hspace hends),
        readBehindMember_brace (allSeen_field _) hafter]
  | @more before piece after later pieces hbefore hafter _ ih =>
    cases hmembers with
    | @cons _ m _ members hpiece hmembers =>
      obtain ⟨k, rfl⟩ : ∃ k, fuel = k + 1 := ⟨fuel - 1, by rw [List.length_cons] at hfuel; omega⟩
      obtain ⟨s', hrest, hread⟩ := htakes.exists_readMember hall
      have hends : EndsNumeral (after ++ 0x2c :: (later ++ 0x7d :: rest)) :=
        endsNumeral_blanks_mark hafter (by decide) _
      simp only [List.append_assoc, List.cons_append]
      rw [readMembers_of_spells hpiece hbefore (hseen m List.mem_cons_self)
          (fun gap space hgap hspace => hread gap space _ hgap hspace hends),
        readBehindMember_blanks hafter, readBehindMember_comma]
      exact ih hmembers (List.nodup_cons.1 hnames).2 hrest (not_mem_seen_cons hnames hseen)
        (Nat.le_of_succ_le_succ hfuel)

/-- A record is read from an object whose members can be taken. -/
theorem recovers_of_takes (hall : ∀ i, i ∈ parts) {b : Bytes} {members : List (String × Bytes)}
    (h : SpellsObject SpellsString b members) (hnames : (members.map Prod.fst).Nodup)
    (htakes : L.Takes s members last) : Recovers (readRecord (parts.map L.field) s) b last := by
  obtain ⟨pieces, ⟨body, rfl, hbody⟩, hmembers⟩ := h
  intro blanks rest hblanks _
  rw [List.cons_append, List.append_assoc, List.singleton_append, readRecord,
    skipBlank_blanks_cons hblanks rfl]
  rcases hbody with ⟨rfl, hempty⟩ | hbody
  · cases hmembers
    cases htakes
    simp only [skipBlank_blanks_cons hempty (show isBlank 0x7d = false from rfl)]
    exact if_pos (allSeen_field [])
  · -- A comma stands behind each member but the last, so the text is fuel enough.
    obtain ⟨c, tail, hfirst, hne, -, hseparated⟩ := hbody.exists_skipBlank
      (starts_of_members hmembers fun _ _ hname => hname.exists_cons) (0x7d :: rest)
    have hfuel : members.length ≤ (c :: (tail ++ 0x7d :: rest)).length := by
      have hlength := hseparated.length_le
      rw [hmembers.length_eq] at hlength
      simp only [List.length_append, List.length_cons] at hlength ⊢
      omega
    have hread : readMembers (parts.map L.field) (c :: (tail ++ 0x7d :: rest)).length [] s
        (c :: tail ++ 0x7d :: rest) = .ok (last, rest) :=
      readMembers_of_takes hall hseparated hmembers hnames htakes
        (fun _ _ _ _ => List.not_mem_nil) hfuel rest
    simp only [hfirst]
    split
    · rename_i heq
      exact absurd (List.cons.inj heq).1 hne
    · exact hread

/-- What an object gives is found in the record that is read from it, and what it leaves out is as it was. -/
theorem recovers_spelled {V : ι → Type} {Spells : (i : ι) → V i → Bytes → Prop}
    (Means : (i : ι) → V i → L.Part i → Prop) (hall : ∀ i, i ∈ parts)
    (hread : ∀ i a v, Spells i a v → ∃ r, Recovers (L.read i) v r ∧ Means i a (L.value i r))
    {given : (i : ι) → Option (V i)} {b : Bytes} (h : SpellsRecord L.name Spells given b) (s : σ) :
    ∃ last, Recovers (readRecord (parts.map L.field) s) b last ∧
      ∀ i, (∀ a, given i = some a → Means i a (L.get i last)) ∧
        (given i = none → L.get i last = L.get i s) := by
  obtain ⟨members, hobject, hnames, hgiven, hleft, hother⟩ := h
  have hparts : ∀ i v, (L.name i, v) ∈ members →
      ∃ r, Recovers (L.read i) v r ∧ ∃ a, given i = some a ∧ Means i a (L.value i r) := by
    intro i v hv
    cases hi : given i with
    | none => exact absurd (List.mem_map_of_mem hv) (hleft i hi)
    | some a =>
      -- The member is the one that gives the part, since its name is not repeated.
      obtain ⟨v', hv', hspells⟩ := hgiven i a hi
      have hsame : (L.name i, v) = (L.name i, v') := List.inj_on_of_nodup_map hnames hv hv' rfl
      obtain ⟨r, hr, hmeans⟩ := hread i a v' hspells
      rw [(Prod.mk.inj hsame).2]
      exact ⟨r, hr, a, rfl, hmeans⟩
  obtain ⟨last, htakes, hget⟩ := exists_takes (Q := fun i r => ∃ a, given i = some a ∧ Means i a r)
    hnames hparts hother s
  refine ⟨last, recovers_of_takes hall hobject hnames htakes, fun i => ⟨?_, ?_⟩⟩
  · intro a hi
    obtain ⟨v, hv, -⟩ := hgiven i a hi
    obtain ⟨a', ha', hmeans⟩ := (hget i).1 (List.mem_map_of_mem hv)
    rw [hi] at ha'
    rwa [Option.some.inj ha']
  · intro hi
    exact (hget i).2 (hleft i hi)

end Reading

end Layout

end IndexVault.Json
