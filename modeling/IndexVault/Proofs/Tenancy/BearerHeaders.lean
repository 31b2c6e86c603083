import IndexVault.Proofs.Text.BlankTexts
import IndexVault.Tenancy.Identity

namespace IndexVault

namespace Text

/-- Some characters, of which neither the first nor the last is blank. -/
structure IsTrimmed (cs : List Char) : Prop where
  ne_nil : cs ≠ []
  head : ∀ c, cs.head? = some c → isBlank c = false
  last : ∀ c, cs.getLast? = some c → isBlank c = false

/-- Trimming leaves no blank at either end. -/
theorem isTrimmed_trimChars {cs : List Char} (h : trimChars cs ≠ []) : IsTrimmed (trimChars cs) :=
  ⟨h, fun _ => not_isBlank_of_head?_trimChars, fun _ => not_isBlank_of_getLast?_trimChars⟩

/-- Trimming takes blanks off at both ends. -/
theorem exists_trimChars (cs : List Char) : ∃ lead trail, cs = lead ++ trimChars cs ++ trail ∧
    lead.all isBlank = true ∧ trail.all isBlank = true := by
  let kept : List Char := cs.dropWhile isBlank
  have hlead : cs = cs.takeWhile isBlank ++ kept := List.takeWhile_append_dropWhile.symm
  have htrail : kept = trimChars cs ++ (kept.reverse.takeWhile isBlank).reverse := by
    calc kept = kept.reverse.reverse := (List.reverse_reverse kept).symm
      _ = (kept.reverse.takeWhile isBlank ++ kept.reverse.dropWhile isBlank).reverse := by
          rw [List.takeWhile_append_dropWhile]
      _ = trimChars cs ++ (kept.reverse.takeWhile isBlank).reverse := List.reverse_append
  refine ⟨cs.takeWhile isBlank, (kept.reverse.takeWhile isBlank).reverse, ?_, List.all_takeWhile, ?_⟩
  · rw [List.append_assoc, ← htrail]
    exact hlead
  · rw [List.all_reverse]
    exact List.all_takeWhile

theorem dropWhile_blanks_append {blanks cs : List Char} (hblanks : blanks.all isBlank = true)
    (hne : cs ≠ []) (hhead : ∀ c, cs.head? = some c → isBlank c = false) (rest : List Char) :
    (blanks ++ (cs ++ rest)).dropWhile isBlank = cs ++ rest := by
  rw [List.dropWhile_append_of_pos (List.all_eq_true.1 hblanks)]
  cases cs with
  | nil => exact absurd rfl hne
  | cons c cs =>
    have hc : ¬ isBlank c = true := by rw [hhead c rfl]; exact Bool.false_ne_true
    rw [List.cons_append, List.dropWhile_cons_of_neg hc]

/-- What is trimmed already is found between blanks. -/
theorem trimChars_append {lead cs trail : List Char} (hlead : lead.all isBlank = true)
    (hcs : IsTrimmed cs) (htrail : trail.all isBlank = true) :
    trimChars (lead ++ cs ++ trail) = cs := by
  have hfront : (lead ++ (cs ++ trail)).dropWhile isBlank = cs ++ trail :=
    dropWhile_blanks_append hlead hcs.ne_nil hcs.head trail
  have hreverse : trail.reverse.all isBlank = true := by rwa [List.all_reverse]
  have hend : ∀ c, cs.reverse.head? = some c → isBlank c = false := by
    intro c hc
    exact hcs.last c (by rwa [← List.head?_reverse])
  have hback := dropWhile_blanks_append hreverse (mt List.reverse_eq_nil_iff.1 hcs.ne_nil) hend []
  rw [List.append_nil] at hback
  rw [trimChars, List.append_assoc, hfront, List.reverse_append, hback, List.reverse_reverse]

/-- What lies between two trimmed ends does not matter. -/
theorem IsTrimmed.append {cs cs' : List Char} (h : IsTrimmed cs) (between : List Char)
    (h' : IsTrimmed cs') : IsTrimmed (cs ++ (between ++ cs')) where
  ne_nil := List.append_ne_nil_of_left_ne_nil h.ne_nil _
  head := by
    intro c hc
    rw [List.head?_append, List.head?_eq_some_head h.ne_nil, Option.some_or] at hc
    exact h.head c (by rw [List.head?_eq_some_head h.ne_nil, hc])
  last := by
    intro c hc
    rw [← List.append_assoc, List.getLast?_append, List.getLast?_eq_some_getLast h'.ne_nil,
      Option.some_or] at hc
    exact h'.last c (by rw [List.getLast?_eq_some_getLast h'.ne_nil, hc])

end Text

namespace Bearer

open Text (IsTrimmed isBlank trimChars)

/-- The characters of a text that presents a token: blanks, the word, a space, blanks, the token, blanks. -/
structure Spells (cs lead word gap token trail : List Char) : Prop where
  parts : cs = lead ++ (word ++ (' ' :: gap ++ token)) ++ trail
  lead_blank : lead.all isBlank = true
  gap_blank : gap.all isBlank = true
  trail_blank : trail.all isBlank = true
  word_eq : word.map Char.toLower = "bearer".toList
  token_trimmed : IsTrimmed token

theorem eqIgnoringCase_iff (word : List Char) :
    Text.eqIgnoringCase (String.ofList word) "bearer" = true ↔
      word.map Char.toLower = "bearer".toList := by
  have hlower : Text.asciiLower "bearer" = String.ofList "bearer".toList := by decide
  rw [Text.eqIgnoringCase, beq_iff_eq, hlower, Text.asciiLower, String.toList_ofList,
    String.ofList_inj]

theorem not_isBlank_of_word {word : List Char} (h : word.map Char.toLower = "bearer".toList) :
    ∀ c ∈ word, isBlank c = false := by
  intro c hc
  have hlower : c.toLower ∈ "bearer".toList := by
    rw [← h]
    exact List.mem_map_of_mem hc
  have htable : ∀ n ∈ Text.blankCodes, (Char.ofNat n).toLower ∉ "bearer".toList := by decide
  rw [Bool.eq_false_iff]
  intro hblank
  exact Text.forall_of_isBlank (p := fun c => c.toLower ∉ "bearer".toList) htable hblank hlower

theorem isTrimmed_word {word : List Char} (h : word.map Char.toLower = "bearer".toList) :
    IsTrimmed word where
  ne_nil := by
    intro hnil
    rw [hnil] at h
    exact absurd h (by decide)
  head := fun c hc => not_isBlank_of_word h c (List.mem_of_mem_head? hc)
  last := fun c hc => not_isBlank_of_word h c (List.mem_of_mem_getLast? hc)

/-- A header is cut behind its first word. -/
theorem splitAtSpace?_eq {word rest : List Char} (h : ∀ c ∈ word, isBlank c = false) :
    splitAtSpace? (String.ofList (word ++ ' ' :: rest)) =
      some (String.ofList word, String.ofList rest) := by
  have hword : ∀ c ∈ word, (c != ' ') = true := by
    intro c hc
    rw [bne_iff_ne]
    intro hspace
    have hblank := h c hc
    rw [hspace] at hblank
    exact absurd hblank (by decide)
  have hdrop : (word ++ ' ' :: rest).dropWhile (fun c => c != ' ') = ' ' :: rest := by
    rw [List.dropWhile_append_of_pos hword]
    rfl
  have htake : (word ++ ' ' :: rest).takeWhile (fun c => c != ' ') = word := by
    rw [List.takeWhile_append_of_pos hword]
    exact List.append_nil word
  rw [splitAtSpace?, String.toList_ofList, hdrop, htake]

theorem toList_of_splitAtSpace? {s word rest : String} (h : splitAtSpace? s = some (word, rest)) :
    s.toList = word.toList ++ ' ' :: rest.toList := by
  rw [splitAtSpace?] at h
  split at h
  · cases h
  · rename_i c later hdrop
    obtain ⟨rfl, rfl⟩ := Prod.mk.inj (Option.some.inj h)
    have hc : c = ' ' := by
      have hstop := List.head?_dropWhile_not (fun c => c != ' ') s.toList
      rw [hdrop] at hstop
      simpa using hstop
    have hparts := List.takeWhile_append_dropWhile (p := fun c => c != ' ') (l := s.toList)
    rw [hdrop, hc] at hparts
    rw [String.toList_ofList, String.toList_ofList, hparts]

/-- A text gives a token where it spells the word, a gap and that token between blanks. -/
theorem tokenOfText?_eq_some_iff {s token : String} : tokenOfText? s = some token ↔
    ∃ lead word gap trail, Spells s.toList lead word gap token.toList trail := by
  constructor
  · intro h
    rw [tokenOfText?] at h
    split at h
    · cases h
    · rename_i word rest hsplit
      have hparts := toList_of_splitAtSpace? hsplit
      rw [Text.trim, String.toList_ofList] at hparts
      dsimp only at h
      split at h
      · cases h
      · rename_i hbad
        obtain rfl := Option.some.inj h
        rw [Bool.or_eq_true, Bool.not_eq_true', not_or, Bool.not_eq_false] at hbad
        obtain ⟨hword, htoken⟩ := hbad
        rw [← String.ofList_toList (s := word), eqIgnoringCase_iff] at hword
        have hne : trimChars rest.toList ≠ [] := by
          intro hnil
          rw [Text.trim, hnil] at htoken
          exact htoken rfl
        -- The blanks around the text are one trimming, those around the token another.
        obtain ⟨lead, trail, hs, hlead, htrail⟩ := Text.exists_trimChars s.toList
        obtain ⟨gap, after, hrest, hgap, hafter⟩ := Text.exists_trimChars rest.toList
        have hwhole : s.toList = lead ++ (word.toList ++ (' ' :: gap ++ trimChars rest.toList)) ++
            (after ++ trail) := by
          calc s.toList = lead ++ (word.toList ++ ' ' :: rest.toList) ++ trail := by
                rw [← hparts, ← hs]
            _ = lead ++ (word.toList ++ ' ' :: (gap ++ trimChars rest.toList ++ after)) ++ trail := by
                rw [← hrest]
            _ = lead ++ (word.toList ++ (' ' :: gap ++ trimChars rest.toList)) ++
                  (after ++ trail) := by
                simp only [List.append_assoc, List.cons_append]
        have hbehind : (after ++ trail).all isBlank = true := by
          rw [List.all_append, hafter, htrail]
          rfl
        refine ⟨lead, word.toList, gap, after ++ trail, ?_⟩
        rw [Text.trim, String.toList_ofList]
        exact ⟨hwhole, hlead, hgap, hbehind, hword, Text.isTrimmed_trimChars hne⟩
  · rintro ⟨lead, word, gap, trail, hs, hlead, hgap, htrail, hword, htoken⟩
    have hends : IsTrimmed (word ++ (' ' :: gap ++ token.toList)) :=
      (isTrimmed_word hword).append (' ' :: gap) htoken
    have htrim : Text.trim s = String.ofList (word ++ ' ' :: (gap ++ token.toList)) := by
      rw [Text.trim, hs, Text.trimChars_append hlead hends htrail]
      rfl
    have hafter : Text.trim (String.ofList (gap ++ token.toList)) = token := by
      have hnone : trimChars (gap ++ token.toList ++ []) = token.toList :=
        Text.trimChars_append hgap htoken rfl
      rw [List.append_nil] at hnone
      rw [Text.trim, String.toList_ofList, hnone, String.ofList_toList]
    have hne : token.isEmpty = false := by
      rw [Bool.eq_false_iff]
      intro hempty
      rw [String.isEmpty_iff] at hempty
      exact htoken.ne_nil (by rw [hempty]; rfl)
    rw [tokenOfText?, htrim, splitAtSpace?_eq (not_isBlank_of_word hword)]
    simp only [hafter, (eqIgnoringCase_iff word).2 hword, hne, Bool.not_true, Bool.or_self,
      Bool.false_eq_true, if_false]

theorem isReadable_iff {x : UInt8} : Http.isReadable x = true ↔ x = 0x09 ∨ 0x20 ≤ x ∧ x ≤ 0x7e := by
  rw [Http.isReadable, Bool.or_eq_true, Bool.and_eq_true, beq_iff_eq, decide_eq_true_eq,
    decide_eq_true_eq]

theorem isAscii_of_readable {value : Bytes} (h : ∀ x ∈ value, Http.isReadable x = true) :
    value.IsAscii := by
  intro x hx
  rcases isReadable_iff.1 (h x hx) with rfl | ⟨-, hle⟩
  · decide
  · rw [UInt8.lt_iff_toNat_lt]
    exact Nat.lt_succ_of_le (Nat.le_trans (UInt8.le_iff_toNat_le.1 hle) (by decide))

/-- A header has a text where all its bytes are visible or blank. -/
theorem headerText?_eq_some_iff {value : Bytes} {s : String} : Http.headerText? value = some s ↔
    value = Bytes.ofText s ∧ ∀ x ∈ value, Http.isReadable x = true := by
  rw [Http.headerText?]
  constructor
  · intro h
    split at h
    · rename_i hread
      have hbytes := List.all_eq_true.1 hread
      obtain rfl := Option.some.inj h
      exact ⟨(Bytes.ofText_asciiText (isAscii_of_readable hbytes)).symm, hbytes⟩
    · cases h
  · rintro ⟨hs, hbytes⟩
    have htext : Bytes.ofText value.asciiText = Bytes.ofText s := by
      rw [← hs, Bytes.ofText_asciiText (isAscii_of_readable hbytes)]
    rw [if_pos (List.all_eq_true.2 hbytes)]
    exact congrArg some (Bytes.ofText_injective htext)

/-- The blanks of a header value are its spaces and tabs. -/
theorem isBlank_iff_of_readable {s : String}
    (h : ∀ x ∈ Bytes.ofText s, Http.isReadable x = true) {c : Char} (hc : c ∈ s.toList) :
    isBlank c = true ↔ c = ' ' ∨ c = '\t' := by
  have htable : ∀ n : Fin 0x80, Http.isReadable (UInt8.ofNat n.val) = true →
      (isBlank (Char.ofNat n.val) = true ↔ Char.ofNat n.val = ' ' ∨ Char.ofNat n.val = '\t') := by
    decide +kernel
  have hascii : Bytes.IsAscii (Bytes.ofText s) := isAscii_of_readable h
  have htext : s = Bytes.asciiText (Bytes.ofText s) :=
    Bytes.ofText_injective (Bytes.ofText_asciiText hascii).symm
  rw [htext, Bytes.asciiText, String.toList_ofList] at hc
  obtain ⟨x, hx, rfl⟩ := List.mem_map.1 hc
  have hsmall : x.toNat < 0x80 := UInt8.lt_iff_toNat_lt.1 (hascii x hx)
  exact htable ⟨x.toNat, hsmall⟩ (by rw [UInt8.ofNat_toNat]; exact h x hx)

/-- Spaces and tabs. -/
def IsPadding (s : String) : Prop := ∀ c ∈ s.toList, c = ' ' ∨ c = '\t'

/-- A header value of printable ASCII and tabs that presents a token: padding, the word, a space, padding,
the token, padding. -/
structure Presents (value : Bytes) (lead word gap token trail : String) : Prop where
  parts : value = Bytes.ofText (lead ++ word ++ " " ++ gap ++ token ++ trail)
  readable : ∀ x ∈ value, x = 0x09 ∨ 0x20 ≤ x ∧ x ≤ 0x7e
  lead_padding : IsPadding lead
  gap_padding : IsPadding gap
  trail_padding : IsPadding trail
  word_eq : Text.asciiLower word = "bearer"
  token_ne : token ≠ ""
  token_head : ∀ c, token.toList.head? = some c → c ≠ ' ' ∧ c ≠ '\t'
  token_last : ∀ c, token.toList.getLast? = some c → c ≠ ' ' ∧ c ≠ '\t'

section Parts

variable {whole part : String} (hread : ∀ x ∈ Bytes.ofText whole, Http.isReadable x = true)
  (hpart : part.toList ⊆ whole.toList)
include hread hpart

/-- Within a header, blanks are spaces and tabs. -/
theorem all_isBlank_iff : part.toList.all isBlank = true ↔ IsPadding part := by
  rw [List.all_eq_true, IsPadding]
  exact forall₂_congr fun c hc => isBlank_iff_of_readable hread (hpart hc)

theorem isTrimmed_iff : IsTrimmed part.toList ↔ part ≠ "" ∧
    (∀ c, part.toList.head? = some c → c ≠ ' ' ∧ c ≠ '\t') ∧
      ∀ c, part.toList.getLast? = some c → c ≠ ' ' ∧ c ≠ '\t' := by
  have hend (c : Char) (hc : c ∈ part.toList) : isBlank c = false ↔ c ≠ ' ' ∧ c ≠ '\t' := by
    rw [← Bool.not_eq_true, isBlank_iff_of_readable hread (hpart hc), not_or]
  have hempty : part.toList = [] ↔ part = "" := String.toList_eq_nil_iff
  constructor
  · intro h
    refine ⟨mt hempty.2 h.ne_nil, ?_, ?_⟩
    · intro c hc
      exact (hend c (List.mem_of_mem_head? hc)).1 (h.head c hc)
    · intro c hc
      exact (hend c (List.mem_of_mem_getLast? hc)).1 (h.last c hc)
  · rintro ⟨hne, hhead, hlast⟩
    refine ⟨mt hempty.1 hne, ?_, ?_⟩
    · intro c hc
      exact (hend c (List.mem_of_mem_head? hc)).2 (hhead c hc)
    · intro c hc
      exact (hend c (List.mem_of_mem_getLast? hc)).2 (hlast c hc)

end Parts

/-- A header value presents a token as the characters of its text do. -/
theorem presents_iff {value : Bytes} {lead word gap token trail : String} :
    Presents value lead word gap token trail ↔ ∃ s, Http.headerText? value = some s ∧
      Spells s.toList lead.toList word.toList gap.toList token.toList trail.toList := by
  obtain ⟨whole, hwhole⟩ : ∃ whole, whole = lead ++ word ++ " " ++ gap ++ token ++ trail := ⟨_, rfl⟩
  have hlist : whole.toList =
      lead.toList ++ (word.toList ++ (' ' :: gap.toList ++ token.toList)) ++ trail.toList := by
    simp only [hwhole, String.toList_append, List.append_assoc, List.cons_append]
    rfl
  -- blanks of a part are told by the bytes of the header only because the part is within it
  have hwithin : ∀ part ∈ [lead, gap, token, trail], part.toList ⊆ whole.toList := by
    intro part hpart c hc
    simp only [List.mem_cons, List.not_mem_nil, or_false] at hpart
    rcases hpart with rfl | rfl | rfl | rfl <;> simp [hlist, hc]
  have hlead := hwithin lead (by simp)
  have hgap := hwithin gap (by simp)
  have htoken := hwithin token (by simp)
  have htrail := hwithin trail (by simp)
  have hword : Text.asciiLower word = "bearer" ↔
      word.toList.map Char.toLower = "bearer".toList := by
    rw [Text.asciiLower, ← String.toList_inj, String.toList_ofList]
  constructor
  · intro h
    have hvalue : value = Bytes.ofText whole := by rw [hwhole, h.parts]
    have hreadable : ∀ x ∈ value, Http.isReadable x = true :=
      fun x hx => isReadable_iff.2 (h.readable x hx)
    have hread : ∀ x ∈ Bytes.ofText whole, Http.isReadable x = true := by rwa [← hvalue]
    refine ⟨whole, headerText?_eq_some_iff.2 ⟨hvalue, hreadable⟩, ?_⟩
    exact {
      parts := hlist
      lead_blank := (all_isBlank_iff hread hlead).2 h.lead_padding
      gap_blank := (all_isBlank_iff hread hgap).2 h.gap_padding
      trail_blank := (all_isBlank_iff hread htrail).2 h.trail_padding
      word_eq := hword.1 h.word_eq
      token_trimmed := (isTrimmed_iff hread htoken).2 ⟨h.token_ne, h.token_head, h.token_last⟩ }
  · rintro ⟨s, hs, h⟩
    obtain ⟨hvalue, hreadable⟩ := headerText?_eq_some_iff.1 hs
    obtain rfl : s = whole := by rw [← String.toList_inj, h.parts, hlist]
    have hread : ∀ x ∈ Bytes.ofText s, Http.isReadable x = true := by rwa [← hvalue]
    obtain ⟨hne, hhead, hlast⟩ := (isTrimmed_iff hread htoken).1 h.token_trimmed
    exact {
      parts := by rw [hvalue, hwhole]
      readable := fun x hx => isReadable_iff.1 (hreadable x hx)
      lead_padding := (all_isBlank_iff hread hlead).1 h.lead_blank
      gap_padding := (all_isBlank_iff hread hgap).1 h.gap_blank
      trail_padding := (all_isBlank_iff hread htrail).1 h.trail_blank
      word_eq := hword.2 h.word_eq
      token_ne := hne
      token_head := hhead
      token_last := hlast }

/-- The first authorization header gives the token, if it presents one, and later ones are not looked at. -/
theorem token_eq_ok_iff {headers : List Bytes} {t : String} : Bearer.token headers = .ok t ↔
    ∃ value later lead word gap trail, headers = value :: later ∧
      Presents value lead word gap t trail := by
  cases headers with
  | nil => simp [Bearer.token]
  | cons value later =>
    have htoken : Bearer.token (value :: later) = .ok t ↔
        (Http.headerText? value).bind tokenOfText? = some t := by
      rw [Bearer.token, List.head?_cons, Option.bind_some]
      cases (Http.headerText? value).bind tokenOfText? <;> simp
    -- the parts that a text spells are those that the header presents
    rw [htoken, Option.bind_eq_some_iff]
    constructor
    · rintro ⟨s, hs, ht⟩
      obtain ⟨lead, word, gap, trail, hspells⟩ := tokenOfText?_eq_some_iff.1 ht
      refine ⟨value, later, String.ofList lead, String.ofList word, String.ofList gap,
        String.ofList trail, rfl, presents_iff.2 ⟨s, hs, ?_⟩⟩
      simpa only [String.toList_ofList] using hspells
    · rintro ⟨value', later', lead, word, gap, trail, hheaders, hpresents⟩
      obtain ⟨rfl, rfl⟩ := List.cons.inj hheaders
      obtain ⟨s, hs, hspells⟩ := presents_iff.1 hpresents
      exact ⟨s, hs, tokenOfText?_eq_some_iff.2 ⟨_, _, _, _, hspells⟩⟩

/-- A token that some header value presents is presented again when it is forwarded. -/
theorem Presents.forwarded {value : Bytes} {lead word gap t trail : String}
    (h : Presents value lead word gap t trail) : Presents (Bearer.forwarded t) "" "Bearer" "" t "" where
  parts := by
    rw [Bearer.forwarded]
    congr 1
    simp
  readable := by
    intro x hx
    rw [Bearer.forwarded, Bytes.ofText_append, List.mem_append] at hx
    -- the word is plain, and the bytes of the token were in the header already
    rcases hx with hword | htoken
    · have hall : (Bytes.ofText "Bearer ").all Http.isReadable = true := by decide
      exact isReadable_iff.1 (List.all_eq_true.1 hall x hword)
    · apply h.readable x
      simp [h.parts, Bytes.ofText_append, htoken]
  lead_padding := by simp [IsPadding]
  gap_padding := by simp [IsPadding]
  trail_padding := by simp [IsPadding]
  word_eq := by decide
  token_ne := h.token_ne
  token_head := h.token_head
  token_last := h.token_last

/-- Whatever a header may hold can be sent on. -/
theorem isSendable_of_readable {x : UInt8} (h : x = 0x09 ∨ 0x20 ≤ x ∧ x ≤ 0x7e) :
    isSendable x = true := by
  rw [isSendable, Bool.or_eq_true, Bool.and_eq_true, beq_iff_eq, decide_eq_true_eq, bne_iff_ne]
  refine h.imp_right fun ⟨hlow, hhigh⟩ => ⟨hlow, ?_⟩
  rintro rfl
  exact absurd hhigh (by decide)

/-- Headers give a token just when the first one presents it: printable ASCII and tabs that are, between
padding, the word `bearer` in any letter case, a space directly behind it, and then the token, behind more
padding if there is some. All other headers are refused in the same way. A token is not empty, neither
begins nor ends with a blank, is sent to every service, and what is sent gives the same token again. -/
theorem bearer_tokens_exact :
    (∀ headers t, Bearer.token headers = .ok t ↔
      ∃ value later lead word gap trail, headers = value :: later ∧
        Presents value lead word gap t trail) ∧
    (∀ headers, (∀ t, Bearer.token headers ≠ .ok t) → Bearer.token headers = .error .missingBearer) ∧
    (∀ headers t, Bearer.token headers = .ok t →
      t ≠ "" ∧ (∀ c, t.toList.head? = some c → isBlank c = false) ∧
        (∀ c, t.toList.getLast? = some c → isBlank c = false) ∧
        (∀ service : RemoteService, service.ask t = service t) ∧
        ∀ later, Bearer.token (forwarded t :: later) = .ok t) := by
  refine ⟨fun headers t => token_eq_ok_iff, ?refused, ?again⟩
  case refused =>
    intro headers hnone
    unfold Bearer.token at hnone ⊢
    split
    · rename_i t ht
      rw [ht] at hnone
      exact absurd rfl (hnone t)
    · rfl
  case again =>
    intro headers t ht
    obtain ⟨value, later, lead, word, gap, trail, rfl, hpresents⟩ := token_eq_ok_iff.1 ht
    have hforwarded := hpresents.forwarded
    obtain ⟨s, -, hspells⟩ := presents_iff.1 hpresents
    refine ⟨hpresents.token_ne, hspells.token_trimmed.head, hspells.token_trimmed.last, ?_, ?_⟩
    · intro service
      -- every byte of a header that can be read can be sent
      have hsent : (forwarded t).all isSendable = true := by
        rw [List.all_eq_true]
        intro x hx
        exact isSendable_of_readable (hforwarded.readable x hx)
      rw [RemoteService.ask, if_pos hsent]
    · intro later
      exact token_eq_ok_iff.2 ⟨_, later, _, _, _, _, rfl, hforwarded⟩

end Bearer
end IndexVault
