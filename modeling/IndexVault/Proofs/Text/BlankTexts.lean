import IndexVault.Proofs.Text.Printable
import IndexVault.Text.Blank

namespace IndexVault

namespace Bytes

/-- Bytes are the text that spells them, and no other. -/
theorem toText?_eq_some_iff {b : Bytes} {s : String} : toText? b = some s ↔ b = ofText s := by
  constructor
  · intro h
    rw [toText?, String.fromUTF8?] at h
    split at h
    · cases h
      rfl
    · cases h
  · rintro rfl
    exact toText?_ofText s

theorem ofText_append (s t : String) : ofText (s ++ t) = ofText s ++ ofText t := by
  rw [ofText, String.toByteArray_append, ByteArray.data_append, Array.toList_append]
  rfl

theorem ofText_eq_flatMap (s : String) : ofText s = s.toList.flatMap String.utf8EncodeChar := by
  rw [ofText, ← String.utf8Encode_toList, List.utf8Encode]
  simp

/-- The bytes are those of a text. -/
def IsText (b : Bytes) : Prop := (toText? b).isSome = true

theorem isText_ofText (s : String) : (ofText s).IsText := by
  rw [IsText, toText?_ofText]
  rfl

/-- Bytes that are a text are those of some string. -/
theorem IsText.exists_ofText {b : Bytes} (h : b.IsText) : ∃ s, b = ofText s := by
  obtain ⟨s, hs⟩ := Option.isSome_iff_exists.1 h
  exact ⟨s, toText?_eq_some_iff.1 hs⟩

theorem IsAscii.isText {b : Bytes} (h : b.IsAscii) : b.IsText := by
  rw [IsText, toText?_of_isAscii h]
  rfl

/-- Two texts one behind the other are a text. -/
theorem IsText.append {b b' : Bytes} (h : b.IsText) (h' : b'.IsText) : (b ++ b').IsText := by
  obtain ⟨s, rfl⟩ := h.exists_ofText
  obtain ⟨s', rfl⟩ := h'.exists_ofText
  rw [← ofText_append]
  exact isText_ofText _

theorem IsText.cons {x : UInt8} {b : Bytes} (hx : x < 0x80) (h : b.IsText) : IsText (x :: b) := by
  have hascii : IsAscii [x] := fun y hy => by rwa [List.mem_singleton.1 hy]
  exact hascii.isText.append h

end Bytes

namespace Text

/-- The codes of the blank characters. -/
def blankCodes : List Nat :=
  [0x09, 0x0a, 0x0b, 0x0c, 0x0d, 0x20, 0x85, 0xa0, 0x1680, 0x2000, 0x2001, 0x2002, 0x2003, 0x2004,
    0x2005, 0x2006, 0x2007, 0x2008, 0x2009, 0x200a, 0x2028, 0x2029, 0x202f, 0x205f, 0x3000]

/-- The blanks are among 25 characters. -/
theorem toNat_mem_blankCodes {c : Char} (h : isBlank c = true) : c.toNat ∈ blankCodes := by
  simp only [isBlank, Bool.or_eq_true, Bool.and_eq_true, decide_eq_true_eq, beq_iff_eq] at h
  simp only [blankCodes, List.mem_cons, List.not_mem_nil, or_false]
  omega

/-- What holds of all blank characters, looked at one by one. -/
theorem forall_of_isBlank {p : Char → Prop} (h : ∀ n ∈ blankCodes, p (Char.ofNat n)) {c : Char}
    (hc : isBlank c = true) : p c := by
  rw [← Char.ofNat_toNat c]
  exact h c.toNat (toNat_mem_blankCodes hc)

end Text
end IndexVault
