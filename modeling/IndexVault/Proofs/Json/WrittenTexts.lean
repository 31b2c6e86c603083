import IndexVault.Proofs.Json.OneLine
import IndexVault.Proofs.Text.BlankTexts

namespace IndexVault

namespace Bytes

/-- Texts one after the other are a text. -/
theorem isText_flatMap {α : Type} {l : List α} {f : α → Bytes} (h : ∀ a ∈ l, (f a).IsText) :
    IsText (l.flatMap f) := by
  induction l with
  | nil => exact isText_ofText ""
  | cons a l ih =>
    rw [List.flatMap_cons]
    exact (h a List.mem_cons_self).append (ih fun a ha => h a (List.mem_cons_of_mem _ ha))

theorem isText_utf8EncodeChar (c : Char) : IsText (String.utf8EncodeChar c) := by
  have hchar : ofText (String.singleton c) = String.utf8EncodeChar c := by
    rw [ofText_eq_flatMap, String.toList_singleton, List.flatMap_singleton]
  rw [← hchar]
  exact isText_ofText _

/-- A character beyond ASCII has no ASCII among its bytes. -/
theorem le_of_mem_utf8EncodeChar {c : Char} (hc : 0x80 ≤ c.toNat) {b : UInt8}
    (hb : b ∈ String.utf8EncodeChar c) : 0x80 ≤ b := by
  have high (n : Nat) (hlow : 0x80 ≤ n) (hbyte : n < 0x100) : 0x80 ≤ UInt8.ofNat n := by
    rw [UInt8.le_iff_toNat_le, UInt8.toNat_ofNat', Nat.mod_eq_of_lt hbyte]
    exact hlow
  rw [Char.toNat] at hc
  rw [String.utf8EncodeChar] at hb
  -- The character is of two, three or four bytes.
  split at hb
  · omega
  split at hb
  · simp only [List.mem_cons, List.not_mem_nil, or_false] at hb
    rcases hb with rfl | rfl <;> exact high _ (by omega) (by omega)
  split at hb
  · simp only [List.mem_cons, List.not_mem_nil, or_false] at hb
    rcases hb with rfl | rfl | rfl <;> exact high _ (by omega) (by omega)
  · simp only [List.mem_cons, List.not_mem_nil, or_false] at hb
    rcases hb with rfl | rfl | rfl | rfl <;> exact high _ (by omega) (by omega)

end Bytes

namespace Json

open Bytes (IsText)

/-- No byte beyond ASCII has an escape. -/
theorem escapeByte_of_le {b : UInt8} (h : 0x80 ≤ b) : escapeByte b = [b] := by
  -- All bytes beyond ASCII are looked at one by one.
  have table : ∀ m : Fin 0x80, escapeByte (UInt8.ofNat (0x80 + m.val)) = [UInt8.ofNat (0x80 + m.val)] := by
    decide
  have hlow : 0x80 ≤ b.toNat := UInt8.le_iff_toNat_le.1 h
  have hb := table ⟨b.toNat - 0x80, by have := b.toNat_lt; omega⟩
  rwa [Nat.add_sub_cancel' hlow, UInt8.ofNat_toNat] at hb

/-- A character beyond ASCII is written as it is. -/
theorem flatMap_escapeByte_of_le {b : Bytes} (h : ∀ x ∈ b, 0x80 ≤ x) : b.flatMap escapeByte = b := by
  induction b with
  | nil => rfl
  | cons x b ih =>
    rw [List.flatMap_cons, escapeByte_of_le (h x List.mem_cons_self),
      ih fun y hy => h y (List.mem_cons_of_mem _ hy)]
    rfl

/-- An escaped character is a text: it stays as it is, or its one byte is written in ASCII. -/
theorem isText_escaped (c : Char) : IsText ((String.utf8EncodeChar c).flatMap escapeByte) := by
  by_cases hc : 0x80 ≤ c.toNat
  · rw [flatMap_escapeByte_of_le fun _ => Bytes.le_of_mem_utf8EncodeChar hc]
    exact Bytes.isText_utf8EncodeChar c
  · have hlow : UInt8.ofNat c.toNat < 0x80 := by
      rw [UInt8.lt_iff_toNat_lt, UInt8.toNat_ofNat']
      exact Nat.lt_of_le_of_lt (Nat.mod_le _ _) (Nat.lt_of_not_le hc)
    rw [Bytes.utf8EncodeChar_of_toNat_lt (Nat.lt_of_not_le hc), List.flatMap_singleton]
    exact (isPrintable_escapeByte hlow).isAscii.isText

/-- A string is escaped byte by byte, and no byte of a character beyond ASCII has an escape, so its
characters stay whole. -/
theorem isText_quoted (s : String) : IsText (quoted s) := by
  have hescaped : IsText ((Bytes.ofText s).flatMap escapeByte) := by
    rw [Bytes.ofText_eq_flatMap, List.flatMap_assoc]
    exact Bytes.isText_flatMap fun c _ => isText_escaped c
  exact (hescaped.cons (by decide)).append (Bytes.isText_ofText "\"")

/-- A number is written in ASCII. -/
theorem isText_written (n : Number) : IsText n.written := by
  cases n with
  | whole n => exact (Text.isPrintable_signedDigits n).isAscii.isText
  | decimal negative mantissa exponent =>
    have hsign : IsText (if negative then [0x2d] else []) := by
      cases negative
      · exact Bytes.isText_ofText ""
      · exact Bytes.isText_ofText "-"
    have hmantissa : IsText (Text.digits mantissa) := (Text.isPrintable_digits mantissa).isAscii.isText
    have hexponent : IsText (Text.signedDigits exponent) :=
      (Text.isPrintable_signedDigits exponent).isAscii.isText
    exact (hsign.append hmantissa).append (hexponent.cons (by decide))

theorem isText_lineBreak (level : Nat) : IsText (lineBreak level) := by
  have hblanks : Bytes.IsAscii (List.replicate (2 * level) 0x20) := by
    intro b hb
    rw [(List.mem_replicate.1 hb).2]
    decide
  exact hblanks.isText.cons (by decide)

/-- Brackets around pieces on lines of their own. -/
theorem isText_bracketed {first last : UInt8} (hfirst : first < 0x80) (hlast : last < 0x80)
    (level : Nat) {pieces : List Bytes} (h : ∀ piece ∈ pieces, IsText piece) :
    IsText (first :: lineBreak (level + 1) ++ joined (0x2c :: lineBreak (level + 1)) pieces ++
      lineBreak level ++ [last]) := by
  have hbegin : IsText (first :: lineBreak (level + 1)) := (isText_lineBreak _).cons hfirst
  have hsep : IsText (0x2c :: lineBreak (level + 1)) := (isText_lineBreak _).cons (by decide)
  have hend : IsText [last] := (Bytes.isText_ofText "").cons hlast
  have hpieces := joined_of_append (Bytes.isText_ofText "") IsText.append hsep h
  exact ((hbegin.append hpieces).append (isText_lineBreak level)).append hend

mutual

/-- A value is written as a text. -/
theorem isText_prettyAt (level : Nat) : (v : Value) → IsText (v.prettyAt level)
  | .null => Bytes.isText_ofText "null"
  | .bool true => Bytes.isText_ofText "true"
  | .bool false => Bytes.isText_ofText "false"
  | .number n => isText_written n
  | .text s => isText_quoted s
  | .array [] => Bytes.isText_ofText "[]"
  | .array (v :: rest) => by
    rw [Value.prettyAt]
    exact isText_bracketed (by decide) (by decide) level (isText_prettyItems (level + 1) (v :: rest))
  | .object [] => Bytes.isText_ofText "{}"
  | .object (m :: rest) => by
    rw [Value.prettyAt]
    exact isText_bracketed (by decide) (by decide) level
      (isText_prettyMembers (level + 1) (m :: rest))

theorem isText_prettyItems (level : Nat) :
    (items : List Value) → ∀ piece ∈ prettyItems level items, IsText piece
  | [] => by
    intro piece hpiece
    cases hpiece
  | v :: rest => by
    rw [prettyItems]
    exact List.forall_mem_cons.2 ⟨isText_prettyAt level v, isText_prettyItems level rest⟩

theorem isText_prettyMembers (level : Nat) :
    (members : List (String × Value)) → ∀ piece ∈ prettyMembers level members, IsText piece
  | [] => by
    intro piece hpiece
    cases hpiece
  | (name, v) :: rest => by
    have hvalue := (isText_prettyAt level v).cons (by decide : (0x20 : UInt8) < 0x80)
    have hmember := (isText_quoted name).append (hvalue.cons (by decide : (0x3a : UInt8) < 0x80))
    rw [prettyMembers]
    exact List.forall_mem_cons.2 ⟨hmember, isText_prettyMembers level rest⟩

end

end Json
end IndexVault
