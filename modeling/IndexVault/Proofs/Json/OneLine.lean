import IndexVault.Json.Value
import IndexVault.Proofs.Text.Printable

namespace IndexVault.Json

open Bytes (IsPrintable)

/-- All texts and names in a value are ASCII, and its numbers are whole. -/
inductive Value.IsAscii : Value → Prop
  | null : IsAscii .null
  | bool (b : Bool) : IsAscii (.bool b)
  | whole (n : Int) : IsAscii (.number (.whole n))
  | text {s : String} (hs : (Bytes.ofText s).IsAscii) : IsAscii (.text s)
  | array {items : List Value} (hitems : ∀ v ∈ items, IsAscii v) : IsAscii (.array items)
  | object {members : List (String × Value)} (hnames : ∀ m ∈ members, (Bytes.ofText m.1).IsAscii)
    (hvalues : ∀ m ∈ members, IsAscii m.2) : IsAscii (.object members)

/-- An ASCII byte is escaped to printable ones. -/
theorem isPrintable_escapeByte {b : UInt8} (h : b < 0x80) : IsPrintable (escapeByte b) := by
  -- All 128 characters are looked at, for some have an escape of their own.
  have table : ∀ m : Fin 0x80, IsPrintable (escapeByte (UInt8.ofNat m.val)) := by decide
  have hb := table ⟨b.toNat, UInt8.lt_iff_toNat_lt.1 h⟩
  rw [UInt8.ofNat_toNat] at hb
  exact hb

/-- A string of ASCII is written in printable ASCII. -/
theorem isPrintable_quoted {s : String} (h : (Bytes.ofText s).IsAscii) :
    IsPrintable (quoted s) := by
  have hescaped : IsPrintable ((Bytes.ofText s).flatMap escapeByte) := by
    intro x hx
    obtain ⟨b, hb, hx⟩ := List.mem_flatMap.1 hx
    exact isPrintable_escapeByte (h b hb) x hx
  exact (IsPrintable.cons (by decide) hescaped).append (.cons (by decide) Bytes.isPrintable_nil)

/-- What holds of separators and of all pieces, and is kept when bytes are put behind one another, holds of
the pieces as they are joined. -/
theorem joined_of_append {p : Bytes → Prop} (hnil : p []) (happend : ∀ {b b'}, p b → p b' → p (b ++ b'))
    {sep : Bytes} (hsep : p sep) {pieces : List Bytes} (h : ∀ piece ∈ pieces, p piece) :
    p (joined sep pieces) := by
  induction pieces with
  | nil => exact hnil
  | cons piece rest ih =>
    have hpiece := h piece List.mem_cons_self
    have hrest := ih fun b hb => h b (List.mem_cons_of_mem piece hb)
    cases rest with
    | nil => exact hpiece
    | cons next rest => exact happend (happend hpiece hsep) hrest

/-- Printable pieces are joined to a printable text. -/
theorem isPrintable_joined {pieces : List Bytes} (h : ∀ piece ∈ pieces, IsPrintable piece) :
    IsPrintable (joined [0x2c] pieces) :=
  joined_of_append Bytes.isPrintable_nil IsPrintable.append (.cons (by decide) Bytes.isPrintable_nil) h

theorem compactItems_eq_map (items : List Value) : compactItems items = items.map Value.compact := by
  induction items with
  | nil => rfl
  | cons v rest ih => rw [compactItems, ih, List.map_cons]

theorem compactMembers_eq_map (members : List (String × Value)) :
    compactMembers members = members.map fun m => quoted m.1 ++ 0x3a :: m.2.compact := by
  induction members with
  | nil => rfl
  | cons m rest ih => rw [compactMembers, ih, List.map_cons]

/-- A value whose texts are ASCII is written in printable ASCII: it has no line break and no other control
character in it. -/
theorem Value.IsAscii.isPrintable_compact {v : Value} (h : v.IsAscii) : IsPrintable v.compact := by
  -- brackets and braces around printable bytes
  have between {first last : UInt8} {b : Bytes} (hfirst : 0x20 ≤ first ∧ first < 0x80)
      (hb : IsPrintable b) (hlast : 0x20 ≤ last ∧ last < 0x80) :
      IsPrintable (first :: b ++ [last]) :=
    (IsPrintable.cons hfirst hb).append (.cons hlast Bytes.isPrintable_nil)
  induction h with
  | null => decide
  | bool b => cases b <;> decide
  | whole n => exact Text.isPrintable_signedDigits n
  | text hs => exact isPrintable_quoted hs
  | array _ ih =>
    refine between (by decide) (isPrintable_joined fun piece hpiece => ?_) (by decide)
    rw [compactItems_eq_map] at hpiece
    obtain ⟨v, hv, rfl⟩ := List.mem_map.1 hpiece
    exact ih v hv
  | object hnames _ ih =>
    refine between (by decide) (isPrintable_joined fun piece hpiece => ?_) (by decide)
    rw [compactMembers_eq_map] at hpiece
    obtain ⟨m, hm, rfl⟩ := List.mem_map.1 hpiece
    exact (isPrintable_quoted (hnames m hm)).append (.cons (by decide) (ih m hm))

end IndexVault.Json
