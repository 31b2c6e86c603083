import Mathlib.Algebra.Group.Nat.Defs
import Mathlib.Data.List.Forall2
import IndexVault.Proofs.Wire.RoundTrip

/-! What the fields of a payload look like, said without reading them. A form tells which bytes spell
a value, and how an input fails that does not begin with a value: by its first part that is not there,
with the bytes that are left at that part. A read follows a form when it answers just that, and reads
put one after the other follow their forms put one after the other (`Follows.bind`). -/
namespace IndexVault.Wire

/-- The bytes that spell each value, and the faults of inputs that begin with none, each with the bytes
left when it shows. -/
structure Form (α : Type) where
  Spells : Bytes → α → Prop
  Fails : Bytes → PayloadError → Bytes → Prop

namespace Form

variable {α β : Type}

/-- No bytes, for a value that is known. -/
def value (x : α) : Form α where
  Spells b y := b = [] ∧ y = x
  Fails _ _ _ := False

/-- One form after the other; the second one may depend on the value of the first. -/
def andThen (F : Form α) (G : α → Form β) : Form β where
  Spells b y := ∃ b₁ b₂ x, b = b₁ ++ b₂ ∧ F.Spells b₁ x ∧ (G x).Spells b₂ y
  Fails input e left := F.Fails input e left ∨
    ∃ b rest x, input = b ++ rest ∧ F.Spells b x ∧ (G x).Fails rest e left

end Form

/-- A read that takes what a form spells from the front of any input, and fails as the form does. -/
structure Follows {α : Type} (r : Read α) (F : Form α) : Prop where
  ok_iff : ∀ {input x rest}, r.run input = (.ok x, rest) ↔ ∃ b, input = b ++ rest ∧ F.Spells b x
  error_iff : ∀ {input e left}, r.run input = (.error e, left) ↔ F.Fails input e left

namespace Follows

variable {α β : Type}

theorem pure (x : α) : Follows (Pure.pure x) (Form.value x) where
  ok_iff := by
    intro input y rest
    rw [Attempt.run_pure]
    constructor
    · intro h
      cases h
      exact ⟨[], rfl, rfl, rfl⟩
    · rintro ⟨b, rfl, rfl, rfl⟩
      rfl
  error_iff := by
    intro input e left
    rw [Attempt.run_pure]
    exact iff_of_false (by rintro ⟨⟩) id

/-- Reads put one after the other follow their forms put one after the other. -/
theorem bind {r : Read α} {F : Form α} {f : α → Read β} {G : α → Form β} (hr : Follows r F)
    (hf : ∀ x, Follows (f x) (G x)) : Follows (r >>= f) (F.andThen G) where
  ok_iff := by
    intro input y rest
    rw [Attempt.run_bind_eq_ok_iff]
    constructor
    · rintro ⟨x, later, hx, hy⟩
      obtain ⟨b₁, rfl, hb₁⟩ := hr.ok_iff.1 hx
      obtain ⟨b₂, rfl, hb₂⟩ := (hf x).ok_iff.1 hy
      exact ⟨b₁ ++ b₂, (List.append_assoc b₁ b₂ rest).symm, b₁, b₂, x, rfl, hb₁, hb₂⟩
    · rintro ⟨b, rfl, b₁, b₂, x, rfl, hb₁, hb₂⟩
      exact ⟨x, b₂ ++ rest, hr.ok_iff.2 ⟨b₁, List.append_assoc b₁ b₂ rest, hb₁⟩,
        (hf x).ok_iff.2 ⟨b₂, rfl, hb₂⟩⟩
  error_iff := by
    intro input e left
    rw [Attempt.run_bind_eq_error_iff]
    constructor
    -- the first part fails, or it is there and the second one fails
    · rintro (hx | ⟨x, later, hx, hy⟩)
      · exact Or.inl (hr.error_iff.1 hx)
      · obtain ⟨b, rfl, hb⟩ := hr.ok_iff.1 hx
        exact Or.inr ⟨b, later, x, rfl, hb, (hf x).error_iff.1 hy⟩
    · rintro (hx | ⟨b, rest, x, rfl, hb, hy⟩)
      · exact Or.inl (hr.error_iff.2 hx)
      · exact Or.inr ⟨x, rest, hr.ok_iff.2 ⟨b, rfl, hb⟩, (hf x).error_iff.2 hy⟩

end Follows

/-- Bytes that spell a number in groups of seven bits, lowest first: every byte but the last one has
its high bit set. Groups of zeros may follow the highest bit. -/
inductive Groups : Bytes → Nat → Prop
  | last {x : UInt8} (h : x.toNat < 128) : Groups [x] x.toNat
  | more {x : UInt8} {b : Bytes} {n : Nat} (h : 128 ≤ x.toNat) (hb : Groups b n) :
    Groups (x :: b) (x.toNat % 128 + 128 * n)

/-- How an input fails that does not begin with a number of at most `most` groups: its last possible
byte goes on or carries more than one bit, or the input ends while its bytes go on. -/
inductive GroupsFail (most : Nat) : Bytes → PayloadError → Bytes → Prop
  | overflow (front : Bytes) {left : Bytes} {x : UInt8} (hlength : front.length + 1 = most)
      (hfront : ∀ y ∈ front, 128 ≤ y.toNat) (hx : 1 < x.toNat) :
    GroupsFail most (front ++ x :: left) .integerOverflow left
  | ends {input : Bytes} (hlength : input.length < most) (hinput : ∀ y ∈ input, 128 ≤ y.toNat) :
    GroupsFail most input (.unexpectedEnd 1 0) []

theorem Groups.length_pos {b : Bytes} {n : Nat} (h : Groups b n) : 0 < b.length := by
  cases h <;> exact Nat.succ_pos _

theorem pow_groups_succ (g : Nat) : 2 * 128 ^ (g + 1) = 128 * (2 * 128 ^ g) := by
  rw [Nat.pow_succ]
  omega

/-- Groups that spell a number which fits are read as that number. -/
theorem readGroups_of_groups {b : Bytes} {n g : Nat} (h : Groups b n) (hlength : b.length ≤ g + 1)
    (hn : n < 2 * 128 ^ g) (rest : Bytes) : readGroups (g + 1) (b ++ rest) = (.ok n, rest) := by
  induction h generalizing g with
  | @last x hx =>
    have hbit : ¬(g = 0 ∧ 1 < x.toNat % 128) := by
      rintro ⟨rfl, hone⟩
      rw [Nat.pow_zero] at hn
      omega
    rw [List.singleton_append, readGroups, if_neg hbit, if_pos hx]
  | @more x b n hx hb ih =>
    have hpos := hb.length_pos
    rw [List.length_cons] at hlength
    obtain ⟨g, rfl⟩ : ∃ g', g = g' + 1 := ⟨g - 1, by omega⟩
    rw [pow_groups_succ] at hn
    rw [List.cons_append, readGroups, if_neg (by omega), if_neg (by omega),
      ih (by omega) (by omega)]

/-- A number that was read is spelled by the groups that were taken. -/
theorem groups_of_readGroups {g n : Nat} {input rest : Bytes}
    (h : readGroups (g + 1) input = (.ok n, rest)) :
    ∃ b, input = b ++ rest ∧ Groups b n ∧ b.length ≤ g + 1 := by
  -- on the groups that may follow the first one
  induction g generalizing input n with
  | zero =>
    cases input with
    | nil => simp [readGroups] at h
    | cons x later =>
      rw [readGroups] at h
      split at h
      · cases h
      · split at h
        · rename_i hx
          cases h
          exact ⟨[x], rfl, .last hx, Nat.le_refl 1⟩
        · simp [readGroups] at h
  | succ g ih =>
    cases input with
    | nil => simp [readGroups] at h
    | cons x later =>
      rw [readGroups] at h
      split at h
      · cases h
      · split at h
        · rename_i hx
          cases h
          exact ⟨[x], rfl, .last hx, Nat.succ_le_succ (Nat.zero_le _)⟩
        · rename_i hx
          split at h
          · rename_i high rest' hhigh
            cases h
            obtain ⟨b, rfl, hb, hlength⟩ := ih hhigh
            exact ⟨x :: b, rfl, .more (by omega) hb, Nat.succ_le_succ hlength⟩
          · cases h

/-- A number is read where groups spell it, as many as are allowed, and it fits. -/
theorem readGroups_eq_ok_iff {g n : Nat} {input rest : Bytes} :
    readGroups (g + 1) input = (.ok n, rest) ↔
      ∃ b, input = b ++ rest ∧ Groups b n ∧ b.length ≤ g + 1 ∧ n < 2 * 128 ^ g := by
  constructor
  · intro h
    obtain ⟨b, hinput, hb, hlength⟩ := groups_of_readGroups h
    exact ⟨b, hinput, hb, hlength, readGroups_lt h⟩
  · rintro ⟨b, rfl, hb, hlength, hn⟩
    exact readGroups_of_groups hb hlength hn rest

theorem GroupsFail.cons {most : Nat} {x : UInt8} {input left : Bytes} {e : PayloadError}
    (h : GroupsFail most input e left) (hx : 128 ≤ x.toNat) :
    GroupsFail (most + 1) (x :: input) e left := by
  cases h with
  | overflow front hlength hfront hlast =>
    exact .overflow (x :: front) (congrArg (· + 1) hlength)
      (List.forall_mem_cons.2 ⟨hx, hfront⟩) hlast
  | ends hlength hinput =>
    exact .ends (Nat.succ_lt_succ hlength) (List.forall_mem_cons.2 ⟨hx, hinput⟩)

/-- A number that cannot be read fails in one of the ways that its form has. -/
theorem groupsFail_of_readGroups {g : Nat} {input left : Bytes} {e : PayloadError}
    (h : readGroups (g + 1) input = (.error e, left)) : GroupsFail (g + 1) input e left := by
  induction g generalizing input with
  | zero =>
    cases input with
    | nil =>
      cases h
      exact .ends (by simp) (by simp)
    | cons x later =>
      -- The only byte there may be goes on or carries more than one bit.
      have hover : e = .integerOverflow ∧ left = later ∧ 1 < x.toNat := by
        rw [readGroups] at h
        split at h
        · rename_i hbit
          cases h
          exact ⟨rfl, rfl, by omega⟩
        · split at h
          · cases h
          · rw [readGroups] at h
            cases h
            exact ⟨rfl, rfl, by omega⟩
      obtain ⟨rfl, rfl, hx⟩ := hover
      exact .overflow [] rfl (by simp) hx
  | succ g ih =>
    cases input with
    | nil =>
      cases h
      exact .ends (by simp) (by simp)
    | cons x later =>
      rw [readGroups] at h
      split at h
      · rename_i hbit
        exact absurd hbit.1 (by omega)
      · split at h
        · cases h
        · rename_i hx
          split at h
          · cases h
          · rename_i e' left' hhigh
            cases h
            exact (ih hhigh).cons (by omega)

theorem readGroups_cons_of_continues {g : Nat} {x : UInt8} {later left : Bytes} {e : PayloadError}
    (hx : 128 ≤ x.toNat) (h : readGroups (g + 1) later = (.error e, left)) :
    readGroups (g + 2) (x :: later) = (.error e, left) := by
  rw [readGroups, if_neg (by omega), if_neg (by omega), h]

/-- Each way to fail that the form has is an error of the read, with the same bytes left. -/
theorem readGroups_of_groupsFail {g : Nat} {input left : Bytes} {e : PayloadError}
    (h : GroupsFail (g + 1) input e left) : readGroups (g + 1) input = (.error e, left) := by
  cases h with
  | @overflow front left x hlength hfront hx =>
    -- on the groups that go on, each of which uses up one that is allowed
    induction front generalizing g with
    | nil =>
      obtain rfl : g = 0 := (Nat.succ.inj hlength).symm
      rw [List.nil_append, readGroups]
      split
      · rfl
      · rename_i hbit
        rw [if_neg (by omega), readGroups]
    | cons y front ih =>
      obtain ⟨hy, hfront⟩ := List.forall_mem_cons.1 hfront
      rw [List.length_cons] at hlength
      obtain ⟨g, rfl⟩ : ∃ g', g = g' + 1 := ⟨g - 1, by omega⟩
      exact readGroups_cons_of_continues hy (ih (by omega) hfront)
  | ends hlength hinput =>
    induction input generalizing g with
    | nil => rfl
    | cons y input ih =>
      obtain ⟨hy, hinput⟩ := List.forall_mem_cons.1 hinput
      rw [List.length_cons] at hlength
      obtain ⟨g, rfl⟩ : ∃ g', g = g' + 1 := ⟨g - 1, by omega⟩
      exact readGroups_cons_of_continues hy (ih (by omega) hinput)

theorem readGroups_eq_error_iff {g : Nat} {input left : Bytes} {e : PayloadError} :
    readGroups (g + 1) input = (.error e, left) ↔ GroupsFail (g + 1) input e left :=
  ⟨groupsFail_of_readGroups, readGroups_of_groupsFail⟩

/-- A number of 64 bits in at most ten groups. -/
def numberForm : Form Nat where
  Spells b n := Groups b n ∧ b.length ≤ maxGroups ∧ n < UInt64.size
  Fails := GroupsFail maxGroups

/-- Numbers are read as their form says. -/
theorem follows_readNumber : Follows readNumber numberForm where
  ok_iff := readGroups_eq_ok_iff (g := 9)
  error_iff := readGroups_eq_error_iff (g := 9)

/-- Some number of bytes, whatever they are. -/
def rawForm (size : Nat) : Form Bytes where
  Spells b x := x = b ∧ b.length = size
  Fails input e left := left = input ∧ input.length < size ∧ e = .unexpectedEnd size input.length

def uidForm : Form Uid where
  Spells b u := b = u.bytes
  Fails := (rawForm 32).Fails

theorem take_length_lt_iff {α : Type} {size : Nat} {l : List α} :
    (l.take size).length < size ↔ l.length < size := by
  rw [List.length_take]
  omega

/-- Bytes of a given number are read as their form says. -/
theorem follows_readRaw (size : Nat) : Follows (readRaw size) (rawForm size) where
  ok_iff := by
    intro input x rest
    simp only [readRaw, take_length_lt_iff]
    split
    · rename_i hshort
      -- bytes that the form spells would be enough
      refine iff_of_false (by rintro ⟨⟩) ?_
      rintro ⟨b, rfl, rfl, hlength⟩
      rw [List.length_append] at hshort
      omega
    · rename_i hlong
      constructor
      · intro h
        cases h
        exact ⟨_, (List.take_append_drop size input).symm, rfl,
          List.length_take_of_le (Nat.le_of_not_lt hlong)⟩
      · rintro ⟨b, rfl, rfl, hlength⟩
        rw [List.take_left' hlength, List.drop_left' hlength]
  error_iff := by
    intro input e left
    simp only [readRaw, take_length_lt_iff]
    split
    · rename_i hshort
      constructor
      · intro h
        cases h
        exact ⟨rfl, hshort, rfl⟩
      · rintro ⟨rfl, -, rfl⟩
        rfl
    · rename_i hlong
      exact iff_of_false (by rintro ⟨⟩) fun h => hlong h.2.1

theorem follows_readUid : Follows readUid uidForm where
  ok_iff := by
    intro input u rest
    constructor
    · intro h
      rw [readUid] at h
      dsimp only at h
      split at h
      · cases h
        exact ⟨_, (List.take_append_drop 32 input).symm, rfl⟩
      · cases h
    · rintro ⟨b, rfl, rfl⟩
      exact run_readUid_append u rest
  error_iff := by
    intro input e left
    -- `readUid` tests the bytes it took, the form the bytes there were
    have hlength : (input.take 32).length = 32 ↔ ¬ input.length < 32 := by
      rw [List.length_take]
      omega
    rw [readUid]
    dsimp only
    split
    · rename_i hfound
      exact iff_of_false (by rintro ⟨⟩) fun h => hlength.1 hfound h.2.1
    · rename_i hshort
      constructor
      · intro h
        cases h
        exact ⟨rfl, Decidable.not_not.1 (mt hlength.2 hshort), rfl⟩
      · rintro ⟨rfl, -, rfl⟩
        rfl

/-- A byte string after its length. -/
def blobForm : Form Bytes := numberForm.andThen rawForm

theorem follows_readBlob : Follows readBlob blobForm :=
  follows_readNumber.bind follows_readRaw

def uidLineForm : Form (Uid × Unit) := uidForm.andThen fun uid => .value (uid, ())

def valueLineForm : Form (Uid × Bytes) :=
  uidForm.andThen fun uid => blobForm.andThen fun value => .value (uid, value)

/-- An identifier, the old value and the new value; an empty old value stands for none. -/
def upsertLineForm : Form (Uid × UpsertLine) :=
  uidForm.andThen fun uid => blobForm.andThen fun old => blobForm.andThen fun new =>
    .value (uid, ⟨if old = [] then none else some old, new⟩)

theorem follows_readUidLine : Follows readUidLine uidLineForm :=
  follows_readUid.bind fun _ => .pure _

theorem follows_readValueLine : Follows readValueLine valueLineForm :=
  follows_readUid.bind fun _ => follows_readBlob.bind fun _ => .pure _

/-- An empty old value is none. -/
theorem oldValue_eq (b : Bytes) : oldValue b = if b = [] then none else some b := by
  cases b <;> rfl

/-- The lines of a batch are read as their form says. -/
theorem follows_readUpsertLine : Follows readUpsertLine upsertLineForm := by
  apply follows_readUid.bind
  intro uid
  apply follows_readBlob.bind
  intro old
  apply follows_readBlob.bind
  intro new
  rw [oldValue_eq]
  exact .pure _

end IndexVault.Wire
