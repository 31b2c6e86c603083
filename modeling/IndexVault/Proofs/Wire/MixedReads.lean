import IndexVault.Proofs.Wire.FirstFault

namespace IndexVault.Wire

/-- A read of one field. -/
inductive FieldRead where
  | number
  | raw (size : Nat)
  | uid
  | blob
  deriving DecidableEq, Repr

def FieldRead.read : FieldRead → Read Field
  | number => FieldShape.number.read
  | raw size => (FieldShape.raw size).read
  | uid => do
    let u ← readUid
    pure (.raw u.bytes)
  | blob => FieldShape.blob.read

/-- What is left of a buffer after some reads, one after the other, whichever of them fail. -/
def leftAfter : List FieldRead → Bytes → Bytes
  | [], left => left
  | r :: later, left => leftAfter later (r.read.run left).2

/-- The place in a buffer where a reader stands after some reads. -/
def placeAfter (reads : List FieldRead) (buffer : Bytes) : Nat :=
  buffer.length - (leftAfter reads buffer).length

/-- The bytes of a field that a read answers: of a number its groups, of a byte string its length in groups
and itself, and of anything else the bytes asked for. -/
inductive Takes : FieldRead → Bytes → Field → Prop
  | number {b : Bytes} {n : Nat} (hb : Groups b n) (hlength : b.length ≤ 10) (hn : n < 2 ^ 64) :
    Takes .number b (.number n)
  | raw (b : Bytes) : Takes (.raw b.length) b (.raw b)
  | uid {b : Bytes} (h : b.length = 32) : Takes .uid b (.raw b)
  | blob {size b : Bytes} (hsize : Groups size b.length) (hlength : size.length ≤ 10)
    (hn : b.length < 2 ^ 64) : Takes .blob (size ++ b) (.blob b)

/-- How a read fails with some bytes left, and how many of them it takes. -/
inductive Stops (left : Bytes) : FieldRead → PayloadError → Nat → Prop
  | overflow (h : 10 ≤ left.length) : Stops left .number .integerOverflow 10
  | ends (h : left.length ≤ 9) : Stops left .number (.unexpectedEnd 1 0) left.length
  | raw {size : Nat} (h : left.length < size) :
    Stops left (.raw size) (.unexpectedEnd size left.length) 0
  | uid (h : left.length < 32) : Stops left .uid (.unexpectedEnd 32 left.length) 0
  | length {e : PayloadError} {taken : Nat} (h : Stops left .number e taken) : Stops left .blob e taken
  | body {number behind : Bytes} {size : Nat} (hleft : left = number ++ behind)
    (hnumber : Groups number size) (hlength : number.length ≤ 10) (hn : size < 2 ^ 64)
    (h : behind.length < size) : Stops left .blob (.unexpectedEnd size behind.length) number.length

/-- A read that gives a field takes the bytes of that field. -/
theorem exists_takes {r : FieldRead} {f : Field} {left rest : Bytes}
    (h : r.read.run left = (.ok f, rest)) : ∃ b, left = b ++ rest ∧ Takes r b f := by
  -- each kind of read puts its result into a field and otherwise follows its form
  cases r with
  | number =>
    obtain ⟨n, later, hn, hf⟩ := Attempt.run_bind_eq_ok_iff.1 h
    cases hf
    obtain ⟨b, hleft, hb, hlength, hfits⟩ := follows_readNumber.ok_iff.1 hn
    exact ⟨b, hleft, .number hb hlength hfits⟩
  | raw size =>
    obtain ⟨x, later, hx, hf⟩ := Attempt.run_bind_eq_ok_iff.1 h
    cases hf
    obtain ⟨b, hleft, rfl, rfl⟩ := (follows_readRaw size).ok_iff.1 hx
    exact ⟨x, hleft, .raw x⟩
  | uid =>
    obtain ⟨u, later, hu, hf⟩ := Attempt.run_bind_eq_ok_iff.1 h
    cases hf
    obtain ⟨b, hleft, rfl⟩ := follows_readUid.ok_iff.1 hu
    exact ⟨u.bytes, hleft, .uid u.length_eq⟩
  | blob =>
    obtain ⟨x, later, hx, hf⟩ := Attempt.run_bind_eq_ok_iff.1 h
    cases hf
    obtain ⟨b, hleft, size, b', n, rfl, ⟨hsize, hlength, hn⟩, rfl, rfl⟩ :=
      follows_readBlob.ok_iff.1 hx
    exact ⟨size ++ x, hleft, .blob hsize hlength hn⟩

/-- A read and what is made of its answer fail where the read does. -/
theorem run_bind_pure_eq_error_iff {α β : Type} {x : Read α} {g : α → β} {left rest : Bytes}
    {e : PayloadError} : (do let a ← x; pure (g a) : Read β).run left = (.error e, rest) ↔
      x.run left = (.error e, rest) := by
  rw [Attempt.run_bind_eq_error_iff]
  constructor
  · rintro (h | ⟨a, s, -, h⟩)
    · exact h
    · cases h
  · exact Or.inl

theorem stops_of_groupsFail {left rest : Bytes} {e : PayloadError}
    (h : GroupsFail maxGroups left e rest) :
    ∃ taken, Stops left .number e taken ∧ rest = left.drop taken := by
  cases h with
  | @overflow front rest x hlength hfront hx =>
    have hten : (front ++ [x]).length = 10 := by
      rw [List.length_append]
      exact hlength
    have hsplit : front ++ x :: rest = (front ++ [x]) ++ rest := List.append_cons front x rest
    refine ⟨10, .overflow ?_, ?_⟩
    · rw [hsplit, List.length_append, hten]
      exact Nat.le_add_right 10 _
    · rw [hsplit, List.drop_left' hten]
  | ends hlength hinput =>
    exact ⟨left.length, .ends (Nat.le_of_lt_succ hlength), (List.drop_length (l := left)).symm⟩

/-- A read that fails takes as many bytes as its kind and the error tell. -/
theorem exists_stops {r : FieldRead} {e : PayloadError} {left rest : Bytes}
    (h : r.read.run left = (.error e, rest)) :
    ∃ taken, Stops left r e taken ∧ rest = left.drop taken := by
  cases r with
  | number =>
    exact stops_of_groupsFail (follows_readNumber.error_iff.1 (run_bind_pure_eq_error_iff.1 h))
  | raw size =>
    obtain ⟨rfl, hshort, rfl⟩ :=
      (follows_readRaw size).error_iff.1 (run_bind_pure_eq_error_iff.1 h)
    exact ⟨0, .raw hshort, rfl⟩
  | uid =>
    obtain ⟨rfl, hshort, rfl⟩ := follows_readUid.error_iff.1 (run_bind_pure_eq_error_iff.1 h)
    exact ⟨0, .uid hshort, rfl⟩
  | blob =>
    -- The length fails as a number does, or the body does where the length ends.
    rcases follows_readBlob.error_iff.1 (run_bind_pure_eq_error_iff.1 h) with
      hnumber | ⟨number, behind, size, rfl, ⟨hgroups, hlength, hn⟩, rfl, hshort, rfl⟩
    · obtain ⟨taken, hstops, hrest⟩ := stops_of_groupsFail hnumber
      exact ⟨taken, .length hstops, hrest⟩
    · exact ⟨number.length, .body rfl hgroups hlength hn hshort, List.drop_left.symm⟩

/-- A read takes no more than there is. -/
theorem Stops.taken_le {left : Bytes} {r : FieldRead} {e : PayloadError} {taken : Nat}
    (h : Stops left r e taken) : taken ≤ left.length := by
  induction h with
  | overflow h => exact h
  | ends h => exact Nat.le_refl _
  | raw h => exact Nat.zero_le _
  | uid h => exact Nat.zero_le _
  | length h ih => exact ih
  | body hleft hnumber hlength hn h =>
    rw [hleft, List.length_append]
    exact Nat.le_add_right _ _

/-- A read leaves what it found from some place on. -/
theorem exists_run_eq_drop (r : FieldRead) (left : Bytes) :
    ∃ taken ≤ left.length, (r.read.run left).2 = left.drop taken := by
  rcases hrun : r.read.run left with ⟨e | f, rest⟩
  · obtain ⟨taken, hstops, hrest⟩ := exists_stops hrun
    exact ⟨taken, hstops.taken_le, hrest⟩
  · obtain ⟨b, rfl, -⟩ := exists_takes hrun
    refine ⟨b.length, ?_, List.drop_left.symm⟩
    rw [List.length_append]
    exact Nat.le_add_right _ _

theorem leftAfter_append (first later : List FieldRead) (left : Bytes) :
    leftAfter (first ++ later) left = leftAfter later (leftAfter first left) := by
  induction first generalizing left with
  | nil => rfl
  | cons r first ih => exact ih _

theorem exists_leftAfter_eq_drop (reads : List FieldRead) (left : Bytes) :
    ∃ taken ≤ left.length, leftAfter reads left = left.drop taken := by
  induction reads generalizing left with
  | nil => exact ⟨0, Nat.zero_le _, rfl⟩
  | cons r later ih =>
    obtain ⟨taken, htaken, hrun⟩ := exists_run_eq_drop r left
    obtain ⟨more, hmore, hlater⟩ := ih (left.drop taken)
    rw [List.length_drop] at hmore
    refine ⟨taken + more, by omega, ?_⟩
    rw [leftAfter, hrun, hlater, List.drop_drop]

/-- The place and what is left there make up the buffer. -/
theorem placeAfter_add (reads : List FieldRead) (buffer : Bytes) :
    placeAfter reads buffer + (leftAfter reads buffer).length = buffer.length := by
  obtain ⟨taken, -, hleft⟩ := exists_leftAfter_eq_drop reads buffer
  rw [placeAfter, hleft, List.length_drop]
  omega

/-- After any reads the reader has left what the buffer holds from its place on. -/
theorem leftAfter_eq_drop (reads : List FieldRead) (buffer : Bytes) :
    leftAfter reads buffer = buffer.drop (placeAfter reads buffer) := by
  obtain ⟨taken, htaken, hleft⟩ := exists_leftAfter_eq_drop reads buffer
  have hplace : placeAfter reads buffer = taken := by
    rw [placeAfter, hleft, List.length_drop]
    omega
  rw [hplace, hleft]

/-- More reads take nothing back. -/
theorem placeAfter_le_append (first later : List FieldRead) (buffer : Bytes) :
    placeAfter first buffer ≤ placeAfter (first ++ later) buffer := by
  obtain ⟨taken, -, hlater⟩ := exists_leftAfter_eq_drop later (leftAfter first buffer)
  rw [placeAfter, placeAfter, leftAfter_append, hlater, List.length_drop]
  omega

/-- One more read. -/
theorem leftAfter_concat (before : List FieldRead) (r : FieldRead) (buffer : Bytes) :
    leftAfter (before ++ [r]) buffer = (r.read.run (leftAfter before buffer)).2 :=
  leftAfter_append before [r] buffer

/-- A read that succeeds takes the bytes of its field from the place where the reader stands. -/
theorem exists_takes_at {before : List FieldRead} {r : FieldRead} {f : Field} {buffer : Bytes}
    (hf : (r.read.run (leftAfter before buffer)).1 = .ok f) :
    ∃ b, Takes r b f ∧ placeAfter (before ++ [r]) buffer = placeAfter before buffer + b.length ∧
      buffer.drop (placeAfter before buffer) =
        b ++ buffer.drop (placeAfter (before ++ [r]) buffer) := by
  have hrun : r.read.run (leftAfter before buffer) = (.ok f, leftAfter (before ++ [r]) buffer) :=
    Prod.ext hf (leftAfter_concat before r buffer).symm
  obtain ⟨b, hleft, htakes⟩ := exists_takes hrun
  have hbefore := placeAfter_add before buffer
  have hafter := placeAfter_add (before ++ [r]) buffer
  have hlength : (leftAfter before buffer).length =
      b.length + (leftAfter (before ++ [r]) buffer).length := by
    rw [hleft, List.length_append]
  refine ⟨b, htakes, by omega, ?_⟩
  rw [← leftAfter_eq_drop, ← leftAfter_eq_drop]
  exact hleft

/-- A read that fails moves the reader on as its kind tells. -/
theorem exists_stops_at {before : List FieldRead} {r : FieldRead} {e : PayloadError} {buffer : Bytes}
    (he : (r.read.run (leftAfter before buffer)).1 = .error e) :
    ∃ taken, Stops (buffer.drop (placeAfter before buffer)) r e taken ∧
      placeAfter (before ++ [r]) buffer = placeAfter before buffer + taken := by
  have hrun : r.read.run (leftAfter before buffer) =
      (.error e, leftAfter (before ++ [r]) buffer) :=
    Prod.ext he (leftAfter_concat before r buffer).symm
  obtain ⟨taken, hstops, hleft⟩ := exists_stops hrun
  have hle := hstops.taken_le
  have hbefore := placeAfter_add before buffer
  have hafter := placeAfter_add (before ++ [r]) buffer
  have hlength : (leftAfter (before ++ [r]) buffer).length =
      (leftAfter before buffer).length - taken := by
    rw [hleft, List.length_drop]
  refine ⟨taken, ?_, by omega⟩
  rw [← leftAfter_eq_drop]
  exact hstops

theorem finish_eq_ok_iff {left : Bytes} : finish left = .ok () ↔ left.length = 0 := by
  cases left with
  | nil => exact iff_of_true rfl rfl
  | cons x later => exact iff_of_false nofun (Nat.succ_ne_zero later.length)

theorem finish_eq_error_iff {left : Bytes} {e : PayloadError} :
    finish left = .error e ↔ 0 < left.length ∧ e = .trailingBytes left.length := by
  cases left with
  | nil => exact iff_of_false nofun fun h => Nat.lt_irrefl 0 h.1
  | cons x later =>
    have hfinish : finish (x :: later) = .error (.trailingBytes (x :: later).length) := rfl
    rw [hfinish, Except.error.injEq, eq_comm]
    exact (and_iff_right (Nat.succ_pos later.length)).symm

/-- Whatever is read from a buffer, and whichever reads fail, the reader stands at a place within the
buffer, from which on everything is left, and never goes back. A read that succeeds takes just the bytes of
its field from that place on. One that fails takes nothing if its size was given, ten bytes of a number that
overflows and all of one that runs out, which are at most nine, and of a byte string whose body is not there
just the length in front of it. The end is accepted when all was taken, and else what is left is counted. -/
theorem reader_keeps_its_place (buffer : Bytes) :
    (∀ reads, leftAfter reads buffer = buffer.drop (placeAfter reads buffer) ∧
      placeAfter reads buffer + (leftAfter reads buffer).length = buffer.length) ∧
    (∀ first later, placeAfter first buffer ≤ placeAfter (first ++ later) buffer) ∧
    (∀ before r f, (r.read.run (leftAfter before buffer)).1 = .ok f →
      ∃ b, Takes r b f ∧ placeAfter (before ++ [r]) buffer = placeAfter before buffer + b.length ∧
        buffer.drop (placeAfter before buffer) =
          b ++ buffer.drop (placeAfter (before ++ [r]) buffer)) ∧
    (∀ before r e, (r.read.run (leftAfter before buffer)).1 = .error e →
      ∃ taken, Stops (buffer.drop (placeAfter before buffer)) r e taken ∧
        placeAfter (before ++ [r]) buffer = placeAfter before buffer + taken) ∧
    (∀ reads, (finish (leftAfter reads buffer) = .ok () ↔ placeAfter reads buffer = buffer.length) ∧
      ∀ e, finish (leftAfter reads buffer) = .error e ↔
        placeAfter reads buffer < buffer.length ∧
          e = .trailingBytes (buffer.length - placeAfter reads buffer)) := by
  refine ⟨fun reads => ⟨leftAfter_eq_drop reads buffer, placeAfter_add reads buffer⟩,
    fun first later => placeAfter_le_append first later buffer,
    fun before r f => exists_takes_at, fun before r e => exists_stops_at, ?finished⟩
  case finished =>
    intro reads
    have hplace := placeAfter_add reads buffer
    have hcount : (leftAfter reads buffer).length = buffer.length - placeAfter reads buffer := by
      omega
    constructor
    · rw [finish_eq_ok_iff, hcount]
      omega
    · intro e
      rw [finish_eq_error_iff, hcount, Nat.sub_pos_iff_lt]

/-- A byte string that is shorter than its length says leaves the reader behind the length, and what is
there can still be read. -/
example : leftAfter [.blob, .raw 2] [3, 7, 8] = [] ∧ placeAfter [.blob] [3, 7, 8] = 1 := by decide

end IndexVault.Wire
