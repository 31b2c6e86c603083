import IndexVault.Config.Basic
import IndexVault.Config.DatabaseTarget
import IndexVault.Proofs.Text.BlankTexts
import IndexVault.Proofs.Text.PercentEscapes

namespace IndexVault

namespace DatabaseAddress

theorem isPrefixOf_iff {word b : Bytes} : word.isPrefixOf b = true ↔ word <+: b :=
  List.isPrefixOf_iff_prefix

/-- Where a word is not at the front there is nothing to drop. -/
theorem dropAll_eq_self {word b : Bytes} (h : ¬word <+: b) (fuel : Nat) :
    dropAll word fuel b = b := by
  cases fuel with
  | zero => rfl
  | succ fuel => rw [dropAll, if_neg (mt isPrefixOf_iff.1 h)]

/-- Each occurrence at the front takes one step. -/
theorem dropAll_append (word b : Bytes) (fuel : Nat) :
    dropAll word (fuel + 1) (word ++ b) = dropAll word fuel b := by
  rw [dropAll, if_pos (isPrefixOf_iff.2 (List.prefix_append word b)), List.drop_left]

/-- Words without a question mark that are dropped make the name shorter. -/
theorem length_takeWhile_dropAll_le {word : Bytes} (h : ∀ x ∈ word, isNameByte x = true) (fuel : Nat)
    (b : Bytes) :
    ((dropAll word fuel b).takeWhile isNameByte).length ≤ (b.takeWhile isNameByte).length := by
  induction fuel generalizing b with
  | zero => exact Nat.le_refl _
  | succ fuel ih =>
    by_cases hword : word <+: b
    · obtain ⟨rest, rfl⟩ := hword
      have hrest := ih rest
      rw [dropAll_append, List.takeWhile_append_of_pos h, List.length_append]
      omega
    · exact Nat.le_of_eq (by rw [dropAll_eq_self hword])

/-- A word without a certain byte that lies at the front of some bytes lies before that byte. -/
theorem prefix_append_cons_iff {word p rest : Bytes} {x : UInt8} (h : x ∉ word) :
    word <+: p ++ x :: rest ↔ word <+: p := by
  constructor
  · intro hword
    rcases List.prefix_or_prefix_of_prefix hword (List.prefix_append p (x :: rest)) with hp | ⟨s, rfl⟩
    · exact hp
    · have hs := (List.prefix_append_right_inj p).1 hword
      cases s with
      | nil => simp
      | cons y s =>
        -- The word reaches beyond `p`, so it has the byte that follows there.
        obtain ⟨rfl, -⟩ := List.cons_prefix_cons.1 hs
        exact absurd (List.mem_append_right p List.mem_cons_self) h
  · intro hword
    exact hword.trans (List.prefix_append p _)

/-- A name ends at the first question mark, so it is not longer than what stands before one. -/
theorem length_takeWhile_append_mark_le (p rest : Bytes) :
    ((p ++ 0x3f :: rest).takeWhile isNameByte).length ≤ p.length := by
  induction p with
  | nil => exact Nat.le_refl 0
  | cons b p ih =>
    rw [List.cons_append, List.takeWhile_cons]
    split
    · exact Nat.succ_le_succ ih
    · exact Nat.zero_le _

/-- The bytes of an address that are decoded into a name. -/
def spelledName (s : String) : Bytes := (dropScheme (Bytes.ofText s)).takeWhile isNameByte

def scheme : Bytes := Bytes.ofText "sqlite:"

def slashes : Bytes := Bytes.ofText "//"

theorem length_scheme : scheme.length = 7 := by decide

theorem isNameByte_of_mem_scheme : ∀ x ∈ scheme, isNameByte x = true :=
  List.all_eq_true.1 (by decide)

theorem isNameByte_of_mem_schemeSlashes : ∀ x ∈ scheme ++ slashes, isNameByte x = true :=
  List.all_eq_true.1 (by decide)

theorem dropScheme_eq (b : Bytes) : dropScheme b =
    dropAll scheme (dropAll (scheme ++ slashes) b.length b).length
      (dropAll (scheme ++ slashes) b.length b) := rfl

/-- The generated address has no slashes behind its scheme, unless its path starts with them. -/
theorem dropAll_schemeSlashes {p : Bytes} (h : ¬slashes <+: p) (rest : Bytes) (fuel : Nat) :
    dropAll (scheme ++ slashes) fuel (scheme ++ (p ++ 0x3f :: rest)) =
      scheme ++ (p ++ 0x3f :: rest) := by
  apply dropAll_eq_self
  rw [List.prefix_append_right_inj, prefix_append_cons_iff (by decide)]
  exact h

/-- A path that begins with none of the words is what is left. -/
theorem dropScheme_of_plain {p : Bytes} (hslashes : ¬slashes <+: p) (hscheme : ¬scheme <+: p)
    (rest : Bytes) : dropScheme (scheme ++ (p ++ 0x3f :: rest)) = p ++ 0x3f :: rest := by
  have hfuel : (scheme ++ (p ++ 0x3f :: rest)).length = (p ++ 0x3f :: rest).length + 6 + 1 := by
    rw [List.length_append, length_scheme]
    omega
  rw [dropScheme_eq, dropAll_schemeSlashes hslashes, hfuel, dropAll_append]
  apply dropAll_eq_self
  rw [prefix_append_cons_iff (by decide)]
  exact hscheme

/-- A path with two slashes in front loses them with the scheme. -/
theorem length_name_of_slashes (p rest : Bytes) :
    ((dropScheme (scheme ++ (slashes ++ p ++ 0x3f :: rest))).takeWhile isNameByte).length ≤
      p.length := by
  have hsplit : scheme ++ (slashes ++ p ++ 0x3f :: rest) =
      (scheme ++ slashes) ++ (p ++ 0x3f :: rest) := by
    simp only [List.append_assoc]
  have hfuel : ((scheme ++ slashes) ++ (p ++ 0x3f :: rest)).length =
      (p ++ 0x3f :: rest).length + 8 + 1 := by
    have hlength : (scheme ++ slashes).length = 9 := by decide
    rw [List.length_append, hlength]
    omega
  rw [hsplit, dropScheme_eq, hfuel, dropAll_append]
  calc _ ≤ _ := length_takeWhile_dropAll_le isNameByte_of_mem_scheme _ _
    _ ≤ _ := length_takeWhile_dropAll_le isNameByte_of_mem_schemeSlashes _ _
    _ ≤ p.length := length_takeWhile_append_mark_le p rest

/-- A path with a scheme in front loses that too. -/
theorem length_name_of_scheme {p : Bytes} (h : ¬slashes <+: scheme ++ p) (rest : Bytes) :
    ((dropScheme (scheme ++ (scheme ++ p ++ 0x3f :: rest))).takeWhile isNameByte).length ≤
      p.length := by
  have hfuel : (scheme ++ (scheme ++ p ++ 0x3f :: rest)).length =
      (p ++ 0x3f :: rest).length + 12 + 1 + 1 := by
    simp only [List.length_append, length_scheme]
    omega
  rw [dropScheme_eq, dropAll_schemeSlashes h, hfuel, dropAll_append, List.append_assoc, dropAll_append]
  calc _ ≤ _ := length_takeWhile_dropAll_le isNameByte_of_mem_scheme _ _
    _ ≤ p.length := length_takeWhile_append_mark_le p rest

/-- A path with a question mark, or with one of the words at its front, loses some of its bytes. -/
theorem length_name_lt {p : Bytes} (h : 0x3f ∈ p ∨ slashes <+: p ∨ scheme <+: p) (rest : Bytes) :
    ((dropScheme (scheme ++ (p ++ 0x3f :: rest))).takeWhile isNameByte).length < p.length := by
  by_cases hslashes : slashes <+: p
  · obtain ⟨p, rfl⟩ := hslashes
    have hle := length_name_of_slashes p rest
    have hlength : slashes.length = 2 := by decide
    rw [List.length_append]
    omega
  by_cases hscheme : scheme <+: p
  · obtain ⟨p, rfl⟩ := hscheme
    have hle := length_name_of_scheme hslashes rest
    rw [List.length_append, length_scheme]
    omega
  · -- Neither word is there, so the name ends at the first question mark of the path.
    have hmark : 0x3f ∈ p := (h.resolve_right (fun hword => hword.elim hslashes hscheme))
    obtain ⟨front, back, rfl⟩ := List.append_of_mem hmark
    rw [dropScheme_of_plain hslashes hscheme, List.append_assoc, List.cons_append, List.length_append,
      List.length_cons]
    have hle := length_takeWhile_append_mark_le front (back ++ 0x3f :: rest)
    omega

/-- The bytes of an address that is made of a path. -/
theorem ofText_url (path : String) : Bytes.ofText ("sqlite:" ++ path ++ "?mode=rwc") =
    scheme ++ (Bytes.ofText path ++ 0x3f :: Bytes.ofText "mode=rwc") := by
  have hmode : Bytes.ofText "?mode=rwc" = 0x3f :: Bytes.ofText "mode=rwc" := by decide
  rw [Bytes.ofText_append, Bytes.ofText_append, hmode, List.append_assoc]
  rfl

/-- A name without a question mark ends at the first one behind it. -/
theorem takeWhile_append_mark {p : Bytes} (hmark : 0x3f ∉ p) (rest : Bytes) :
    (p ++ 0x3f :: rest).takeWhile isNameByte = p ∧
      (p ++ 0x3f :: rest).dropWhile isNameByte = 0x3f :: rest := by
  have hname : ∀ x ∈ p, isNameByte x = true := by
    intro x hx
    exact bne_iff_ne.2 (fun heq => hmark (heq ▸ hx))
  rw [List.takeWhile_append_of_pos hname, List.dropWhile_append_of_pos hname]
  exact ⟨List.append_nil p, rfl⟩

/-- A path that no step changes is the name of the address that is made of it. -/
theorem ofText?_of_plain {path : String} (hmark : 0x3f ∉ Bytes.ofText path)
    (hslashes : ¬slashes <+: Bytes.ofText path) (hscheme : ¬scheme <+: Bytes.ofText path)
    (hescape : ¬Text.HasEscape (Bytes.ofText path))
    (hmemory : Bytes.ofText path ≠ Bytes.ofText ":memory:") :
    ofText? ("sqlite:" ++ path ++ "?mode=rwc") = some { name := path } := by
  have hfields : Text.formFields (Bytes.ofText "mode=rwc") = [("mode", "rwc")] := by decide +kernel
  have hofName : ofName? (Bytes.ofText path) = some { name := path } := by
    rw [ofName?, if_neg hmemory, Text.percentDecode_of_not_hasEscape hescape, Bytes.toText?_ofText]
    rfl
  obtain ⟨htake, hdrop⟩ := takeWhile_append_mark hmark (Bytes.ofText "mode=rwc")
  simp only [ofText?, ofText_url, dropScheme_of_plain hslashes hscheme, htake, hdrop, hofName,
    List.drop_succ_cons, List.drop_zero, hfields]
  rfl

/-- A path that has nothing to change for the reader of addresses is the name that its address spells. -/
theorem spelledName_url {path : String} (hmark : 0x3f ∉ Bytes.ofText path)
    (hslashes : ¬slashes <+: Bytes.ofText path) (hscheme : ¬scheme <+: Bytes.ofText path) :
    spelledName ("sqlite:" ++ path ++ "?mode=rwc") = Bytes.ofText path := by
  rw [spelledName, ofText_url, dropScheme_of_plain hslashes hscheme,
    (takeWhile_append_mark hmark _).1]

theorem name_withParameter {a a' : DatabaseAddress} {field : String × String}
    (h : a.withParameter field = some a') : a'.name = a.name := by
  unfold withParameter at h
  split at h <;> cases h <;> rfl

/-- Parameters change everything about an address but its name. -/
theorem name_foldlM_withParameter {a a' : DatabaseAddress} {fields : List (String × String)}
    (h : fields.foldlM withParameter a = some a') : a'.name = a.name := by
  induction fields generalizing a with
  | nil =>
    cases h
    rfl
  | cons field rest ih =>
    rw [List.foldlM_cons] at h
    obtain ⟨next, hnext, hrest⟩ := Option.bind_eq_some_iff.1 h
    exact (ih hrest).trans (name_withParameter hnext)

/-- The name of an address is that of memory, or what the name in the address is decoded into. -/
theorem name_of_ofText? {s : String} {a : DatabaseAddress} (h : ofText? s = some a) :
    a.name = memory.name ∨ Bytes.ofText a.name = Text.percentDecode (spelledName s) := by
  obtain ⟨first, hfirst, hfields⟩ := Option.bind_eq_some_iff.1 h
  rw [name_foldlM_withParameter hfields]
  rw [ofName?] at hfirst
  split at hfirst
  · cases hfirst
    exact Or.inl rfl
  · obtain ⟨name, hname, rfl⟩ := Option.map_eq_some_iff.1 hfirst
    exact Or.inr (Bytes.toText?_eq_some_iff.1 hname).symm

end DatabaseAddress

namespace DatabaseName

theorem length_takeWhile_le (q : UInt8 → Bool) (b : Bytes) : (b.takeWhile q).length ≤ b.length :=
  (List.takeWhile_sublist q).length_le

theorem length_afterHost?_le {b rest : Bytes} (h : afterHost? b = some rest) :
    rest.length ≤ b.length := by
  unfold afterHost? at h
  split at h
  · dsimp only at h
    split at h <;> cases h
    rw [List.length_drop, List.length_cons, List.length_cons]
    omega
  · cases h
    exact Nat.le_refl _

/-- Decoding makes no part of a URI longer. -/
theorem length_decodePart_le (b : Bytes) : (decodePart b).length ≤ b.length :=
  Nat.le_trans (length_takeWhile_le _ _) (Text.length_percentDecode_le b)

/-- A URI is longer than the path that it names. -/
theorem length_path_of_uri {b : Bytes} {name : DatabaseName} (huri : uriMark <+: b)
    (h : ofBytes? b = some name) : name.path.length < b.length := by
  rw [ofBytes?, if_pos (DatabaseAddress.isPrefixOf_iff.2 huri)] at h
  obtain ⟨rest, hrest, rfl⟩ := Option.map_eq_some_iff.1 h
  have hmark : uriMark.length = 5 := by decide
  have hlength := huri.length_le
  have hafter := length_afterHost?_le hrest
  rw [List.length_drop] at hafter
  calc _ ≤ _ := length_decodePart_le _
    _ ≤ _ := length_takeWhile_le _ _
    _ ≤ rest.length := length_takeWhile_le _ _
    _ < b.length := by omega

/-- What does not begin as a URI is a path. -/
theorem ofBytes?_of_not_uri {b : Bytes} (h : ¬uriMark <+: b) : ofBytes? b = some { path := b } :=
  if_neg (mt DatabaseAddress.isPrefixOf_iff.1 h)

/-- The path is cut from the name of the address, or the name is taken for a path or a URI. -/
theorem path_of_ofAddress? {a : DatabaseAddress} {name : DatabaseName}
    (h : ofAddress? a = some name) :
    name.path = untilNul (Bytes.ofText a.name) ∨ ofBytes? (Bytes.ofText a.name) = some name := by
  unfold ofAddress? at h
  dsimp only at h
  split at h
  · split at h
    · cases h
    · exact Or.inr h
  · split at h <;> cases h
    exact Or.inl rfl

/-- The name of a database is not longer than the name in its address. Every step on the way makes it
shorter or leaves it, so a path that is changed at one step cannot come out right after all. -/
theorem length_path_le {a : DatabaseAddress} {name : DatabaseName} (h : ofAddress? a = some name) :
    name.path.length ≤ (Bytes.ofText a.name).length := by
  rcases path_of_ofAddress? h with hpath | hname
  · rw [hpath]
    exact length_takeWhile_le _ _
  · by_cases huri : uriMark <+: Bytes.ofText a.name
    · exact Nat.le_of_lt (length_path_of_uri huri hname)
    · rw [ofBytes?_of_not_uri huri] at hname
      cases hname
      exact Nat.le_refl _

/-- A name that was taken as it stands has no NUL, and is no URI. -/
theorem plain_of_path_eq {path : String} {name : DatabaseName}
    (h : ofAddress? { name := path } = some name) (hpath : name.path = Bytes.ofText path) :
    0 ∉ Bytes.ofText path ∧ ¬uriMark <+: Bytes.ofText path := by
  have hname : (if (Bytes.ofText path).contains 0 then none else ofBytes? (Bytes.ofText path)) =
      some name := h
  split at hname
  · cases hname
  · rename_i hnul
    refine ⟨fun hmem => hnul (List.contains_iff_mem.2 hmem), fun huri => ?_⟩
    have hlt := length_path_of_uri huri hname
    rw [hpath] at hlt
    exact Nat.lt_irrefl _ hlt

/-- The name that memory has leads to no directory. -/
theorem slash_not_mem_path_of_memory {a : DatabaseAddress} {name : DatabaseName}
    (hmemory : a.name = DatabaseAddress.memory.name) (h : ofAddress? a = some name) :
    0x2f ∉ name.path := by
  have hcut : 0x2f ∉ untilNul (Bytes.ofText DatabaseAddress.memory.name) := by decide
  have huri : (ofBytes? (Bytes.ofText DatabaseAddress.memory.name)).map path =
      some (Bytes.ofText "memory") := by decide +kernel
  rcases path_of_ofAddress? h with hpath | hname
  · rw [hpath, hmemory]
    exact hcut
  · rw [hmemory] at hname
    rw [hname, Option.map_some, Option.some.injEq] at huri
    rw [huri]
    decide

end DatabaseName

/-- A database in a file lies at the path of its name. -/
theorem DatabaseOpening.path_of_place? {o : DatabaseOpening} {name : DatabaseName} {path : Bytes}
    (h : o.place? name = some (.file path)) : name.path = path := by
  -- Of all the cases one alone opens a file, and that at the path of the name.
  unfold place? at h
  split at h
  · cases h
  split at h
  · split at h <;> cases h
  split at h
  · cases h
    rfl
  split at h
  · cases h
  · split at h <;> cases h

namespace DatabaseTarget

/-- The file that is opened is the path of a name. -/
theorem exists_name_of_place {a : DatabaseAddress} {t : DatabaseTarget} {path : Bytes}
    (h : ofAddress? a = some t) (hplace : t.place = .file path) :
    ∃ name, DatabaseName.ofAddress? a = some name ∧ name.path = path := by
  obtain ⟨name, hname, h⟩ := Option.bind_eq_some_iff.1 h
  obtain ⟨o, -, h⟩ := Option.bind_eq_some_iff.1 h
  obtain ⟨place, hopened, h⟩ := Option.bind_eq_some_iff.1 h
  have htarget : t.place = place := by
    dsimp only at h
    split at h <;> cases h
    rfl
  rw [← htarget, hplace] at hopened
  exact ⟨name, hname, DatabaseOpening.path_of_place? hopened⟩

/-- No path that is opened is longer than the name in the address once it is decoded. -/
theorem length_path_le {s : String} {t : DatabaseTarget} {path : Bytes} (h : ofText? s = some t)
    (hplace : t.place = .file path) (hslash : 0x2f ∈ path) :
    path.length ≤ (Text.percentDecode (DatabaseAddress.spelledName s)).length := by
  obtain ⟨a, ha, ht⟩ := Option.bind_eq_some_iff.1 h
  obtain ⟨name, hname, rfl⟩ := exists_name_of_place ht hplace
  rcases DatabaseAddress.name_of_ofText? ha with hmemory | hdecoded
  · exact absurd hslash (DatabaseName.slash_not_mem_path_of_memory hmemory hname)
  · rw [← hdecoded]
    exact DatabaseName.length_path_le hname

end DatabaseTarget

/-- A path that an address leaves as it is: no byte of it is decoded, it does not end before its end, and
nothing at its front is taken for a scheme. -/
structure IsPlainPath (p : Bytes) : Prop where
  noMark : 0x3f ∉ p
  noEscape : ¬Text.HasEscape p
  noNul : 0 ∉ p
  noSlashes : ¬Bytes.ofText "//" <+: p
  noScheme : ¬Bytes.ofText "sqlite:" <+: p
  noUri : ¬Bytes.ofText "file:" <+: p

/-- A path below a directory has a slash in it, so it is not the name of memory (`ne_memory_of_slash`). -/
theorem slash_mem_joinPath {directory : String} (h : directory ≠ "") (file : String) :
    0x2f ∈ Bytes.ofText (joinPath directory file) := by
  have hchar : '/' ∈ (joinPath directory file).toList := by
    unfold joinPath
    split
    · rename_i hfile
      exact List.mem_of_mem_head? hfile
    split
    · rename_i hlast
      have hempty : directory.isEmpty = false := by simpa using h
      rw [hempty, Bool.false_or, decide_eq_true_eq] at hlast
      rw [String.toList_append]
      exact List.mem_append_left _ (List.mem_of_getLast? hlast)
    · simp
  rw [Bytes.ofText_eq_flatMap]
  exact List.mem_flatMap.2 ⟨'/', hchar, by decide⟩

theorem ne_memory_of_slash {p : Bytes} (h : 0x2f ∈ p) : p ≠ Bytes.ofText ":memory:" := by
  rintro rfl
  exact absurd h (by decide)

namespace DatabaseTarget

/-- The target of an address that was made of a path which it leaves as it is. -/
def ofPath (p : Bytes) : DatabaseTarget where
  place := .file p
  access := .create
  immutable := false
  companion := "-journal"
  permissionsOf := none

/-- An address whose name has a slash, no NUL and no scheme `file` is that of a path. -/
theorem ofAddress?_of_path {path : String} (hslash : 0x2f ∈ Bytes.ofText path)
    (hnul : 0 ∉ Bytes.ofText path) (huri : ¬Bytes.ofText "file:" <+: Bytes.ofText path) :
    ofAddress? { name := path } = some (ofPath (Bytes.ofText path)) := by
  have hname : DatabaseName.ofAddress? { name := path } = some { path := Bytes.ofText path } :=
    DatabaseName.ofAddress?_eq_path rfl rfl hnul
      (Bool.eq_false_iff.2 (mt DatabaseAddress.isPrefixOf_iff.1 huri))
  have hempty : (Bytes.ofText path).isEmpty = false := by
    rw [List.isEmpty_eq_false_iff]
    exact List.ne_nil_of_mem hslash
  have hmemory := beq_false_of_ne (ne_memory_of_slash hslash)
  simp only [ofAddress?, hname, Option.bind_eq_bind, Option.bind_some, List.foldlM_nil, Option.pure_def,
    DatabaseOpening.place?, DatabaseOpening.isEngineMemory, DatabaseOpening.ofAddress, hempty, hmemory]
  rfl

/-- The file of the database is opened where it is, and made where it is missing. -/
theorem opened?_ofPath {p : Bytes} {tree : FileTree} {names : Names}
    (hnames : fileNames? tree p "-journal" = some names) :
    (names ∈ tree.databases → (ofPath p).opened? tree = some tree) ∧
      (tree.isFile names = false → tree.isDirectory names = false →
        tree.isDirectory names.dropLast = true →
        (ofPath p).opened? tree = some { tree with databases := names :: tree.databases }) := by
  constructor
  · intro hthere
    simp [opened?, ofPath, hnames, hthere]
  · intro hfile hdirectory hparent
    have hmissing : names ∉ tree.databases := by
      rw [FileTree.isFile, Bool.or_eq_false_iff] at hfile
      simpa using hfile.1
    simp [opened?, ofPath, hnames, hmissing, hfile, hdirectory, hparent]

end DatabaseTarget

namespace Config

/-- The path of the configured file. -/
def databasePath (c : Config) : String := joinPath c.database.dataDir c.database.dbFile

variable {c : Config}

theorem databaseUrl_eq (hurl : c.database.url = none) :
    c.databaseUrl = "sqlite:" ++ c.databasePath ++ "?mode=rwc" := by
  rw [databaseUrl, hurl]
  rfl

/-- The generated address of a plain path opens the file at this path. -/
theorem ofText?_databaseUrl (hurl : c.database.url = none) (hdir : c.database.dataDir ≠ "")
    (h : IsPlainPath (Bytes.ofText c.databasePath)) :
    DatabaseTarget.ofText? c.databaseUrl = some (.ofPath (Bytes.ofText c.databasePath)) := by
  have hslash : 0x2f ∈ Bytes.ofText c.databasePath := slash_mem_joinPath hdir c.database.dbFile
  rw [databaseUrl_eq hurl, DatabaseTarget.ofText?, DatabaseAddress.ofText?_of_plain h.noMark h.noSlashes
      h.noScheme h.noEscape (ne_memory_of_slash hslash),
    Option.bind_some, DatabaseTarget.ofAddress?_of_path hslash h.noNul h.noUri]

/-- A path that an address does not leave as it is comes out shorter, or not at all. -/
theorem isPlainPath_of_opens (hurl : c.database.url = none) (hdir : c.database.dataDir ≠ "")
    {t : DatabaseTarget} (ht : DatabaseTarget.ofText? c.databaseUrl = some t)
    (hplace : t.place = .file (Bytes.ofText c.databasePath)) :
    IsPlainPath (Bytes.ofText c.databasePath) := by
  generalize hpath : c.databasePath = path at *
  have hslash : 0x2f ∈ Bytes.ofText path := hpath ▸ slash_mem_joinPath hdir c.database.dbFile
  rw [databaseUrl_eq hurl, hpath] at ht
  have hdecoded := DatabaseTarget.length_path_le ht hplace hslash
  have hname := Nat.le_trans hdecoded (Text.length_percentDecode_le _)
  -- Nothing was lost on the way to the name in the address.
  have hkept : ¬(0x3f ∈ Bytes.ofText path ∨ DatabaseAddress.slashes <+: Bytes.ofText path ∨
      DatabaseAddress.scheme <+: Bytes.ofText path) := by
    intro hlost
    have hlt := DatabaseAddress.length_name_lt hlost (Bytes.ofText "mode=rwc")
    rw [DatabaseAddress.spelledName, DatabaseAddress.ofText_url] at hname
    omega
  rw [not_or, not_or] at hkept
  obtain ⟨hmark, hslashes, hscheme⟩ := hkept
  rw [DatabaseAddress.spelledName_url hmark hslashes hscheme] at hdecoded
  have hescape : ¬Text.HasEscape (Bytes.ofText path) := by
    intro hescape
    have hlt := Text.length_percentDecode_lt hescape
    omega
  have hmemory := ne_memory_of_slash hslash
  rw [DatabaseTarget.ofText?,
    DatabaseAddress.ofText?_of_plain hmark hslashes hscheme hescape hmemory] at ht
  -- So the name in the address is the path, which the engine took as it stands.
  obtain ⟨name, hname, hsame⟩ := DatabaseTarget.exists_name_of_place ht hplace
  obtain ⟨hnul, huri⟩ := DatabaseName.plain_of_path_eq hname hsame
  exact ⟨hmark, hescape, hnul, hslashes, hscheme, huri⟩

/-- The address that is generated for a configuration opens the configured file, making it if it is
missing, exactly when the path of the file has no question mark, no percent sign with two hexadecimal
digits behind it and no NUL, and does not begin with two slashes, with `sqlite:` or with `file:`. -/
theorem databaseUrl_opens_iff (hurl : c.database.url = none) (hdir : c.database.dataDir ≠ "") :
    ((∃ t, DatabaseTarget.ofText? c.databaseUrl = some t ∧
        t.place = .file (Bytes.ofText c.databasePath)) ↔
      IsPlainPath (Bytes.ofText c.databasePath)) ∧
    (IsPlainPath (Bytes.ofText c.databasePath) →
      ∃ t, DatabaseTarget.ofText? c.databaseUrl = some t ∧
        ∀ tree names,
          DatabaseTarget.fileNames? tree (Bytes.ofText c.databasePath) "-journal" = some names →
          (names ∈ tree.databases → t.opened? tree = some tree) ∧
          (tree.isFile names = false → tree.isDirectory names = false →
            tree.isDirectory names.dropLast = true →
            t.opened? tree = some { tree with databases := names :: tree.databases })) := by
  refine ⟨⟨?_, fun hplain => ⟨_, ofText?_databaseUrl hurl hdir hplain, rfl⟩⟩, fun hplain => ?_⟩
  · rintro ⟨t, ht, hplace⟩
    exact isPlainPath_of_opens hurl hdir ht hplace
  · exact ⟨_, ofText?_databaseUrl hurl hdir hplain, fun tree names hnames =>
      DatabaseTarget.opened?_ofPath hnames⟩

/-- A file whose name has a percent sign with two hexadecimal digits behind it. -/
def escapedName : Config := { database := { dbFile := "a%41.sqlite" } }

/-- Another file is opened than the configured one. -/
theorem databaseUrl_misses_escapedName :
    ¬∀ c : Config, c.database.url = none → c.database.dataDir ≠ "" → c.database.dbFile ≠ "" →
      ∃ t, DatabaseTarget.ofText? c.databaseUrl = some t ∧
        t.place = .file (Bytes.ofText c.databasePath) := by
  intro h
  obtain ⟨t, ht, hplace⟩ := h escapedName rfl (by decide) (by decide)
  have hopened : (DatabaseTarget.ofText? escapedName.databaseUrl).map DatabaseTarget.place =
      some (.file (Bytes.ofText "data/aA.sqlite")) := by
    decide +kernel
  rw [ht, Option.map_some, hplace, Option.some.injEq, DatabasePlace.file.injEq] at hopened
  exact absurd hopened (by decide +kernel)

theorem databaseUrl_opens_default :
    ({} : Config).database.url = none ∧ ({} : Config).database.dataDir ≠ "" ∧
      ∃ t, DatabaseTarget.ofText? ({} : Config).databaseUrl = some t ∧
        t.place = .file (Bytes.ofText "data/database.sqlite") := by
  have hdir : ({} : Config).database.dataDir ≠ "" := by decide
  have hplain : IsPlainPath (Bytes.ofText ({} : Config).databasePath) := by
    refine ⟨by decide +kernel, fun hescape => ?_, by decide +kernel, by decide +kernel,
      by decide +kernel, by decide +kernel⟩
    have hpercent : 0x25 ∉ Bytes.ofText ({} : Config).databasePath := by decide +kernel
    exact hpercent hescape.mem
  exact ⟨rfl, hdir, (databaseUrl_opens_iff rfl hdir).1.2 hplain⟩

end Config

end IndexVault
