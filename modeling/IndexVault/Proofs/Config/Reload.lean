import IndexVault.Config.Load
import IndexVault.Proofs.Json.WrittenRecords
import IndexVault.Proofs.Json.WrittenTexts

namespace IndexVault.Config

open Json (Recovers Value WritesFields readRecord recovers_bool recovers_nat recovers_optionalText
  recovers_record recovers_text)

theorem recovers_port (port : UInt16) :
    Recovers (Json.readNatBelow UInt16.size) (Text.digits port.toNat) port.toNat :=
  recovers_nat port.toNat_lt_size (Nat.lt_trans port.toNat_lt_size (by decide))

theorem recovers_count (n : UInt64) :
    Recovers (Json.readNatBelow UInt64.size) (Text.digits n.toNat) n.toNat :=
  recovers_nat n.toNat_lt_size n.toNat_lt_size

/-- The members that are written for a section are those of the fields that are read, in their order; the
same holds for the other four sections below. -/
theorem recovers_server (c : ServerConfig) (level : Nat) :
    Recovers (readRecord serverFields {}) ((serverJson c).prettyAt level) c := by
  apply recovers_record (by decide)
  apply WritesFields.setting (recovers_text c.host)
  apply WritesFields.setting (recovers_port c.port)
  apply WritesFields.setting (recovers_bool c.ipv6)
  apply WritesFields.setting (recovers_count c.bodyLimit)
  apply WritesFields.setting (recovers_text c.staticDir)
  -- The numbers were read as natural ones, and are brought back into their types.
  simp only [UInt16.ofNat_toNat, UInt64.ofNat_toNat]
  exact .nil c

/-- The address is written when there is one, and stays the default, which is none, when it is left out. -/
theorem recovers_database (c : DatabaseConfig) (level : Nat) :
    Recovers (readRecord databaseFields {}) ((databaseJson c).prettyAt level) c := by
  apply recovers_record (by decide)
  apply WritesFields.setting (recovers_text c.dataDir)
  apply WritesFields.setting (recovers_text c.dbFile)
  obtain ⟨dataDir, dbFile, url⟩ := c
  cases url with
  | none => exact .leftOut rfl (.nil _)
  | some url => exact .setting (recovers_optionalText (some url) (level + 1)) (.nil _)

theorem recovers_storage (c : StorageConfig) (level : Nat) :
    Recovers (readRecord storageFields {}) ((storageJson c).prettyAt level) c := by
  apply recovers_record (by decide)
  apply WritesFields.setting (recovers_text c.backend)
  apply WritesFields.setting (recovers_text c.dbFile)
  exact .nil c

theorem recovers_tenancy (c : TenancyConfig) (level : Nat) :
    Recovers (readRecord tenancyFields {}) ((tenancyJson c).prettyAt level) c := by
  apply recovers_record (by decide)
  apply WritesFields.setting (recovers_bool c.multitenant)
  apply WritesFields.setting (recovers_optionalText c.identityDomain (level + 1))
  apply WritesFields.setting (recovers_optionalText c.backendDomain (level + 1))
  apply WritesFields.setting (recovers_count c.tokenCacheSeconds)
  simp only [UInt64.ofNat_toNat]
  exact .nil c

theorem recovers_log (c : LogConfig) (level : Nat) :
    Recovers (readRecord logFields {}) ((logJson c).prettyAt level) c := by
  apply recovers_record (by decide)
  apply WritesFields.setting (recovers_bool c.enabled)
  apply WritesFields.setting (recovers_text c.file)
  exact .nil c

/-- A configuration is read from what is written for it. -/
theorem recovers_config (c : Config) : Recovers (readRecord fields {}) c.toJsonText c := by
  apply recovers_record (by decide)
  apply WritesFields.setting (recovers_server c.server 1)
  apply WritesFields.setting (recovers_database c.database 1)
  apply WritesFields.setting (recovers_storage c.indexes 1)
  apply WritesFields.setting (recovers_tenancy c.tenancy 1)
  apply WritesFields.setting (recovers_log c.requestLog 1)
  exact .nil c

/-- The written text is nothing but the configuration. -/
theorem ofJsonText_toJsonText (c : Config) : ofJsonText c.toJsonText = .ok c := by
  have hread := recovers_config c [] [] rfl Json.endsNumeral_nil
  rw [List.nil_append, List.append_nil] at hread
  rw [ofJsonText, Json.readWhole, hread]
  rfl

/-- A configuration is saved where a file is or can be made. -/
theorem save_eq_ok_iff {c : Config} {file file' : FilePlace} :
    c.save file = .ok file' ↔
      (file = .absent ∨ ∃ b, file = .present b) ∧ file' = .present c.toJsonText := by
  cases file <;> simp [save, FilePlace.write, eq_comm]

/-- A file is loaded if it holds text that reads as a configuration, and it stays as it is. -/
theorem load_present_eq_ok_iff {b : Bytes} {c : Config} {file' : FilePlace} :
    load (.present b) = .ok (c, file') ↔
      b.IsText ∧ ofJsonText b = .ok c ∧ file' = .present b := by
  have hthere : FilePlace.isThere (.present b) = true := rfl
  rw [load, if_pos hthere, FilePlace.readText, Bytes.IsText]
  by_cases htext : (Bytes.toText? b).isSome = true
  · rw [if_pos htext]
    cases hread : ofJsonText b with
    | error fault => simp [hread]
    | ok c' => simp [hread, htext, eq_comm]
  · rw [if_neg htext]
    simp [htext]

/-- Where there is no file, the defaults are loaded and saved. -/
theorem load_absent_eq_ok_iff {c : Config} {file' : FilePlace} :
    load .absent = .ok (c, file') ↔ c = {} ∧ file' = .present (toJsonText {}) := by
  have hload : load .absent = .ok ({}, .present (toJsonText {})) := rfl
  rw [hload, Except.ok.injEq, Prod.mk.injEq, eq_comm, eq_comm (b := file')]

/-- What is loaded was there to be read, or is the defaults, which are saved then. -/
theorem load_cases {file file' : FilePlace} {c : Config} (h : load file = .ok (c, file')) :
    (∃ b, file' = .present b ∧ b.IsText ∧ ofJsonText b = .ok c ∧ file = file') ∨
      (file = .absent ∧ c = {} ∧ Config.save {} file = .ok file') := by
  cases file with
  | present b =>
    obtain ⟨htext, hread, rfl⟩ := load_present_eq_ok_iff.1 h
    exact Or.inl ⟨b, rfl, htext, hread, rfl⟩
  | absent =>
    obtain ⟨rfl, rfl⟩ := load_absent_eq_ok_iff.1 h
    exact Or.inr ⟨rfl, rfl, rfl⟩
  | directory => cases h
  | missingParent => cases h

/-- What was saved is loaded. -/
theorem load_saved {c : Config} {file file' : FilePlace} (h : c.save file = .ok file') :
    load file' = .ok (c, file') := by
  obtain ⟨-, rfl⟩ := save_eq_ok_iff.1 h
  rw [load_present_eq_ok_iff]
  exact ⟨Json.isText_prettyAt 0 c.toJson, ofJsonText_toJsonText c, rfl⟩

/-- A configuration that is saved, over another or where there was none, is loaded as it was. So the one
that a load answers, be it the defaults of a first run, is the one that the file says and that every later
load answers. -/
theorem saved_reloads :
    (∀ (c : Config) (b : Bytes), c.save .absent = .ok (.present c.toJsonText) ∧
      c.save (.present b) = .ok (.present c.toJsonText) ∧ ofJsonText c.toJsonText = .ok c) ∧
    (∀ (c : Config) (file file' : FilePlace), c.save file = .ok file' → load file' = .ok (c, file')) ∧
    load .absent = .ok ({}, .present (toJsonText {})) ∧
    (∀ (c : Config) (file file' : FilePlace), load file = .ok (c, file') →
      load file' = .ok (c, file') ∧
        ∃ content, file' = .present content ∧ ofJsonText content = .ok c) := by
  refine ⟨fun c b => ⟨rfl, rfl, ofJsonText_toJsonText c⟩, fun c file file' => load_saved, rfl, ?_⟩
  intro c file file' hload
  rcases load_cases hload with ⟨content, hfile', -, hread, rfl⟩ | ⟨-, rfl, hsave⟩
  · exact ⟨hload, content, hfile', hread⟩
  · obtain ⟨-, hfile'⟩ := save_eq_ok_iff.1 hsave
    exact ⟨load_saved hsave, _, hfile', ofJsonText_toJsonText {}⟩

end IndexVault.Config
