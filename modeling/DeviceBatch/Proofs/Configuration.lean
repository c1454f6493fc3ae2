import DeviceBatch.Config.Document
import DeviceBatch.Proofs.Documents

/-!
# Written configurations are read back

A configuration is written field by field, and each reader of a section finds the fields that were
written there. So the table of its document describes the configuration (`Config.ofTable?_toTable`),
and reading its text differs from the configuration only in that an invalid one is refused
(`Config.ofToml_toToml`).
-/

namespace DeviceBatch

open Toml

/-! ## Names -/

theorem LogFormat.ofName?_name (format : LogFormat) :
    LogFormat.ofName? format.name = some format := by
  cases format <;> rfl

theorem PlatformKind.ofName?_name (kind : PlatformKind) :
    PlatformKind.ofName? kind.name = some kind := by
  cases kind <;> rfl

namespace Config

/-! ## Sections -/

theorem field?_nil {α : Type} (key : String) (default : α) (read : Value → Option α) :
    field? [] key default read = some default := rfl

theorem field?_cons_self {α : Type} (key : String) (value : Value) (t : Table) (default : α)
    (read : Value → Option α) : field? ((key, value) :: t) key default read = read value := by
  rw [field?, List.lookup_cons_self]

theorem field?_cons_of_ne {α : Type} {key other : String} (h : key ≠ other) (value : Value)
    (t : Table) (default : α) (read : Value → Option α) :
    field? ((other, value) :: t) key default read = field? t key default read := by
  rw [field?, List.lookup_cons, beq_false_of_ne h]
  rfl

theorem size?_ofNat (n : Nat) : size? (.integer n) = some n := by
  rw [size?, if_pos (Int.natCast_nonneg n), Int.toNat_natCast]

theorem simulatedOf?_section (devices : SimulatedDevices) :
    simulatedOf? (.table .header (values
      [("device_count", .number devices.count), ("capacity", .number devices.capacity),
        ("deferred_copies", .flag devices.deferred)])) = some devices := by
  simp [simulatedOf?, section?, values, field?_cons_self, field?_cons_of_ne, size?_ofNat, flag?,
    Plain.toValue]

theorem batchOf?_section (settings : BatchSettings) :
    batchOf? (.table .header (values
      [("use_pinned_input", .flag settings.pinnedInput),
        ("use_pinned_output", .flag settings.pinnedOutput),
        ("max_batch_size", .number settings.maximum)])) = some settings := by
  simp [batchOf?, section?, values, field?_cons_self, field?_cons_of_ne, size?_ofNat, flag?,
    Plain.toValue]

/-- An output path that is not there is not written, and then the default is taken. -/
theorem loggingOf?_section (settings : LogSettings) :
    loggingOf? (.table .header (values
      (("format", .text settings.format.name) :: ("level", .text settings.level) ::
        (settings.outputPath.map fun path => ("output_path", Plain.text path)).toList))) =
      some settings := by
  obtain ⟨format, level, path⟩ := settings
  cases path <;>
    simp [loggingOf?, section?, values, field?_cons_self, field?_cons_of_ne, choice?, text?,
      Plain.toValue, LogFormat.ofName?_name, field?_nil]

/-! ## The whole configuration -/

/-- The table of a configuration describes it. -/
theorem ofTable?_toTable (c : Config) : ofTable? c.toDocument.toTable = some c := by
  have htable : c.toDocument.toTable =
      [("platform", .string c.platform.name), ("device_id", .integer c.device),
        ("simulated", _), ("batch", _), ("logging", _)] := rfl
  rw [htable]
  simp [ofTable?, field?_cons_self, field?_cons_of_ne, choice?, PlatformKind.ofName?_name,
    size?_ofNat, simulatedOf?_section c.simulated, batchOf?_section c.batch,
    loggingOf?_section c.logging]

/-- Flags and texts can always be written. -/
theorem isWritable_toDocument (c : Config) :
    c.toDocument.isWritable ↔ c.device ≤ largestNumber ∧ c.simulated.count ≤ largestNumber ∧
      c.simulated.capacity ≤ largestNumber ∧ c.batch.maximum ≤ largestNumber := by
  obtain ⟨_, _, _, _, ⟨_, _, path⟩⟩ := c
  cases path <;>
    simp [PlainDocument.isWritable, toDocument, Plain.isWritable, and_assoc]

theorem wellFormed_toDocument (c : Config) : c.toDocument.WellFormed := by
  obtain ⟨_, _, _, _, ⟨_, _, path⟩⟩ := c
  cases path
  all_goals
    constructor <;>
    simp only [toDocument, Option.map_none, Option.map_some, Option.toList_none, Option.toList_some,
      List.cons_append, List.nil_append, List.map_cons, List.map_nil, List.forall_mem_cons] <;>
    decide

/-- A configuration can be written if its numbers are signed words, and what was written is read
back if the configuration is valid; otherwise reading ends as checking does. -/
theorem ofToml_toToml (c : Config) :
    ((∃ text, c.toToml = .ok text) ↔
      c.device ≤ Nat.pow 2 63 - 1 ∧ c.simulated.count ≤ Nat.pow 2 63 - 1 ∧
        c.simulated.capacity ≤ Nat.pow 2 63 - 1 ∧ c.batch.maximum ≤ Nat.pow 2 63 - 1) ∧
    ∀ text, c.toToml = .ok text → ofToml text = c.validate.map fun _ => c := by
  have hlargest : largestNumber = Nat.pow 2 63 - 1 := by decide
  rw [← hlargest, ← isWritable_toDocument]
  refine ⟨⟨?_, fun hw => ⟨_, if_pos hw⟩⟩, ?_⟩
  · rintro ⟨text, h⟩
    by_contra hw
    rw [toToml, if_neg hw] at h
    cases h
  · intro text h
    unfold toToml at h
    split at h
    · next hw =>
      cases h
      have hread : (Table.ofText? c.toDocument.render).bind ofTable? = some c := by
        rw [Table.ofText?_render c.wellFormed_toDocument hw, Option.bind_some, ofTable?_toTable]
      rw [ofToml, hread]
      dsimp only
      cases c.validate <;> rfl
    · cases h

/-- The level begins and ends with three quotes, and has a backslash, a line break and a control
character. -/
theorem ofToml_toToml_quotes :
    let c : Config := { logging := { level := "\"\"\"\\'''\n\x01\"\"\"", outputPath := some "" } }
    ∃ text, c.toToml = .ok text ∧ ofToml text = .ok c := by
  intro c
  exact ⟨_, rfl, (ofToml_toToml c).2 _ rfl⟩

end Config

end DeviceBatch
