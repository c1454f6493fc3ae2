import DeviceBatch.Config.Environment
import DeviceBatch.Session.Basic

/-!
# Configurations from the environment

The environment is read variable by variable, and what makes no sense is replaced: there is always a
device, and every device has the least capacity (`Config.floored_ofEnvironment`). The only thing that
is not looked at there is whether the device that is asked for is one of them (`Config.Misplaced`).
In every other case the configuration is valid, and a session can be started on it unless it asks
for a platform that is not built in (`Config.ofEnvironment_starts`).
-/

namespace DeviceBatch

namespace Config

variable {c : Config}

/-- There are simulated devices, and they have a capacity that makes sense. -/
structure Floored (c : Config) : Prop where
  count_pos : 0 < c.simulated.count
  capacity_le : minimumCapacity ≤ c.simulated.capacity

/-- The device is none of the simulated devices that are asked for. -/
def Misplaced (c : Config) : Prop := c.platform = .simulated ∧ c.simulated.count ≤ c.device

instance (c : Config) : Decidable c.Misplaced :=
  inferInstanceAs (Decidable (c.platform = .simulated ∧ c.simulated.count ≤ c.device))

/-! ## Checking -/

/-- The defaults pass the check on every platform. -/
theorem validate_default (platform : PlatformKind) : ({ platform } : Config).validate = .ok () := by
  cases platform <;> rfl

theorem validate_of_misplaced (hfloored : c.Floored) (h : c.Misplaced) :
    c.validate = .error (.config (.deviceOutOfRange c.device c.simulated.count)) := by
  obtain ⟨hplatform, hdevice⟩ := h
  have hcount := hfloored.count_pos
  have hcapacity := hfloored.capacity_le
  unfold validate
  rw [if_neg (by simp [hplatform]), if_neg (by omega), if_neg (by omega), if_pos hdevice]

theorem validate_of_not_misplaced (hfloored : c.Floored) (h : ¬ c.Misplaced) :
    c.validate = .ok () := by
  have hcount := hfloored.count_pos
  have hcapacity := hfloored.capacity_le
  unfold validate
  by_cases hplatform : c.platform = .simulated
  · have hdevice : ¬ c.simulated.count ≤ c.device := fun hdevice => h ⟨hplatform, hdevice⟩
    rw [if_neg (by simp [hplatform]), if_neg (by omega), if_neg (by omega), if_neg hdevice]
  · rw [if_pos hplatform]

/-! ## Starting -/

theorem ofConfig_of_invalid {e : Error} (h : c.validate = .error e) :
    Session.ofConfig c = .error e := by
  simp [Session.ofConfig, buildPlatform, h, bind, Except.bind]

theorem ofConfig_of_valid (h : c.validate = .ok ()) :
    Session.ofConfig c =
      match c.platform with
      | .host => .ok (.start .host c.device)
      | .simulated => .ok (.start (.simulated c.simulated) c.device)
      | .cuda => .error (.config .cudaUnavailable) := by
  unfold Session.ofConfig buildPlatform
  rw [h]
  cases c.platform <;> rfl

theorem ofConfig_eq_error_iff {e : Error} (h : c.validate = .ok ()) :
    Session.ofConfig c = .error e ↔ c.platform = .cuda ∧ e = .config .cudaUnavailable := by
  rw [ofConfig_of_valid h]
  cases c.platform <;> simp [eq_comm]

/-- A session is on the platform that was asked for, and a device that it was given is there. -/
theorem ofConfig_eq_ok {s : Session} (hfloored : c.Floored) (h : Session.ofConfig c = .ok s) :
    (c.platform = .host ∧ s = .start .host c.device) ∨
    (c.platform = .simulated ∧ s = .start (.simulated c.simulated) c.device ∧
      s.device < s.machine.platform.deviceCount) := by
  by_cases hplaced : c.Misplaced
  · rw [ofConfig_of_invalid (validate_of_misplaced hfloored hplaced)] at h
    cases h
  · rw [ofConfig_of_valid (validate_of_not_misplaced hfloored hplaced)] at h
    cases hplatform : c.platform with
    | host =>
      rw [hplatform] at h
      cases h
      exact .inl ⟨rfl, rfl⟩
    | simulated =>
      rw [hplatform] at h
      cases h
      have hdevice : c.device < c.simulated.count :=
        Nat.lt_of_not_le fun hcount => hplaced ⟨hplatform, hcount⟩
      exact .inr ⟨rfl, rfl, hdevice⟩
    | cuda =>
      rw [hplatform] at h
      cases h

/-! ## Reading the environment -/

/-- Numbers of devices and capacities that make no sense are raised. -/
theorem floored_ofEnvironment (env : Environment) : (ofEnvironment env).Floored where
  count_pos := Nat.le_max_right ..
  capacity_le := Nat.le_max_right ..

/-- Only the name of a platform asks for it, and the default is none but the host. -/
theorem platform_ofEnvironment (env : Environment) {kind : PlatformKind} (h : kind ≠ .host) :
    (ofEnvironment env).platform = kind ↔
      (env.text? "GG_BATCH_PLATFORM").bind PlatformKind.parse? = some kind := by
  have hplatform : (ofEnvironment env).platform =
      ((env.text? "GG_BATCH_PLATFORM").bind PlatformKind.parse?).getD .host := rfl
  rw [hplatform]
  cases (env.text? "GG_BATCH_PLATFORM").bind PlatformKind.parse? with
  | none => simp [Ne.symm h]
  | some other => simp

/-- Whatever the environment holds, the configuration is valid unless its device is none of the
simulated devices. Then a session can be started on it unless it asks for the platform that is not
built in. It is a session on the platform that was asked for, and if that has simulated devices, the
device of the session is one of them. -/
theorem ofEnvironment_starts (env : Environment) :
    ((ofEnvironment env).validate = .ok () ↔ ¬ (ofEnvironment env).Misplaced) ∧
    ((ofEnvironment env).Misplaced → Session.ofConfig (ofEnvironment env) =
      .error (.config (.deviceOutOfRange (ofEnvironment env).device
        (ofEnvironment env).simulated.count))) ∧
    (¬ (ofEnvironment env).Misplaced → ∀ e, Session.ofConfig (ofEnvironment env) = .error e ↔
      (env.text? "GG_BATCH_PLATFORM").bind PlatformKind.parse? = some .cuda ∧
        e = .config .cudaUnavailable) ∧
    ∀ s, Session.ofConfig (ofEnvironment env) = .ok s →
      ((ofEnvironment env).platform = .host ∧ s = .start .host (ofEnvironment env).device) ∨
      ((ofEnvironment env).platform = .simulated ∧
        s = .start (.simulated (ofEnvironment env).simulated) (ofEnvironment env).device ∧
        s.device < s.machine.platform.deviceCount) := by
  have hfloored := floored_ofEnvironment env
  refine ⟨?_, ?_, ?_, fun s => ofConfig_eq_ok hfloored⟩
  · constructor
    · intro hvalid h
      rw [validate_of_misplaced hfloored h] at hvalid
      cases hvalid
    · exact validate_of_not_misplaced hfloored
  · intro h
    exact ofConfig_of_invalid (validate_of_misplaced hfloored h)
  · intro h e
    rw [← platform_ofEnvironment env (by decide : PlatformKind.cuda ≠ .host)]
    exact ofConfig_eq_error_iff (validate_of_not_misplaced hfloored h)

/-- Two devices and the second of them: the words are GG_BATCH_PLATFORM = sim,
GG_BATCH_DEVICE_COUNT = 2 and GG_BATCH_DEVICE_ID = 1. -/
theorem second_device_starts :
    let env : Environment := [("GG_BATCH_PLATFORM", [115, 105, 109]),
      ("GG_BATCH_DEVICE_COUNT", [50]), ("GG_BATCH_DEVICE_ID", [49])]
    (ofEnvironment env).validate = .ok () ∧
      ∃ s, Session.ofConfig (ofEnvironment env) = .ok s ∧
        s.machine.platform = .simulated { count := 2 } ∧ s.device = 1 := by
  intro env
  have hread : ofEnvironment env =
      { platform := .simulated, device := 1, simulated := { count := 2 } } := by decide +kernel
  have hplaced : ¬ (ofEnvironment env).Misplaced := by
    rw [hread]
    decide
  obtain ⟨hvalid, -, hfails, hstarted⟩ := ofEnvironment_starts env
  refine ⟨hvalid.mpr hplaced, ?_⟩
  cases hs : Session.ofConfig (ofEnvironment env) with
  | error e =>
    have hcuda := ((hfails hplaced e).mp hs).1
    rw [← platform_ofEnvironment env (by decide), hread] at hcuda
    cases hcuda
  | ok s =>
    obtain ⟨hhost, -⟩ | ⟨-, rfl, -⟩ := hstarted s hs
    · rw [hread] at hhost
      cases hhost
    · exact ⟨_, rfl, by rw [hread]; rfl, by rw [hread]; rfl⟩

/-- The second of one device: no number of devices was given, so there is one, and the number of the
device that is asked for is left as it is. -/
theorem only_device_misplaced :
    let env : Environment := [("GG_BATCH_PLATFORM", [115, 105, 109]), ("GG_BATCH_DEVICE_ID", [49])]
    (ofEnvironment env).validate = .error (.config (.deviceOutOfRange 1 1)) ∧
      Session.ofConfig (ofEnvironment env) = .error (.config (.deviceOutOfRange 1 1)) ∧
      (ofEnvironment env).platform ≠ .cuda := by
  intro env
  have hread : ofEnvironment env = { platform := .simulated, device := 1 } := by decide +kernel
  rw [hread]
  exact ⟨rfl, rfl, by decide⟩

end Config

end DeviceBatch
