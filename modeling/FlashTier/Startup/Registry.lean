/-
The device backends compiled into the program and the automatic choice among them
(`backends/backend_registry.cpp`), and how `start` comes to a backend (`runtime.cpp`). The choice is a first
match in a fixed order, and a backend that fails its probe has no part in it.
-/
import FlashTier.Conc.Keyed
import FlashTier.Startup.Budgets
import Mathlib.Data.String.Basic

namespace FlashTier

/-! ## Registry -/

/-- The field of `DeviceInfo` the choice reads. -/
structure DeviceInfo where
  discrete : Bool
  deriving DecidableEq

/-- What becomes of a backend that is created and asked for its devices. An exception carries its text if
it is a `std::exception`. -/
inductive Probe where
  | factoryThrew (what : Option String)
  | factoryNull
  | enumerationThrew (what : Option String)
  | enumerated (devices : List DeviceInfo)
  deriving DecidableEq

/-- The devices, or the exception that reaches the handlers of the probe. -/
def Probe.devices : Probe → Except (Option String) (List DeviceInfo)
  | .factoryThrew what => .error what
  | .factoryNull => .error (some "backend factory returned null")
  | .enumerationThrew what => .error what
  | .enumerated devices => .ok devices

structure Registration where
  name : String
  probe : Probe

/-- `backends_`: a map, so its names are distinct and come in ascending order. -/
structure Registry where
  backends : Conc.Keyed Registration.name
  sorted : (backends.items.map Registration.name).Pairwise (· < ·)

namespace Registry

/-- `compiled_backends`. -/
def compiledBackends (r : Registry) : List String := r.backends.items.map Registration.name

/-- `has`. -/
def has (r : Registry) (name : String) : Bool := (r.backends.lookup name).isSome

/-- The registration at its place in the order, instead of one with its name. -/
def insertSorted (b : Registration) : List Registration → List Registration
  | [] => [b]
  | a :: rest =>
    if b.name < a.name then b :: a :: rest
    else if b.name = a.name then b :: rest
    else a :: insertSorted b rest

theorem mem_insertSorted {b c : Registration} {l : List Registration} (h : c ∈ insertSorted b l) : c = b ∨ c ∈ l := by
  fun_induction insertSorted b l with
  | case1 => exact .inl (List.mem_singleton.1 h)
  | case2 a rest hlt => exact List.mem_cons.1 h
  | case3 a rest hlt heq =>
    rcases List.mem_cons.1 h with rfl | h
    · exact .inl rfl
    · exact .inr (List.mem_cons_of_mem _ h)
  | case4 a rest hlt hne ih =>
    rcases List.mem_cons.1 h with rfl | h
    · exact .inr List.mem_cons_self
    · exact (ih h).imp_right (List.mem_cons_of_mem _)

theorem insertSorted_sorted (b : Registration) {l : List Registration} (h : (l.map Registration.name).Pairwise (· < ·)) :
    ((insertSorted b l).map Registration.name).Pairwise (· < ·) := by
  rw [List.pairwise_map] at h ⊢
  fun_induction insertSorted b l with
  | case1 => exact List.pairwise_singleton _ _
  | case2 a rest hlt =>
    refine List.pairwise_cons.2 ⟨fun c hc => ?_, h⟩
    rcases List.mem_cons.1 hc with rfl | hc
    · exact hlt
    · exact hlt.trans ((List.pairwise_cons.1 h).1 c hc)
  | case3 a rest hlt heq =>
    obtain ⟨hfirst, hrest⟩ := List.pairwise_cons.1 h
    exact List.pairwise_cons.2 ⟨fun c hc => heq ▸ hfirst c hc, hrest⟩
  | case4 a rest hlt hne ih =>
    obtain ⟨hfirst, hrest⟩ := List.pairwise_cons.1 h
    refine List.pairwise_cons.2 ⟨fun c hc => ?_, ih hrest⟩
    rcases mem_insertSorted hc with rfl | hc
    · exact lt_of_le_of_ne (not_lt.1 hlt) (Ne.symm hne)
    · exact hfirst c hc

theorem nodup_of_sorted {names : List String} (h : names.Pairwise (· < ·)) : names.Nodup := h.imp fun hlt => hlt.ne

/-- `register_backend`; there may be no factory. -/
def registerBackend (r : Registry) (name : String) (factory : Option Probe) : Except Error Registry :=
  if name = "" then .error ⟨.invalidArgument, "cannot register a backend with an empty name", ""⟩
  else match factory with
    | none => .error ⟨.invalidArgument, "cannot register backend '" ++ name ++ "' without a factory", ""⟩
    | some probe =>
      have hs := insertSorted_sorted ⟨name, probe⟩ r.sorted
      .ok ⟨⟨insertSorted ⟨name, probe⟩ r.backends.items, nodup_of_sorted hs⟩, hs⟩

instance : EmptyCollection Registry := ⟨⟨∅, List.Pairwise.nil⟩⟩

/-- The registry without one backend. -/
def erase (r : Registry) (name : String) : Registry :=
  ⟨r.backends.erase name, r.sorted.sublist (List.filter_sublist.map _)⟩

/-! ## Automatic choice -/

/-- The accelerators that come first. -/
def preferred : List String := ["cuda", "hip", "level_zero", "vulkan", "metal"]

/-- The order of the probes: the preferred names, then every other name but the CPU's. -/
def preference (r : Registry) : List String :=
  r.compiledBackends.foldl (fun order name => if name = "cpu" ∨ name ∈ order then order else order ++ [name]) preferred

structure Candidate where
  name : String
  devices : List DeviceInfo

/-- What the probes leave: the backends with devices and the texts about the others. -/
structure Probed where
  candidates : List Candidate := []
  failures : List String := []

/-- The text of an exception that ended a probe. -/
def probeFailed (name : String) : Option String → String
  | some what => name ++ ": probe failed: " ++ what
  | none => name ++ ": probe failed with an unknown exception"

/-- The probe of one name of the order; one that is not registered is passed over. -/
def probeNext (r : Registry) (seen : Probed) (name : String) : Probed :=
  match r.backends.lookup name with
  | none => seen
  | some b => match b.probe.devices with
    | .ok [] => { seen with failures := seen.failures ++ [name ++ ": no devices discovered"] }
    | .ok devices => { seen with candidates := seen.candidates ++ [⟨name, devices⟩] }
    | .error what => { seen with failures := seen.failures ++ [probeFailed name what] }

def probed (r : Registry) : Probed := r.preference.foldl r.probeNext {}

/-- The name returned and `reason_out`. -/
structure Selection where
  name : String
  reason : String
  deriving DecidableEq

def Candidate.selected (c : Candidate) (kind : String) : Selection :=
  ⟨c.name, c.name ++ " backend selected (" ++ toString c.devices.length ++ " device(s), " ++ kind ++ ")"⟩

/-- The sentence, followed by the failures if there are any. -/
def withFailures (sentence separator : String) (failures : List String) : String :=
  if failures = [] then sentence else sentence ++ separator ++ "; ".intercalate failures

/-- The error at the end of the choice. -/
def noBackend (failures : List String) : Error := ⟨.unsupported, withFailures "no usable device backend" ": " failures, ""⟩

/-- The choice once there is no candidate. -/
def selectCpu (r : Registry) (failures : List String) : Except Error Selection :=
  match r.backends.lookup "cpu" with
  | none => .error (noBackend (failures ++ ["cpu: backend not compiled"]))
  | some b => match b.probe.devices with
    | .ok [] => .error (noBackend (failures ++ ["cpu: no emulation device discovered"]))
    | .ok (_ :: _) => .ok ⟨"cpu", withFailures
        "cpu backend selected: no accelerator backend available (CPU-only mode; no GPU execution is claimed)"
        "; accelerator probes: " failures⟩
    | .error what => .error (noBackend (failures ++ [probeFailed "cpu" what]))

/-- `select_automatic`. -/
def selectAutomatic (r : Registry) : Except Error Selection :=
  match r.probed.candidates.find? fun c => c.devices.any (·.discrete) with
  | some c => .ok (c.selected "discrete GPU present")
  | none => match r.probed.candidates with
    | c :: _ => .ok (c.selected "integrated/shared memory")
    | [] => r.selectCpu r.probed.failures

/-- What the caller goes by: the name, or the code of the error. -/
def outcome (r : Registry) : Except ErrorCode String :=
  match r.selectAutomatic with
  | .ok selection => .ok selection.name
  | .error e => .error e.code

/-! ## The order -/

theorem foldl_absent (l order : List String) (hl : l.Nodup) :
    l.foldl (fun order name => if name = "cpu" ∨ name ∈ order then order else order ++ [name]) order =
      order ++ l.filter fun name => name ≠ "cpu" ∧ name ∉ order := by
  induction l generalizing order with
  | nil => simp
  | cons a l ih =>
    obtain ⟨ha, hl⟩ := List.nodup_cons.1 hl
    rw [List.foldl_cons, ih _ hl]
    by_cases h : a = "cpu" ∨ a ∈ order
    · rw [if_pos h, List.filter_cons_of_neg (by simpa [Classical.or_iff_not_imp_left] using h)]
    · rw [if_neg h, List.filter_cons_of_pos (by simpa [not_or] using h), List.append_assoc, List.singleton_append]
      -- a name added to the order does not come again
      congr 2
      refine List.filter_congr fun b hb => ?_
      have hne : b ≠ a := fun he => ha (he ▸ hb)
      simp [hne]

variable (r : Registry)

/-- The names after the preferred ones. -/
def others : List String := r.compiledBackends.filter fun name => name ≠ "cpu" ∧ name ∉ preferred

theorem preference_eq : r.preference = preferred ++ r.others := foldl_absent _ _ (nodup_of_sorted r.sorted)

theorem others_sorted : r.others.Pairwise (· < ·) := r.sorted.sublist List.filter_sublist

theorem mem_others {name : String} : name ∈ r.others ↔ name ∈ r.compiledBackends ∧ name ≠ "cpu" ∧ name ∉ preferred := by
  simp [others]

/-! ## The probes -/

/-- The devices a backend shows: none if it is not registered or its probe fails. -/
def devicesOf (name : String) : List DeviceInfo :=
  match r.backends.lookup name with
  | none => []
  | some b => match b.probe.devices with
    | .ok devices => devices
    | .error _ => []

def hasDevice (name : String) : Bool := !(r.devicesOf name).isEmpty

def hasDiscrete (name : String) : Bool := (r.devicesOf name).any (·.discrete)

theorem hasDevice_of_discrete {name : String} (h : r.hasDiscrete name = true) : r.hasDevice name = true := by
  revert h
  unfold hasDevice hasDiscrete
  rcases r.devicesOf name with _ | ⟨d, ds⟩
  · exact id
  · exact fun _ => rfl

/-- The candidate a backend is. -/
def candidateOf (name : String) : Option Candidate := if r.hasDevice name then some ⟨name, r.devicesOf name⟩ else none

theorem probeNext_candidates (seen : Probed) (name : String) :
    (r.probeNext seen name).candidates = seen.candidates ++ (r.candidateOf name).toList := by
  unfold probeNext candidateOf hasDevice devicesOf
  rcases r.backends.lookup name with _ | b
  · simp
  · rcases hd : b.probe.devices with what | _ | ⟨d, ds⟩ <;> simp [hd]

theorem foldl_probeNext_candidates (names : List String) (seen : Probed) :
    (names.foldl r.probeNext seen).candidates = seen.candidates ++ names.filterMap r.candidateOf := by
  induction names generalizing seen with
  | nil => simp
  | cons name names ih =>
    rw [List.foldl_cons, ih, probeNext_candidates, List.append_assoc, List.filterMap_cons]
    rcases r.candidateOf name with _ | c <;> rfl

theorem probed_candidates : r.probed.candidates = r.preference.filterMap r.candidateOf :=
  r.foldl_probeNext_candidates _ _

/-- The first candidate of a kind is the first backend of the order with devices of that kind. -/
theorem find_candidate (names : List String) (kind : List DeviceInfo → Bool) :
    ((names.filterMap r.candidateOf).find? fun c => kind c.devices).map Candidate.name =
      names.find? fun name => r.hasDevice name && kind (r.devicesOf name) := by
  induction names with
  | nil => rfl
  | cons name names ih =>
    rw [List.filterMap_cons, List.find?_cons, candidateOf]
    cases h : r.hasDevice name with
    | false => exact ih
    | true =>
      simp only [if_true, List.find?_cons, Bool.true_and]
      cases kind (r.devicesOf name) with
      | false => exact ih
      | true => rfl

theorem find_discrete :
    (r.probed.candidates.find? fun c => c.devices.any (·.discrete)).map Candidate.name = r.preference.find? r.hasDiscrete := by
  rw [probed_candidates, r.find_candidate r.preference fun ds => ds.any (·.discrete)]
  congr 1
  funext name
  exact Bool.and_eq_right_iff_imp.2 r.hasDevice_of_discrete

theorem head_candidate : r.probed.candidates.head?.map Candidate.name = r.preference.find? r.hasDevice := by
  have hfind := r.find_candidate r.preference fun _ => true
  simp only [Bool.and_true] at hfind
  rw [probed_candidates, ← hfind]
  congr 1
  rcases r.preference.filterMap r.candidateOf with _ | ⟨c, cs⟩ <;> simp

/-! ## The choice -/

/-- The CPU's backend, if it shows a device. -/
theorem selectCpu_outcome (failures : List String) :
    (∃ reason, r.selectCpu failures = .ok ⟨"cpu", reason⟩ ∧ r.hasDevice "cpu" = true) ∨
      ∃ e, r.selectCpu failures = .error e ∧ e.code = .unsupported ∧ r.hasDevice "cpu" = false := by
  unfold selectCpu hasDevice devicesOf
  rcases r.backends.lookup "cpu" with _ | b
  · exact .inr ⟨_, rfl, rfl, rfl⟩
  · simp only
    rcases b.probe.devices with what | _ | ⟨d, ds⟩
    · exact .inr ⟨_, rfl, rfl, rfl⟩
    · exact .inr ⟨_, rfl, rfl, rfl⟩
    · exact .inl ⟨_, rfl, rfl⟩

/-- The first with a discrete device, else the first with any, else the CPU. -/
def firstChoice : Option String :=
  r.preference.find? r.hasDiscrete <|> r.preference.find? r.hasDevice <|> if r.hasDevice "cpu" then some "cpu" else none

theorem outcome_eq : r.outcome = r.firstChoice.elim (.error .unsupported) .ok := by
  unfold outcome selectAutomatic firstChoice
  rw [← find_discrete, ← head_candidate]
  generalize r.probed.candidates.find? (fun c => c.devices.any (·.discrete)) = discrete
  rcases discrete with _ | c
  · generalize r.probed.candidates = candidates
    rcases candidates with _ | ⟨c, cs⟩
    · rcases r.selectCpu_outcome r.probed.failures with ⟨reason, hsel, hcpu⟩ | ⟨e, hsel, hcode, hcpu⟩
      · simp [hsel, hcpu]
      · simp [hsel, hcpu, hcode]
    · rfl
  · rfl

/-! ## A backend without devices -/

variable {r} {name : String}

theorem devicesOf_erase (h : r.devicesOf name = []) : (r.erase name).devicesOf = r.devicesOf := by
  funext other
  by_cases he : name = other
  · subst he
    rw [h, devicesOf, erase, Conc.Keyed.lookup_erase_self]
  · rw [devicesOf, erase, Conc.Keyed.lookup_erase_ne _ he]
    rfl

theorem others_erase : (r.erase name).others = r.others.filter fun other => other ≠ name := by
  have hnames : (r.erase name).compiledBackends = r.compiledBackends.filter fun other => other ≠ name := by
    rw [compiledBackends, compiledBackends, List.filter_map]
    rfl
  rw [others, others, hnames, List.filter_comm]

/-- The search for a backend that `name` is not goes on without it. -/
theorem find_erase {kind : String → Bool} (hk : kind name = false) :
    (r.erase name).preference.find? kind = r.preference.find? kind := by
  rw [preference_eq, preference_eq, others_erase, List.find?_append, List.find?_append, List.find?_filter]
  congr 2
  funext other
  by_cases he : other = name
  · subst he
    simp [hk]
  · simp [he]

theorem firstChoice_erase (h : r.devicesOf name = []) : (r.erase name).firstChoice = r.firstChoice := by
  have hdevices := devicesOf_erase h
  have hdiscrete : (r.erase name).hasDiscrete = r.hasDiscrete := by
    funext other
    rw [hasDiscrete, hasDiscrete, hdevices]
  have hdevice : (r.erase name).hasDevice = r.hasDevice := by
    funext other
    rw [hasDevice, hasDevice, hdevices]
  unfold firstChoice
  rw [hdiscrete, hdevice, find_erase (by simp [hasDiscrete, h]), find_erase (by simp [hasDevice, h])]

/-- The order is the preferred names and then the others but the CPU's, ascending. The choice is the first
of it with a discrete device, else the first with any, else the CPU's backend if it shows a device, else an
error. A backend whose probe fails or shows nothing may as well not be registered. -/
theorem selection_isolated (r : Registry) :
    (r.preference = ["cuda", "hip", "level_zero", "vulkan", "metal"] ++ r.others ∧ r.others.Pairwise (· < ·) ∧
      ∀ name, name ∈ r.others ↔ name ∈ r.compiledBackends ∧ name ≠ "cpu" ∧ name ∉ preferred) ∧
    r.outcome =
      (match r.preference.find? r.hasDiscrete, r.preference.find? r.hasDevice, r.hasDevice "cpu" with
        | some name, _, _ => .ok name
        | none, some name, _ => .ok name
        | none, none, true => .ok "cpu"
        | none, none, false => .error .unsupported) ∧
    ∀ name, r.hasDevice name = false → (r.erase name).outcome = r.outcome := by
  refine ⟨⟨r.preference_eq, r.others_sorted, fun name => r.mem_others⟩, ?_, ?_⟩
  · rw [outcome_eq, firstChoice]
    rcases r.preference.find? r.hasDiscrete with _ | name
    · rcases r.preference.find? r.hasDevice with _ | name
      · rcases r.hasDevice "cpu" <;> rfl
      · rfl
    · rfl
  · intro name h
    have hnil : r.devicesOf name = [] := by simpa [hasDevice] using h
    rw [outcome_eq, outcome_eq, firstChoice_erase hnil]

/-! ## The backend of a start -/

theorem hasDevice_of_firstChoice (h : r.firstChoice = some name) : r.hasDevice name = true := by
  unfold firstChoice at h
  rcases hdiscrete : r.preference.find? r.hasDiscrete with _ | first
  · rcases hany : r.preference.find? r.hasDevice with _ | first
    · by_cases hcpu : r.hasDevice "cpu" = true
      · simp only [hdiscrete, hany, hcpu, if_true] at h
        cases h
        exact hcpu
      · simp [hdiscrete, hany, hcpu] at h
    · rw [hdiscrete, hany] at h
      cases h
      exact List.find?_some hany
  · rw [hdiscrete] at h
    cases h
    exact r.hasDevice_of_discrete (List.find?_some hdiscrete)

theorem has_of_hasDevice (h : r.hasDevice name = true) : r.has name = true := by
  unfold has
  rcases hl : r.backends.lookup name with _ | b
  · rw [hasDevice, devicesOf, hl] at h
    cases h
  · rfl

/-- A backend chosen automatically shows a device. -/
theorem selectAutomatic_hasDevice {s : Selection} (h : r.selectAutomatic = .ok s) : r.hasDevice s.name = true := by
  have ho : r.outcome = .ok s.name := by rw [outcome, h]
  rw [outcome_eq] at ho
  rcases hf : r.firstChoice with _ | first
  · rw [hf] at ho
    cases ho
  · rw [hf] at ho
    cases ho
    exact hasDevice_of_firstChoice hf

end Registry

/-- The backend `start` uses, and why. -/
def StartConfig.startBackend (cfg : StartConfig) (r : Registry) : Except Error Registry.Selection :=
  let errors := cfg.validate r.compiledBackends
  if errors ≠ [] then .error ⟨.config, "invalid runtime configuration", "; ".intercalate errors⟩
  else if cfg.cudaEnabled = false then
    if cfg.backend ≠ "" ∧ cfg.backend ≠ "auto" ∧ cfg.backend ≠ "cpu" then
      .error ⟨.config, "--no-cuda conflicts with explicit backend '" ++ cfg.backend ++ "'", ""⟩
    else .ok ⟨"cpu", "cpu backend: CPU-only mode requested (--no-cuda)"⟩
  else if cfg.backend = "" ∨ cfg.backend = "auto" then r.selectAutomatic
  else if r.has cfg.backend = false then .error ⟨.config, "unknown device backend '" ++ cfg.backend ++ "'", ""⟩
  else .ok ⟨cfg.backend, "explicit --backend " ++ cfg.backend⟩

/-- Outside CPU-only mode `start` creates a backend that is registered. -/
theorem StartConfig.startBackend_registered {cfg : StartConfig} {r : Registry} {s : Registry.Selection}
    (h : cfg.startBackend r = .ok s) : s.name = "cpu" ∨ r.has s.name = true := by
  simp only [startBackend] at h
  split at h
  · cases h
  split at h
  · split at h
    · cases h
    · cases h
      exact .inl rfl
  split at h
  · exact .inr (Registry.has_of_hasDevice (Registry.selectAutomatic_hasDevice h))
  split at h
  · cases h
  · rename_i hhas
    cases h
    exact .inr (Bool.eq_true_of_not_eq_false hhas)

end FlashTier
