import PropSandbox.Settings

/-!
# Faults of settings

Settings are usable when both directories are named, every probability is one, every kind with a
probability of its own is a standard kind, and lower bounds do not exceed upper ones. All faults
are reported together, in the order of the settings.
-/

namespace PropSandbox

/-- What is wrong with a setting. -/
inductive SettingsFault where
  | missing (field : String)
  | notAProbability (field : String) (p : Double)
  | unknownKind (field name : String)
  /-- A lower bound above its upper bound. -/
  | exceeds (lower upper : String) (low high : Int)
  deriving DecidableEq

def SettingsFault.message : SettingsFault → String
  | .missing field => s!"Missing required field: {field}"
  | .notAProbability field p =>
    let value := p.text .message
    s!"Invalid value for {field}: {value} is not a probability between 0 and 1"
  | .unknownKind field name => s!"Unknown kind in {field}: {name}"
  | .exceeds lower upper low high =>
    s!"Invalid value for generation.{lower}: {lower} ({low}) must not exceed {upper} ({high})"

namespace SandboxSettings

def faults (s : SandboxSettings) : List SettingsFault :=
  (if s.componentsDir.isEmpty then [.missing "sandbox.components_dir"] else [])
    ++ (if s.fixturesDir.isEmpty then [.missing "sandbox.fixtures_dir"] else [])

end SandboxSettings

namespace GenerationSettings

/-- The fault of a number that is no probability. -/
def probabilityFaults (field : String) (p : Double) : List SettingsFault :=
  if p.isProbability then [] else [.notAProbability field p]

/-- The faults of the entry for one kind. -/
def entryFaults (entry : String × Double) : List SettingsFault :=
  (if (Kind.standard? entry.1).isSome then []
    else [.unknownKind "generation.null_probability_by_kind" entry.1])
    ++ probabilityFaults ("generation.null_probability_by_kind." ++ entry.1) entry.2

def faults (s : GenerationSettings) : List SettingsFault :=
  probabilityFaults "generation.null_probability" s.nullProbability
    ++ s.nullProbabilityByKind.flatMap entryFaults
    ++ (if s.maxItems < s.minItems then [.exceeds "min_items" "max_items" s.minItems s.maxItems]
        else [])
    ++ (if s.numberMax < s.numberMin then
          [.exceeds "number_min" "number_max" s.numberMin s.numberMax]
        else [])

end GenerationSettings

namespace Settings

/-- All faults, in order; usable settings have none. -/
def faults (s : Settings) : List SettingsFault :=
  s.sandbox.faults ++ s.generation.faults

def rejection (faults : List SettingsFault) : String :=
  "Configuration validation failed:\n" ++ "\n".intercalate (faults.map SettingsFault.message)

end Settings

end PropSandbox
