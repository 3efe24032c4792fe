import KernelLint.Config.Error

/-!
# Presets

Complete configurations for three common uses, told apart by how deep helpers are followed.
-/

namespace KernelLint

/-- A named base of a configuration. -/
inductive Preset where
  | fast | balanced | thorough
  deriving DecidableEq, Inhabited

namespace Preset

/-- All presets, shallowest first. -/
def all : List Preset := [.fast, .balanced, .thorough]

def label : Preset → String
  | .fast => "fast"
  | .balanced => "balanced"
  | .thorough => "thorough"

/-- How deep helpers are followed. -/
def depth : Preset → Nat
  | .fast => 4
  | .balanced => 10
  | .thorough => 32

/-- The preset of a name in any mixture of cases. Folding ASCII letters is enough: no other
character has a letter of a preset's name as its lower case. -/
def parse (name : String) : Except ConfigError Preset :=
  let folded := String.ofList (name.toList.map Char.toLower)
  match all.find? (·.label = folded) with
  | some preset => .ok preset
  | none => .error (.unknownPreset name)

end Preset

end KernelLint
