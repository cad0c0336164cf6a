import Galley.Settings.EnvFile
import Galley.Settings.Given

/-!
# Sources of settings

Settings are given as values, in the environment or in an environment file. The
first of these that gives a setting decides it. Variables are matched whatever
their case, and of several that differ only in case the last one counts, even
if it gives nothing.
-/

namespace Galley.Settings

/-- The name of the setting that a variable stands for: its name in lower case,
where the sign for kelvins is a letter like any other. -/
def settingName (name : String) : String :=
  String.ofList (Text.replaceChar '\u212a' 'k' (Text.lowerAscii name.toList))

/-- The bindings that no later one of the same name replaces. -/
def lastBindings {α : Type} : List (String × α) → List (String × α)
  | [] => []
  | binding :: rest =>
    if rest.any fun other => other.1 == binding.1 then lastBindings rest
    else binding :: lastBindings rest

/-- Variables as given settings. Those without a value give nothing. -/
def fromBindings (bindings : List (String × Option String)) : List (String × Given) :=
  let named := bindings.map fun (name, value) => (settingName name, value)
  (lastBindings named).filterMap fun (name, value) => value.map fun value => (name, .text value)

/-- Refuses a variable that no environment can hold. -/
def checkVariable (binding : String × String) : Except Failure Unit :=
  let (name, value) := (binding.1.toList, binding.2.toList)
  if name.contains '\x00' || value.contains '\x00' then throw .nullCharacter
  else if name.contains '=' then throw .illegalVariable
  else if name.isEmpty then throw .unnamedVariable
  else return ()

/-- The settings from all sources. -/
def read (given : List (String × Given)) (environment : List (String × String))
    (envFile : Option String) : Except Failure Settings := do
  environment.forM checkVariable
  let outer := environment.map fun (name, value) => (name, some value)
  let bindings := (envFile.map (EnvFile.read environment)).getD []
  ofGiven (given ++ fromBindings outer ++ fromBindings bindings)

end Galley.Settings
