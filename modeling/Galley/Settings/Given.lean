import Galley.Number.Whole
import Galley.Settings
import Galley.Settings.IntegerText

/-!
# Given settings

A setting may be given as text or as a value, and each field accepts what can
be read as a value of its type. All faulty fields are reported together.
-/

namespace Galley.Settings

/-- What is given for a setting. -/
inductive Given
  | nothing
  | flag (value : Bool)
  | integer (value : Int)
  /-- A number written with a fraction or an exponent. -/
  | float (parts : Number.FloatParts)
  | text (value : String)
  /-- Anything that no field accepts. -/
  | other
  deriving DecidableEq, Repr

namespace Given

/-- Texts that switch a flag off. Every other text switches it on. -/
def falseTexts : List String := ["", "0", "false", "no", "off"]

def textFlag (text : String) : Bool :=
  !falseTexts.contains (String.ofList (Text.lowerAscii (Text.trim text.toList)))

/-- The bound of the integers that floats and flags are read from. -/
def wordBound : Nat := Number.twoPow 63

/-- The integer that a float is. -/
def wholeFloat : Number.FloatParts → Except SettingFault Int
  | .finite negative mantissa exponent => do
    let (top, bottom) := Number.quotientOf negative mantissa exponent
    if top % bottom ≠ 0 then throw .betweenIntegers
    else if wordBound ≤ (top / bottom).natAbs then throw .integerTooLong
    else return top / bottom
  | _ => throw .notFinite

/-- Whether an integer is held in a word of 64 bits. -/
def isWord (n : Int) : Bool :=
  -(wordBound : Int) ≤ n && n < wordBound

def numberFlag (n : Int) : Except SettingFault Bool :=
  if n = 0 then return false
  else if n = 1 then return true
  else if isWord n then throw .noFlagNumber
  else throw .notAFlag

def toFlag : Given → Except SettingFault Bool
  | flag value => return value
  | integer value => numberFlag value
  | float parts =>
    match wholeFloat parts with
    | .ok value => numberFlag value
    | .error _ => throw .notAFlag
  | text value => return textFlag value
  | nothing | other => throw .notAFlag

def toText : Given → Except SettingFault String
  | text value => return value
  | _ => throw .notText

def toPath : Given → Except SettingFault File.Path
  | text value => return .ofString value
  | _ => throw .notAPath

def toOptionalPath : Given → Except SettingFault (Option File.Path)
  | nothing => return none
  | value => some <$> value.toPath

def toOptionalInteger : Given → Except SettingFault (Option Int)
  | nothing => return none
  | flag value => return some (if value then 1 else 0)
  | integer value => return some value
  | float parts => some <$> wholeFloat parts
  | text value => some <$> IntegerText.read value.toList
  | other => throw .notAnInteger

end Given

/-- The value for a field, or its default if nothing is given. -/
def field {α : Type} (given : List (String × Given)) (name : String)
    (read : Given → Except SettingFault α) (default : α) : Except SettingFault α :=
  match given.lookup name with
  | some value => read value
  | none => return default

/-- The fault of a field, if it has one. -/
def faultOf {α : Type} (name : String) (value : Except SettingFault α) :
    List (String × SettingFault) :=
  match value with
  | .ok _ => []
  | .error fault => [(name, fault)]

/-- The value of a field without a fault. -/
def valueOr {α : Type} (default : α) : Except SettingFault α → α
  | .ok value => value
  | .error _ => default

/-- The settings for the given values. Names that are no setting are ignored. -/
def ofGiven (given : List (String × Given)) : Except Failure Settings := do
  let base : Settings := {}
  let assetDir := field given "asset_dir" Given.toPath base.assetDir
  let fixtureDir := field given "fixture_dir" Given.toPath base.fixtureDir
  let fixtureSuffix := field given "fixture_suffix" Given.toText base.fixtureSuffix
  let fontDir := field given "font_dir" Given.toOptionalPath base.fontDir
  let logLevel := field given "log_level" Given.toText base.logLevel
  let pdfDir := field given "pdf_dir" Given.toPath base.pdfDir
  let pngDir := field given "png_dir" Given.toPath base.pngDir
  let refDir := field given "ref_dir" Given.toPath base.refDir
  let updateExpect := field given "update_expect" Given.toFlag base.updateExpect
  let workers := field given "workers" Given.toOptionalInteger base.workers
  let faults := faultOf "asset_dir" assetDir ++ faultOf "fixture_dir" fixtureDir ++
    faultOf "fixture_suffix" fixtureSuffix ++ faultOf "font_dir" fontDir ++
    faultOf "log_level" logLevel ++ faultOf "pdf_dir" pdfDir ++ faultOf "png_dir" pngDir ++
    faultOf "ref_dir" refDir ++ faultOf "update_expect" updateExpect ++ faultOf "workers" workers
  unless faults.isEmpty do throw (.invalidSettings faults)
  return { logLevel := valueOr base.logLevel logLevel
           updateExpect := valueOr base.updateExpect updateExpect
           fixtureDir := valueOr base.fixtureDir fixtureDir
           refDir := valueOr base.refDir refDir
           pngDir := valueOr base.pngDir pngDir
           pdfDir := valueOr base.pdfDir pdfDir
           assetDir := valueOr base.assetDir assetDir
           fontDir := valueOr base.fontDir fontDir
           fixtureSuffix := valueOr base.fixtureSuffix fixtureSuffix
           workers := valueOr base.workers workers }

end Galley.Settings
