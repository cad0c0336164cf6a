import Galley.CommandLine.Session
import Galley.Image.Stored

/-!
# The command line

Reads the files that a call may use, makes the call, prints what it answers and
writes the pictures and documents that are new. Everything that is decided is
decided by `Galley.CommandLine.call`.
-/

namespace Galley.CommandLine

open File

/-- The names of all settings. -/
def settingNames : List String :=
  ["log_level", "update_expect", "fixture_dir", "ref_dir", "png_dir", "pdf_dir", "asset_dir",
    "font_dir", "fixture_suffix", "workers"]

/-- The variables that can decide a setting. -/
def readEnvironment : IO (List (String × String)) := do
  let names := settingNames.flatMap fun name => [name.toUpper, name]
  names.filterMapM fun name => do
    return (← IO.getEnv name).map fun value => (name, value)

/-- The bytes of a stored file. -/
def storedBytes : Content → ByteArray
  | .bytes bytes => bytes
  | .picture picture => (Image.Stored.encode picture).toUTF8
  | .document pages => (String.join (pages.map Image.Stored.encode)).toUTF8

/-- What a stored file holds. -/
def readStored (path : Path) (bytes : ByteArray) : Content :=
  let picture := if path.suffix = ".png" then
      (String.fromUTF8? bytes).bind Image.Stored.decode
    else none
  match picture with
  | some picture => .picture picture
  | none => .bytes bytes

/-- Adds a file, or a directory with everything below it, to a tree. -/
partial def loadBelow (tree : Tree) (path : Path) : IO Tree := do
  let place := (← IO.currentDir) / path.toString
  if ← place.isDir then
    let tree := tree.makeDirectory path
    let children ← place.readDir
    children.foldlM (fun tree child => loadBelow tree (path ++ .ofString child.fileName)) tree
  else if ← place.pathExists then
    return tree.write path (readStored path (← IO.FS.readBinFile place))
  else return tree

/-- The files that a call with these settings may use. -/
def loadFiles (envFile : Tree) (settings : Settings) : IO Tree :=
  [settings.fixtureDir, settings.assetDir, settings.refDir, settings.pngDir, settings.pdfDir].foldlM
    loadBelow envFile

/-- Writes the files of a tree that differ from those on disk. -/
def storeFiles (tree : Tree) : IO Unit := do
  let here ← IO.currentDir
  tree.entries.forM fun (names, entry) => do
    let place := here / "/".intercalate names
    match entry with
    | .directory => IO.FS.createDirAll place
    | .file content =>
      let bytes := storedBytes content
      let known ← if ← place.pathExists then some <$> IO.FS.readBinFile place else pure none
      unless known.map ByteArray.toList = some bytes.toList do IO.FS.writeBinFile place bytes

/-- Reports a failure. The exit status says whether it was a call for help or a
call that cannot be made. -/
def reportFailure (failure : Failure) : IO UInt32 := do
  match failure with
  | .helpAsked =>
    IO.println "usage: galley [FILTER ...] [-s INDEX] [--exact] [--[no-]update] [--pdf]"
    IO.println "              [--syntax] [--model] [--frames]"
    return 0
  | .usage =>
    IO.eprintln "usage: galley [FILTER ...] [options]"
    return 2
  | _ =>
    IO.eprintln s!"{failure.label}: {failure.message}"
    return 1

/-- Makes a call in the working directory. -/
def callHere (words : List String) : IO UInt32 := do
  let environment ← readEnvironment
  let envFile ← loadBelow {} (.ofString ".env")
  match readSettings environment envFile with
  | .error failure => reportFailure failure
  | .ok settings =>
    let files ← loadFiles envFile settings
    match call environment words files with
    | .error failure => reportFailure failure
    | .ok ending =>
      IO.print ending.output
      storeFiles ending.files
      return UInt32.ofNat ending.exit

end Galley.CommandLine

def main (words : List String) : IO UInt32 :=
  Galley.CommandLine.callHere words
