import TemplateLint.Command.Reader
import TemplateLint.Command.Run

/-! # The command line

The files that a command can reach are read into a disk, the command runs on that value, and the
files that it changed are written back. Symbolic links inside a project are not followed.
-/

namespace TemplateLint.CommandLine

/-- The route of a path without detours. -/
def routeOf (real : String) : Route := Disk.lookups ⟨real⟩

/-- The file at a path, with what may be done with it. Only JSON files are ever read, so the content
of any other is left empty. -/
def readEntry (real : String) : IO Entry := do
  if !real.endsWith ".json" then return .file (.text "") .full
  match ← (IO.FS.readBinFile real).toBaseIO with
  | .error _ => return .file (.text "") .none
  | .ok bytes =>
    let content :=
      match String.fromUTF8? bytes with
      | some text => Content.text text
      | none => .binary bytes.toList
    match ← (IO.FS.Handle.mk real .readWrite).toBaseIO with
    | .ok _ => return .file content .full
    | .error _ => return .file content .readOnly

/-- The path without detours of what a path leads to, if that is there. -/
def real? (path : String) : IO (Option String) := do
  match ← (IO.FS.realPath path).toBaseIO with
  | .ok place => return some place.toString
  | .error _ => return none

/-- Read the tree at a path without detours. -/
partial def loadTree (disk : Disk) (real : String) : IO Disk := do
  let place ← IO.FS.realPath real
  let route := routeOf real
  if ← place.isDir then
    match ← place.readDir.toBaseIO with
    | .error _ => return (disk.makeDirectory route).restrict route .none
    | .ok found =>
      found.foldlM (fun disk item => do
        let inner : String := item.path.toString
        if (← real? inner) = some inner then loadTree disk inner else return disk)
        (disk.makeDirectory route)
  else return (disk.makeDirectory route.dropLast).put route (← readEntry real)

/-- Read the tree that a path leads to. -/
def loadPath (disk : Disk) (path : Path) : IO Disk := do
  match ← real? path.spelling with
  | some real => loadTree disk real
  | none => return disk

/-- Read what the search for settings looks at, in a directory and at most `steps` above it. -/
def loadMarkers (disk : Disk) : Nat → Path → IO Disk
  | 0, _ => return disk
  | steps + 1, directory => do
    let disk ← loadPath disk (directory.child Settings.fileName)
    let disk :=
      match ← real? (directory.child ".git").spelling with
      | some real => disk.makeDirectory (routeOf real)
      | none => disk
    match directory.parent? with
    | some parent => loadMarkers disk steps parent
    | none => return disk

/-- Read what a command on a selection looks at. -/
def loadSelection (cwd : Path) (selection : Selection) : IO Disk := do
  let start := Session.start cwd selection
  let disk := (Disk.mk []).makeDirectory (routeOf cwd.spelling)
  let disk ← loadMarkers disk (start.spelling.length + 1) start
  let root := Session.rootOf cwd selection (Settings.find? disk start)
  let disk ← (Listing.tops root (selection.paths.map cwd.join)).foldlM loadPath disk
  match Session.prepare disk cwd selection with
  | .ok session => loadPath disk session.catalog.path
  | .error _ => return disk

/-- Read what a command looks at. -/
def load (cwd : Path) : Option Command → IO Disk
  | some (.check selection) => loadSelection cwd selection
  | some (.fix selection _) => loadSelection cwd selection
  | some .init =>
    loadPath ((Disk.mk []).makeDirectory (routeOf cwd.spelling)) (cwd.child Settings.fileName)
  | none => return {}

/-- Write the files that a run changed. -/
def store (before after : Disk) : IO Unit :=
  after.entries.forM fun (route, entry) => do
    match entry with
    | .file (.text text) .full =>
      if before.entry? route ≠ some entry then
        IO.FS.writeFile (Disk.pathOf route).spelling text
    | _ => return ()

/-- Print a run and answer its exit code. -/
def print (run : Run) : IO Nat := do
  let output ← IO.getStdout
  let warnings ← IO.getStderr
  warnings.putStr (run.warnings.render (← warnings.isTty))
  output.putStr (run.output.render (← output.isTty))
  match run.status with
  | .ok status => return status.code
  | .error error =>
    warnings.putStrLn ("Error: " ++ error.message)
    return Status.error.code

/-- Run the words of a command line and answer the exit code. -/
def start (words : List String) : IO Nat := do
  match Command.read words with
  | .error .helpRequested =>
    (← IO.getStdout).putStr Command.help
    return Status.success.code
  | .error .versionRequested =>
    (← IO.getStdout).putStrLn "bare-strings 0.1.0"
    return Status.success.code
  | .error error =>
    (← IO.getStderr).putStrLn ("error: " ++ error.message)
    return Status.error.code
  | .ok command =>
    let cwd : Path := ⟨(← IO.currentDir).toString⟩
    let disk ← load cwd command
    let run := Command.runOrHelp disk cwd command
    match ← (store disk run.disk).toBaseIO with
    | .ok _ => print run
    | .error _ =>
      -- Only a settings file is created, so a refused write means that its directory is closed.
      let closed := disk.restrict (routeOf cwd.spelling) .readOnly
      print (Command.runOrHelp closed cwd command)

end TemplateLint.CommandLine

/-- The command line. -/
def main (words : List String) : IO UInt32 := do
  return (← TemplateLint.CommandLine.start words).toUInt32
