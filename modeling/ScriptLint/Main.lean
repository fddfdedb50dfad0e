import ScriptLint.Run

/-!
# The command line

Loads the files that a run can see, runs it, and writes what it says. A check is run on a part of the
file system: the directories on the way to what it is given, with their settings, and all below that
but the directories that its settings leave out.
-/

namespace ScriptLint

open FileTree

/-- Loads a directory, of which nothing is known if it cannot be listed. The paths in `goals` are
loaded whole, but for the directories below them whose names are left out; on the way to them only
settings are loaded. -/
partial def loadDirectory (isLeftOut : String → Bool) (goals : List (List String))
    (path : String) : IO Node := do
  let whole := goals.contains []
  let mut entries := []
  let listed ← try (← IO.FS.realPath path).readDir catch _ => return .unlistable []
  for entry in listed do
    let name := entry.fileName
    let below := goals.filterMap fun goal => if goal.head? == some name then goal.tail? else none
    if whole || !below.isEmpty || name == Config.fileName then
      try
        let node ← match (← entry.path.symlinkMetadata).type with
          | .dir =>
            let goals := if whole && !isLeftOut name then [] :: below else below
            if goals.isEmpty then pure (Node.directory [])
            else loadDirectory isLeftOut goals entry.path.toString
          | .symlink => pure (Node.link (← IO.FS.realPath entry.path).toString)
          | _ =>
            try pure (Node.file (.ofBytes (← IO.FS.readBinFile entry.path).toList))
            catch e => pure (Node.file (.unreadable none (toString e)))
        entries := (name, node) :: entries
      catch _ => pure ()
  return .directory entries.reverse

/-- The names in an absolute path. -/
def namesOf (path : String) : List String :=
  (path.splitOn "/").filter (!·.isEmpty)

/-- The names on the ways from the root to what a path leads to: as it is written, which may be
through links, and without links. -/
def waysTo (start : String) (path : String) : IO (List (List String)) := do
  let path' := path.toList
  let written :=
    Path.normalize (if Path.isAbsolute path' then path' else Path.child start.toList path')
  try
    return [namesOf (String.ofList written), namesOf (← IO.FS.realPath path).toString]
  catch _ => return []

/-- Loads the disk that a check of the given paths can see. -/
def loadDisk (isLeftOut : String → Bool) (paths : List String) : IO Disk := do
  let directory := (← IO.FS.realPath ".").toString
  let start := namesOf directory
  let goals ← paths.mapM (waysTo directory)
  let root ← loadDirectory isLeftOut ((start ++ ["."]) :: goals.flatten) "/"
  let top : Place := ⟨root, []⟩
  match top.locate Disk.linkLimit (start.map String.toList) with
  | .ok place => return ⟨place⟩
  | .error _ => return ⟨top⟩

/-- Loads the disk that a command can see. -/
def Command.loadDisk : Command → IO Disk
  | check options => do
    let paths := options.path :: options.config.toList
    let settings := options.settings (← ScriptLint.loadDisk (fun _ => true) paths)
    match settings with
    | .ok (c, _) =>
      ScriptLint.loadDisk (fun name => Scan.isHidden name || c.exclude.contains name) paths
    | .error _ => ScriptLint.loadDisk (fun _ => true) paths
  | _ => return .ofNode (.directory [])

end ScriptLint

open ScriptLint

/-- Runs the command line. -/
def main (arguments : List String) : IO UInt32 := do
  match Invocation.parse arguments with
  | .error e =>
    IO.eprintln e.message
    return failureExit.toUInt32
  | .ok invocation =>
    let settings ← ["CLICOLOR_FORCE", "CLICOLOR", "NO_COLOR"].mapM fun name => do
      return (name, ← IO.getEnv name)
    let isTerminal ← (← IO.getStdout).isTty
    let environment := Environment.ofVariables isTerminal fun name => (settings.lookup name).join
    let outcome := invocation.command.run (← invocation.command.loadDisk) environment
    IO.eprint outcome.messages
    IO.print outcome.output
    return outcome.exit.toUInt32
