import MaterialShader.CommandLine.Command

/-!
The command on the files of the machine.
-/

namespace MaterialShader.CommandLine

def Arguments.inputs (a : Arguments) : List String :=
  a.graph.toList ++ a.options.toList ++ a.libraries

def loadFiles (d : Directory) : List String → IO Directory
  | [] => return d
  | path :: rest => do
    let text? ← try some <$> IO.FS.readFile path catch _ => pure none
    match text? with
    | some text => loadFiles (d.addFile path text) rest
    | none => loadFiles d rest

def folderCode : UInt32 := 21

def leadsToFolder (path : String) : IO Bool :=
  try
    let _ ← IO.FS.readFile path
    return false
  catch
    | .inappropriateType _ code _ => return code == folderCode
    | _ => return false

def loadFolders (d : Directory) (steps : List String) : Nat → IO Directory
  | 0 => return d
  | count + 1 => do
    let above ← loadFolders d steps count
    let way := steps.take (count + 1)
    if ← leadsToFolder (Location.path way) then
      return above.addFolder (Directory.locationOf way)
    else return above

def Arguments.outputSteps (a : Arguments) (d : Directory) : List String :=
  match ((Task.load a).run.run ⟨d, [], []⟩).1 with
  | .ok task => Path.steps (Path.join task.outputDirectory task.name)
  | .error _ => []

def saveFiles : List (Location × String) → IO Unit
  | [] => return ()
  | (place, text) :: rest => do
    let folder := Location.path place.dropLast
    if folder != "" then IO.FS.createDirAll folder
    IO.FS.writeFile place.path text
    saveFiles rest

def execute (a : Arguments) : IO UInt32 := do
  let inputs ← loadFiles .empty a.inputs
  let steps := a.outputSteps inputs
  let start ← loadFolders inputs steps steps.length
  let (result, console) := run a start
  saveFiles (start.changes console.directory)
  for entry in console.log do
    if entry.level != .debug then IO.eprintln entry.line
  for line in console.printed do
    IO.println line
  match result with
  | .ok () => return 0
  | .error f =>
    IO.eprintln s!"Error: {f.message}"
    return 1

end MaterialShader.CommandLine

open MaterialShader.CommandLine in
def main (words : List String) : IO UInt32 := do
  match Request.parse words with
  | .ok .help =>
    IO.println usage
    return 0
  | .ok (.generate a) => execute a
  | .error f =>
    IO.eprintln s!"Error: {f.message}"
    return 1
