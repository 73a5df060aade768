import MaterialShader.Assoc
import MaterialShader.Text.Search

/-!
A directory with files and folders, and the paths that lead to them.

A path is a text with slashes between its steps. Steps that are empty or a single point lead
nowhere, two points lead up, and a path that starts with a slash does not start in the directory.
-/

namespace MaterialShader

/-- The steps from the directory to a place. A place outside starts with two points or a slash. -/
abbrev Location := List String

namespace Location

def isInside (l : Location) : Bool :=
  match l.head? with
  | some first => first != ".." && first != "/"
  | none => true

def path (l : Location) : String :=
  match l with
  | "/" :: rest => "/" ++ Text.join "/" rest
  | _ => Text.join "/" l

end Location

namespace Path

/-- The parts of a text between slashes; `current` holds the open part in reverse. -/
def partsFrom (current : List Char) : List Char → List String
  | [] => [String.ofList current.reverse]
  | c :: cs =>
    if c = '/' then String.ofList current.reverse :: partsFrom [] cs
    else partsFrom (c :: current) cs

def parts (path : String) : List String := partsFrom [] path.toList

def root : String := "/"

def up : String := ".."

def isAbsolute (path : String) : Bool := path.toList.head? == some '/'

def steps (path : String) : List String :=
  (if isAbsolute path then [root] else []) ++
    (parts path).filter fun part => part != "" && part != "."

def meansFolder (path : String) : Bool :=
  match (parts path).getLast? with
  | some last => last == "" || last == "." || last == up
  | none => true

def endsInPoint (path : String) : Bool :=
  ((parts path).filter fun part => part != "").getLast? == some "."

/-- Paths and steps have a greatest length in bytes, and no null character. -/
def isAcceptable (path : String) : Bool :=
  path.utf8ByteSize < 4096 && (parts path).all (fun part => part.utf8ByteSize ≤ 255) &&
    !path.toList.contains '\x00'

def join (folder name : String) : String :=
  if isAbsolute name || folder.isEmpty then name
  else if folder.toList.getLast? == some '/' then folder ++ name
  else folder ++ "/" ++ name

def stem (name : String) : String :=
  let cs := name.toList.reverse
  match cs.dropWhile (· != '.') with
  | _ :: c :: before => String.ofList (c :: before).reverse
  | _ => name

def fileStem? (path : String) : Option String :=
  match (steps path).getLast? with
  | some last => if last == up || last == root then none else some (stem last)
  | none => none

end Path

structure Directory where
  files : List (Location × String)
  folders : List Location
  deriving DecidableEq, Repr

namespace Directory

def empty : Directory := ⟨[], []⟩

def isFolder (d : Directory) (l : Location) : Bool :=
  match l.getLast? with
  | none => true
  | some last => last == Path.up || last == Path.root || d.folders.contains l

def isFile (d : Directory) (l : Location) : Bool := Assoc.has l d.files

def above (l : Location) : Location :=
  match l.getLast? with
  | none => [Path.up]
  | some last =>
    if last == Path.root then l else if last == Path.up then l ++ [Path.up] else l.dropLast

def walk (d : Directory) : Location → List String → Option Location
  | here, [] => some here
  | here, step :: rest =>
    if step == Path.up then d.walk (above here) rest
    else if d.isFolder (here ++ [step]) then d.walk (here ++ [step]) rest
    else none

def fileLocation? (d : Directory) (path : String) : Option Location :=
  if Path.meansFolder path || !Path.isAcceptable path then none
  else
    match (Path.steps path).reverse with
    | [] => none
    | name :: folders => do
      let folder ← d.walk [] folders.reverse
      let place : Location := folder ++ [name]
      if d.isFolder place then none else some place

def read? (d : Directory) (path : String) : Option String := do
  let place ← d.fileLocation? path
  Assoc.get? place d.files

def write? (d : Directory) (path text : String) : Option Directory := do
  let place ← d.fileLocation? path
  return { d with files := Assoc.put place text d.files }

def createFrom (d : Directory) : Location → List String → Option Directory
  | _, [] => some d
  | here, step :: rest =>
    if step == Path.up then d.createFrom (above here) rest
    else
      let place := here ++ [step]
      if d.isFile place then none
      else if d.isFolder place then d.createFrom place rest
      else { d with folders := d.folders ++ [place] }.createFrom place rest

/-- Create the folders of a path. A point at the end names no folder of its own, so what stands
before it has to be there once the folders above are created. -/
def createFolders? (d : Directory) (path : String) : Option Directory :=
  let steps := Path.steps path
  if !Path.isAcceptable path then none
  else if Path.endsInPoint path then do
    let created ← d.createFrom [] steps.dropLast
    let _ ← created.walk [] steps
    return created
  else d.createFrom [] steps

def locationOf (steps : List String) : Location :=
  steps.foldl (fun here step => if step == Path.up then above here else here ++ [step]) []

def addFolder (d : Directory) (place : Location) : Directory :=
  if d.isFolder place then d else { d with folders := d.folders ++ [place] }

def addFile (d : Directory) (path text : String) : Directory :=
  let folder := Path.steps path
  let created := (d.createFrom [] folder.dropLast).getD d
  (created.write? path text).getD created

def ofFiles (files : List (String × String)) : Directory :=
  files.foldl (fun d (path, text) => d.addFile path text) empty

def changes (before after : Directory) : List (Location × String) :=
  after.files.filter fun (place, text) => Assoc.get? place before.files != some text

end Directory

end MaterialShader
