import Appraisal.Files
import Appraisal.Files.Path
/-!
# A tree of files

Files and directories as a value: what stands at every place, a place being named by the parts on the way from
the root. A path is walked part by part, through directories only (`FileTree.locate`), and ends at a place that
may be empty.
-/

namespace Appraisal

/-- What stands at a place. A file that is not text can be named but not read. -/
inductive FileEntry where
  | directory
  | text (content : String)
  | binary
deriving DecidableEq, Repr

def FileEntry.ofBytes (bytes : ByteArray) : FileEntry :=
  match String.fromUTF8? bytes with
  | some s => .text s
  | none => .binary

/-- The first entry for a place counts. The root is always a directory. -/
structure FileTree where
  entries : List (List String × FileEntry)
  workingDirectory : List String
deriving DecidableEq, Repr

namespace FileTree

def entryAt? (t : FileTree) : List String → Option FileEntry
  | [] => some .directory
  | place => t.entries.lookup place

/-- A part of a path takes at most 255 bytes. -/
def maxPartBytes : Nat := 255

/-- A path takes fewer than 4096 bytes. -/
def pathBytesBound : Nat := 4096

/-- One step from a place. -/
def stepTo (t : FileTree) (place : List String) (part : String) : Except FileError (List String) :=
  match t.entryAt? place with
  | none => .error .notFound
  | some .directory =>
    if Path.isStill part then .ok place
    else if part = ".." then .ok place.dropLast
    else if maxPartBytes < part.utf8ByteSize then .error .nameTooLong
    else .ok (place ++ [part])
  | some _ => .error .notDirectory

/-- Why a path is refused before its first step. -/
def refusal? (path : String) : Option FileError :=
  if path.contains (Char.ofNat 0) then some .nulInName
  else if path.isEmpty then some .notFound
  else if pathBytesBound ≤ path.utf8ByteSize then some .nameTooLong
  else none

/-- The place that a path leads to; something need not stand there. -/
def locate (t : FileTree) (path : String) : Except FileError (List String) :=
  match refusal? path with
  | some e => .error e
  | none => (Path.parts path).foldlM t.stepTo (if Path.isAbsolute path then [] else t.workingDirectory)

def entry (t : FileTree) (path : String) : Except FileError FileEntry := do
  match t.entryAt? (← t.locate path) with
  | some e => return e
  | none => .error .notFound

def present (t : FileTree) (path : String) : Bool :=
  match t.entry path with
  | .ok _ => true
  | .error _ => false

def read (t : FileTree) (path : String) : Except FileError String :=
  match t.entry path with
  | .error e => .error e
  | .ok .directory => .error .isDirectory
  | .ok .binary => .error .notText
  | .ok (.text s) => .ok s

/-- The place of a file to write. Only a directory can be named by a path that ends in a slash. -/
def target (t : FileTree) (path : String) : Except FileError (List String) :=
  match refusal? path with
  | some e => .error e
  | none =>
    let named := String.ofList (path.toList.reverse.dropWhile (· = '/')).reverse
    if named.isEmpty then .error .isDirectory
    else
      match t.locate named with
      | .error e => .error e
      | .ok place =>
        if t.entryAt? place = some .directory || named ≠ path then .error .isDirectory else .ok place

/-- Puts an entry at a place, where it replaces what stood there. -/
def set (t : FileTree) (place : List String) (e : FileEntry) : FileTree :=
  { t with entries := (place, e) :: t.entries.filter (·.1 ≠ place) }

def write (t : FileTree) (path content : String) : Except FileError FileTree :=
  (t.target path).map fun place => t.set place (.text content)

/-! ## Making a tree -/

/-- One step from a place to a directory, which is made if nothing stands there. -/
def makeStep (t : FileTree) (place : List String) (part : String) : FileTree × List String :=
  if Path.isStill part then (t, place)
  else if part = ".." then (t, place.dropLast)
  else
    let next := place ++ [part]
    (if (t.entryAt? next).isSome then t else t.set next .directory, next)

/-- Puts an entry at the end of a path from the working directory and makes the directories on the way. -/
def add (t : FileTree) (path : String) (e : FileEntry) : FileTree :=
  let parts := Path.parts path
  let (t, place) := parts.dropLast.foldl (fun x p => makeStep x.1 x.2 p) (t, t.workingDirectory)
  t.set (place ++ parts.getLast?.toList) e

/-- The directories from the root to a place, and nothing else. -/
def emptyAt (place : List String) : FileTree :=
  ⟨(List.range (place.length + 1)).map fun n => (place.take n, .directory), place⟩

def ofFiles (place : List String) (files : List (String × FileEntry)) : FileTree :=
  files.foldl (fun t f => t.add f.1 f.2) (emptyAt place)

/-- The texts below the working directory that are not the same in `before`, by their paths. -/
def changedTexts (before after : FileTree) : List (String × String) :=
  after.entries.filterMap fun (place, e) =>
    match e with
    | .text s =>
      if before.entryAt? place ≠ some e && after.workingDirectory.isPrefixOf place then
        some ("/".intercalate (place.drop after.workingDirectory.length), s)
      else none
    | _ => none

end FileTree

instance : Files (StateM FileTree) where
  present path := return (← get).present path
  read path := return (← get).read path
  write path content := do
    match (← get).write path content with
    | .error e => return .error e
    | .ok t => set t; return .ok ()

end Appraisal
