-- SUMMARY: A host that is a value: files by name in a working directory, and those written outside it.
import StackMachine.Command.Line
import StackMachine.Command.Response
import StackMachine.Log.Filter

/-!
# Directories

A host as a value: the files of a working directory by their names, and those that were written outside
it. Main statement: a file reads back as it was last written.
-/

namespace StackMachine.Command

open Bytecode (Bytes)

namespace FileError

def notFound : FileError := { description := "No such file or directory", code := 2 }

def notDirectory : FileError := { description := "Not a directory", code := 20 }

def isDirectory : FileError := { description := "Is a directory", code := 21 }

def nameTooLong : FileError := { description := "File name too long", code := 36 }

end FileError

/-- A directory without subdirectories. A file outside it has the way to it before its name. -/
structure Directory where
  files : List (String × Bytes) := []
  deriving DecidableEq, Repr

namespace Directory

/-- The greatest number of bytes in the name of a file. -/
def maxName : Nat := 255

/-- The greatest number of bytes in a path. -/
def maxPath : Nat := 4095

-- ---------------------------------------------------------------------------
-- Paths
-- ---------------------------------------------------------------------------

/-- The way that a path takes. -/
structure Route where
  /-- The directory in which it looks for the first name: empty for the working directory, and else up
  from it or the root. -/
  base : String
  /-- The parts of the path from the first name on. There is none in the path of a directory. -/
  parts : List String
  deriving DecidableEq, Repr

namespace Route

/-- Whether a part of a path leads from one directory to another. -/
def isDots (part : String) : Bool :=
  part = "" || part = "." || part = ".."

/-- Follow a path up to its first name. -/
def ofPath (path : String) : Route :=
  let parts := (path.toList.splitOn '/').map String.ofList
  let ups := (parts.takeWhile isDots).filter (· = "..")
  { base := if parts.head? = some "" then "/" else String.join (ups.map (· ++ "/"))
    parts := parts.dropWhile isDots }

end Route

/-- Whether a path or a name on it has too many bytes. -/
def exceeds (text : String) (limit : Nat) : Bool :=
  limit < text.utf8ByteSize

-- ---------------------------------------------------------------------------
-- Reading and writing
-- ---------------------------------------------------------------------------

def find? (d : Directory) (name : String) : Option Bytes :=
  d.files.lookup name

/-- Read what a route leads to. A name with more after it must be that of a directory. -/
def readAt (d : Directory) (route : Route) : Except FileError Bytes :=
  match route.parts with
  | [] => .error .isDirectory
  | name :: rest =>
    if exceeds name maxName then .error .nameTooLong
    else match d.find? (route.base ++ name) with
    | none => .error .notFound
    | some bytes => if rest = [] then .ok bytes else .error .notDirectory

def read (d : Directory) (path : String) : Except FileError Bytes :=
  if exceeds path maxPath then .error .nameTooLong else d.readAt (.ofPath path)

/-- Set the contents of a file, whatever it held before. -/
def put (d : Directory) (name : String) (bytes : Bytes) : Directory :=
  { files := (name, bytes) :: d.files.filter (·.1 ≠ name) }

/-- Write to what a route leads to. A name with only slashes after it is that of a directory, whether
it is there or not. -/
def writeAt (d : Directory) (route : Route) (bytes : Bytes) : Except FileError Directory :=
  match route.parts with
  | [] => .error .isDirectory
  | [name] =>
    if exceeds name maxName then .error .nameTooLong
    else .ok (d.put (route.base ++ name) bytes)
  | name :: rest =>
    if rest.all (· = "") then .error .isDirectory
    else if exceeds name maxName then .error .nameTooLong
    else match d.find? (route.base ++ name) with
    | none => .error .notFound
    | some _ => .error .notDirectory

def write (d : Directory) (path : String) (bytes : Bytes) : Except FileError Directory :=
  if exceeds path maxPath then .error .nameTooLong else d.writeAt (.ofPath path) bytes

theorem find?_put (d : Directory) (name : String) (bytes : Bytes) :
    (d.put name bytes).find? name = some bytes := by
  simp [find?, put]

theorem readAt_of_writeAt {d d' : Directory} {route : Route} {bytes : Bytes}
    (h : d.writeAt route bytes = .ok d') : d'.readAt route = .ok bytes := by
  unfold writeAt at h
  split at h
  case h_2 name parts =>
    split at h
    · cases h
    · rename_i fits
      cases h
      simp [readAt, parts, fits, find?_put]
  all_goals repeat' split at h
  all_goals cases h

/-- What is written to a path is what is read from it afterwards. -/
theorem read_of_write {d d' : Directory} {path : String} {bytes : Bytes}
    (h : d.write path bytes = .ok d') : d'.read path = .ok bytes := by
  unfold write at h
  split at h
  · cases h
  · rename_i short
    simp [read, short, readAt_of_writeAt h]

/-- A directory as a host. A write that fails leaves it as it is. -/
def host : Host (StateM Directory) where
  read path := fun d => (d.read path, d)
  write path bytes := fun d =>
    match d.write path bytes with
    | .ok d => (.ok (), d)
    | .error e => (.error e, d)

/-- The setting of commands in a directory, with what is to stand before each line of a log. -/
def setting (stamp : Nat → String) : Setting (StateM Directory) where
  parser := parser
  subscriber := Log.Filter.subscriber stamp
  host := host

theorem parser_setting (stamp : Nat → String) : (setting stamp).parser = parser := rfl

theorem host_setting (stamp : Nat → String) : (setting stamp).host = host := rfl

/-- The files of the working directory that are new in `after`, or hold something else than before. -/
def changes (before after : Directory) : List (String × Bytes) :=
  after.files.filter fun file => '/' ∉ file.1.toList ∧ before.find? file.1 ≠ some file.2

end Directory

end StackMachine.Command
