import Automation.Store.Basic
import Automation.Text.Blank

/-!
Where a command works: the files it can reach, the directory it is in, and variables, one of which
names the home directory.

Files are kept by the way that leads to them from the root, so that one file has one entry however its
path is spelled.  A store is a file too.
-/

namespace Automation.CommandLine

inductive Entry where
  | text (s : List Char)
  | store (s : Store)
  /-- Something that cannot be read, and why. -/
  | unreadable (reason : String)

structure Surroundings where
  environment : Keyed String
  directory : String
  entries : List (List (List Char) × Entry)

/-- The names on the way from the root that a path spells.  A path is taken from a directory unless it
is absolute. -/
def wayOf (directory path : String) : List (List Char) :=
  let absolute := if path.toList.head? = some '/' then path.toList
    else directory.toList ++ '/' :: path.toList
  (Text.split '/' absolute).foldl (fun way name =>
    if name.isEmpty || name = ['.'] then way
    else if name = ['.', '.'] then way.dropLast
    else way ++ [name]) []

def missingReason : String := "No such file or directory (os error 2)"

def notTextReason : String := "stream did not contain valid UTF-8"

def directoryReason : String := "Is a directory (os error 21)"

namespace Surroundings

/-- Whether a way leads to a directory: there is a file below it, or the directory one is in. -/
def isDirectory (s : Surroundings) (way : List (List Char)) : Bool :=
  way.isPrefixOf (wayOf s.directory "") ||
    s.entries.any fun entry => way.isPrefixOf entry.1 && way ≠ entry.1

def named? (s : Surroundings) (name : String) : Option String := Keyed.get? s.environment name

def home? (s : Surroundings) : Option String := s.named? "HOME"

def entry? (s : Surroundings) (path : String) : Option Entry :=
  let way := wayOf s.directory path
  if path.isEmpty then none
  else if s.isDirectory way then some (.unreadable directoryReason)
  else s.entries.lookup way

def read (s : Surroundings) (path : String) : Except String (List Char) :=
  match s.entry? path with
  | some (.text t) => .ok t
  | some (.store _) => .error notTextReason
  | some (.unreadable reason) => .error reason
  | none => .error missingReason

def put (s : Surroundings) (path : String) (e : Entry) : Surroundings :=
  let way := wayOf s.directory path
  { s with entries := (way, e) :: s.entries.filter fun entry => entry.1 ≠ way }

/-- Whether a store at a path is forgotten when it is closed. -/
def isTransient (path : String) : Bool := path.isEmpty || path = ":memory:"

/-- Why the directory for a store cannot be made: one of the names on the way leads to a file. -/
def blockedReason? (s : Surroundings) (path : String) : Option String :=
  let isFile (way : List (List Char)) : Bool :=
    match s.entries.lookup way with
    | some (.text _) => true
    | some (.store _) => true
    | _ => false
  let way := (wayOf s.directory path).dropLast
  if isFile way then some "File exists (os error 17)"
  else if (List.range way.length).any (fun n => isFile (way.take n)) then some "Not a directory (os error 20)"
  else none

/-- Opens the store at a path; where there is nothing it is made. -/
def openStore (s : Surroundings) (path : String) : Except Failure (Store × Surroundings) :=
  if isTransient path then .ok (.empty, s)
  else
    match s.blockedReason? path with
    | some reason => .error (.database ("Failed to create db directory: " ++ reason))
    | none =>
      match s.entry? path with
      | some (.store store) => .ok (store, s)
      | some (.text []) | none => .ok (.empty, s.put path (.store .empty))
      | some (.text _) => .error (.database "file is not a database")
      | some (.unreadable _) => .error (.database ("unable to open database file: " ++ path))

def keepStore (s : Surroundings) (path : String) (store : Store) : Surroundings :=
  if isTransient path then s else s.put path (.store store)

end Surroundings

end Automation.CommandLine
