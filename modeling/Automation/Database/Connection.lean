import Automation.Credential
import Automation.Database.Execution
import Automation.Http.Percent

/-!
Reaching a database by its path.

A path names a file, which has to exist, or spells a URI whose query says how the file is opened.
-/

namespace Automation.Database

inductive Access where
  | readWrite
  | readOnly
  /-- A database of its own, which is empty and forgotten afterwards. -/
  | memory
deriving DecidableEq

structure Target where
  file : List Char
  access : Access
deriving DecidableEq

def queryValue? (key query : List Char) : Option (List Char) :=
  (Text.split '&' query).findSome? fun pair => Text.dropPrefix? (key ++ ['=']) pair

/-- Where a path leads.  A mode that is unknown or allows too much is refused. -/
def Target.ofPath (path : List Char) : Except (List Char) Target :=
  match Text.dropPrefix? "file:".toList path with
  | none =>
    if path = ":memory:".toList then .ok ⟨path, .memory⟩ else .ok ⟨path, .readWrite⟩
  | some rest =>
    let bare := rest.takeWhile (· ≠ '#')
    let file := bare.takeWhile (· ≠ '?')
    let query := (bare.dropWhile (· ≠ '?')).drop 1
    let file := match file with
      | '/' :: '/' :: r => (Text.dropPrefix? "localhost".toList r).getD r
      | _ => file
    let file := Utf8.decode (Http.Percent.decode file)
    let inMemory : Target := ⟨file, .memory⟩
    match queryValue? "mode".toList query with
    | none => if file = ":memory:".toList then .ok inMemory else .ok ⟨file, .readWrite⟩
    | some mode =>
      if mode = "ro".toList then .ok ⟨file, .readOnly⟩
      else if mode = "rw".toList then .ok ⟨file, .readWrite⟩
      else if mode = "memory".toList then .ok inMemory
      else if mode = "rwc".toList then .error ("access mode not allowed: rwc".toList)
      else .error ("no such access mode: ".toList ++ mode)

/-- The files there are, by their paths.  A file need not hold a database. -/
abbrev Files := List (List Char × Option Tables)

def connect (files : Files) (access : DatabaseAccess) (s : Statement) :
    Except Failure SqlOutcome × Files :=
  let path := access.database.toList
  let failed (m : List Char) : Failure := .database (.ofList m)
  if Text.allBlank path then
    (.error (.configuration "database credential has no database path"), files)
  else
    match Target.ofPath path with
    | .error m => (.error (failed m), files)
    | .ok ⟨file, mode⟩ =>
      let found := if mode = .memory then some (some []) else files.lookup file
      match found with
      | none => (.error (failed ("unable to open database file: ".toList ++ path)), files)
      | some none => (.error (failed "file is not a database".toList), files)
      | some (some tables) =>
        let (outcome, after) := run (mode = .readOnly) tables s
        (outcome.mapError fun e => failed e.message,
          if mode = .memory then files
          else files.map fun (name, old) => (name, if name = file then some after else old))

end Automation.Database
