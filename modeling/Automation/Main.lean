import Automation.CommandLine.Execution
import Automation.Store.File

/-!
The program: collects what a command can reach, carries it out, and writes back what it changed.
-/

namespace Automation.CommandLine

def readEntry (path : String) : IO (Option Entry) := do
  try
    let bytes ← IO.FS.readBinFile path
    match String.fromUTF8? bytes with
    | some s => return some (.text s.toList)
    | none => return some (.unreadable notTextReason)
  catch
    | .noFileOrDirectory .. => return none
    | .inappropriateType .. => return some (.unreadable directoryReason)
    | e => return some (.unreadable (toString e))

def reach (s : Surroundings) (path : String) : IO Surroundings := do
  if path.isEmpty then return s
  match ← readEntry path with
  | some e => return s.put path e
  | none => return s

def Command.files : Command → List String
  | .run flow _ credentials _ => flow :: credentials.toList
  | .validate file => [file]
  | .save file _ => [file]
  | .config => []

def collectVariables (content : List Char) : IO (Keyed String) := do
  let mut found : Keyed String := []
  for name in "HOME" :: referencesFrom none content do
    if let some value ← IO.getEnv name then found := Keyed.insert name value found
  return found

def storeOf (i : Invocation) (s : Surroundings) : String :=
  match readSettings s i.settings with
  | .ok c => storePath c s
  | .error _ => ""

def reachStore (s : Surroundings) (path : String) : IO Surroundings := do
  if Surroundings.isTransient path then return s
  match ← readEntry path with
  | some (.text t) =>
    return s.put path (match Store.ofText? t with
      | some store => .store store
      | none => .text t)
  | some e => return s.put path e
  | none => return s

def collect (i : Invocation) : IO Surroundings := do
  let directory := (← IO.currentDir).toString
  let s ← (i.settings :: i.command.files).foldlM reach ⟨[], directory, []⟩
  let s := { s with environment := ← collectVariables ((s.read i.settings).toOption.getD []) }
  reachStore s (storeOf i s)

def directoryOf (path : String) : String :=
  .ofList ((path.toList.reverse.dropWhile (· ≠ '/')).drop 1).reverse

def writeStore (path : String) (s : Surroundings) : IO Unit := do
  if let some (.store store) := s.entry? path then
    unless (directoryOf path).isEmpty do IO.FS.createDirAll (directoryOf path)
    IO.FS.writeFile path (.ofList store.text)

/-- The time, as the one at which a file is made. -/
def now : IO Instant := do
  let (_, path) ← IO.FS.createTempFile
  let made := (← path.metadata).modified
  IO.FS.removeFile path
  return ⟨made.sec, made.nsec.toNat⟩

/-- An id of random digits, which also tell that they are random. -/
def freshId : IO String := do
  let mut digits : List Char := []
  for i in List.range 32 do
    let d ← IO.rand 0 15
    let d := if i = 12 then 4 else if i = 16 then 8 + d % 4 else d
    if i = 8 ∨ i = 12 ∨ i = 16 ∨ i = 20 then digits := '-' :: digits
    digits := Nat.digitChar d :: digits
  return .ofList digits.reverse

/-- Carries out a command in the surroundings at hand, and gives the exit code. -/
def carryOut (i : Invocation) : IO UInt32 := do
  let s ← collect i
  let (outcome, after) := i.perform ⟨← now, ← freshId⟩ s
  writeStore (storeOf i s) after
  IO.print (String.ofList outcome.printed.out)
  match outcome.complaint with
  | none => return 0
  | some c =>
    IO.eprint c.text
    return 1

end Automation.CommandLine

open Automation.CommandLine in
def main (words : List String) : IO UInt32 := do
  match Request.ofWords none words with
  | .invocation i => carryOut i
  | .version =>
    IO.print versionText
    return 0
  | .help =>
    IO.print helpText
    return 0
  | .misuse =>
    IO.eprint helpText
    return 2
