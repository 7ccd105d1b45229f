import Automation.CommandLine.Arguments
import Automation.CommandLine.Surroundings
import Automation.Config.File
import Automation.Graph.Validation
import Automation.Rehearsal
import Automation.Run.Engine
import Automation.Store.Tables

/-!
Carrying out a command.

A command reads files, may change the store, and ends in an `Outcome`: what it prints, or what went
wrong.  Language models and services are out of reach from here, and so are databases but for the files
at hand.
-/

namespace Automation.CommandLine

inductive Complaint where
  | plain (message : String)
  | failure (e : Failure)

inductive Printed where
  | text (s : List Char)
  | result (r : RunResult)

/-- How a command ended.  A complaint may follow what was printed before. -/
structure Outcome where
  printed : Printed
  complaint : Option Complaint

namespace Complaint

/-- A text of which each line but the first is set in. -/
def setIn (margin : String) (s : String) : String :=
  .ofList (s.toList.flatMap fun c => if c = '\n' then c :: margin.toList else [c])

/-- The causes of a failure, numbered if there are several. -/
def causeLines : List String → List String
  | [cause] => ["    " ++ setIn "    " cause]
  | causes => (causes.zip (List.range causes.length)).map fun (cause, i) =>
    let number := toString i
    .ofList (List.replicate (5 - number.length) ' ') ++ number ++ ": " ++ setIn "       " cause

def text : Complaint → String
  | plain message => "Error: " ++ message ++ "\n"
  | failure e =>
    if e.causes.isEmpty then "Error: " ++ e.message ++ "\n"
    else "Error: " ++ e.message ++ "\n\nCaused by:\n" ++ "\n".intercalate (causeLines e.causes)
      ++ "\n"

end Complaint

def Printed.out : Printed → List Char
  | text s => s
  | result r => Json.pretty [] r.encode ++ ['\n']

abbrev Attempt (α : Type) := Except Complaint α

/-- Goes on unless something failed. -/
def attempt {α : Type} (r : Except Failure α) : Attempt α := r.mapError .failure

/-- Reads the settings: those in the file, or the defaults where there is no file. -/
def readSettings (s : Surroundings) (path : String) : Except Failure AppConfig :=
  match s.entry? path with
  | none => .ok .default
  | some _ => AppConfig.load s.named? path (s.read path).toOption

def readFlow (s : Surroundings) (path : String) : Attempt Flow := do
  let content ← (s.read path).mapError fun e => .plain ("cannot read " ++ path ++ ": " ++ e)
  (Flow.decoder.ofText content).mapError fun e =>
    .plain (path ++ " is not a valid flow: " ++ e.message)

def storePath (c : AppConfig) (s : Surroundings) : String := c.store.location s.home?

def openStore (c : AppConfig) (s : Surroundings) : Attempt (Store × Surroundings) :=
  attempt (s.openStore (storePath c s))

/-! ## Commands -/

def issueLines (r : Report) : List Char :=
  (r.warnings.map fun i => "warning: " ++ i.text ++ "\n").flatMap String.toList
    ++ (r.errors.map fun i => "error: " ++ i.text ++ "\n").flatMap String.toList

def validate (c : AppConfig) (s : Surroundings) (path : String) : Outcome :=
  match readFlow s path with
  | .error e => ⟨.text [], some e⟩
  | .ok f =>
    let report := f.validate c.engine.triggerPrefix
    if report.isValid then
      ⟨.text (issueLines report ++ (f.name ++ ": ok (" ++ toString f.nodes.length ++ " nodes, "
        ++ toString f.edges.length ++ " edges)\n").toList), none⟩
    else
      ⟨.text (issueLines report), some (.plain (toString report.errors.length ++ " error(s) in "
        ++ f.name))⟩

/-- Saves the flow in a file, for an agent if one is named, and gives its id. -/
def save (c : AppConfig) (stamp : Stamp) (path : String) (agent : Option String)
    (s : Surroundings) : Attempt String × Surroundings :=
  match readFlow s path with
  | .error e => (.error e, s)
  | .ok f =>
    let f := { f with agentId := agent.getD f.agentId }
    match openStore c s with
    | .error e => (.error e, s)
    | .ok (store, s) =>
      match store.saveFlow c.engine.triggerPrefix stamp f with
      | .error e => (.error (.failure e), s)
      | .ok (saved, store) => (.ok saved.id, s.keepStore (storePath c s) store)

def readInput : Option String → Attempt Record
  | none => .ok []
  | some text => (Json.Decoder.record.ofText text.toList).mapError fun e =>
    .plain ("--input must be a JSON object: " ++ e.message)

abbrev Fetch := String → Except Failure Credential

def readCredentials (s : Surroundings) (path : String) : Attempt Fetch := do
  let content ← (s.read path).mapError .plain
  let cs ← ((Json.Decoder.list Credential.decoder).ofText content).mapError fun e =>
    .plain e.message
  pure (CredentialShelf.ofList cs).fetch

/-- The flow that is asked for, from a file or else from the store, which is opened then. -/
def flowAsked (c : AppConfig) (flow : String) (s : Surroundings) :
    Attempt (Flow × Option Store) × Surroundings :=
  if (s.entry? flow).isSome then ((readFlow s flow).map (·, none), s)
  else
    match openStore c s with
    | .error e => (.error e, s)
    | .ok (store, s) => ((attempt (store.flow flow)).map (·, some store), s)

/-- Where credentials are fetched: in the file named, or else in the store. -/
def credentialsAsked (c : AppConfig) (file : Option String) (store : Option Store)
    (s : Surroundings) : Attempt Fetch × Surroundings :=
  match file, store with
  | some path, _ => (readCredentials s path, s)
  | none, some store => (.ok fun id => store.credential id, s)
  | none, none =>
    match openStore c s with
    | .error e => (.error e, s)
    | .ok (store, s) => (.ok fun id => store.credential id, s)

/-- The files at hand as databases, by every path that is not roundabout.  What a run writes to one
goes no further than the run. -/
def databases (s : Surroundings) : Database.Files :=
  let here := wayOf s.directory ""
  s.entries.flatMap fun (way, e) =>
    let content : Option (Option Database.Tables) := match e with
      | .text t => some (if t.isEmpty then some [] else none)
      | .store store => some (some store.tables)
      | .unreadable _ => none
    match content with
    | none => []
    | some tables =>
      (way.flatMap ('/' :: ·), tables)
        :: (if way.dropLast = here then [(way.getLast?.getD [], tables)] else [])

def world (s : Surroundings) : Rehearsal where
  now := .zero
  cancelledAt := none
  chats := .client
  queries := .files (databases s)
  transport := .unreachable
  chatted := []
  queried := []

def run (c : AppConfig) (flow : String) (input credentials entry : Option String)
    (s : Surroundings) : Attempt RunResult × Surroundings :=
  match readInput input with
  | .error e => (.error e, s)
  | .ok input =>
    match flowAsked c flow s with
    | (.error e, s) => (.error e, s)
    | (.ok (f, store), s) =>
      match credentialsAsked c credentials store s with
      | (.error e, s) => (.error e, s)
      | (.ok fetch, s) =>
        (do
          attempt c.llm.checkProvider
          attempt (Run.execute ⟨c, fetch⟩ Rehearsal.world f input entry (world s)).result, s)

def Outcome.ofAttempt {α : Type} (printed : α → Printed) : Attempt α → Outcome
  | .ok x => ⟨printed x, none⟩
  | .error e => ⟨.text [], some e⟩

def Invocation.perform (stamp : Stamp) (i : Invocation) (s : Surroundings) :
    Outcome × Surroundings :=
  match readSettings s i.settings with
  | .error e => (⟨.text [], some (.failure e)⟩, s)
  | .ok c =>
    match i.command with
    | .config => (⟨.text (c.toToml ++ ['\n']), none⟩, s)
    | .validate path => (validate c s path, s)
    | .save path agent =>
      let (id, s) := save c stamp path agent s
      (.ofAttempt (fun id => .text (id ++ "\n").toList) id, s)
    | .run flow input credentials entry =>
      let (result, s) := run c flow input credentials entry s
      (.ofAttempt .result result, s)

def versionText : String := "flowrun 0.3.0\n"

def helpText : String :=
  "Run low-code automation flows\n\n"
    ++ "Usage: flowrun [--config <CONFIG>] <COMMAND>\n\n"
    ++ "Commands:\n"
    ++ "  run <FLOW> [--input <INPUT>] [--credentials <CREDENTIALS>] [--entry <ENTRY>]\n"
    ++ "  validate <FLOW>\n"
    ++ "  save <FLOW> [--agent <AGENT>]\n"
    ++ "  config\n"

end Automation.CommandLine
