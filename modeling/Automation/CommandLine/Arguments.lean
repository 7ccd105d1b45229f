/-!
The words of a command line.

`Invocation.ofWords` reads them: options of the program, a command, then options and operands of the
command in any order.  The value of an option follows it as the next word or, after an equals sign or a
single letter, in the same word; a next word that looks like an option is no value.
-/

namespace Automation.CommandLine

inductive Command where
  | run (flow : String) (input credentials entry : Option String)
  | validate (file : String)
  | save (file : String) (agent : Option String)
  | config
deriving DecidableEq

structure Invocation where
  settings : String
  command : Command
deriving DecidableEq

/-- What the words of a command line come to. -/
inductive Request where
  | invocation (i : Invocation)
  | version
  | help
  /-- The words make no sense. -/
  | misuse
deriving DecidableEq

/-- An option that takes a value.  Some values name files, and then they are not empty. -/
structure ValueOption where
  name : String
  letter : Option Char
  isFile : Bool

structure Parsed where
  values : List (String × String)
  operands : List String

inductive Reading where
  | parsed (p : Parsed)
  | help
  | misuse

/-- Whether a word can be the value of an option before it. -/
def isValue (word : String) : Bool := word = "-" || word.toList.head? ≠ some '-'

/-- An option as a word names it, and the value in the same word. -/
def optionOf? (options : List ValueOption) (word : List Char) : Option (ValueOption × Option String) :=
  match word with
  | '-' :: '-' :: long =>
    let name := long.takeWhile (· ≠ '=')
    let value := match long.dropWhile (· ≠ '=') with
      | _ :: v => some (String.ofList v)
      | [] => none
    (options.find? fun o => o.name.toList = name).map (·, value)
  | '-' :: letter :: rest =>
    let value := match rest with
      | '=' :: v => some (String.ofList v)
      | [] => none
      | v => some (String.ofList v)
    (options.find? fun o => o.letter = some letter).map (·, value)
  | _ => none

/-- Adds the value of an option, which may be given once. -/
def Parsed.set? (o : ValueOption) (value : String) (p : Parsed) : Option Parsed :=
  if (p.values.lookup o.name).isSome || (o.isFile && value.isEmpty) then none
  else some { p with values := p.values ++ [(o.name, value)] }

def isHelp (word : String) : Bool := word = "--help" || word = "-h"

/-- Reads options and operands.  After `--` there are operands only. -/
def readWords (options : List ValueOption) : Parsed → List String → Reading
  | p, [] => .parsed p
  | p, word :: rest =>
    if word = "--" then .parsed { p with operands := p.operands ++ rest }
    else if isHelp word then .help
    else if isValue word then readWords options { p with operands := p.operands ++ [word] } rest
    else
      match optionOf? options word.toList with
      | none => .misuse
      | some (o, some value) =>
        match p.set? o value with
        | some p => readWords options p rest
        | none => .misuse
      | some (o, none) =>
        match rest with
        | value :: rest =>
          match if isValue value then p.set? o value else none with
          | some p => readWords options p rest
          | none => .misuse
        | [] => .misuse

def optionsOf : String → Option (List ValueOption)
  | "run" =>
    some [⟨"input", some 'i', false⟩, ⟨"credentials", none, true⟩, ⟨"entry", none, false⟩]
  | "validate" => some []
  | "save" => some [⟨"agent", none, false⟩]
  | "config" => some []
  | _ => none

def Command.ofParsed? (name : String) (p : Parsed) : Option Command :=
  match name, p.operands with
  | "run", [flow] =>
    some (.run flow (p.values.lookup "input") (p.values.lookup "credentials")
      (p.values.lookup "entry"))
  | "validate", [file] => if file.isEmpty then none else some (.validate file)
  | "save", [file] => if file.isEmpty then none else some (.save file (p.values.lookup "agent"))
  | "config", [] => some .config
  | _, _ => none

def defaultSettings : String := "flowrun.toml"

def settingsOption : ValueOption := ⟨"config", some 'c', true⟩

/-- Reads a command after the options of the program. -/
def Request.ofCommand (settings : Option String) (name : String) (words : List String) : Request :=
  if name = "help" then .help
  else
    match optionsOf name with
    | none => .misuse
    | some options =>
      match readWords options ⟨[], []⟩ words with
      | .help => .help
      | .misuse => .misuse
      | .parsed p =>
        match Command.ofParsed? name p with
        | some command => .invocation ⟨settings.getD defaultSettings, command⟩
        | none => .misuse

def Request.ofWords (settings : Option String) : List String → Request
  | [] => .misuse
  | word :: rest =>
    if isHelp word then .help
    else if word = "--version" ∨ word = "-V" then .version
    else if isValue word then .ofCommand settings word rest
    else
      match optionOf? [settingsOption] word.toList, rest with
      | some (_, some value), rest =>
        if settings.isSome || value.isEmpty then .misuse else ofWords (some value) rest
      | some (_, none), value :: rest =>
        if settings.isSome || value.isEmpty || !isValue value then .misuse
        else ofWords (some value) rest
      | _, _ => .misuse

end Automation.CommandLine
