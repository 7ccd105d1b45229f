import Automation.Flow

/-!
What the configurations of all types of nodes have in common.
-/

namespace Automation

/-- A text without the blanks around it, unless nothing is left of it. -/
def present (s : Option String) : Option String :=
  s.bind fun s =>
    let t := Text.trim s.toList
    if t.isEmpty then none else some (.ofList t)

abbrev Complaint := String

end Automation
