import Automation.Comparison
import Automation.Node.Basic

/-!
Configuration of a node that chooses between two branches.
-/

namespace Automation

structure Rule where
  field : String
  operator : Comparison
  value : Value

inductive Combinator where
  | or
  | and
deriving DecidableEq

structure BranchConfig where
  rules : List Rule
  combinator : Combinator

open Json (Decoder Layout)

namespace Rule

def layout :=
  Layout.required "field" Decoder.text <|
  .required "operator" (.variant Comparison.names (some .unsupported)) <|
  .optional "value" Decoder.any .null .nil

def decoder : Decoder Rule :=
  layout.decoder "ConditionRule" fun (field, operator, value, ()) => ⟨field, operator, value⟩

def encode (r : Rule) : Value :=
  .object [("field", .string r.field), ("operator", .string r.operator.name), ("value", r.value)]

end Rule

namespace Combinator

/-- Any name but `or` asks for all rules. -/
def names : List (String × Combinator) := [("or", .or), ("and", .and)]

def name : Combinator → String
  | .or => "or"
  | .and => "and"

end Combinator

namespace BranchConfig

def layout :=
  Layout.optional "conditions" (.list Rule.decoder) [] <|
  .optional "combine_with" (.variant Combinator.names (some .and)) .and .nil

def decoder : Decoder BranchConfig :=
  layout.decoder "ConditionConfig" fun (rules, combinator, ()) => ⟨rules, combinator⟩

def encode (c : BranchConfig) : Value :=
  .object [("combine_with", .string c.combinator.name),
    ("conditions", .array (c.rules.map Rule.encode))]

def check (c : BranchConfig) : Except Complaint Unit :=
  if c.rules.any fun r => Text.allBlank r.field.toList then
    .error "condition field must not be empty"
  else .ok ()

end BranchConfig

end Automation
