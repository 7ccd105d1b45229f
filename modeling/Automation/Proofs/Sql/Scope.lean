import Automation.Proofs.Sql.Assembly

/-!
# Statements and scopes

What a database node asks for is fixed by its configuration.  Of two scopes, whatever they hold, both
lead to the same failure, or both to statements with the same text, the same kind and as many
parameters (`statement_scope`): data reaches a statement as values of its placeholders and in no other
way.

The text does not change because the shape of a statement knows no scope.  The number of parameters
does not change because each is the value of one token, one column or one test, and of these the
configuration alone says how many there are (`length_parameters`).  Nothing of this rests on text and
values being made apart: made together in one pass, they are the same (`assemble_eq_statement`).
-/

namespace Automation.QueryConfig

open Sql

def parameterCount (c : QueryConfig) : Nat :=
  let tests := (c.predicates.filter fun p => p.operator.takesValue).length
  match c.operation with
  | .raw => (Template.paths (c.query.getD "").toList).length
  | .select | .delete => tests
  | .insert => c.values.length
  | .update => c.values.length + tests

theorem length_valueParameters (c : QueryConfig) (scope : Record) :
    (c.valueParameters scope).length = c.values.length := List.length_map _

theorem length_testParameters (c : QueryConfig) (scope : Record) :
    (c.testParameters scope).length =
      (c.predicates.filter fun p => p.operator.takesValue).length := List.length_map _

theorem length_parameters (c : QueryConfig) (scope : Record) :
    (c.parameters scope).length = c.parameterCount := by
  rw [parameters, parameterCount]
  cases c.operation with
  | raw => exact List.length_map _
  | select => exact c.length_testParameters scope
  | insert => exact c.length_valueParameters scope
  | update =>
    rw [List.length_append, c.length_valueParameters scope, c.length_testParameters scope]
  | delete => exact c.length_testParameters scope

theorem statement_eq_or (c : QueryConfig) (scope scope' : Record) :
    (∃ e, c.statement scope = .error e ∧ c.statement scope' = .error e) ∨
      ∃ s s', c.statement scope = .ok s ∧ c.statement scope' = .ok s' ∧
        s.sql = s'.sql ∧ s.kind = s'.kind ∧ s.params.length = s'.params.length := by
  unfold statement
  cases c.shape with
  | error e => exact Or.inl ⟨e, rfl, rfl⟩
  | ok shape =>
    refine Or.inr ⟨_, _, rfl, rfl, rfl, rfl, ?_⟩
    show (c.parameters scope).length = (c.parameters scope').length
    rw [length_parameters, length_parameters]

/-- The text of a statement does not depend on data: two scopes lead to the same failure, or to
statements that differ in the values of their parameters only.  So it is where the statement is made
from left to right with the scope at hand. -/
theorem statement_scope (c : QueryConfig) :
    (∀ scope, c.statement scope = c.assemble scope) ∧
      ∀ scope scope',
        (∃ e, c.assemble scope = .error e ∧ c.assemble scope' = .error e) ∨
          ∃ s s', c.assemble scope = .ok s ∧ c.assemble scope' = .ok s' ∧
            s.sql = s'.sql ∧ s.kind = s'.kind ∧ s.params.length = s'.params.length := by
  refine ⟨fun scope => (c.assemble_eq_statement scope).symm, fun scope scope' => ?_⟩
  rw [assemble_eq_statement, assemble_eq_statement]
  exact c.statement_eq_or scope scope'

end Automation.QueryConfig
