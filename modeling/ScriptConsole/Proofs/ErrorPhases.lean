import ScriptConsole.Proofs.Failing
import ScriptConsole.Proofs.StoredTrees

/-!
# Errors of parsing and errors of evaluation

Parsing and evaluation fail with errors of their own. Only the error about a text that is no name
belongs to both. So a session never takes a failed evaluation for a statement that goes on in the next
line, and it never comes to an assignment without a proper target (`errors_belong_to_phases`).
-/

namespace ScriptConsole

/-- The errors that parsing ends with. -/
def Error.isOfParsing : Error → Bool
  | .malformed _ | .incomplete _ | .invalidIdentifier _ | .invalidAssignment _
  | .unimplementedOperator _ => true
  | .notAFunction _ | .compoundDefinition _ | .unimplementedEvaluator _ | .notANumber _
  | .divisionByZero | .overflow | .callDepth _ | .expiredClosure _ | .missingArgument _ => false

namespace Parser

lemma isOfParsing_missing (blocks : Nat) (fault : Fault) :
    (missing blocks fault).isOfParsing = true := by
  unfold missing
  split <;> rfl

lemma Wants.isOfParsing {kinds : List Token.Kind} {fault : Fault} {refuse : Token → Error}
    {blocks : Nat} {tokens : List Token} {failure : Failure}
    (h : Wants kinds fault refuse blocks tokens failure)
    (hrefuse : ∀ token, (refuse token).isOfParsing = true) : failure.error.isOfParsing = true := by
  cases h with
  | out => exact isOfParsing_missing blocks fault
  | other => exact hrefuse _

/-- Whatever rule of the parser fails, it fails with an error of parsing. -/
theorem Fails.isOfParsing {goal : Goal} {blocks : Nat} {tokens : List Token} {failure : Failure}
    (h : Fails goal blocks tokens failure) : failure.error.isOfParsing = true := by
  induction h with
  | slotsOut | argumentsOut => exact isOfParsing_missing _ _
  | slotsNext _ _ hwants | signatureStart hwants | signatureOpen _ hwants | parametersStart hwants
  | parametersNext _ hwants | primaryStart hwants | primaryClose _ _ hwants
  | argumentsNext _ _ hwants => exact hwants.isOfParsing fun _ => rfl
  | statementsOut | assignmentOperator | assignmentTarget | primaryNumber => rfl
  | statementBlock | statementExpression | statementsFirst | statementsRest | expressionArray
  | expressionSignature | expressionBody | expressionAssignment | slotsEmpty | slotsFirst | slotsRest
  | signatureNameless | signatureNamed | parametersRest | assignmentLeft | assignmentRight
  | binaryFirst | binaryChain | chainRight | chainRest | operandSum | operandProduct | unarySign
  | unaryPrimary | primaryGroup | primaryBlock | primaryCall | argumentsFirst | argumentsRest =>
    assumption

lemma isOfParsing_of_parse {source : String} {error : Error} (h : parse source = .error error) :
    error.isOfParsing = true := by
  obtain ⟨-, ⟨failure, rfl, hfails⟩ | ⟨lexeme, rfl⟩⟩ := fails_of_parse h
  · exact hfails.isOfParsing
  · rfl

end Parser

namespace Session

open Evaluation

lemma interpret_of_parse {source : String} {node : Node} (h : parse source = .ok (some node))
    (session : Session) :
    interpret source session =
      (some <$> Evaluation.evaluate globals node : Eval (Option Value))
        { session with depth := 0 } := by
  unfold interpret
  rw [h]
  rfl

/-- Parsing fails with errors of parsing only. In a session that only submissions have changed,
evaluating what was parsed fails with errors of evaluation only, and wherever it comes to an
assignment, the target is a name or the pattern of a definition. -/
theorem errors_belong_to_phases :
    (∀ source error, parse source = .error error → error.isOfParsing = true) ∧
    ∀ sources source node, parse source = .ok (some node) →
      (∀ error t, interpret source (afterSubmissions sources) = .error error t →
        error.isOfEvaluation = true) ∧
      ∀ scope op left right g s,
        Visits ⟨.evaluate globals node, { afterSubmissions sources with depth := 0 }⟩
          ⟨.evaluate scope (.assignment op left right g), s⟩ →
        (∃ name k, left = .identifier name k) ∨ ∃ callee arguments k, left = .call callee arguments k := by
  refine ⟨fun _ _ => Parser.isOfParsing_of_parse, fun sources source node hparse => ?_⟩
  have hstore := regular_afterSubmissions sources
  have hnode := (Parser.parse_eq_some_iff.mp hparse).derives_and_regular.2.2
  refine ⟨fun error t hfailed => ?_, fun scope op left right g s hvisits => ?_⟩
  · have hended := ends_evaluate globals hnode { afterSubmissions sources with depth := 0 } hstore
    rw [interpret_of_parse hparse] at hfailed
    simp only [Functor.map, EStateM.map] at hfailed
    generalize Evaluation.evaluate globals node { afterSubmissions sources with depth := 0 } =
      result at hended hfailed
    cases hended with
    | ok => cases hfailed
    | error _ herror =>
      cases hfailed
      exact herror
  · have hroot : Point.Regular
        ⟨.evaluate globals node, { afterSubmissions sources with depth := 0 }⟩ :=
      ⟨hstore, hnode⟩
    exact (hvisits.regular hroot).task.1.1

end Session

end ScriptConsole
