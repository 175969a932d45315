import Treewalk.Proofs.RunningCode
import Treewalk.Proofs.SourcedTrees

/-!
Faults that can be traced to the text. Code that runs is built from known tokens: the program is, and so is the body of
every function in the frames, since it was declared by such code. A fault then stands on the line of a known token, and
the token is one that the fault can be about: the name, the operator, the end of the call or the keyword that prints.
-/

set_option autoImplicit false

namespace Treewalk

-- The tokens that a fault can be about.
def Cause.Blames (token : Token) : Cause → Prop
  | .unbound name | .unassigned name | .rebound name => token.kind = .identifier ∧ token.lexeme = name
  | .notNumber operator | .notNumbers operator => token.lexeme = operator
  | .notAddable => token.kind = .plus
  | .divisionByZero => token.kind = .slash
  | .wrongArity _ _ | .notCallable | .tooDeep => token.kind = .rightParen
  | .outputFailed _ => token.kind = .kwPrint

def Fault.PointsInto (known : List Token) (fault : Fault) : Prop :=
  ∃ token ∈ known, token.line = fault.line ∧ fault.cause.Blames token

theorem pointsInto_name (known : List Token) (name : Token) (cause : Cause) (ofName : name.Among known .identifier)
    (about : cause.About name.lexeme) : Fault.PointsInto known ⟨cause, name.line⟩ := by
  refine ⟨name, ofName.1, rfl, ?_⟩
  cases about <;> exact ⟨ofName.2, rfl⟩

theorem pointsInto_operator (known : List Token) (operator : Token) (cause : Cause) (inside : operator ∈ known)
    (made : cause.OfOperator operator) : Fault.PointsInto known ⟨cause, operator.line⟩ := by
  refine ⟨operator, inside, rfl, ?_⟩
  cases made with
  | notNumber | notNumbers => rfl
  | notAddable kind | divisionByZero kind => exact kind

theorem pointsInto_call (known : List Token) (close : Token) (cause : Cause) (ofClose : close.Among known .rightParen)
    (refused : cause.OfCall) : Fault.PointsInto known ⟨cause, close.line⟩ := by
  refine ⟨close, ofClose.1, rfl, ?_⟩
  cases refused <;> exact ofClose.2

theorem pointsInto_output (known : List Token) (keyword : Token) (cause : Cause)
    (ofKeyword : keyword.Among known .kwPrint) (failed : cause.OfOutput) :
    Fault.PointsInto known ⟨cause, keyword.line⟩ := by
  refine ⟨keyword, ofKeyword.1, rfl, ?_⟩
  cases failed
  exact ofKeyword.2

def Value.Sourced (known : List Token) : Value → Prop
  | .closure function =>
      (∀ param ∈ function.params, param.Among known .identifier) ∧ Stmt.SourcedAll known function.body
  | .datum _ => True
  | .clock => True

-- What is built from known tokens has parts that are, and can only go wrong at one of the tokens.
theorem sourced_hereditary (known : List Token) :
    Hereditary (Expr.Sourced known) (Stmt.Sourced known) (Value.Sourced known) (Fault.PointsInto known) where
  group _ sourced := sourced
  unary operator _ sourced := ⟨fun cause => pointsInto_operator known operator cause sourced.1, sourced.2⟩
  binary _ operator _ sourced :=
    ⟨fun cause => pointsInto_operator known operator cause sourced.2.1, sourced.1, sourced.2.2⟩
  logical _ _ _ sourced := ⟨sourced.1, sourced.2.2⟩
  ternary _ _ _ sourced := sourced
  comma _ _ sourced := sourced
  var _ name sourced := fun cause => pointsInto_name known name cause sourced
  assign _ name _ sourced := ⟨fun cause => pointsInto_name known name cause sourced.1, sourced.2⟩
  call _ close arguments sourced :=
    ⟨sourced.1, fun cause => pointsInto_call known close cause sourced.2.1,
      (Expr.sourcedAll_iff known arguments).mp sourced.2.2⟩
  ret _ _ sourced := sourced.2
  print keyword _ sourced := ⟨fun cause => pointsInto_output known keyword cause sourced.1, sourced.2⟩
  expr _ sourced := sourced
  defines name _ sourced := ⟨fun cause => pointsInto_name known name cause sourced.1, sourced.2⟩
  block body sourced := (Stmt.sourcedAll_iff known body).mp sourced
  func name _ _ sourced := ⟨fun cause => pointsInto_name known name cause sourced.1, fun _ _ => sourced.2⟩
  branch _ _ no sourced := by
    cases no with
    | none => exact ⟨sourced.1, sourced.2, by simp⟩
    | some no => exact ⟨sourced.1, sourced.2.1, by simpa using sourced.2.2⟩
  loop _ _ sourced := sourced
  datum _ := trivial
  clock := trivial
  closure function sourced :=
    ⟨fun param inside cause => pointsInto_name known param cause (sourced.1 param inside),
      (Stmt.sourcedAll_iff known function.body).mp sourced.2⟩

theorem runProgram_sourced (known : List Token) (fuel : Nat) (program : List (Stmt NodeId))
    (sourced : Stmt.SourcedAll known program) :
    (runProgram fuel program).Carries (Value.Sourced known) (Fault.PointsInto known) fun _ => True := by
  rw [Stmt.sourcedAll_iff] at sourced
  rw [← Traced.runProgram_erases]
  exact fun machine held => (Traced.runProgram_meets (sourced_hereditary known) fuel program sourced machine held).2

end Treewalk
