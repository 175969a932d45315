import Std.Data.HashMap
import Treewalk.Tree.Reply

/-!
Where names are declared. The analysis walks a program in the order of its text with the local scopes that
are open, and lists what it finds: for each use of a local name the number of scopes between the use and the
declaration, and every misuse of a name. Uses of global names get no distance.
-/

set_option autoImplicit false

namespace Treewalk

/-- The names declared so far in a local scope, and whether each has its value yet. -/
abbrev Scope := List (String × Bool)

inductive ScopeCause where
  | alreadyDeclared
  | ownInitializer
  | topLevelReturn
deriving DecidableEq, Repr

def ScopeCause.message : ScopeCause → String
  | alreadyDeclared => "Already a variable with this name in this scope."
  | ownInitializer => "Can't read local variable in its own initializer."
  | topLevelReturn => "Can't return from top-level code."

structure ScopeError where
  token : Token
  cause : ScopeCause
deriving Repr

def ScopeError.display (error : ScopeError) : String := error.token.complaint error.cause.message

inductive Finding (ν : Type) where
  | distance (label : ν) (scopes : Nat)
  | misuse (error : ScopeError)
deriving Repr

namespace Scope

def declares (scope : Scope) (name : String) : Bool := (scope.lookup name).isSome

-- Opens a name in the innermost scope, without a value. Global declarations are not tracked.
def declare (name : Token) : List Scope → List Scope
  | [] => []
  | inner :: outer =>
      if inner.declares name.lexeme then inner :: outer else ((name.lexeme, false) :: inner) :: outer

-- Marks that a name of the innermost scope has its value.
def define (name : Token) : List Scope → List Scope
  | [] => []
  | inner :: outer => ((name.lexeme, true) :: inner) :: outer

-- The complaint about a declaration, given the scopes before it.
def repeated {ν : Type} (name : Token) : List Scope → List (Finding ν)
  | [] => []
  | inner :: _ => if inner.declares name.lexeme then [.misuse ⟨name, .alreadyDeclared⟩] else []

-- The number of scopes out to the nearest one that declares a name.
def distance? (scopes : List Scope) (name : String) : Option Nat := scopes.findIdx? (·.declares name)

def found {ν : Type} (scopes : List Scope) (label : ν) (name : Token) : List (Finding ν) :=
  ((distance? scopes name.lexeme).map (Finding.distance label)).toList

-- The complaint about reading a name whose value is being computed.
def premature {ν : Type} (scopes : List Scope) (name : Token) : List (Finding ν) :=
  if scopes.head?.bind (·.lookup name.lexeme) = some false then [.misuse ⟨name, .ownInitializer⟩] else []

end Scope

open Scope

mutual
def Expr.findings {ν : Type} (scopes : List Scope) : Expr ν → List (Finding ν)
  | .literal _ => []
  | .group inner => inner.findings scopes
  | .unary _ operand => operand.findings scopes
  | .binary left _ right => left.findings scopes ++ right.findings scopes
  | .logical left _ right => left.findings scopes ++ right.findings scopes
  | .ternary condition yes no => condition.findings scopes ++ yes.findings scopes ++ no.findings scopes
  | .comma first second => first.findings scopes ++ second.findings scopes
  | .var label name => premature scopes name ++ found scopes label name
  | .assign label name value => value.findings scopes ++ found scopes label name
  | .call callee _ arguments => callee.findings scopes ++ Expr.findingsAll scopes arguments
def Expr.findingsAll {ν : Type} (scopes : List Scope) : List (Expr ν) → List (Finding ν)
  | [] => []
  | first :: rest => first.findings scopes ++ Expr.findingsAll scopes rest
end

def Expr.findingsOption {ν : Type} (scopes : List Scope) : Option (Expr ν) → List (Finding ν)
  | none => []
  | some value => value.findings scopes

-- The scope of a function's parameters, which its body shares.
def paramFindings {ν : Type} (scopes : List Scope) : List Token → List Scope × List (Finding ν)
  | [] => (scopes, [])
  | first :: rest =>
      let (inner, later) := paramFindings (define first (declare first scopes)) rest
      (inner, repeated first scopes ++ later)

mutual
-- The scopes behind a statement, and what is found in it.
def Stmt.findings {ν : Type} (inFunction : Bool) (scopes : List Scope) :
    Stmt ν → List Scope × List (Finding ν)
  | .ret keyword value =>
      let outside := if inFunction then [] else [.misuse ⟨keyword, .topLevelReturn⟩]
      (scopes, outside ++ Expr.findingsOption scopes value)
  | .print _ value => (scopes, value.findings scopes)
  | .expr value => (scopes, value.findings scopes)
  | .var name value =>
      let declared := declare name scopes
      (define name declared, repeated name scopes ++ Expr.findingsOption declared value)
  | .block body => (scopes, (Stmt.findingsAll inFunction ([] :: scopes) body).2)
  | .func name params body =>
      let defined := define name (declare name scopes)
      let (inner, ofParams) := paramFindings ([] :: defined) params
      let ofBody := (Stmt.findingsAll true inner body).2
      (defined, repeated name scopes ++ ofParams ++ ofBody)
  | .branch condition yes none =>
      let (after, ofYes) := yes.findings inFunction scopes
      (after, condition.findings scopes ++ ofYes)
  | .branch condition yes (some no) =>
      let (between, ofYes) := yes.findings inFunction scopes
      let (after, ofNo) := no.findings inFunction between
      (after, condition.findings scopes ++ ofYes ++ ofNo)
  | .loop condition body =>
      let (after, ofBody) := body.findings inFunction scopes
      (after, condition.findings scopes ++ ofBody)
def Stmt.findingsAll {ν : Type} (inFunction : Bool) (scopes : List Scope) :
    List (Stmt ν) → List Scope × List (Finding ν)
  | [] => (scopes, [])
  | first :: rest =>
      let (between, ofFirst) := first.findings inFunction scopes
      let (after, ofRest) := Stmt.findingsAll inFunction between rest
      (after, ofFirst ++ ofRest)
end

def Finding.error? {ν : Type} : Finding ν → Option ScopeError
  | .misuse error => some error
  | .distance _ _ => none

-- Distances by the number of the use.
abbrev Distances := Std.HashMap NodeId Nat

def Distances.record (distances : Distances) : Finding NodeId → Distances
  | .distance label scopes => distances.insert label scopes
  | .misuse _ => distances

structure Analysis where
  distances : Distances
  errors : List ScopeError

/-- What is known about the uses in a program, added to what is known already. Distances are recorded also
where the program is at fault. -/
def Analysis.ofProgram (known : Distances) (program : List (Stmt NodeId)) : Analysis :=
  let findings := (Stmt.findingsAll false [] program).2
  ⟨findings.foldl Distances.record known, findings.filterMap Finding.error?⟩

end Treewalk
