import Treewalk.Proofs.DanglingElse

/-!
Reading a program or a single expression accepts exactly the token lists of the grammar and builds the trees of
their longest derivations.
-/

set_option autoImplicit false

namespace Treewalk.Grammar

open Reading

-- Without a mistake a reading has given something.
theorem gives_of_no_errors {α : Type} (reading : Reading α) (stop : Token) (tokens : List Token)
    (honest : reading.Honest) (clean : (reading stop tokens).errors = []) :
    ∃ value rest, reading.Gives stop tokens value rest := by
  have known := honest stop tokens
  unfold Gives
  cases reply : reading stop tokens with
  | mk result rest errors =>
      simp only [reply] at known clean
      cases result with
      | none => exact absurd clean (known rfl)
      | some value => exact ⟨value, rest, by rw [clean]⟩

theorem program_gives_iff (input : Input) (program : List (Stmt Unit)) (atEnd : input.stop.kind = .endOfInput) :
    (readDeclarations input.bound false).Gives input.stop input.tokens program [] ↔
      IsProgram true input.tokens program := by
  constructor
  · intro given
    exact ((stmt_sound_within input.bound).declarations false _ _ _ _ atEnd given).1
  · intro built
    have room : 24 * input.tokens.length + 22 ≤ input.bound := by unfold Input.bound; omega
    exact (stmt_complete_within input.bound).declarations false _ _ _ _ room (.inl rfl) built

theorem whole_gives_iff (input : Input) (tree : Expr Unit) (rest : List Token)
    (atEnd : input.stop.kind = .endOfInput) :
    input.whole.Gives input.stop input.tokens tree rest ↔ rest = [] ∧ IsWhole true input.tokens tree := by
  have room : 24 * input.tokens.length + 19 ≤ input.bound := by unfold Input.bound; omega
  unfold Input.whole
  rw [gives_bind]
  constructor
  · rintro ⟨value, middle, read, given⟩
    have derived := (readExpr_gives_iff _ _ _ _ true value room atEnd).mp read
    rw [gives_atEnd_bind] at given
    split at given
    · rename_i empty
      obtain ⟨rfl, rfl⟩ := (gives_pure ..).mp given
      cases List.isEmpty_iff.mp empty
      exact ⟨rfl, derived⟩
    · exact absurd given (not_gives_failHere _ _ _ _ _)
  · rintro ⟨rfl, derived⟩
    refine ⟨tree, [], (readExpr_gives_iff _ _ _ _ true tree room atEnd).mpr derived, ?_⟩
    rw [gives_atEnd_bind]
    exact (gives_pure ..).mpr ⟨rfl, rfl⟩

-- The tokens before the end, and the end itself.

theorem ofTokens_stop (tokens : List Token) : (Input.ofTokens tokens).stop.kind = .endOfInput := by
  simp only [Input.ofTokens]
  cases found : tokens.find? (·.kind = .endOfInput) with
  | none => rfl
  | some stop => simpa using List.find?_some found

theorem ofTokens_tokens (tokens later : List Token) (free : ∀ token ∈ tokens, token.kind ≠ .endOfInput)
    (ended : ∀ stop ∈ later.head?, stop.kind = .endOfInput) : (Input.ofTokens (tokens ++ later)).tokens = tokens := by
  simp only [Input.ofTokens]
  rw [List.takeWhile_append_of_pos (by simpa using free)]
  cases later with
  | nil => simp
  | cons stop after => simp [ended stop rfl]

theorem program_clean_iff (input : Input) (program : List (Stmt Unit)) (atEnd : input.stop.kind = .endOfInput) :
    (input.program.errors = [] ∧ input.program.result = program) ↔ IsProgram true input.tokens program := by
  rw [← program_gives_iff input program atEnd]
  constructor
  · rintro ⟨clean, rfl⟩
    obtain ⟨trees, rest, given⟩ := gives_of_no_errors _ _ _ (declarations_honest input.bound false) clean
    obtain ⟨-, ends⟩ := (stmt_sound_within input.bound).declarations false _ _ _ _ atEnd given
    cases ends rfl
    have result : input.program.result = trees := by
      unfold Gives at given
      simp [Input.program, given]
    rwa [result]
  · intro given
    unfold Gives at given
    simp [Input.program, given]

theorem expression_result_iff (input : Input) (tree : Expr Unit) (atEnd : input.stop.kind = .endOfInput) :
    input.expression.result = some tree ↔ IsWhole true input.tokens tree := by
  constructor
  · intro read
    simp only [Input.expression] at read
    split at read
    · rename_i clean
      obtain ⟨value, rest, given⟩ := gives_of_no_errors _ _ _ (whole_honest input) (List.isEmpty_iff.mp clean)
      rw [given] at read
      cases read
      exact ((whole_gives_iff input tree rest atEnd).mp given).2
    · cases read
  · intro derived
    have given := (whole_gives_iff input tree [] atEnd).mpr ⟨rfl, derived⟩
    unfold Gives at given
    simp [Input.expression, given]

section reading

variable (tokens later : List Token) (free : ∀ token ∈ tokens, token.kind ≠ .endOfInput)
  (ended : ∀ stop ∈ later.head?, stop.kind = .endOfInput)

include free ended

theorem readProgram_iff (program : List (Stmt Unit)) :
    (readProgram (tokens ++ later)).errors = [] ∧ (readProgram (tokens ++ later)).result = program ↔
      IsProgram true tokens program := by
  have read := program_clean_iff (Input.ofTokens (tokens ++ later)) program (ofTokens_stop _)
  rwa [ofTokens_tokens tokens later free ended] at read

theorem readExpression_iff (tree : Expr Unit) :
    (readExpression (tokens ++ later)).result = some tree ↔ IsWhole true tokens tree := by
  have read := expression_result_iff (Input.ofTokens (tokens ++ later)) tree (ofTokens_stop _)
  rwa [ofTokens_tokens tokens later free ended] at read

end reading

-- Tokens up to the end of the input are read without a mistake exactly where the grammar derives them, and the
-- tree is the one of the longest derivation, which is the only one of its kind.
theorem readProgram_accepts_grammar (tokens later : List Token)
    (free : ∀ token ∈ tokens, token.kind ≠ .endOfInput) (ended : ∀ stop ∈ later.head?, stop.kind = .endOfInput) :
    ((readProgram (tokens ++ later)).errors = [] ↔ ∃ program, IsProgram false tokens program) ∧
    (∀ program, (readProgram (tokens ++ later)).errors = [] ∧ (readProgram (tokens ++ later)).result = program ↔
      IsProgram true tokens program) ∧
    (∀ program, IsProgram true tokens program → IsProgram false tokens program) ∧
    ((readExpression (tokens ++ later)).result.isSome = true ↔ ∃ tree, IsWhole false tokens tree) ∧
    (∀ tree, (readExpression (tokens ++ later)).result = some tree ↔ IsWhole true tokens tree) ∧
    (∀ tree, IsWhole true tokens tree → IsWhole false tokens tree) := by
  have atEnd := ofTokens_stop (tokens ++ later)
  have programs := fun program => program_clean_iff (Input.ofTokens (tokens ++ later)) program atEnd
  have expressions := fun tree => expression_result_iff (Input.ofTokens (tokens ++ later)) tree atEnd
  rw [ofTokens_tokens tokens later free ended] at programs expressions
  refine ⟨?_, programs, fun program built => builds_weaken true .declarations tokens [] program built, ?_, expressions,
    fun tree derived => derives_weaken true (.expr true) tokens [] tree derived⟩
  · rw [isProgram_longest_iff]
    exact ⟨fun clean => ⟨_, (programs _).mp ⟨clean, rfl⟩⟩, fun ⟨program, built⟩ => ((programs program).mpr built).1⟩
  · rw [isWhole_longest_iff, Option.isSome_iff_exists]
    exact ⟨fun ⟨tree, read⟩ => ⟨tree, (expressions tree).mp read⟩,
      fun ⟨tree, derived⟩ => ⟨tree, (expressions tree).mpr derived⟩⟩

-- Tokens of a text of one line.

def plainToken (kind : Kind) (lexeme : String) : Token := ⟨kind, lexeme, none, 1⟩

def textToken (value : String) : Token := ⟨.stringLiteral, "\"" ++ value ++ "\"", some (.text value), 1⟩

def numberToken (lexeme : String) (value : Float) : Token := ⟨.number, lexeme, some (.number value), 1⟩

-- `for (var i = 1; i < n; i = i + 1) if (a) if (b) print f(i, "x"); else d;`
def countingIfs : List Token :=
  [plainToken .kwFor "for", plainToken .leftParen "(", plainToken .kwVar "var", plainToken .identifier "i",
    plainToken .equal "=", numberToken "1" 1, plainToken .semicolon ";", plainToken .identifier "i",
    plainToken .less "<", plainToken .identifier "n", plainToken .semicolon ";", plainToken .identifier "i",
    plainToken .equal "=", plainToken .identifier "i", plainToken .plus "+", numberToken "1" 1,
    plainToken .rightParen ")", plainToken .kwIf "if", plainToken .leftParen "(", plainToken .identifier "a",
    plainToken .rightParen ")", plainToken .kwIf "if", plainToken .leftParen "(", plainToken .identifier "b",
    plainToken .rightParen ")", plainToken .kwPrint "print", plainToken .identifier "f", plainToken .leftParen "(",
    plainToken .identifier "i", plainToken .comma ",", textToken "x", plainToken .rightParen ")",
    plainToken .semicolon ";", plainToken .kwElse "else", plainToken .identifier "d", plainToken .semicolon ";"]

def plainVar (name : String) : Expr Unit := .var () (plainToken .identifier name)

-- The `else` belongs to the inner `if`.
def nestedIfsTree : Stmt Unit :=
  .branch (plainVar "a")
    (.branch (plainVar "b")
      (.print (plainToken .kwPrint "print")
        (.call (plainVar "f") (plainToken .rightParen ")") [plainVar "i", .literal (.text "x")]))
      (some (.expr (plainVar "d"))))
    none

def countingIfsTree : Stmt Unit :=
  .block
    [.var (plainToken .identifier "i") (some (.literal (.number 1))),
      .loop (.binary (plainVar "i") (plainToken .less "<") (plainVar "n"))
        (.block
          [nestedIfsTree,
            .expr (.assign () (plainToken .identifier "i")
              (.binary (plainVar "i") (plainToken .plus "+") (.literal (.number 1))))])]

-- `f("x") ? -n * 2 : !a or b, c`
def mixedOperators : List Token :=
  [plainToken .identifier "f", plainToken .leftParen "(", textToken "x", plainToken .rightParen ")",
    plainToken .question "?", plainToken .minus "-", plainToken .identifier "n", plainToken .star "*",
    numberToken "2" 2, plainToken .colon ":", plainToken .bang "!", plainToken .identifier "a", plainToken .kwOr "or",
    plainToken .identifier "b", plainToken .comma ",", plainToken .identifier "c"]

-- A comma binds more tightly than `or`.
def mixedOperatorsTree : Expr Unit :=
  .ternary (.call (plainVar "f") (plainToken .rightParen ")") [.literal (.text "x")])
    (.binary (.unary (plainToken .minus "-") (plainVar "n")) (plainToken .star "*") (.literal (.number 2)))
    (.logical (.unary (plainToken .bang "!") (plainVar "a")) (plainToken .kwOr "or")
      (.comma (plainVar "b") (plainVar "c")))

theorem countingIfs_accepted :
    (∀ token ∈ countingIfs, token.kind ≠ .endOfInput) ∧ (∀ token ∈ mixedOperators, token.kind ≠ .endOfInput) ∧
      (∀ stop ∈ [Token.endAt 1].head?, stop.kind = .endOfInput) ∧
      IsProgram true countingIfs [countingIfsTree] ∧ (∃ program, IsProgram false countingIfs program) ∧
      (¬ ∃ tree, IsWhole false countingIfs tree) ∧ IsWhole true mixedOperators mixedOperatorsTree ∧
      ¬ ∃ program, IsProgram false mixedOperators program := by
  have ended : ∀ stop ∈ [Token.endAt 1].head?, stop.kind = .endOfInput := by decide
  have free : ∀ token ∈ countingIfs, token.kind ≠ .endOfInput := by decide
  have free' : ∀ token ∈ mixedOperators, token.kind ≠ .endOfInput := by decide
  have clean : (readProgram (countingIfs ++ [Token.endAt 1])).errors = [] := by rfl
  have built : (readProgram (countingIfs ++ [Token.endAt 1])).result = [countingIfsTree] := by rfl
  have unread : (readExpression (countingIfs ++ [Token.endAt 1])).result.isSome = false := by rfl
  have read : (readExpression (mixedOperators ++ [Token.endAt 1])).result = some mixedOperatorsTree := by rfl
  have mistaken : (readProgram (mixedOperators ++ [Token.endAt 1])).errors.isEmpty = false := by rfl
  obtain ⟨accepts, trees, -, wholes, -, -⟩ := readProgram_accepts_grammar countingIfs [Token.endAt 1] free ended
  obtain ⟨accepts', -, -, -, wholes', -⟩ := readProgram_accepts_grammar mixedOperators [Token.endAt 1] free' ended
  refine ⟨free, free', ended, (trees _).mp ⟨clean, built⟩, accepts.mp clean, ?_, (wholes' _).mp read, ?_⟩
  · intro derived
    rw [wholes.mpr derived] at unread
    cases unread
  · intro derived
    rw [accepts'.mpr derived] at mistaken
    cases mistaken

end Treewalk.Grammar
