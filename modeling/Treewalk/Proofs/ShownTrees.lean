import Treewalk.Proofs.FullSinks
import Treewalk.Proofs.JoinedPrograms
import Treewalk.Proofs.RenderedTrees
import Treewalk.Proofs.Sessions

/-!
The trees that a session shows tell the program apart. Two texts whose numbers are finite have the same trees shown exactly
if they are read as the same program, but for the lines of its tokens. No tree takes more than one line, so that the lines
written are the trees.
-/

set_option autoImplicit false

namespace Treewalk

-- What a text is read as is legible.

def Literal.isFinite : Literal → Bool
  | .number value => value.isFinite
  | .text _ => true

def FiniteNumbers (source : String) : Prop :=
  ∀ token ∈ (scan source).tokens, ∀ literal ∈ token.literal, literal.isFinite = true

instance (source : String) : Decidable (FiniteNumbers source) :=
  inferInstanceAs (Decidable (∀ token ∈ (scan source).tokens, ∀ literal ∈ token.literal, literal.isFinite = true))

theorem lexeme_positive (kind : Kind) (value : Float) (text : List Char)
    (lexeme : Lexeme kind (some (.number value)) text) : Numeral.isNegative value = false := by
  cases lexeme with
  | whole first digits => exact Numeral.ofParts_positive (first :: digits) [] 0
  | fraction first digit digits places => exact Numeral.ofParts_positive (first :: digits) (digit :: places) 0

theorem Expr.legibleAll_iff (exprs : List (Expr Unit)) : Expr.LegibleAll exprs ↔ ∀ expr ∈ exprs, expr.Legible := by
  induction exprs with
  | nil => simp [Expr.LegibleAll]
  | cons first rest ih => rw [Expr.LegibleAll, ih, List.forall_mem_cons]

theorem Stmt.legibleAll_iff (stmts : List (Stmt Unit)) : Stmt.LegibleAll stmts ↔ ∀ stmt ∈ stmts, stmt.Legible := by
  induction stmts with
  | nil => simp [Stmt.LegibleAll]
  | cons first rest ih => rw [Stmt.LegibleAll, ih, List.forall_mem_cons]

section legible

variable (source : String)

-- Only the end of the input is no lexeme, and no node of a tree is built from it.
theorem scan_spelled (kinds : Kind → Bool) (ends : kinds .endOfInput = false) (token : Token)
    (inside : token ∈ (scan source).tokens) (fits : kinds token.kind = true) : token.Spelled kinds := by
  rcases scan_lexeme source token inside with rfl | lexeme
  · cases ends.symm.trans fits
  · exact ⟨lexeme, fits⟩

theorem among_spelled (kind : Kind) (other : kind ≠ .endOfInput) (token : Token)
    (among : token.Among (scan source).tokens kind) : token.Spelled (· = kind) :=
  scan_spelled source (· = kind) (decide_eq_false other.symm) token among.1 (decide_eq_true among.2)

theorem written_legible (finite : FiniteNumbers source) (value : Datum)
    (written : Grammar.Written (scan source).tokens value) : value.Legible := by
  cases written with
  | nil | boolean => trivial
  | literal token literal inside found =>
      cases literal with
      | text => trivial
      | number value =>
          refine ⟨finite token inside (.number value) found, ?_⟩
          rcases scan_lexeme source token inside with rfl | lexeme
          · cases found
          · rw [found] at lexeme
            exact lexeme_positive token.kind value token.lexeme.toList lexeme

theorem legible_join (commas : Bool) (level : Level) (left : Expr Unit) (operator : Token)
    (right : Expr Unit) (inside : operator ∈ (scan source).tokens) (joins : level.joins commas operator.kind = true)
    (ofLeft : left.Legible) (ofRight : right.Legible) :
    (level.join left operator right).Legible := by
  cases Grammar.joint_of_joins commas level operator.kind joins with
  | logical shape fits =>
      rw [shape]
      exact ⟨scan_spelled source Kind.isLogical rfl operator inside fits, ofLeft, ofRight⟩
  | comma shape =>
      rw [shape]
      exact ⟨ofLeft, ofRight⟩
  | binary shape fits =>
      rw [shape]
      exact ⟨scan_spelled source Kind.isBinary rfl operator inside fits, ofLeft, ofRight⟩

theorem legible_composes (finite : FiniteNumbers source) :
    Grammar.Composes (scan source).tokens Expr.Legible Stmt.Legible Stmt.Legible where
  literal := written_legible source finite
  group _ ofInner := ofInner
  unary operator _ inside fits ofOperand := by
    have unary : operator.kind.isUnary = true := by simpa [Kind.isUnary, or_comm] using fits
    exact ⟨scan_spelled source Kind.isUnary rfl operator inside unary, ofOperand⟩
  join := legible_join source
  ternary _ _ _ ofCondition ofYes ofNo := ⟨ofCondition, ofYes, ofNo⟩
  var name among := among_spelled source .identifier (by decide) name among
  assign _ _ ofName ofValue := ⟨ofName, ofValue⟩
  call _ close arguments ofCallee among ofArguments :=
    ⟨ofCallee, among_spelled source .rightParen (by decide) close among, (Expr.legibleAll_iff arguments).mpr ofArguments⟩
  ret keyword _ among ofValue := ⟨among_spelled source .kwReturn (by decide) keyword among, ofValue⟩
  print keyword _ among ofValue := ⟨among_spelled source .kwPrint (by decide) keyword among, ofValue⟩
  expr _ ofValue := ofValue
  block body ofBody := (Stmt.legibleAll_iff body).mpr ofBody
  branch _ _ no ofCondition ofYes ofNo := by
    cases no with
    | none => exact ⟨ofCondition, ofYes⟩
    | some no => exact ⟨ofCondition, ofYes, ofNo no rfl⟩
  loop _ _ ofCondition ofBody := ⟨ofCondition, ofBody⟩
  defines name _ among ofValue := ⟨among_spelled source .identifier (by decide) name among, ofValue⟩
  func name params body among ofParams ofBody :=
    ⟨among_spelled source .identifier (by decide) name among,
      fun param inside => among_spelled source .identifier (by decide) param (ofParams param inside),
      (Stmt.legibleAll_iff body).mpr ofBody⟩
  statement _ ofStmt := ofStmt

theorem programOf_legible (finite : FiniteNumbers source) : ∀ stmt ∈ programOf source, stmt.Legible := by
  refine (Grammar.readProgram_composed (scan source).tokens ?_ (legible_composes source finite)).1
  rw [scan_tokens]
  exact ⟨Token.endAt (1 + linesOf source), by simp, rfl⟩

end legible

-- Lists of statements with the same texts.
theorem renders_unique (left : List (Stmt Unit)) : ∀ right : List (Stmt Unit), (∀ stmt ∈ left, stmt.Legible) →
    (∀ stmt ∈ right, stmt.Legible) →
    (left.map Stmt.render = right.map Stmt.render ↔
      Stmt.movedAll Token.unplaced left = Stmt.movedAll Token.unplaced right) := by
  induction left with
  | nil =>
      intro right _ _
      cases right <;> simp [Stmt.movedAll]
  | cons first rest ih =>
      intro right ofLeft ofRight
      cases right with
      | nil => simp [Stmt.movedAll]
      | cons first' rest' =>
          obtain ⟨ofFirst, ofRest⟩ := List.forall_mem_cons.mp ofLeft
          obtain ⟨ofFirst', ofRest'⟩ := List.forall_mem_cons.mp ofRight
          have firsts : first.render = first'.render ↔ first.moved Token.unplaced = first'.moved Token.unplaced := by
            refine ⟨Stmt.render_unique first first' ofFirst ofFirst', fun same => ?_⟩
            rw [← Stmt.render_moved Token.unplaced keepsText_unplaced first, same,
              Stmt.render_moved Token.unplaced keepsText_unplaced first']
          rw [List.map_cons, List.map_cons, List.cons.injEq, Stmt.movedAll, Stmt.movedAll, List.cons.injEq, firsts,
            ih rest' ofRest ofRest']

-- Texts that end each line with a newline, and the lines of such a text.

namespace Text

def ended : List String → String
  | [] => ""
  | line :: rest => line ++ "\n" ++ ended rest

theorem linesFrom_line (line : List Char) : ∀ before rest : List Char, '\n' ∉ line →
    linesFrom before (line ++ '\n' :: rest) = String.ofList (dropReturn (before.reverse ++ line)) :: linesFrom [] rest := by
  induction line with
  | nil =>
      intro before rest _
      rw [List.nil_append, linesFrom, List.append_nil]
  | cons char line ih =>
      intro before rest free
      obtain ⟨other, free⟩ := not_or.mp (mt List.mem_cons.mpr free)
      rw [List.cons_append, linesFrom, ih (char :: before) rest free, List.reverse_cons, List.append_assoc]
      · rfl
      · exact fun same => other same.symm

-- A line that could be taken for a shorter one has a newline inside or a carriage return at its end.
structure Line (line : String) : Prop where
  whole : '\n' ∉ line.toList
  last : line.toList.getLast? ≠ some '\r'

theorem lines_ended (texts : List String) (single : ∀ text ∈ texts, Line text) : lines (ended texts) = texts := by
  induction texts with
  | nil => rfl
  | cons first rest ih =>
      obtain ⟨ofFirst, ofRest⟩ := List.forall_mem_cons.mp single
      have split : (ended (first :: rest)).toList = first.toList ++ '\n' :: (ended rest).toList := by
        simp [ended]
      rw [lines, split, linesFrom_line first.toList [] _ ofFirst.whole, List.reverse_nil, List.nil_append, dropReturn,
        if_neg ofFirst.last, String.ofList_toList]
      exact congrArg (first :: ·) (ih ofRest)

theorem ofCutBytes_toUTF8 (text : String) : ofCutBytes text.toUTF8 = text := by
  have valid : String.fromUTF8? (text.toUTF8.extract 0 (text.toUTF8.size - 0)) = some text := by
    rw [Nat.sub_zero, ByteArray.extract_zero_size]
    exact dif_pos text.isValidUTF8
  simp only [ofCutBytes, valid]

end Text

-- What a sink that takes everything has written after some lines were shown.

def Sink.TakesAll (sink : Sink) : Prop :=
  ∀ written offered bytes, sink.policy written offered bytes = (bytes.size, none)

theorem takesAll_unbounded : (Sink.empty none).TakesAll := fun _ _ _ => rfl

theorem emit_whole (machine : Machine) (text : String) (takes : machine.sink.TakesAll) :
    machine.emit text = (none, machine.wrote text text.toUTF8) := by
  simp only [Machine.emit, Sink.offer, takes _ _ _, ByteArray.extract_zero_size, Machine.wrote]

namespace Session

theorem echo_written (lines : List String) : ∀ session : Session, session.machine.sink.TakesAll →
    (session.echo lines).failure = session.failure ∧
      (session.echo lines).machine.sink.written = session.machine.sink.written ++ (Text.ended lines).toUTF8 := by
  induction lines with
  | nil => exact fun session _ => ⟨rfl, ByteArray.append_empty.symm⟩
  | cons line rest ih =>
      intro session takes
      rw [echo, emit_whole session.machine (line ++ "\n") takes]
      obtain ⟨failure, written⟩ :=
        ih { session with machine := session.machine.wrote (line ++ "\n") (line ++ "\n").toUTF8 } takes
      refine ⟨failure, written.trans ?_⟩
      simp only [Machine.wrote, Text.ended, String.toUTF8_eq_toByteArray, String.toByteArray_append, ByteArray.append_assoc]

theorem tree_written (fuel : Nat) (session : Session) (source : String) (scanned : (scan source).errors = [])
    (takes : session.machine.sink.TakesAll) :
    ∃ after, session.step fuel .tree source = some after ∧ after.failure = none ∧
      after.machine.sink.textFrom session.machine.sink.written.size =
        Text.ended ((programOf source).map Stmt.render) := by
  have machine := reject_machine session.reset ((readProgram (scan source).tokens).errors.map ParseError.display)
  have kept : (session.reset.rejectParse (readProgram (scan source).tokens).errors).failure = none := by
    unfold rejectParse reject
    split <;> rfl
  obtain ⟨failure, written⟩ := echo_written ((programOf source).map Stmt.render)
    (session.reset.rejectParse (readProgram (scan source).tokens).errors) (by rw [rejectParse, machine]; exact takes)
  refine ⟨_, step_tree fuel session source scanned, failure.trans kept, ?_⟩
  rw [rejectParse, machine] at written
  change Text.ofCutBytes _ = _
  change (session.reset.showTrees (scan source).tokens).machine.sink.written = session.machine.sink.written ++ _ at written
  rw [written, ByteArray.extract_append_eq_right rfl ByteArray.size_append, Text.ofCutBytes_toUTF8]

end Session

-- The text of a statement ends with a bracket.
theorem Stmt.render_single (stmt : Stmt Unit) (legible : stmt.Legible) : Text.Line stmt.render := by
  refine ⟨Stmt.render_line stmt legible, ?_⟩
  obtain ⟨items, shape⟩ := Stmt.form_label stmt
  rw [Stmt.render_form, shape, Form.text, List.getLast?_concat]
  decide

-- Statements that can be read are shown also where others cannot be, so nothing is asked of the reading.
theorem shown_trees_tell_programs (first second : String) (ofFirst : FiniteNumbers first)
    (ofSecond : FiniteNumbers second) :
    ((programOf first).map Stmt.render = (programOf second).map Stmt.render ↔
      Stmt.movedAll Token.unplaced (programOf first) = Stmt.movedAll Token.unplaced (programOf second)) ∧
    (∀ stmt ∈ programOf first, '\n' ∉ stmt.render.toList) ∧
    ((scan first).errors = [] → ∀ (fuel : Nat) (session : Session), session.machine.sink.TakesAll →
      ∃ after, session.step fuel .tree first = some after ∧ after.failure = none ∧
        Text.lines (after.machine.sink.textFrom session.machine.sink.written.size) =
          (programOf first).map Stmt.render) := by
  have legible := programOf_legible first ofFirst
  refine ⟨renders_unique _ _ legible (programOf_legible second ofSecond),
    fun stmt inside => (Stmt.render_single stmt (legible stmt inside)).whole, fun scanned fuel session takes => ?_⟩
  obtain ⟨after, stepped, unfailing, written⟩ := Session.tree_written fuel session first scanned takes
  refine ⟨after, stepped, unfailing, ?_⟩
  rw [written]
  refine Text.lines_ended _ fun text inside => ?_
  obtain ⟨stmt, among, rfl⟩ := List.mem_map.mp inside
  exact Stmt.render_single stmt (legible stmt among)

def picking : String := "fun pick(a, b) \x7b if (a) return b; else return 1.50; \x7d\nprint pick(nil, \"x\ny\") or -z;"

def pickingSpread : String :=
  "fun pick(a,\nb) \x7b\n  if (a) return b;\n  else return 1.5;\n\x7d print pick(nil, \"x\ny\")\nor - z;"

def pickingTrees : List String :=
  ["(fun pick(a b) (if a (return b) (return 1.5)))", "(print (or (call pick nil \"x\\ny\") (- z)))"]

theorem picking_told :
    FiniteNumbers picking ∧ FiniteNumbers pickingSpread ∧ (scan picking).errors = [] ∧
    (readProgram (scan picking).tokens).errors = [] ∧ (programOf picking).length = 2 ∧
    Stmt.movedAll Token.unplaced (programOf picking) = Stmt.movedAll Token.unplaced (programOf pickingSpread) ∧
    ∃ after, (Session.start (Sink.empty none) (Clock.ticking 0)).step 0 .tree picking = some after ∧
      after.failure = none ∧ Text.lines (after.machine.sink.textFrom 0) = pickingTrees := by
  have ofFirst : FiniteNumbers picking := by decide +kernel
  have ofSecond : FiniteNumbers pickingSpread := by decide +kernel
  have scanned : (scan picking).errors = [] := List.isEmpty_iff.mp (by decide +kernel)
  have read : (readProgram (scan picking).tokens).errors = [] := List.isEmpty_iff.mp (by decide +kernel)
  have shown : (programOf picking).map Stmt.render = pickingTrees := by decide +kernel
  have shownSpread : (programOf pickingSpread).map Stmt.render = pickingTrees := by decide +kernel
  obtain ⟨told, -, written⟩ := shown_trees_tell_programs picking pickingSpread ofFirst ofSecond
  rw [← shown]
  exact ⟨ofFirst, ofSecond, scanned, read, by decide +kernel, told.mp (shown.trans shownSpread.symm),
    written scanned 0 (Session.start (Sink.empty none) (Clock.ticking 0)) takesAll_unbounded⟩

end Treewalk
