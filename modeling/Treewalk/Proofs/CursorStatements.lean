import Treewalk.Proofs.CursorReadings

/-!
Attempts at declarations, and walks over statements beside their readings. An attempt always gets on: it ends behind where
it started, at or before the first end, and where it fails it has reported a mistake and goes on at the next boundary.
Every attempt starts with commas as operators, since only the arguments of a call turn them off and these hold no statement.
-/

set_option autoImplicit false

namespace Treewalk

namespace Walk

variable {tape : Tape} {place bound : Nat}

theorem tryRound_walked (inBlock : Bool) {walk : Walk (Stmt Unit)} {reading : Reading (Stmt Unit)}
    (room : tape.last - place < bound) (before : place < tape.last)
    (declared : Follows tape true place (place + 1) walk reading) :
    ∃ (round : Round) (record : List Event),
      tryRound inBlock bound walk tape.tokens ⟨place, true⟩ =
        ⟨.given round.stmt, ⟨round.finish, true⟩, record ++ [.tried round]⟩ ∧
      reading.recover tape.stop (tape.body.drop place) = ⟨some round.stmt, tape.body.drop round.finish, round.errors⟩ ∧
      (round.inBlock = inBlock ∧ round.start = place ∧ round.Sound tape) ∧
      errorsIn record = round.errors ∧ ∀ event ∈ record, event.Sound tape := by
  unfold Follows at declared
  generalize walks : walk tape.tokens ⟨place, true⟩ = walked at declared
  generalize reads : reading tape.stop (tape.body.drop place) = reply at declared
  cases declared with
  | given value after record onward reached within sound =>
    refine ⟨⟨inBlock, place, true, none, after, some value, errorsIn record⟩, record, ?_, ?_, ?_, rfl, sound⟩
    · simp [tryRound, Bind.bind, Walk.bind, attempt, here, note, walks, Pure.pure, Walk.pure]
    · simp only [Reading.recover, reads]
    · exact ⟨rfl, rfl, reached, within, rfl, fun _ => rfl, fun _ failed => absurd failed.symm (Option.some_ne_none _)⟩
  | failed stood record onward within sound blamed =>
    obtain ⟨finish, ⟨searched, steps, quiet, fine⟩, further, inside, resumed, resumes⟩ :=
      synchronize_steps true bound stood (by omega) within
    refine ⟨⟨inBlock, place, true, some stood, finish, none, errorsIn record⟩, record ++ searched, ?_, ?_, ?_, ?_, ?_⟩
    · simp [tryRound, Bind.bind, Walk.bind, attempt, here, note, walks, steps, Pure.pure, Walk.pure]
    · simp only [Reading.recover, reads, resumed]
    · have advances : place < finish := by
        by_cases last : stood = tape.last
        · omega
        · have moved := (resumes.moves fun ends => last ((isEnd_iff stood within).mp ends)).1
          omega
      refine ⟨rfl, rfl, advances, inside, rfl, fun given => absurd given (Option.some_ne_none _), ?_⟩
      intro spot failed
      cases failed
      exact ⟨rfl, blamed, resumes⟩
    · rw [errorsIn_append, quiet, List.append_nil]
    · exact sound_append sound fine

-- An attempt inside a block is one more thing that happened, and otherwise what the reading does.
theorem tryRound_follows {walk : Walk (Stmt Unit)} {reading : Reading (Stmt Unit)} (room : tape.last - place < bound)
    (before : place < tape.last) (declared : Follows tape true place (place + 1) walk reading) :
    Follows tape true place (place + 1) (tryRound true bound walk) reading.recover := by
  obtain ⟨round, record, walks, reads, ⟨inside, starts, soundRound⟩, errors, sound⟩ :=
    tryRound_walked true room before declared
  have advances : place < round.finish := starts ▸ soundRound.advances
  have kept : round.errors = errorsIn (record ++ [.tried round]) := by
    rw [errorsIn_append, errors]
    exact (List.append_nil _).symm
  unfold Follows
  rw [walks, reads, kept]
  refine .given round.stmt round.finish _ (Nat.le_of_lt advances) advances soundRound.within (sound_append sound ?_)
  intro event found
  rw [List.mem_singleton.mp found]
  exact ⟨inside, soundRound⟩

end Walk

namespace Grammar

open Walk

variable {tape : Tape} {place bound other : Nat}

-- Parts of statements. They hold expressions, read with commas as operators.

theorem optional_follows {α : Type} {least : Nat} (missing : Bool) {next : Option (Expr Unit) → Walk α}
    {goOn : Option (Expr Unit) → Reading α} (room : Room tape place 19 bound other)
    (further : ∀ value middle, place ≤ middle → middle ≤ tape.last →
      Follows tape true middle least (next value) (goOn value)) :
    Follows tape true place least
      (if missing = true then pure none >>= next else some <$> Walk.expr bound >>= next)
      (if missing = true then pure none >>= goOn else some <$> readExpr other true >>= goOn) := by
  cases missing with
  | true =>
    exact follows_bind (follows_pure none room.inside (Nat.le_refl _)) fun value middle onward _ inside =>
      further value middle onward inside
  | false =>
    exact follows_bind (follows_map (readExpr_follows room)) fun value middle onward _ inside =>
      further value middle onward inside

-- What has been read so far, up to the mark that ends it.
theorem ended_follows {α : Type} (kind : Kind) (cause : ParseCause) (value : α) (inside : place ≤ tape.last) {least : Nat}
    (low : least ≤ place + 1) :
    Follows tape true place least (Walk.expect kind cause >>= fun _ => pure value)
      (Reading.expect kind cause >>= fun _ => pure value) :=
  follows_bind (follows_expect kind cause inside) fun _ _ _ reached within =>
    follows_pure value within (Nat.le_trans low reached)

theorem varDecl_follows (room : Room tape place 19 bound other) :
    Follows tape true place (place + 1) (Walk.varDecl bound) (readVariable other) := by
  refine follows_bind (follows_expect _ _ room.inside) fun name start onward reached inside => ?_
  refine follows_accept _ inside ?_ fun before _ => ?_
  · refine follows_bind (follows_pure none inside (Nat.le_refl _)) fun value middle beyond _ within => ?_
    exact ended_follows _ _ _ within (by omega)
  · refine follows_bind (follows_map (readExpr_follows (room.onward (by omega) before))) ?_
    intro value middle beyond _ within
    exact ended_follows _ _ _ within (by omega)

theorem exprStmt_follows (room : Room tape place 19 bound other) :
    Follows tape true place (place + 1) (Walk.exprStmt bound) (readExprStmt other) :=
  follows_bind (readExpr_follows room) fun _ _ _ reached inside => ended_follows _ _ _ inside (by omega)

theorem print_follows (keyword : Token) (room : Room tape place 19 bound other) :
    Follows tape true place (place + 1) (Walk.print bound keyword) (readPrint other keyword) :=
  follows_bind (readExpr_follows room) fun _ _ _ reached inside => ended_follows _ _ _ inside (by omega)

theorem ret_follows (keyword : Token) (room : Room tape place 19 bound other) :
    Follows tape true place (place + 1) (Walk.ret bound keyword) (readReturn other keyword) := by
  refine follows_nextFits _ room.inside fun missing => optional_follows missing room fun value middle onward inside => ?_
  exact ended_follows _ _ _ inside (by omega)

theorem clause_follows (ending : Kind) (cause : ParseCause) (room : Room tape place 19 bound other) :
    Follows tape true place (place + 1) (Walk.clause bound ending cause) (readClause other ending cause) := by
  refine follows_nextFits _ room.inside fun missing => optional_follows missing room fun value middle onward inside => ?_
  exact ended_follows _ _ _ inside (by omega)

theorem condition_follows (opening closing : ParseCause) (room : Room tape place 19 bound other) :
    Follows tape true place (place + 1) (Walk.condition bound opening closing) (readCondition other opening closing) := by
  refine follows_bind (follows_expect _ _ room.inside) fun _ start onward reached inside => ?_
  refine follows_bind (readExpr_follows (room.onward onward inside)) fun _ middle beyond _ within => ?_
  exact ended_follows _ _ _ within (by omega)

theorem loopStart_follows (room : Room tape place 19 bound other) :
    Follows tape true place (place + 1) (Walk.loopStart bound) (readStart other) := by
  refine follows_accept _ room.inside ?_ fun before _ => follows_pure none before (Nat.le_refl _)
  refine follows_accept _ room.inside ?_ fun before _ => ?_
  · exact follows_map (exprStmt_follows room)
  · exact follows_less (Nat.le_succ _) (follows_map (varDecl_follows (room.onward (Nat.le_succ _) before)))

theorem params_follow (count : Nat) (room : Room tape place 1 bound other) :
    Follows tape true place (place + 1) (Walk.params bound count) (readParams other count) := by
  induction bound generalizing place other count with
  | zero => exact absurd room.walking (by omega)
  | succ bound ih =>
    obtain ⟨_, ⟨other, rfl⟩⟩ := room.nonzero (by decide)
    rw [Walk.params, readParams]
    refine follows_complaint (argumentLimit ≤ count) _ room.inside fun start onward inside => ?_
    refine follows_bind (follows_expect .identifier .parameterName inside) fun first middle _ reached within => ?_
    have passed : place + 1 ≤ middle := Nat.le_trans (Nat.succ_le_succ onward) reached
    refine follows_accept _ within (follows_pure _ within passed) fun before _ => ?_
    refine follows_bind (ih (count + 1) (room.beyond (Nat.lt_succ_of_lt passed) before (by decide))) ?_
    intro rest after beyond _ far
    exact follows_pure _ far (by omega)

theorem signature_follows (room : Room tape place 19 bound other) :
    Follows tape true place (place + 1) (Walk.signature bound) (readSignature other) := by
  refine follows_bind (follows_expect _ _ room.inside) fun name afterName _ reached insideName => ?_
  refine follows_bind (follows_expect _ _ insideName) fun _ start onward _ inside => ?_
  have behind (given : List Token) (middle : Nat) (passed : start ≤ middle) (within : middle ≤ tape.last) :
      Follows tape true middle (place + 1)
        (Walk.expect .rightParen .parenAfterParameters >>= fun _ => Walk.expect .leftBrace .braceBeforeBody >>= fun _ =>
          pure (name, given))
        (Reading.expect .rightParen .parenAfterParameters >>= fun _ =>
          Reading.expect .leftBrace .braceBeforeBody >>= fun _ => pure (name, given)) := by
    refine follows_bind (follows_expect _ _ within) fun _ after beyond _ far => ?_
    exact ended_follows _ _ _ far (by omega)
  refine follows_nextFits _ inside fun closed => ?_
  cases closed with
  | true =>
    exact follows_bind (follows_pure [] inside (Nat.le_refl _)) fun given middle passed _ within =>
      behind given middle passed within
  | false =>
    have space : Room tape start 1 bound other := by
      obtain ⟨_, walking, reading⟩ := room
      exact ⟨inside, by omega, by omega⟩
    exact follows_bind (params_follow 0 space) fun given middle passed _ within => behind given middle passed within

-- Statements, which nest.

structure StmtsFollow (tape : Tape) (bound other : Nat) : Prop where
  stmt : ∀ place, Room tape place 20 bound other →
    Follows tape true place (place + 1) (Walk.stmt bound) (readStmt other)
  declaration : ∀ place, Room tape place 21 bound other →
    Follows tape true place (place + 1) (Walk.declaration bound) (readDeclaration other)
  declarations : ∀ place, Room tape place 22 bound other →
    Follows tape true place place (Walk.declarations bound true) (readDeclarations other true)
  block : ∀ place, Room tape place 23 bound other →
    Follows tape true place (place + 1) (Walk.block bound) (readBlock other)

theorem block_follows (follow : StmtsFollow tape bound other) (room : Room tape place 23 (bound + 1) (other + 1)) :
    Follows tape true place (place + 1) (Walk.block (bound + 1)) (readBlock (other + 1)) :=
  follows_bind (follow.declarations place (room.tighter (by decide))) fun _ _ onward _ inside =>
    ended_follows _ _ _ inside (by omega)

theorem declarations_follow (follow : StmtsFollow tape bound other) (room : Room tape place 22 (bound + 1) (other + 1)) :
    Follows tape true place place (Walk.declarations (bound + 1) true) (readDeclarations (other + 1) true) := by
  refine follows_atEnd room.inside (fun _ => follows_pure [] room.inside (Nat.le_refl _)) fun before => ?_
  refine follows_nextFits _ room.inside fun closed => ?_
  cases closed with
  | true => exact follows_pure [] room.inside (Nat.le_refl _)
  | false =>
    have ample : tape.last - place < bound := by
      have walking := room.walking
      omega
    refine follows_bind (tryRound_follows ample before (follow.declaration place (room.tighter (by decide)))) ?_
    intro first middle onward reached inside
    refine follows_bind (follow.declarations middle (room.beyond reached inside (by decide))) ?_
    intro rest after beyond _ within
    exact follows_pure _ within (Nat.le_trans onward beyond)

theorem declaration_follows (follow : StmtsFollow tape bound other) (room : Room tape place 21 (bound + 1) (other + 1)) :
    Follows tape true place (place + 1) (Walk.declaration (bound + 1)) (readDeclaration (other + 1)) := by
  refine follows_peek room.inside ?_
  cases isKind : (tape.next place).kind
  case kwVar =>
    refine follows_known _ room.inside isKind (by decide) (by decide) fun before => follows_less (Nat.le_succ _) ?_
    exact varDecl_follows (room.beyond (Nat.lt_succ_self _) before (by decide))
  case kwFun =>
    refine follows_known _ room.inside isKind (by decide) (by decide) fun before => ?_
    refine follows_bind (signature_follows (room.beyond (Nat.lt_succ_self _) before (by decide))) ?_
    intro head middle onward _ inside
    refine follows_bind (follow.block middle (room.beyond onward inside (by decide))) ?_
    intro body after beyond _ within
    exact follows_pure _ within (Nat.le_trans onward beyond)
  all_goals exact follow.stmt place (room.tighter (by decide))

theorem stmt_follows (follow : StmtsFollow tape bound other) (room : Room tape place 20 (bound + 1) (other + 1)) :
    Follows tape true place (place + 1) (Walk.stmt (bound + 1)) (readStmt (other + 1)) := by
  refine follows_peek room.inside ?_
  have space (middle : Nat) (passed : place < middle) (inside : middle ≤ tape.last) : Room tape middle 19 bound other :=
    room.beyond passed inside (by decide)
  have body (middle : Nat) (passed : place < middle) (inside : middle ≤ tape.last) :
      Follows tape true middle (middle + 1) (Walk.stmt bound) (readStmt other) :=
    follow.stmt middle (room.beyond passed inside (by decide))
  cases isKind : (tape.next place).kind
  case kwFor =>
    refine follows_known _ room.inside isKind (by decide) (by decide) fun before => ?_
    refine follows_bind (follows_expect _ _ before) fun _ opened onOpened _ inOpened => ?_
    refine follows_bind (loopStart_follows (space opened onOpened inOpened)) fun first started onStarted _ inStarted => ?_
    have passed : place < started := Nat.le_trans onOpened onStarted
    refine follows_bind (clause_follows _ _ (space started passed inStarted)) fun test tested onTested _ inTested => ?_
    have further : place < tested := Nat.le_trans passed onTested
    refine follows_bind (clause_follows _ _ (space tested further inTested)) fun step closed onClosed _ inClosed => ?_
    refine follows_bind (body closed (Nat.le_trans further onClosed) inClosed) fun inner after beyond _ within => ?_
    exact follows_pure _ within (by omega)
  case kwIf =>
    refine follows_known _ room.inside isKind (by decide) (by decide) fun before => ?_
    refine follows_bind (condition_follows _ _ (space _ (Nat.lt_succ_self _) before)) ?_
    intro test tested onTested _ inTested
    refine follows_bind (body tested onTested inTested) fun yes middle onward _ inside => ?_
    refine follows_accept _ inside (follows_pure _ inside (by omega)) fun more _ => ?_
    refine follows_bind (body (middle + 1) (by omega) more) fun no after beyond _ within => ?_
    exact follows_pure _ within (by omega)
  case kwPrint =>
    refine follows_known _ room.inside isKind (by decide) (by decide) fun before => follows_less (Nat.le_succ _) ?_
    exact print_follows _ (space _ (Nat.lt_succ_self _) before)
  case kwReturn =>
    refine follows_known _ room.inside isKind (by decide) (by decide) fun before => follows_less (Nat.le_succ _) ?_
    exact ret_follows _ (space _ (Nat.lt_succ_self _) before)
  case kwWhile =>
    refine follows_known _ room.inside isKind (by decide) (by decide) fun before => ?_
    refine follows_bind (condition_follows _ _ (space _ (Nat.lt_succ_self _) before)) ?_
    intro test tested onTested _ inTested
    refine follows_bind (body tested onTested inTested) fun inner after beyond _ within => ?_
    exact follows_pure _ within (by omega)
  case leftBrace =>
    refine follows_known _ room.inside isKind (by decide) (by decide) fun before => ?_
    refine follows_bind (follow.block (place + 1) (room.beyond (Nat.lt_succ_self _) before (by decide))) ?_
    intro inner after beyond _ within
    exact follows_pure _ within beyond
  all_goals exact exprStmt_follows (room.tighter (by decide))

theorem stmts_follow (tape : Tape) (bound other : Nat) : StmtsFollow tape bound other := by
  induction bound generalizing other with
  | zero => constructor <;> exact fun _ room => absurd room.walking (by omega)
  | succ bound ih =>
    cases other with
    | zero => constructor <;> exact fun _ room => absurd room.reading (by omega)
    | succ other =>
      have follow : StmtsFollow tape bound other := ih other
      exact ⟨fun _ room => stmt_follows follow room, fun _ room => declaration_follows follow room,
        fun _ room => declarations_follow follow room, fun _ room => block_follows follow room⟩

end Grammar

end Treewalk
