import Treewalk.Proofs.PairedRuns
import Treewalk.Proofs.Sessions

/-!
Running a program in pieces is running it as a whole. If one text runs without a fault, then another text run behind it
does what the two texts with a line break between them do in one step: the same output, the same flags, the same
fault if there is one, and frames that hold the same values. Only the lines of the second text are others, and where it
stands behind as many line breaks as the first text has lines, the messages are the same too.
-/

set_option autoImplicit false

namespace Treewalk

def Closure.tokens (closure : Closure) : List Token := closure.name :: closure.params ++ Stmt.tokensAll closure.body

-- The token is in the code of a function that some variable holds.
def Heap.HoldsToken (heap : Heap) (token : Token) : Prop :=
  ∃ frame name closure, heap.slot? frame name = some (.holds (.closure closure)) ∧ token ∈ closure.tokens

namespace Paired

-- Older code stays where it is, and later code stands some lines further down.
def Pairing.down (older later : Token → Prop) (lines : Int) (known : NodeId → Prop) : Pairing where
  tokens token other := older token ∧ other = token ∨ later token ∧ other = token.down lines
  labels label other := known label ∧ other = label
  kinds := by
    rintro token other (⟨-, rfl⟩ | ⟨-, rfl⟩) <;> rfl
  lexemes := by
    rintro token other (⟨-, rfl⟩ | ⟨-, rfl⟩) <;> rfl

-- All uses in settled code have numbers that were given out.
theorem knownAmong_settled (pairing : Pairing) (distances : Distances) (labels : Nat) (mentions : List (Mention NodeId))
    (settled : ∀ mention ∈ mentions, mention.Settled distances labels)
    (given : ∀ label : Nat, label < labels → pairing.labels label label) : KnownAmong pairing mentions := by
  intro mention inside label among
  have recorded := settled mention inside
  cases mention with
  | use mentioned scopes =>
      cases List.mem_singleton.mp among
      exact given mentioned.label recorded.1
  | binding name scopes => cases among
  | leaving inFunction keyword => cases among

-- Code is paired with itself, if its tokens and its numbers are.
theorem stmtPairAll_itself (pairing : Pairing) (stmts : List (Stmt NodeId)) (inFunction : Bool) (scopes : List Scope)
    (tokens : ∀ token ∈ Stmt.tokensAll stmts, pairing.tokens token token)
    (uses : KnownAmong pairing (Stmt.mentionsAll inFunction scopes stmts)) : StmtPairAll pairing stmts stmts := by
  have paired := stmtPairAll_moved pairing id stmts inFunction scopes tokens uses
  rw [Stmt.movedAll_id] at paired
  exact paired

-- A machine between two programs knows about all uses in the functions it holds.
theorem sameHeap_resting (pairing : Pairing) (history : List (List (Stmt NodeId))) (machine : Machine)
    (resting : Binding.Resting history machine)
    (held : ∀ token, machine.heap.HoldsToken token → pairing.tokens token token)
    (given : ∀ label : Nat, label < machine.labels → pairing.labels label label) :
    SameHeap pairing machine.heap machine.heap := by
  refine ⟨rfl, fun _ => rfl, fun frame name => ?_⟩
  cases slot : machine.heap.slot? frame name with
  | none => exact .missing
  | some content =>
      cases content with
      | unassigned => exact .unassigned
      | holds value =>
          refine .holds value value ?_
          cases value with
          | datum value => exact .datum value
          | clock => exact .clock
          | closure closure =>
              -- Its uses were settled when its program was analysed, with numbers given out then.
              have tokens : ∀ token ∈ closure.tokens, pairing.tokens token token := fun token inside =>
                held token ⟨frame, name, closure, slot, inside⟩
              simp only [Closure.tokens, List.cons_append, List.forall_mem_cons, List.forall_mem_append] at tokens
              obtain ⟨scopes, -, -, settled, -⟩ := resting.orderly.held frame name _ slot
              have known := knownAmong_settled pairing machine.distances machine.labels _
                (fun mention inside => (settled mention inside).1) given
              exact .closure _ _ _ _ _ _ _ _ tokens.1 (List.forall₂_same.mpr tokens.2.1)
                (stmtPairAll_itself pairing _ true _ tokens.2.2 known)

section down

variable (older later : Token → Prop) (lines : Int)

theorem down_within (known : NodeId → Prop) :
    (Pairing.down older later lines known).Within (Pairing.down older later lines fun _ => True) :=
  ⟨fun _ _ paired => paired, fun _ _ same => ⟨trivial, same.2⟩⟩

theorem stmtPairAll_later (stmts : List (Stmt NodeId)) (tokens : ∀ token ∈ Stmt.tokensAll stmts, later token) :
    StmtPairAll (Pairing.down older later lines fun _ => True) stmts (Stmt.movedAll (Token.down lines) stmts) :=
  stmtPairAll_moved _ (Token.down lines) stmts false [] (fun token inside => .inr ⟨tokens token inside, rfl⟩)
    (fun _ _ _ _ => ⟨trivial, rfl⟩)

-- The second program on the machine behind the first one, and the part of the whole that it is.
theorem second_similar (ready between between' : Machine) (second : List (Stmt Unit)) (fuel : Nat) (known : NodeId → Prop)
    (ofSecond : ∀ token ∈ Stmt.tokensAll second, later token)
    (matched : Matched (Pairing.down older later lines known) ready (ready.prepare second).2 between between') :
    Similar (Pairing.down older later lines fun _ => True) (ready.prepare second).2 (ready.prepare second).2
      (fun _ _ => True) (Machine.interpret fuel second between)
      (runProgram fuel (Stmt.movedAll (Token.down lines) (ready.prepare second).1) between') := by
  have tokens : ∀ token ∈ Stmt.tokensAll (ready.prepare second).1, later token := by
    have stripped : Stmt.stripAll (ready.prepare second).1 = second := Stmt.stripAll_numbered second ready.labels
    rw [← Stmt.tokensAll_strip, stripped]
    exact ofSecond
  unfold Machine.interpret
  rw [prepare_like between ready second matched.labels matched.distances]
  refine runProgram_similar (fun _ _ same => by rw [same.2]) fuel _ _ (stmtPairAll_later older later lines _ tokens) _ _ ?_
  exact { matched with
    heap := sameHeap_wider (down_within older later lines known) matched.heap, distances := rfl, labels := rfl }

section joined

variable (history : List (List (Stmt NodeId))) (machine : Machine) (first second : List (Stmt Unit)) (fuel : Nat)
  (resting : Binding.Resting history machine) (clean : misuses first = []) (cleanLater : misuses second = [])
  (held : ∀ token, machine.heap.HoldsToken token → older token) (ofFirst : ∀ token ∈ Stmt.tokensAll first, older token)

include resting clean cleanLater held ofFirst

-- The first program runs alike whether or not the machine knows about the second one already.
theorem first_similar :
    Similar (Pairing.down older later lines (· < (machine.prepare first).2.labels)) (machine.prepare first).2
      ((machine.prepare first).2.prepare second).2 (fun _ _ => True)
      (runProgram fuel (machine.prepare first).1 (machine.prepare first).2)
      (runProgram fuel (machine.prepare first).1 ((machine.prepare first).2.prepare second).2) := by
  have prepares := prepare_settles machine first resting.unrecorded clean
  have further := prepare_settles _ second prepares.unrecorded cleanLater
  generalize (machine.prepare first).1 = numbered at prepares ⊢
  generalize (machine.prepare first).2 = ready at prepares further ⊢
  generalize (ready.prepare second).2 = last at further ⊢
  have same := sameHeap_resting (Pairing.down older later lines (· < ready.labels)) history machine resting
    (fun token inside => .inl ⟨held token inside, rfl⟩) (fun _ below => ⟨Nat.lt_of_lt_of_le below prepares.more, rfl⟩)
  have tokens : ∀ token ∈ Stmt.tokensAll numbered, older token := by
    rw [← Stmt.tokensAll_strip, prepares.stripped]
    exact ofFirst
  -- The numbers in the second program are all new, so what is known about older ones stays.
  have agree (label other : NodeId)
      (same : (Pairing.down older later lines (· < ready.labels)).labels label other) :
      ready.distances[label]? = last.distances[other]? := by
    rw [same.2]
    exact (further.kept label same.1).symm
  refine runProgram_similar agree fuel numbered numbered ?_ ready last ?_
  · exact stmtPairAll_itself _ numbered false [] (fun token inside => .inl ⟨tokens token inside, rfl⟩)
      (knownAmong_settled _ ready.distances ready.labels _ prepares.settled fun _ below => ⟨below, rfl⟩)
  · rw [further.same, prepares.same]
    exact ⟨same, rfl, rfl, rfl, rfl, rfl, rfl, rfl, rfl, rfl, rfl⟩

theorem pieces_similar (between : Machine) (ofSecond : ∀ token ∈ Stmt.tokensAll second, later token)
    (ran : Machine.interpret fuel first machine = .done () between) :
    Similar (Pairing.down older later lines fun _ => True) ((machine.prepare first).2.prepare second).2
      ((machine.prepare first).2.prepare second).2 (fun _ _ => True) (Machine.interpret fuel second between)
      (Machine.interpret fuel (first ++ Stmt.movedAll (Token.down lines) second) machine) := by
  have early := first_similar older later lines history machine first second fuel resting clean cleanLater held ofFirst
  unfold Machine.interpret at ran
  rw [ran] at early
  -- The whole is prepared at once, and then runs the first program and what follows it.
  have whole : Machine.interpret fuel (first ++ Stmt.movedAll (Token.down lines) second) machine =
      Run.bind (runProgram fuel (machine.prepare first).1)
        (fun _ => runProgram fuel (Stmt.movedAll (Token.down lines) ((machine.prepare first).2.prepare second).1))
        ((machine.prepare first).2.prepare second).2 := by
    rw [Machine.interpret, prepare_append machine _ (keepsText_down lines), runProgram_append]
    rfl
  rw [whole, Run.bind]
  generalize runProgram fuel (machine.prepare first).1 ((machine.prepare first).2.prepare second).2 = outcome at early ⊢
  cases early with
  | done _ _ _ between' matched _ =>
      exact second_similar older later lines _ between between' second fuel _ ofSecond matched

end joined

end down

-- Code that stays where it is blames the line it stands on.
theorem down_nowhere (older later : Token → Prop) (known : NodeId → Prop) (token other : Token)
    (paired : (Pairing.down older later 0 known).tokens token other) : other.line = token.line := by
  rcases paired with ⟨-, rfl⟩ | ⟨-, rfl⟩
  · rfl
  · exact Int.add_zero token.line

theorem movedAll_nowhere (stmts : List (Stmt Unit)) : Stmt.movedAll (Token.down 0) stmts = stmts := by
  have nowhere : Token.down 0 = id := funext fun token => congrArg (fun line => { token with line := line })
    (Int.add_zero token.line)
  rw [nowhere, Stmt.movedAll_id]

end Paired

namespace Session

open Paired

-- How the sessions end: without a fault, or with the same fault at paired tokens. Both add to the same messages.
inductive SameReport (pairing : Pairing) (before : List String) (pieces whole : Session) : Prop where
  | clean (flag : pieces.hadRuntimeError = false) (flag' : whole.hadRuntimeError = false)
      (messages : pieces.messages = before) (messages' : whole.messages = before) : SameReport pairing before pieces whole
  | fault (cause : Cause) (token token' : Token) (paired : pairing.tokens token token')
      (flag : pieces.hadRuntimeError = true) (flag' : whole.hadRuntimeError = true)
      (messages : pieces.messages = before ++ [Fault.display ⟨cause, token.line⟩])
      (messages' : whole.messages = before ++ [Fault.display ⟨cause, token'.line⟩]) :
      SameReport pairing before pieces whole

-- The machines are the same, output and clock included, but for the code of the functions that their frames hold.
structure Agrees (pairing : Pairing) (before : List String) (pieces whole : Session) : Prop where
  machines : pieces.machine = { whole.machine with heap := pieces.machine.heap }
  frames : SameHeap pairing pieces.machine.heap whole.machine.heap
  accepted : pieces.hadError = false ∧ whole.hadError = false
  report : SameReport pairing before pieces whole

theorem agrees_conclude (pairing : Pairing) (ready : Machine) (session other : Session)
    (outcome outcome' : Outcome Unit) (similar : Similar pairing ready ready (fun _ _ => True) outcome outcome')
    (messages : session.messages = other.messages) :
    Option.Rel (Agrees pairing other.messages) (session.reset.conclude outcome) (other.reset.conclude outcome') := by
  cases similar with
  | done _ _ machine mirror matched _ =>
      exact .some ⟨matched_machine matched, matched.heap, ⟨rfl, rfl⟩, .clean rfl rfl messages rfl⟩
  | fault cause token token' machine mirror paired matched =>
      refine .some ⟨matched_machine matched, matched.heap, ⟨rfl, rfl⟩,
        .fault cause token token' paired rfl rfl ?_ rfl⟩
      exact congrArg (· ++ [Fault.display ⟨cause, token.line⟩]) messages
  | outOfFuel => exact .none

-- Tokens of code that was there before the second text: of the first text, or of a function in the session.
def Older (session : Session) (first : String) (token : Token) : Prop :=
  token ∈ Stmt.tokensAll (programOf first) ∨ session.machine.heap.HoldsToken token

theorem report_exact (older later : Token → Prop) (known : NodeId → Prop) (before : List String) (pieces whole : Session)
    (report : SameReport (Pairing.down older later 0 known) before pieces whole) : pieces.messages = whole.messages := by
  cases report with
  | clean _ _ messages messages' => rw [messages, messages']
  | fault cause token token' paired _ _ messages messages' =>
      rw [messages, messages', down_nowhere older later known token token' paired]

theorem rel_weaker (stronger weaker : Session → Session → Prop)
    (implies : ∀ pieces whole, stronger pieces whole → weaker pieces whole) (pieces whole : Option Session)
    (related : Option.Rel stronger pieces whole) : Option.Rel weaker pieces whole := by
  cases related with
  | some related => exact .some (implies _ _ related)
  | none => exact .none

section pieces

variable (session middle : Session) (fuel : Nat) (first : String) (reached : session.Reachable)
  (firstClean : AcceptedText first) (ran : session.step fuel .run first = some middle)
  (unharmed : middle.hadRuntimeError = false)

include reached firstClean ran unharmed

-- A text run behind the first one, and a text that is both of them with the second one some lines further down.
theorem step_agrees (second whole : String) (lines : Int) (secondClean : AcceptedText second)
    (wholeClean : AcceptedText whole)
    (joined : programOf whole = programOf first ++ Stmt.movedAll (Token.down lines) (programOf second)) :
    Option.Rel
      (Agrees (Pairing.down (session.Older first) (· ∈ Stmt.tokensAll (programOf second)) lines fun _ => True)
        session.messages)
      (middle.step fuel .run second) (session.step fuel .run whole) := by
  obtain ⟨history, past⟩ := used_of_reachable session reached
  have resting := Binding.resting_of_ran history session.machine past
  rw [step_accepted fuel session first firstClean] at ran
  rw [step_accepted fuel middle second secondClean, step_accepted fuel session whole wholeClean, joined]
  cases outcome : Machine.interpret fuel (programOf first) session.machine with
  | done _ between =>
      rw [outcome] at ran
      cases ran
      have similar := pieces_similar (session.Older first) (· ∈ Stmt.tokensAll (programOf second)) lines
        history session.machine (programOf first) (programOf second) fuel resting firstClean.resolved
        secondClean.resolved (fun _ held => .inr held) (fun _ inside => .inl inside) between (fun _ inside => inside)
        outcome
      exact agrees_conclude _ _ _ session _ _ similar rfl
  | fault fault between =>
      rw [outcome] at ran
      cases ran
      cases unharmed
  | outOfFuel =>
      rw [outcome] at ran
      cases ran

end pieces

-- The second text blames lines of its own. A text with the same program as many lines further down as it stands in the
-- whole blames the lines of the whole, and the second text behind line breaks is one.
theorem pieces_run_as_whole (session middle : Session) (fuel : Nat) (first second : String)
    (reached : session.Reachable) (firstClean : AcceptedText first) (secondClean : AcceptedText second)
    (ran : session.step fuel .run first = some middle) (unharmed : middle.hadRuntimeError = false) :
    Option.Rel
      (Agrees
        (Pairing.down (session.Older first) (· ∈ Stmt.tokensAll (programOf second)) (linesOf first + 1) fun _ => True)
        session.messages)
      (middle.step fuel .run second) (session.step fuel .run (first ++ "\n" ++ second)) ∧
    Lowers (linesOf first + 1) second (lineBreaks (linesOf first + 1) ++ second) ∧
    ∀ lowered, Lowers (linesOf first + 1) second lowered →
      Option.Rel
        (fun pieces whole => pieces.messages = whole.messages ∧
          Agrees (Pairing.down (session.Older first) (· ∈ Stmt.tokensAll (programOf lowered)) 0 fun _ => True)
            session.messages pieces whole)
        (middle.step fuel .run lowered) (session.step fuel .run (first ++ "\n" ++ second)) := by
  obtain ⟨joinedClean, joined⟩ := programOf_joined first second firstClean secondClean
  refine ⟨step_agrees session middle fuel first reached firstClean ran unharmed second _ _ secondClean joinedClean joined,
    lowers_lineBreaks (linesOf first) second secondClean, fun lowered lowers => ?_⟩
  rw [← lowers.program, ← movedAll_nowhere (programOf lowered)] at joined
  have agrees := step_agrees session middle fuel first reached firstClean ran unharmed lowered _ 0 lowers.accepted
    joinedClean joined
  exact rel_weaker _ _ (fun pieces whole agree => ⟨report_exact _ _ _ _ pieces whole agree.report, agree⟩) _ _ agrees

-- The second text prints what the first one defines, and then fails.

def defining : String := "fun same(x) \x7b return x; \x7d\nvar a = \"one\";"

def printing : String := "print same(a);\nprint b;"

def unused : Session := Session.start (Sink.empty none) (Clock.ticking 0)

theorem defining_then_printing :
    AcceptedText defining ∧ AcceptedText printing ∧ ∃ middle,
      unused.step 20 .run defining = some middle ∧ middle.hadRuntimeError = false ∧
      Option.Rel
        (Agrees (Pairing.down (unused.Older defining) (· ∈ Stmt.tokensAll (programOf printing)) (linesOf defining + 1)
          fun _ => True) [])
        (middle.step 20 .run printing) (unused.step 20 .run (defining ++ "\n" ++ printing)) ∧
      Option.Rel (fun pieces whole => pieces.messages = whole.messages)
        (middle.step 20 .run ("\n\n" ++ printing)) (unused.step 20 .run (defining ++ "\n" ++ printing)) := by
  have definingClean : AcceptedText defining :=
    ⟨by decide +kernel, List.isEmpty_iff.mp (by decide +kernel), List.isEmpty_iff.mp (by decide +kernel)⟩
  have printingClean : AcceptedText printing :=
    ⟨by decide +kernel, List.isEmpty_iff.mp (by decide +kernel), List.isEmpty_iff.mp (by decide +kernel)⟩
  have ended : (unused.step 20 .run defining).any (!·.hadRuntimeError) = true := by decide +kernel
  obtain ⟨middle, ran, flag⟩ := (Option.any_eq_true _ _).mp ended
  have unharmed : middle.hadRuntimeError = false := by simpa using flag
  obtain ⟨agrees, lowers, lined⟩ := pieces_run_as_whole unused middle 20 defining printing (.start _ _) definingClean
    printingClean ran unharmed
  exact ⟨definingClean, printingClean, middle, ran, unharmed, agrees,
    rel_weaker _ _ (fun _ _ same => same.1) _ _ (lined ("\n\n" ++ printing) lowers)⟩

end Session

end Treewalk
