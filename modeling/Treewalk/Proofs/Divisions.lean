import Treewalk.Proofs.Lexemes

/-!
Texts divided into pieces. A division says for each piece what it may be in front of the text behind it: a lexeme that no
longer lexeme could replace, a blank, a comment up to the end of its line, a character that starts nothing, or a string
that is never closed. Every text has one division and no other, and scanning gives the tokens and the mistakes in it,
each on the line where its piece starts.
-/

set_option autoImplicit false

namespace Treewalk

-- No lexeme that the text starts with is longer, and the text does not start with a comment.
structure Longest (text behind : List Char) : Prop where
  lexemes : ∀ kind literal lexeme, lexeme <+: text ++ behind → Lexeme kind literal lexeme → lexeme.length ≤ text.length
  comment : ¬ ['/', '/'] <+: text ++ behind

inductive Piece.Fits (behind : List Char) : Piece → Prop where
  | token (kind : Kind) (literal : Option Literal) (text : List Char) (lexeme : Lexeme kind literal text)
      (longest : Longest text behind) : Fits behind (.token kind literal text)
  | blank (char : Char) (isBlank : Text.isBlank char = true) : Fits behind (.gap [char])
  | comment (body : List Char) (inLine : ∀ char ∈ body, char ≠ '\n') (ends : ∀ next ∈ behind.head?, next = '\n') :
      Fits behind (.gap ('/' :: '/' :: body))
  | stray (char : Char) (notBlank : Text.isBlank char = false)
      (starts : ∀ kind literal text, ¬ Lexeme kind literal (char :: text)) : Fits behind (.stray char)
  | unclosed (body : List Char) (unquoted : ∀ char ∈ body, char ≠ '"') (last : behind = []) :
      Fits behind (.unclosed ('"' :: body))

inductive Divides : List Char → List Piece → Prop where
  | done : Divides [] []
  | next (piece : Piece) (behind : List Char) (rest : List Piece) (fits : piece.Fits behind)
      (others : Divides behind rest) : Divides (piece.text ++ behind) (piece :: rest)

-- What is cut off a text fits.

section cutting

variable (first : Char) (rest : List Char)

theorem passed_taken (passes : Char → Bool) : ∀ char ∈ rest.takeWhile passes, passes char = true :=
  List.all_eq_true.mp List.all_takeWhile

theorem cutString_fits : (cutString rest).1.Fits (cutString rest).2 ∨
    ∃ literal text behind, cutString rest = (.token .stringLiteral literal text, behind) ∧
      Lexeme .stringLiteral literal text := by
  have unquoted : ∀ char ∈ rest.takeWhile (· != '"'), char ≠ '"' := by
    simpa using passed_taken rest (· != '"')
  have stops := List.head?_dropWhile_not (· != '"') rest
  unfold cutString
  cases left : rest.dropWhile (· != '"') with
  | nil => exact .inl (.unclosed _ unquoted rfl)
  | cons close tail =>
      have isQuote : close = '"' := by simpa [left] using stops
      subst isQuote
      exact .inr ⟨_, _, _, rfl, .string _ unquoted⟩

theorem cutNumber_lexeme (digit : first.isDigit = true) :
    ∃ literal text behind, cutNumber first rest = (.token .number literal text, behind) ∧
      Lexeme .number literal text := by
  have whole : ∀ char ∈ first :: rest.takeWhile Char.isDigit, char.isDigit = true :=
    List.forall_mem_cons.mpr ⟨digit, passed_taken rest Char.isDigit⟩
  by_cases fraction : ∃ digit tail, HasFraction rest digit tail
  · obtain ⟨place, tail, point⟩ := fraction
    have places : ∀ char ∈ place :: tail.takeWhile Char.isDigit, char.isDigit = true :=
      List.forall_mem_cons.mpr ⟨point.2, passed_taken tail Char.isDigit⟩
    refine ⟨_, _, _, cutNumber_fraction first rest place tail point, .fraction first place _ _ ?_⟩
    exact List.forall_mem_append.mpr ⟨whole, places⟩
  · refine ⟨_, _, _, cutNumber_whole first rest fun digit tail point => fraction ⟨digit, tail, point⟩, ?_⟩
    exact .whole first _ whole

-- A token is no shorter than any lexeme the text starts with, and a comment would have been cut off as one.
theorem cut_longest (kind : Kind) (literal : Option Literal) (text behind : List Char)
    (cuts : cut first rest = (.token kind literal text, behind)) : Longest text behind := by
  have whole := cut_text first rest
  rw [cuts] at whole
  change text ++ behind = first :: rest at whole
  constructor
  · rintro other value lexeme ⟨left, starts⟩ isLexeme
    have covered := cut_covers other value lexeme left isLexeme first rest (starts.trans whole)
    rwa [cuts] at covered
  · rintro ⟨left, starts⟩
    obtain ⟨rfl, rfl⟩ := List.cons.inj (starts.trans whole)
    cases cuts

theorem cut_fits : (cut first rest).1.Fits (cut first rest).2 := by
  have longest := cut_longest first rest
  have token (kind : Kind) (literal : Option Literal) (text behind : List Char)
      (cut : cut first rest = (.token kind literal text, behind)) (lexeme : Lexeme kind literal text) :
      (Treewalk.cut first rest).1.Fits (Treewalk.cut first rest).2 := by
    rw [cut]
    exact .token kind literal text lexeme (longest kind literal text behind cut)
  cases cuts first with
  | single kind mark cuts => exact token _ _ _ _ (cuts rest) (.mark first kind mark)
  | paired alone joined mark cuts =>
      by_cases extended : rest.head? = some '='
      · obtain ⟨tail, rfl⟩ := List.head?_eq_some_iff.mp extended
        exact token _ _ _ _ (cuts _) (.joined first alone joined mark)
      · exact token _ _ _ _ ((cuts rest).trans (cutPaired_alone first rest alone joined extended))
          (.alone first alone joined mark)
  | slash _ cuts =>
      by_cases comment : rest.head? = some '/'
      · obtain ⟨tail, rfl⟩ := List.head?_eq_some_iff.mp comment
        have stops := List.head?_dropWhile_not (· != '\n') tail
        rw [cuts]
        refine .comment _ (by simpa using passed_taken tail (· != '\n')) ?_
        intro next found
        change next ∈ (tail.dropWhile (· != '\n')).head? at found
        simpa [Option.mem_def.mp found] using stops
      · exact token _ _ _ _ ((cuts rest).trans (cutSlash_alone rest comment)) .slash
  | blank isBlank cuts =>
      rw [cuts]
      exact .blank first isBlank
  | string _ cuts =>
      rcases cutString_fits rest with fits | ⟨literal, text, behind, cut, lexeme⟩
      · rw [cuts]
        exact fits
      · exact token _ _ _ _ ((cuts rest).trans cut) lexeme
  | number isDigit cuts =>
      obtain ⟨literal, text, behind, cut, lexeme⟩ := cutNumber_lexeme first rest isDigit
      exact token _ _ _ _ ((cuts rest).trans cut) lexeme
  | name starts cuts =>
      exact token _ _ _ _ (cuts rest) (.word first _ starts (passed_taken rest continuesName))
  | stray notBlank cuts =>
      rw [cuts]
      refine .stray first notBlank fun kind literal text lexeme => ?_
      obtain ⟨_, _, shape, cut⟩ := cutsOff_lexeme kind literal _ [] lexeme apart_nil
      rw [List.append_nil] at shape
      obtain ⟨rfl, rfl⟩ := List.cons.inj shape
      cases (cuts text).symm.trans cut

end cutting

theorem pieces_divide (text : List Char) : Divides text (pieces text) := by
  fun_induction pieces text with
  | case1 => exact .done
  | case2 first rest ih =>
      have next := Divides.next _ _ _ (cut_fits first rest) ih
      rwa [cut_text] at next

-- A piece that fits is the one that is cut off, so there is no other division.

theorem cutString_open (body : List Char) (unquoted : ∀ char ∈ body, char ≠ '"') :
    cutString body = (.unclosed ('"' :: body), []) := by
  obtain ⟨taken, dropped⟩ := search_stops (· != '"') body [] (by simpa using unquoted) (by simp)
  rw [List.append_nil] at taken dropped
  unfold cutString
  simp only [taken, dropped]

theorem cutsOff_token (kind : Kind) (literal : Option Literal) (text behind : List Char)
    (lexeme : Lexeme kind literal text) (longest : Longest text behind) :
    CutsOff (text ++ behind) (.token kind literal text) behind := by
  obtain ⟨first, tail, shape, alone⟩ := cutsOff_lexeme kind literal text [] lexeme apart_nil
  rw [List.append_nil] at shape
  subst shape
  refine ⟨first, tail ++ behind, rfl, ?_⟩
  have covered := cut_covers kind literal _ behind lexeme first (tail ++ behind) rfl
  have whole := cut_text first (tail ++ behind)
  have fits := cut_fits first (tail ++ behind)
  generalize cut first (tail ++ behind) = cutOff at covered whole fits ⊢
  obtain ⟨piece, left⟩ := cutOff
  -- What is cut off is no shorter than the lexeme, so a token is no other, and the first character rules out the rest.
  cases fits with
  | token other value text isLexeme _ =>
      have shorter := longest.lexemes other value text ⟨left, whole⟩ isLexeme
      obtain ⟨rfl, rfl⟩ := List.append_inj whole (Nat.le_antisymm shorter covered)
      obtain ⟨rfl, rfl⟩ := lexeme_unique other kind value literal _ isLexeme lexeme
      rfl
  | blank char isBlank =>
      obtain ⟨rfl, -⟩ := List.cons.inj whole
      cases (cut_blank char tail isBlank).symm.trans alone
  | comment body _ _ => exact absurd ⟨body ++ left, whole⟩ longest.comment
  | stray char _ starts =>
      obtain ⟨rfl, -⟩ := List.cons.inj whole
      exact absurd lexeme (starts kind literal tail)
  | unclosed body unquoted last =>
      subst last
      simp only [Piece.text, List.append_nil, List.cons.injEq] at whole
      obtain ⟨rfl, rfl⟩ := whole
      have within : ∀ char ∈ tail, char ≠ '"' := fun char inside => unquoted char (List.mem_append_left behind inside)
      cases (cutString_open tail within).symm.trans alone

theorem cutsOff_fits (piece : Piece) (behind : List Char) (fits : piece.Fits behind) :
    CutsOff (piece.text ++ behind) piece behind := by
  cases fits with
  | token kind literal text lexeme longest => exact cutsOff_token kind literal text behind lexeme longest
  | blank char isBlank => exact ⟨char, behind, rfl, cut_blank char behind isBlank⟩
  | comment body inLine ends =>
      obtain ⟨taken, dropped⟩ := search_stops (· != '\n') body behind (by simpa using inLine) (by simpa using ends)
      refine ⟨'/', '/' :: (body ++ behind), rfl, ?_⟩
      change cutSlash ('/' :: (body ++ behind)) = _
      rw [cutSlash, taken, dropped]
  | stray char notBlank starts =>
      refine ⟨char, behind, rfl, ?_⟩
      cases cuts char with
      | single kind mark _ => exact absurd (.mark char kind mark) (starts _ _ _)
      | paired alone joined mark _ => exact absurd (.alone char alone joined mark) (starts _ _ _)
      | slash isSlash _ =>
          subst isSlash
          exact absurd .slash (starts _ _ _)
      | blank isBlank _ => cases notBlank.symm.trans isBlank
      | string isQuote _ =>
          subst isQuote
          exact absurd (.string [] (by simp)) (starts _ _ _)
      | number isDigit _ => exact absurd (.whole char [] (by simpa using isDigit)) (starts _ _ _)
      | name begins _ => exact absurd (.word char [] begins (by simp)) (starts _ _ _)
      | stray _ cuts => exact cuts behind
  | unclosed body unquoted last =>
      subst last
      exact ⟨'"', body ++ [], rfl, by rw [List.append_nil]; exact cutString_open body unquoted⟩

theorem pieces_of_divides (text : List Char) (division : List Piece) (divides : Divides text division) :
    pieces text = division := by
  induction divides with
  | done => rw [pieces]
  | next piece behind rest fits _ ih => rw [pieces_of_cutsOff _ behind piece (cutsOff_fits piece behind fits), ih]

-- What the spelling of a token says about it.

theorem keyword_word (word : String) (kind : Kind) (found : keyword? word = some kind) :
    (kind ≠ .identifier ∧ kind ≠ .stringLiteral ∧ kind ≠ .endOfInput) ∧
      ∃ first letters, word.toList = first :: letters ∧ startsName first = true ∧
        letters.all continuesName = true := by
  unfold keyword? at found
  split at found <;> cases found <;> exact ⟨by decide, _, _, rfl, by decide, by decide⟩

theorem keyword_lexeme (word : String) (kind : Kind) (found : keyword? word = some kind) :
    Lexeme kind none word.toList := by
  obtain ⟨-, first, letters, spelled, starts, continues⟩ := keyword_word word kind found
  have lexeme := Lexeme.word first letters starts (List.all_eq_true.mp continues)
  rwa [← spelled, String.ofList_toList, found] at lexeme

theorem word_kind (word : String) :
    (keyword? word).getD .identifier ≠ .stringLiteral ∧ (keyword? word).getD .identifier ≠ .endOfInput := by
  cases found : keyword? word with
  | none => decide
  | some kind => exact (keyword_word word kind found).1.2

theorem singleMark_kind (char : Char) (kind : Kind) (single : singleMark? char = some kind) :
    kind ≠ .stringLiteral ∧ kind ≠ .endOfInput := by
  unfold singleMark? at single
  split at single <;> cases single <;> decide

theorem pairedMark_kind (char : Char) (alone joined : Kind) (paired : pairedMark? char = some (alone, joined)) :
    (alone ≠ .stringLiteral ∧ alone ≠ .endOfInput) ∧ joined ≠ .stringLiteral ∧ joined ≠ .endOfInput := by
  unfold pairedMark? at paired
  split at paired <;> cases paired <;> decide

-- Only what is in quotes is a string, and nothing is spelled as the end of the input.
theorem lexeme_kind (kind : Kind) (literal : Option Literal) (text : List Char) (lexeme : Lexeme kind literal text) :
    (kind = .stringLiteral →
      ∃ body, text = '"' :: body ++ ['"'] ∧ literal = some (.text (String.ofList body))) ∧ kind ≠ .endOfInput := by
  have plain (other : kind ≠ .stringLiteral ∧ kind ≠ .endOfInput) :
      (kind = .stringLiteral →
        ∃ body, text = '"' :: body ++ ['"'] ∧ literal = some (.text (String.ofList body))) ∧ kind ≠ .endOfInput :=
    ⟨fun isString => absurd isString other.1, other.2⟩
  cases lexeme with
  | string body _ => exact ⟨fun _ => ⟨body, rfl, rfl⟩, by decide⟩
  | mark char _ single => exact plain (singleMark_kind char kind single)
  | alone char _ joined paired => exact plain (pairedMark_kind char kind joined paired).1
  | joined char alone _ paired => exact plain (pairedMark_kind char alone kind paired).2
  | slash | whole | fraction => exact plain (by decide)
  | word first letters => exact plain (word_kind _)

-- The tokens of pieces without the end of the input.

def Scan.body (line : Int) : List Piece → List Token
  | [] => []
  | piece :: rest => (piece.token? line).toList ++ Scan.body (line + piece.newlines) rest

theorem body_piece (division : List Piece) (token : Token) : ∀ line : Int, token ∈ Scan.body line division →
    .token token.kind token.literal token.lexeme.toList ∈ division := by
  induction division with
  | nil => exact fun _ inside => absurd inside List.not_mem_nil
  | cons piece rest ih =>
      intro line inside
      rcases List.mem_append.mp inside with here | later
      · cases piece with
        | token kind literal text =>
            cases List.mem_singleton.mp here
            simp
        | gap | stray | unclosed => cases here
      · exact List.mem_cons_of_mem _ (ih _ later)

theorem divides_lexeme (text : List Char) (division : List Piece) (divides : Divides text division) (kind : Kind)
    (literal : Option Literal) (lexeme : List Char) (inside : .token kind literal lexeme ∈ division) :
    Lexeme kind literal lexeme := by
  induction divides with
  | done => cases inside
  | next piece behind rest fits _ ih =>
      rcases List.mem_cons.mp inside with rfl | inside
      · cases fits
        assumption
      · exact ih inside

theorem body_lexeme (text : List Char) (token : Token) (line : Int) (inside : token ∈ Scan.body line (pieces text)) :
    Lexeme token.kind token.literal token.lexeme.toList :=
  divides_lexeme text _ (pieces_divide text) _ _ _ (body_piece _ token line inside)

theorem body_free (text : List Char) (token : Token) (line : Int) (inside : token ∈ Scan.body line (pieces text)) :
    token.kind ≠ .endOfInput :=
  (lexeme_kind _ _ _ (body_lexeme text token line inside)).2

-- Each piece with the text before it.

structure Placed where
  before : List Char
  piece : Piece

def placed (before : List Char) : List Piece → List Placed
  | [] => []
  | piece :: rest => ⟨before, piece⟩ :: placed (before ++ piece.text) rest

-- The line on which a text ends, and the next one starts.
def lineAfter (text : List Char) : Int := 1 + text.count '\n'

def Placed.token? (placed : Placed) : Option Token := placed.piece.token? (lineAfter placed.before)

-- A string that is never closed is noticed where the text ends.
def Placed.mistake? (text : List Char) (placed : Placed) : Option ScanError :=
  match placed.piece with
  | .stray _ => some ⟨lineAfter placed.before, .unexpectedCharacter⟩
  | .unclosed _ => some ⟨lineAfter text, .unterminatedString⟩
  | _ => none

theorem lineAfter_piece (before : List Char) (piece : Piece) :
    lineAfter before + piece.newlines = lineAfter (before ++ piece.text) := by
  simp only [lineAfter, Piece.newlines, List.count_append]
  omega

theorem body_placed (division : List Piece) : ∀ before,
    Scan.body (lineAfter before) division = (placed before division).filterMap Placed.token? := by
  induction division with
  | nil => exact fun _ => rfl
  | cons piece rest ih =>
      intro before
      rw [Scan.body, lineAfter_piece, ih]
      cases piece <;> rfl

theorem ofPieces_placed (behind : List Char) (division : List Piece) (divides : Divides behind division) :
    ∀ before, Scan.ofPieces (lineAfter before) division =
      ⟨(placed before division).filterMap Placed.token? ++ [Token.endAt (lineAfter (before ++ behind))],
        (placed before division).filterMap (Placed.mistake? (before ++ behind))⟩ := by
  induction divides with
  | done =>
      intro before
      rw [List.append_nil]
      rfl
  | next piece behind rest fits _ ih =>
      intro before
      have token : (piece.token? (lineAfter before)).toList = (Placed.token? ⟨before, piece⟩).toList := rfl
      have mistake : (piece.error? (lineAfter before)).toList =
          (Placed.mistake? (before ++ (piece.text ++ behind)) ⟨before, piece⟩).toList := by
        cases fits with
        | unclosed body _ last =>
            -- The piece ends where the text does.
            subst last
            rw [List.append_nil, Piece.error?, lineAfter_piece]
            rfl
        | token | blank | comment | stray => rfl
      rw [Scan.ofPieces, lineAfter_piece, ih, token, mistake, ← List.append_assoc]
      simp only [placed, List.filterMap_cons, List.append_assoc]
      cases Placed.token? ⟨before, piece⟩ <;> cases Placed.mistake? _ ⟨before, piece⟩ <;> rfl

-- Nothing follows a string that is never closed, so it is the last mistake.
theorem mistakes_dropLast (behind text : List Char) (division : List Piece) (divides : Divides behind division) :
    ∀ before, ∀ error ∈ ((placed before division).filterMap (Placed.mistake? text)).dropLast,
      error.cause = .unexpectedCharacter := by
  induction divides with
  | done => simp [placed]
  | next piece behind rest fits others ih =>
      intro before error inside
      have later := ih (before ++ piece.text) error
      cases fits with
      | token | blank | comment => exact later inside
      | unclosed body _ last =>
          subst last
          have ended := pieces_of_divides [] rest others
          rw [pieces] at ended
          subst ended
          cases inside
      | stray char =>
          change error ∈ (_ :: (placed _ rest).filterMap (Placed.mistake? text)).dropLast at inside
          cases mistakes : (placed (before ++ [char]) rest).filterMap (Placed.mistake? text) with
          | nil =>
              rw [Piece.text, mistakes] at inside
              cases inside
          | cons next more =>
              rw [Piece.text, mistakes] at inside later
              rcases List.mem_cons.mp inside with rfl | inside
              · rfl
              · exact later inside

theorem scan_placed (source : String) (division : List Piece) (divides : Divides source.toList division) :
    (scan source).tokens =
      (placed [] division).filterMap Placed.token? ++ [Token.endAt (lineAfter source.toList)] ∧
    (scan source).errors = (placed [] division).filterMap (Placed.mistake? source.toList) := by
  have scanned := ofPieces_placed source.toList division divides []
  rw [← pieces_of_divides source.toList division divides] at scanned ⊢
  exact ⟨congrArg Scan.tokens scanned, congrArg Scan.errors scanned⟩

theorem scan_lexeme (source : String) (token : Token) (inside : token ∈ (scan source).tokens) :
    token = Token.endAt (lineAfter source.toList) ∨ Lexeme token.kind token.literal token.lexeme.toList := by
  rw [(scan_placed source _ (pieces_divide source.toList)).1, ← body_placed] at inside
  rcases List.mem_append.mp inside with inside | last
  · exact .inr (body_lexeme source.toList token _ inside)
  · exact .inl (List.mem_singleton.mp last)

-- A text is divided in one way. Scanning it gives the tokens in the division, each on the line where its piece starts,
-- with the end of the input behind them, and the mistakes in it.
theorem scan_divides_text (source : String) :
    ∃ division, Divides source.toList division ∧ (∀ other, Divides source.toList other → other = division) ∧
      (division.map Piece.text).flatten = source.toList ∧
      (scan source).tokens =
        (placed [] division).filterMap Placed.token? ++ [Token.endAt (lineAfter source.toList)] ∧
      (scan source).errors = (placed [] division).filterMap (Placed.mistake? source.toList) ∧
      (∀ error ∈ (scan source).errors.dropLast, error.cause = .unexpectedCharacter) ∧
      ∀ token ∈ (scan source).tokens,
        (token.kind = .stringLiteral →
          ∃ body, token.lexeme = "\"" ++ body ++ "\"" ∧ token.literal = some (.text body)) ∧
        ∀ kind, keyword? token.lexeme = some kind → token.kind = kind ∧ kind ≠ .identifier := by
  have divides := pieces_divide source.toList
  obtain ⟨tokens, errors⟩ := scan_placed source _ divides
  refine ⟨pieces source.toList, divides, fun other another => (pieces_of_divides _ other another).symm,
    pieces_text source.toList, tokens, errors, ?_, fun token inside => ⟨fun isString => ?_, fun kind found => ?_⟩⟩
  · rw [errors]
    exact mistakes_dropLast source.toList source.toList _ divides []
  · rcases scan_lexeme source token inside with rfl | lexeme
    · cases isString
    · obtain ⟨body, spelled, value⟩ := (lexeme_kind _ _ _ lexeme).1 isString
      refine ⟨String.ofList body, ?_, value⟩
      rw [← String.toList_inj, spelled]
      simp
  · obtain ⟨⟨notName, -⟩, -⟩ := keyword_word token.lexeme kind found
    rcases scan_lexeme source token inside with rfl | lexeme
    · cases found
    · obtain ⟨same, -⟩ := lexeme_unique _ _ _ _ _ lexeme (keyword_lexeme token.lexeme kind found)
      exact ⟨same, notName⟩

-- A stray character, a string on two lines, a comment and a string that is never closed.
def patchwork : String := "print @ \"a\nb\"; // \"\nprinted >== \"c\n"

theorem patchwork_divided :
    ∃ division, Divides patchwork.toList division ∧
      ((placed [] division).filterMap Placed.token?).map (fun token => (token.kind, token.lexeme, token.line)) =
        [(.kwPrint, "print", 1), (.stringLiteral, "\"a\nb\"", 1), (.semicolon, ";", 2), (.identifier, "printed", 3),
          (.greaterEqual, ">=", 3), (.equal, "=", 3)] ∧
      (placed [] division).filterMap (Placed.mistake? patchwork.toList) =
        [⟨1, .unexpectedCharacter⟩, ⟨4, .unterminatedString⟩] ∧
      ∀ token ∈ (scan patchwork).tokens,
        (token.lexeme = "print" → token.kind = .kwPrint) ∧
        (token.lexeme = "\"a\nb\"" → token.kind = .stringLiteral → token.literal = some (.text "a\nb")) := by
  obtain ⟨division, divides, -, -, tokens, errors, -, spelled⟩ := scan_divides_text patchwork
  have listed : (scan patchwork).tokens.map (fun token => (token.kind, token.lexeme, token.line)) =
      [(.kwPrint, "print", 1), (.stringLiteral, "\"a\nb\"", 1), (.semicolon, ";", 2), (.identifier, "printed", 3),
        (.greaterEqual, ">=", 3), (.equal, "=", 3)] ++ [(.endOfInput, "", 4)] := by decide +kernel
  have reported : (scan patchwork).errors = [⟨1, .unexpectedCharacter⟩, ⟨4, .unterminatedString⟩] := by decide +kernel
  rw [tokens, List.map_append] at listed
  refine ⟨division, divides, (List.append_inj' listed rfl).1, errors.symm.trans reported, fun token inside => ⟨?_, ?_⟩⟩
  · intro named
    exact ((spelled token inside).2 .kwPrint (by rw [named]; rfl)).1
  · intro named isString
    obtain ⟨body, quoted, value⟩ := (spelled token inside).1 isString
    rw [named, ← String.toList_inj] at quoted
    have quoted : "a\nb".toList ++ ['"'] = body.toList ++ ['"'] := by simpa using quoted
    rw [value, String.toList_inj.mp (List.append_inj' quoted rfl).1]

end Treewalk
