import Mathlib
import Treewalk.Text.Quoted

/-!
Texts that end themselves. A quoted text ends at its first quote that is not escaped, a word where the next character is
none of a word, and a list at the parenthesis that closes it. So whatever follows, such a text can be read back, and none
of them reaches over the end of a line.
-/

set_option autoImplicit false

namespace Treewalk

-- Two texts that go on with free characters as far as there are any.
theorem split_unique (free : Char → Bool) (left : List Char) : ∀ right before behind : List Char,
    (∀ char ∈ left, free char = true) → (∀ char ∈ right, free char = true) →
    (∀ char ∈ before.head?, free char = false) → (∀ char ∈ behind.head?, free char = false) →
    left ++ before = right ++ behind → left = right ∧ before = behind := by
  induction left with
  | nil =>
      intro right before behind _ ofRight stops _ same
      cases right with
      | nil => exact ⟨rfl, same⟩
      | cons first rest =>
          have stopped := stops first (by rw [List.nil_append] at same; rw [same]; rfl)
          rw [ofRight first List.mem_cons_self] at stopped
          cases stopped
  | cons first rest ih =>
      intro right before behind ofLeft ofRight stops stops' same
      cases right with
      | nil =>
          have stopped := stops' first (by rw [List.nil_append] at same; rw [← same]; rfl)
          rw [ofLeft first List.mem_cons_self] at stopped
          cases stopped
      | cons first' rest' =>
          obtain ⟨rfl, tails⟩ := List.cons.inj same
          obtain ⟨rfl, later⟩ := ih rest' before behind (List.forall_mem_cons.mp ofLeft).2
            (List.forall_mem_cons.mp ofRight).2 stops stops' tails
          exact ⟨rfl, later⟩

namespace Text

def hexDigits : List Char := ['0', '1', '2', '3', '4', '5', '6', '7', '8', '9', 'a', 'b', 'c', 'd', 'e', 'f']

def hexValue (digits : List Char) : Nat := digits.foldl (fun total digit => 16 * total + hexDigits.idxOf digit) 0

theorem digitChar_hex : ∀ value < 16, value.digitChar ∈ hexDigits ∧ hexDigits.idxOf value.digitChar = value := by
  decide

theorem toDigits_hex (value : Nat) :
    (∀ digit ∈ Nat.toDigits 16 value, digit ∈ hexDigits) ∧ hexValue (Nat.toDigits 16 value) = value := by
  induction value using Nat.strongRecOn with
  | ind value ih =>
      rw [Nat.toDigits_eq_if (by decide)]
      split
      · rename_i small
        obtain ⟨inside, found⟩ := digitChar_hex value small
        exact ⟨List.forall_mem_singleton.mpr inside, (Nat.zero_add _).trans found⟩
      · obtain ⟨inside, found⟩ := digitChar_hex (value % 16) (by omega)
        obtain ⟨others, front⟩ := ih (value / 16) (by omega)
        refine ⟨List.forall_mem_append.mpr ⟨others, List.forall_mem_singleton.mpr inside⟩, ?_⟩
        unfold hexValue at front ⊢
        rw [List.foldl_append, front, List.foldl_cons, found, List.foldl_nil]
        omega

-- How a character stands in a quoted text.
inductive Escape (char : Char) : List Char → Prop where
  | short (letter : Char) (found : shortEscape? char = some letter) : Escape char ['\\', letter]
  | number : Escape char ('\\' :: 'u' :: '\x7b' :: Nat.toDigits 16 char.toNat ++ ['\x7d'])
  | plain (unescaped : shortEscape? char = none) : Escape char [char]

theorem escape_escapes (char : Char) : Escape char (escape char) := by
  unfold escape
  split
  · exact .short _ ‹_›
  · split
    · exact .number
    · exact .plain ‹_›

theorem shortEscape_unique (left right letter : Char) (found : shortEscape? left = some letter)
    (found' : shortEscape? right = some letter) : left = right := by
  unfold shortEscape? at found found'
  split at found <;> cases found <;> split at found' <;> first | rfl | cases found'

theorem hex_free : ∀ digit ∈ hexDigits, digit ≠ '\x7d' ∧ digit ≠ '\n' := by
  simp [hexDigits]

theorem numberEscape_unique (left right : Char) (before behind : List Char)
    (same : Nat.toDigits 16 left.toNat ++ '\x7d' :: before = Nat.toDigits 16 right.toNat ++ '\x7d' :: behind) :
    left = right ∧ before = behind := by
  have free (char : Char) : ∀ digit ∈ Nat.toDigits 16 char.toNat, decide (digit ≠ '\x7d') = true := fun digit inside =>
    decide_eq_true (hex_free digit ((toDigits_hex char.toNat).1 digit inside)).1
  obtain ⟨digits, rest⟩ := split_unique (fun char => decide (char ≠ '\x7d')) _ _ _ _ (free left) (free right)
    (by simp) (by simp) same
  have codes : left.toNat = right.toNat := by
    rw [← (toDigits_hex left.toNat).2, ← (toDigits_hex right.toNat).2, digits]
  exact ⟨Char.toNat_inj.mp codes, (List.cons.inj rest).2⟩

theorem shortEscape_letter (char letter : Char) (found : shortEscape? char = some letter) : letter ≠ 'u' := by
  unfold shortEscape? at found
  split at found <;> cases found <;> decide

theorem escape_unique (left right : Char) (before behind : List Char)
    (same : escape left ++ before = escape right ++ behind) : left = right ∧ before = behind := by
  have ofLeft := escape_escapes left
  have ofRight := escape_escapes right
  generalize escape left = text at ofLeft same
  generalize escape right = text' at ofRight same
  have backslash (char : Char) (unescaped : shortEscape? char = none) : char ≠ '\\' := by
    rintro rfl
    cases unescaped
  cases ofLeft with
  | short letter found =>
      cases ofRight with
      | short letter' found' =>
          simp only [List.cons_append, List.nil_append, List.cons.injEq, true_and] at same
          exact ⟨shortEscape_unique left right letter found (same.1 ▸ found'), same.2⟩
      | number =>
          simp only [List.cons_append, List.cons.injEq, true_and] at same
          exact absurd same.1 (shortEscape_letter left letter found)
      | plain unescaped => exact absurd (List.cons.inj same).1.symm (backslash right unescaped)
  | number =>
      cases ofRight with
      | short letter found =>
          simp only [List.cons_append, List.cons.injEq, true_and] at same
          exact absurd same.1.symm (shortEscape_letter right letter found)
      | number =>
          simp only [List.cons_append, List.append_assoc, List.nil_append, List.cons.injEq, true_and] at same
          exact numberEscape_unique left right before behind same
      | plain unescaped => exact absurd (List.cons.inj same).1.symm (backslash right unescaped)
  | plain unescaped =>
      cases ofRight with
      | short | number => exact absurd (List.cons.inj same).1 (backslash left unescaped)
      | plain => exact List.cons.inj same

theorem escape_opens (char : Char) : ∃ first rest, escape char = first :: rest ∧ first ≠ '"' := by
  have escapes := escape_escapes char
  generalize escape char = text at escapes
  cases escapes with
  | short letter found => exact ⟨'\\', [letter], rfl, by decide⟩
  | number => exact ⟨'\\', _, rfl, by decide⟩
  | plain unescaped =>
      refine ⟨char, [], rfl, ?_⟩
      rintro rfl
      cases unescaped

theorem escape_line (char : Char) : '\n' ∉ escape char := by
  have escapes := escape_escapes char
  generalize escape char = text at escapes
  cases escapes with
  | short letter found =>
      unfold shortEscape? at found
      split at found <;> cases found <;> decide
  | number =>
      have digits : '\n' ∉ Nat.toDigits 16 char.toNat := fun inside =>
        (hex_free '\n' ((toDigits_hex char.toNat).1 '\n' inside)).2 rfl
      simp [digits]
  | plain unescaped =>
      intro inside
      cases List.mem_singleton.mp inside
      cases unescaped

theorem escaped_unique (left : List Char) : ∀ right before behind : List Char,
    left.flatMap escape ++ '"' :: before = right.flatMap escape ++ '"' :: behind → left = right ∧ before = behind := by
  induction left with
  | nil =>
      intro right before behind same
      cases right with
      | nil => exact ⟨rfl, (List.cons.inj same).2⟩
      | cons first rest =>
          obtain ⟨opening, tail, opens, other⟩ := escape_opens first
          rw [List.flatMap_cons, opens] at same
          exact absurd (List.cons.inj same).1.symm other
  | cons first rest ih =>
      intro right before behind same
      cases right with
      | nil =>
          obtain ⟨opening, tail, opens, other⟩ := escape_opens first
          rw [List.flatMap_cons, opens] at same
          exact absurd (List.cons.inj same).1 other
      | cons first' rest' =>
          rw [List.flatMap_cons, List.flatMap_cons, List.append_assoc, List.append_assoc] at same
          obtain ⟨rfl, tails⟩ := escape_unique first first' _ _ same
          obtain ⟨rfl, later⟩ := ih rest' before behind tails
          exact ⟨rfl, later⟩

theorem quoted_toList (text : String) : (quoted text).toList = '"' :: text.toList.flatMap escape ++ ['"'] :=
  String.toList_ofList

theorem quoted_unique (left right : String) (before behind : List Char)
    (same : (quoted left).toList ++ before = (quoted right).toList ++ behind) : left = right ∧ before = behind := by
  rw [quoted_toList, quoted_toList] at same
  simp only [List.cons_append, List.append_assoc, List.nil_append, List.cons.injEq, true_and] at same
  obtain ⟨chars, rest⟩ := escaped_unique left.toList right.toList before behind same
  exact ⟨String.toList_inj.mp chars, rest⟩

theorem quoted_line (text : String) : '\n' ∉ (quoted text).toList := by
  rw [quoted_toList]
  simp [escape_line]

end Text

-- Words, quoted texts, the heads of functions, and lists of forms behind a label.
inductive Form where
  | word (text : List Char)
  | quote (text : String)
  | signature (name : List Char) (params : List (List Char))
  | list (label : List Char) (items : List Form)

namespace Form

def free (char : Char) : Bool := char ≠ ' ' && char ≠ '(' && char ≠ ')' && char ≠ '"' && char ≠ '\n'

mutual
def text : Form → List Char
  | .word text => text
  | .quote text => (Text.quoted text).toList
  | .signature name params => name ++ '(' :: [' '].intercalate params ++ [')']
  | .list label items => '(' :: label ++ textAll items ++ [')']
-- Each form after a space.
def textAll : List Form → List Char
  | [] => []
  | first :: rest => ' ' :: first.text ++ textAll rest
end

structure Word (text : List Char) : Prop where
  some : text ≠ []
  free : ∀ char ∈ text, Form.free char = true

mutual
def Clear : Form → Prop
  | .word text => Word text
  | .quote _ => True
  | .signature name params => Word name ∧ ∀ param ∈ params, Word param
  | .list label items => (∀ char ∈ label, free char = true) ∧ ClearAll items
def ClearAll : List Form → Prop
  | [] => True
  | first :: rest => first.Clear ∧ ClearAll rest
end

-- What may follow a form: nothing, another form or the end of a list.
def Ends (rest : List Char) : Prop := ∀ char ∈ rest.head?, char = ' ' ∨ char = ')'

theorem ends_stops (rest : List Char) (ends : Ends rest) : ∀ char ∈ rest.head?, free char = false := by
  intro char first
  rcases ends char first with rfl | rfl <;> rfl

theorem ends_items (items : List Form) (rest : List Char) : Ends (textAll items ++ ')' :: rest) := by
  cases items with
  | nil => simp [Ends, textAll]
  | cons first others => simp [Ends, textAll]

-- The first character tells lists and quoted texts from words.

def opening : Form → Option Char
  | .word _ => none
  | .quote _ => some '"'
  | .signature _ _ => none
  | .list _ _ => some '('

def openingOf (text : List Char) : Option Char := text.head?.filter (fun char => char = '"' || char = '(')

theorem opening_word (text rest : List Char) (word : Word text) : openingOf (text ++ rest) = none := by
  obtain ⟨first, others, rfl⟩ := List.exists_cons_of_ne_nil word.some
  have firstFree := word.free first List.mem_cons_self
  rw [openingOf, List.cons_append, List.head?_cons, Option.filter_eq_none_iff]
  rintro char ⟨⟩ opens
  simp_all [free]

theorem opening_text (form : Form) (rest : List Char) (clear : form.Clear) : openingOf (form.text ++ rest) = form.opening := by
  cases form with
  | word text => exact opening_word text rest clear
  | quote text =>
      rw [Form.text, Text.quoted_toList]
      rfl
  | signature name params =>
      rw [text, List.append_assoc, List.append_assoc]
      exact opening_word name _ clear.1
  | list label items => rfl

theorem word_not_head (text name before behind : List Char) (word : Word text) (ofName : Word name) (ends : Ends before)
    (same : text ++ before = name ++ '(' :: behind) : False := by
  obtain ⟨-, rest⟩ := split_unique free text name before ('(' :: behind) word.free ofName.free (ends_stops before ends)
    (by simp [free]) same
  rcases ends '(' (by rw [rest]; rfl) with equal | equal <;> cases equal

theorem params_chars (params : List (List Char)) : ∀ char ∈ [' '].intercalate params,
    char = ' ' ∨ ∃ param ∈ params, char ∈ param := by
  induction params with
  | nil => simp
  | cons first rest ih =>
      intro char inside
      cases rest with
      | nil => exact .inr ⟨first, List.mem_singleton_self first, by simpa using inside⟩
      | cons second others =>
          rw [List.intercalate_cons_cons, List.mem_append, List.mem_append, List.mem_singleton] at inside
          rcases inside with (own | space) | later
          · exact .inr ⟨first, List.mem_cons_self, own⟩
          · exact .inl space
          · exact (ih char later).imp_right fun ⟨param, among, own⟩ => ⟨param, List.mem_cons_of_mem first among, own⟩

theorem params_empty (params : List (List Char)) (words : ∀ param ∈ params, Word param)
    (empty : [' '].intercalate params = []) : params = [] := by
  cases params with
  | nil => rfl
  | cons first rest =>
      have some := (words first List.mem_cons_self).some
      cases rest with
      | nil => exact absurd (by simpa using empty) some
      | cons second others =>
          rw [List.intercalate_cons_cons] at empty
          exact absurd (List.append_eq_nil_iff.mp (List.append_eq_nil_iff.mp empty).1).1 some

theorem params_unique (left right : List (List Char)) (before behind : List Char) (ofLeft : ∀ param ∈ left, Word param)
    (ofRight : ∀ param ∈ right, Word param)
    (same : [' '].intercalate left ++ ')' :: before = [' '].intercalate right ++ ')' :: behind) :
    left = right ∧ before = behind := by
  have unclosed (params : List (List Char)) (words : ∀ param ∈ params, Word param) :
      ∀ char ∈ [' '].intercalate params, decide (char ≠ ')') = true := by
    intro char inside
    rcases params_chars params char inside with rfl | ⟨param, among, own⟩
    · rfl
    · rw [decide_eq_true_eq]
      rintro rfl
      exact Bool.false_ne_true ((words param among).free ')' own)
  have apart (params : List (List Char)) (words : ∀ param ∈ params, Word param) : ∀ param ∈ params, ' ' ∉ param :=
    fun param among space => Bool.false_ne_true ((words param among).free ' ' space)
  obtain ⟨joined, rest⟩ := split_unique (fun char => decide (char ≠ ')')) _ _ _ _ (unclosed left ofLeft) (unclosed right ofRight)
    (by simp) (by simp) same
  refine ⟨?_, (List.cons.inj rest).2⟩
  by_cases none : left = []
  · rw [none] at joined ⊢
    exact (params_empty right ofRight joined.symm).symm
  · have some : right ≠ [] := by
      rintro rfl
      exact none (params_empty left ofLeft joined)
    rw [← List.splitOn_intercalate ' ' (apart left ofLeft) none, joined,
      List.splitOn_intercalate ' ' (apart right ofRight) some]

mutual
theorem text_unique : (left right : Form) → (before behind : List Char) → left.Clear → right.Clear → Ends before →
    Ends behind → left.text ++ before = right.text ++ behind → left = right ∧ before = behind
  | .word text, right, before, behind, clear, clear', ends, ends', same => by
      have openings := opening_text right behind clear'
      rw [← same, opening_text (.word text) before clear] at openings
      cases right with
      | quote | list => cases openings
      | word text' =>
          obtain ⟨rfl, later⟩ := split_unique free text text' before behind clear.free clear'.free
            (ends_stops before ends) (ends_stops behind ends') same
          exact ⟨rfl, later⟩
      | signature name params =>
          simp only [Form.text, List.append_assoc] at same
          exact (word_not_head text name before _ clear clear'.1 ends same).elim
  | .quote text, right, before, behind, clear, clear', _, _, same => by
      have openings := opening_text right behind clear'
      rw [← same, opening_text (.quote text) before clear] at openings
      cases right with
      | word | signature | list => cases openings
      | quote text' =>
          obtain ⟨rfl, later⟩ := Text.quoted_unique text text' before behind same
          exact ⟨rfl, later⟩
  | .signature name params, right, before, behind, clear, clear', ends, ends', same => by
      have openings := opening_text right behind clear'
      rw [← same, opening_text (.signature name params) before clear] at openings
      cases right with
      | quote | list => cases openings
      | word text' =>
          simp only [Form.text, List.append_assoc] at same
          exact (word_not_head text' name behind _ clear' clear.1 ends' same.symm).elim
      | signature name' params' =>
          simp only [Form.text, List.append_assoc, List.cons_append, List.nil_append] at same
          obtain ⟨rfl, tails⟩ := split_unique free name name' _ _ clear.1.free clear'.1.free (by simp [free])
            (by simp [free]) same
          obtain ⟨rfl, later⟩ := params_unique params params' before behind clear.2 clear'.2 (List.cons.inj tails).2
          exact ⟨rfl, later⟩
  | .list label items, right, before, behind, clear, clear', _, _, same => by
      have openings := opening_text right behind clear'
      rw [← same, opening_text (.list label items) before clear] at openings
      cases right with
      | word | quote | signature => cases openings
      | list label' items' =>
          simp only [Form.text, List.cons_append, List.append_assoc, List.nil_append, List.cons.injEq, true_and] at same
          obtain ⟨rfl, tails⟩ := split_unique free label label' _ _ clear.1 clear'.1
            (ends_stops _ (ends_items items before)) (ends_stops _ (ends_items items' behind)) same
          obtain ⟨rfl, later⟩ := textAll_unique items items' before behind clear.2 clear'.2 tails
          exact ⟨rfl, later⟩
theorem textAll_unique : (left right : List Form) → (before behind : List Char) → ClearAll left → ClearAll right →
    textAll left ++ ')' :: before = textAll right ++ ')' :: behind → left = right ∧ before = behind
  | [], right, before, behind, _, _, same => by
      cases right with
      | nil => exact ⟨rfl, (List.cons.inj same).2⟩
      | cons first rest => cases (List.cons.inj same).1
  | first :: rest, right, before, behind, clear, clear', same => by
      cases right with
      | nil => cases (List.cons.inj same).1
      | cons first' rest' =>
          simp only [textAll, List.cons_append, List.append_assoc, List.cons.injEq, true_and] at same
          obtain ⟨rfl, tails⟩ := text_unique first first' _ _ clear.1 clear'.1 (ends_items rest before)
            (ends_items rest' behind) same
          obtain ⟨rfl, later⟩ := textAll_unique rest rest' before behind clear.2 clear'.2 tails
          exact ⟨rfl, later⟩
end

theorem word_line (text : List Char) (free : ∀ char ∈ text, Form.free char = true) : '\n' ∉ text :=
  fun inside => Bool.false_ne_true (free '\n' inside)

mutual
theorem text_line : (form : Form) → form.Clear → '\n' ∉ form.text
  | .word text, clear => word_line text clear.free
  | .quote text, _ => Text.quoted_line text
  | .signature name params, clear => by
      have ofName := word_line name clear.1.free
      have ofParams : '\n' ∉ [' '].intercalate params := by
        intro inside
        rcases params_chars params '\n' inside with space | ⟨param, among, own⟩
        · cases space
        · exact word_line param (clear.2 param among).free own
      simp [text, ofName, ofParams]
  | .list label items, clear => by
      have ofLabel := word_line label clear.1
      have ofItems := textAll_line items clear.2
      simp [text, ofLabel, ofItems]
theorem textAll_line : (items : List Form) → ClearAll items → '\n' ∉ textAll items
  | [], _ => List.not_mem_nil
  | first :: rest, clear => by
      have ofFirst := text_line first clear.1
      have ofRest := textAll_line rest clear.2
      simp [textAll, ofFirst, ofRest]
end

end Form

end Treewalk
