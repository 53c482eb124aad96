import Mathlib.Data.Bool.AllAny
import Mathlib.Data.List.Infix

/-!
# Reading a simple command

How a shell reads one line, as POSIX describes it: characters are collected into words, quotes and
backslashes take away the meaning of what they quote and are removed, and `>` redirects an output
to the file named by the next word. `readCommand` gives the words and the redirections of a line
that is one simple command with literal words. It gives nothing for a line that is no command, and
nothing where more than this line says what is done: for expansions and patterns, for several
commands, and for the other redirections. The first word is taken to be no reserved word, no alias
and no assignment.
-/

namespace Vts.Lib.Shell

open Option hiding or_self

open List

/-- Where the reader is. -/
inductive Mode where
  /-- Between words. -/
  | blank
  /-- Right behind `>`. -/
  | operator
  /-- In a word, outside of quotes. -/
  | word
  /-- Behind a backslash outside of quotes. -/
  | escaped (inWord : Bool)
  | single
  | double
  /-- Behind a backslash in double quotes. -/
  | doubleEscaped
  | comment
deriving DecidableEq

/-- What is read so far: the word that is being read and whether something of it is quoted, the
file descriptor that waits for the name of its file, and all words and redirections before. -/
structure Reader where
  mode : Mode
  word : List Char
  quoted : Bool
  target : Option Nat
  words : List (List Char)
  redirections : List (Nat × List Char)
deriving DecidableEq

/-- A simple command with literal words. -/
structure SimpleCommand where
  words : List (List Char)
  redirections : List (Nat × List Char)
deriving DecidableEq

def singleQuote : Char := Char.ofNat 39

def doubleQuote : Char := Char.ofNat 34

def backquote : Char := Char.ofNat 96

def backslash : Char := Char.ofNat 92

def newline : Char := Char.ofNat 10

def tab : Char := Char.ofNat 9

/-- It ends a line before the shell gets it. -/
def nul : Char := Char.ofNat 0

/-- Characters outside of quotes for which this reader gives nothing. -/
def unread : List Char := ['$', backquote, '*', '?', '[', ';', '&', '|', '(', ')', '<', newline, nul]

/-- All characters with a meaning outside of quotes, also those with one at the start of a word. -/
def special : List Char :=
  [singleQuote, doubleQuote, backslash, ' ', tab, '>', '#', '~'] ++ unread

namespace Reader

/-- A word ends. -/
def delimit (self : Reader) : Reader :=
  match self.mode with
  | .word =>
    match self.target with
    | none => ⟨.blank, [], false, none, self.words ++ [self.word], self.redirections⟩
    | some descriptor =>
      ⟨.blank, [], false, none, self.words, self.redirections ++ [(descriptor, self.word)]⟩
  | _ => { self with mode := .blank }

/-- The number that digits stand for. -/
def number (digits : List Char) : Nat :=
  digits.foldl (fun value digit => 10 * value + (digit.toNat - 48)) 0

/-- The operator `>`: a word of digits right before it is the file descriptor. -/
def redirect (self : Reader) : Option Reader :=
  if self.mode = .word ∧ self.quoted = false ∧ self.word.all Char.isDigit ∧ self.target = none then
    some { self with mode := .operator, word := [], target := some (number self.word) }
  else if self.delimit.target = none then
    some { self.delimit with mode := .operator, target := some 1 }
  else none

/-- A character outside of quotes. -/
def outside (self : Reader) (char : Char) : Option Reader :=
  if char = singleQuote then some { self with mode := .single, quoted := true }
  else if char = doubleQuote then some { self with mode := .double, quoted := true }
  else if char = backslash then some { self with mode := .escaped (self.mode = .word) }
  else if char = ' ' ∨ char = tab then some self.delimit
  else if char = '>' then self.redirect
  else if char ∈ unread then none
  else if self.mode ≠ .word ∧ char = '#' then some { self with mode := .comment }
  else if self.mode ≠ .word ∧ char = '~' then none
  else some { self with mode := .word, word := self.word ++ [char] }

/-- One character. -/
def step (self : Reader) (char : Char) : Option Reader :=
  match self.mode with
  | .blank | .word => self.outside char
  | .operator => if char = '>' ∨ char = '&' ∨ char = '|' then none else self.outside char
  | .escaped inWord =>
    if char = newline then some { self with mode := if inWord then .word else .blank }
    else some { self with mode := .word, word := self.word ++ [char], quoted := true }
  | .single =>
    if char = singleQuote then some { self with mode := .word }
    else some { self with word := self.word ++ [char] }
  | .double =>
    if char = doubleQuote then some { self with mode := .word }
    else if char = backslash then some { self with mode := .doubleEscaped }
    else if char = '$' ∨ char = backquote then none
    else some { self with word := self.word ++ [char] }
  | .doubleEscaped =>
    if char = newline then some { self with mode := .double }
    else if char ∈ ['$', backquote, doubleQuote, backslash] then
      some { self with mode := .double, word := self.word ++ [char] }
    else some { self with mode := .double, word := self.word ++ [backslash, char] }
  | .comment => if char = newline then none else some self

/-- The end of the line. -/
def finish (self : Reader) : Option SimpleCommand :=
  match self.mode with
  | .escaped _ | .single | .double | .doubleEscaped => none
  | _ =>
    if self.delimit.target = none then some ⟨self.delimit.words, self.delimit.redirections⟩ else none

def start : Reader := ⟨.blank, [], false, none, [], []⟩

end Reader

/-- The simple command that a line is. -/
def readCommand (line : List Char) : Option SimpleCommand :=
  (line.foldlM Reader.step Reader.start).bind Reader.finish

example : readCommand "a  b\\ c >d 2>e 3 #f".toList =
    some ⟨["a".toList, "b c".toList, "3".toList], [(1, "d".toList), (2, "e".toList)]⟩ := by decide

/-! ## Parts of a line -/

namespace Reader

/-- Between words, with nothing redirected so far. -/
def behind (words : List (List Char)) : Reader := ⟨.blank, [], false, none, words, []⟩

section Fields

variable (word : List Char) (quoted : Bool) (target : Option Nat) (words : List (List Char))
  (redirections : List (Nat × List Char))

/-- A text whose characters are all added to the word. -/
theorem foldlM_adds {mode : Mode} {text : List Char} (adds : ∀ char ∈ text, ∀ word,
      step ⟨mode, word, quoted, target, words, redirections⟩ char =
        some ⟨mode, word ++ [char], quoted, target, words, redirections⟩) :
    text.foldlM step ⟨mode, word, quoted, target, words, redirections⟩ =
      some ⟨mode, word ++ text, quoted, target, words, redirections⟩ := by
  induction text generalizing word with
  | nil => rw [append_nil]; rfl
  | cons char text ih =>
    obtain ⟨here, later⟩ := forall_mem_cons.mp adds
    rw [foldlM_cons, here, bind_eq_bind, bind_some, ih _ later, append_assoc, singleton_append]

/-- In single quotes all other characters stand for themselves. -/
theorem foldlM_single {text : List Char} (clean : singleQuote ∉ text) :
    text.foldlM step ⟨.single, word, quoted, target, words, redirections⟩ =
      some ⟨.single, word ++ text, quoted, target, words, redirections⟩ := by
  refine foldlM_adds word quoted target words redirections fun char listed _ => ?_
  refine if_neg ?_
  rintro rfl
  exact clean listed

/-- So they do in double quotes, but for four of them. -/
theorem foldlM_double {text : List Char}
    (clean : ∀ char ∈ text, char ∉ ['$', backquote, doubleQuote, backslash]) :
    text.foldlM step ⟨.double, word, quoted, target, words, redirections⟩ =
      some ⟨.double, word ++ text, quoted, target, words, redirections⟩ := by
  refine foldlM_adds word quoted target words redirections fun char listed _ => ?_
  have here := clean char listed
  simp only [mem_cons, not_mem_nil, or_false, not_or] at here
  simp only [step, here, or_self, if_false]

/-- A character without a meaning is part of a word. -/
theorem outside_plain (mode : Mode) {char : Char} (plain : char ∉ special) :
    outside ⟨mode, word, quoted, target, words, redirections⟩ char =
      some ⟨.word, word ++ [char], quoted, target, words, redirections⟩ := by
  simp only [special, mem_append, mem_cons, not_mem_nil, or_false, not_or] at plain
  obtain ⟨⟨single, double, slash, space, tabulator, greater, hash, tilde⟩, others⟩ := plain
  rw [outside, if_neg single, if_neg double, if_neg slash, if_neg (not_or.mpr ⟨space, tabulator⟩),
    if_neg greater, if_neg others, if_neg (fun both => hash both.2),
    if_neg (fun both => tilde both.2)]

theorem foldlM_plain {text : List Char} (plain : ∀ char ∈ text, char ∉ special) :
    text.foldlM step ⟨.word, word, quoted, target, words, redirections⟩ =
      some ⟨.word, word ++ text, quoted, target, words, redirections⟩ :=
  foldlM_adds word quoted target words redirections fun char listed word =>
    outside_plain word quoted target words redirections .word (plain char listed)

/-- A name behind `>`. -/
theorem foldlM_name {name : List Char} (some_char : name ≠ [])
    (plain : ∀ char ∈ name, char ∉ special) :
    name.foldlM step ⟨.operator, [], quoted, target, words, redirections⟩ =
      some ⟨.word, name, quoted, target, words, redirections⟩ := by
  obtain ⟨first, rest, rfl⟩ := exists_cons_of_ne_nil some_char
  obtain ⟨here, later⟩ := forall_mem_cons.mp plain
  have noOperator : ¬ (first = '>' ∨ first = '&' ∨ first = '|') := by
    rintro (rfl | rfl | rfl) <;> exact here (by decide)
  have round : step ⟨.operator, [], quoted, target, words, redirections⟩ first =
      some ⟨.word, [first], quoted, target, words, redirections⟩ :=
    (if_neg noOperator).trans (outside_plain [] quoted target words redirections .operator here)
  rw [foldlM_cons, round, bind_eq_bind, bind_some, foldlM_plain _ _ _ _ _ later,
    singleton_append]

end Fields

end Reader

/-- The names of files whose characters have no meaning. -/
structure PlainName where
  text : List Char
  some_char : text ≠ []
  plain : ∀ char ∈ text, char ∉ special

/-- The end of a line that redirects both outputs. -/
def redirections (out err : PlainName) : List Char :=
  [' ', '>'] ++ out.text ++ [' ', '2', '>'] ++ err.text

/-- Behind a quoted word both outputs are redirected. -/
theorem foldlM_redirections (words : List (List Char)) (word : List Char) (out err : PlainName) :
    (redirections out err).foldlM Reader.step ⟨.word, word, true, none, words, []⟩ =
      some ⟨.word, err.text, false, some 2, words ++ [word], [(1, out.text)]⟩ := by
  have first : [' ', '>'].foldlM Reader.step ⟨.word, word, true, none, words, []⟩ =
      some ⟨.operator, [], false, some 1, words ++ [word], []⟩ := rfl
  have second : [' ', '2', '>'].foldlM Reader.step
      ⟨.word, out.text, false, some 1, words ++ [word], []⟩ =
        some ⟨.operator, [], false, some 2, words ++ [word], [(1, out.text)]⟩ := rfl
  rw [redirections, foldlM_append, foldlM_append, foldlM_append, first,
    bind_eq_bind, bind_some, Reader.foldlM_name _ _ _ _ out.some_char out.plain,
    bind_some, second, bind_some,
    Reader.foldlM_name _ _ _ _ err.some_char err.plain]

/-! ## Words get no longer than what they are read from -/

namespace Reader

/-- In the word behind some others, which has a quoted part, with at most so many characters; what
stands behind a backslash is still to come. -/
structure Inside (words : List (List Char)) (bound : Nat) (reader : Reader) : Prop where
  words_eq : reader.words = words
  target_eq : reader.target = none
  quoted_eq : reader.quoted = true
  short : match reader.mode with
    | .word | .single | .double => reader.word.length ≤ bound
    | .escaped inWord => inWord = true ∧ reader.word.length < bound
    | .doubleEscaped => reader.word.length < bound
    | _ => False

/-- That word is read. -/
def Behind (words : List (List Char)) (bound : Nat) (self : Reader) : Prop :=
  ∃ word rest, self.words = words ++ word :: rest ∧ word.length ≤ bound

theorem words_delimit (self : Reader) : self.words <+: self.delimit.words := by
  rw [delimit]
  split
  · split
    · exact prefix_append _ _
    · exact prefix_refl _
  · exact prefix_refl _

section

variable {self next : Reader} {char : Char}

theorem words_redirect (done : self.redirect = some next) : self.words <+: next.words := by
  rw [redirect] at done
  split_ifs at done
  · cases done
    exact prefix_refl _
  · cases done
    exact self.words_delimit

theorem words_outside (done : self.outside char = some next) : self.words <+: next.words := by
  rw [outside] at done
  split_ifs at done
  all_goals first
    | exact words_redirect done
    | (cases done; first | exact prefix_refl _ | exact self.words_delimit)

/-- Words that are read stay. -/
theorem words_step (done : self.step char = some next) : self.words <+: next.words := by
  rw [step] at done
  split at done
  · exact words_outside done
  · exact words_outside done
  · split_ifs at done
    exact words_outside done
  all_goals split_ifs at done <;> (cases done; exact prefix_refl _)

theorem Behind.foldlM {words : List (List Char)} {bound : Nat} {final : Reader} {text : List Char}
    (there : Behind words bound self) (done : text.foldlM step self = some final) :
    Behind words bound final := by
  induction text generalizing self with
  | nil =>
    cases done
    exact there
  | cons char text ih =>
    rw [foldlM_cons] at done
    obtain ⟨next, round, onward⟩ := bind_eq_some_iff.mp done
    obtain ⟨word, rest, wordsEq, short⟩ := there
    obtain ⟨more, longer⟩ := words_step round
    have still : Behind words bound next :=
      ⟨word, rest ++ more, by rw [← longer, wordsEq, append_assoc, cons_append], short⟩
    exact ih still onward

end

/-- A word with a quoted part is no number of a file descriptor: `>` ends it. -/
theorem Inside.redirect {words : List (List Char)} {bound : Nat} {self next : Reader}
    (inside : Inside words bound self) (there : self.mode = .word)
    (done : self.redirect = some next) : Behind words bound next := by
  have noNumber : ¬ (self.mode = .word ∧ self.quoted = false ∧ self.word.all Char.isDigit ∧
      self.target = none) := by
    rintro ⟨-, unquoted, -⟩
    rw [inside.quoted_eq] at unquoted
    cases unquoted
  have short := inside.short
  rw [there] at short
  rw [Reader.redirect, if_neg noNumber] at done
  split_ifs at done
  cases done
  refine ⟨self.word, [], ?_, short⟩
  rw [delimit, there, inside.target_eq, inside.words_eq]

/-- A character makes the word longer by at most itself, or ends it. -/
theorem Inside.step {words : List (List Char)} {bound : Nat} {self next : Reader} {char : Char}
    (inside : Inside words bound self) (done : self.step char = some next) :
    Inside words (bound + 1) next ∨ Behind words bound next := by
  have whole := inside
  obtain ⟨mode, word, quoted, target, present, redirections⟩ := self
  obtain ⟨rfl, rfl, rfl, short⟩ := inside
  have longer : (word ++ [char]).length = word.length + 1 := by simp
  cases mode with
  | blank | operator | comment => exact absurd short id
  | word =>
    dsimp only at short
    simp only [Reader.step, outside, ne_eq, not_true_eq_false, false_and, if_false, decide_true] at done
    split_ifs at done
    · cases done
      exact .inl ⟨rfl, rfl, rfl, Nat.le_succ_of_le short⟩
    · cases done
      exact .inl ⟨rfl, rfl, rfl, Nat.le_succ_of_le short⟩
    · cases done
      exact .inl ⟨rfl, rfl, rfl, rfl, Nat.lt_succ_of_le short⟩
    · cases done
      exact .inr ⟨word, [], rfl, short⟩
    · exact .inr (whole.redirect rfl done)
    · cases done
      exact .inl ⟨rfl, rfl, rfl, by dsimp only; omega⟩
  | escaped inWord =>
    obtain ⟨rfl, shorter⟩ := short
    dsimp only at shorter
    simp only [Reader.step] at done
    split_ifs at done <;> (cases done; exact .inl ⟨rfl, rfl, rfl, by dsimp only; omega⟩)
  | single | double | doubleEscaped =>
    have both : (word ++ [backslash, char]).length = word.length + 2 := by simp
    dsimp only at short
    simp only [Reader.step] at done
    split_ifs at done <;> (cases done; exact .inl ⟨rfl, rfl, rfl, by dsimp only; omega⟩)

theorem Inside.foldlM {words : List (List Char)} {bound : Nat} {self final : Reader}
    {text : List Char} (inside : Inside words bound self)
    (done : text.foldlM Reader.step self = some final) :
    Inside words (bound + text.length) final ∨ Behind words (bound + text.length) final := by
  induction text generalizing self bound with
  | nil =>
    cases done
    exact .inl inside
  | cons char text ih =>
    rw [foldlM_cons] at done
    obtain ⟨next, round, onward⟩ := bind_eq_some_iff.mp done
    rw [length_cons, Nat.add_comm text.length 1, ← Nat.add_assoc]
    rcases inside.step round with still | ⟨word, rest, wordsEq, short⟩
    · exact ih still onward
    · have read : Behind words (bound + 1 + text.length) next := ⟨word, rest, wordsEq, by omega⟩
      exact .inr (read.foldlM onward)

/-- What is read stays in the command. -/
theorem Behind.finish {words : List (List Char)} {bound : Nat} {self : Reader}
    {command : SimpleCommand} (read : Behind words bound self)
    (done : self.finish = some command) :
    ∃ word rest, command.words = words ++ word :: rest ∧ word.length ≤ bound := by
  have kept : self.delimit.words = command.words := by
    rw [Reader.finish] at done
    split at done
    · cases done
    · cases done
    · cases done
    · cases done
    · split_ifs at done
      cases done
      rfl
  obtain ⟨word, rest, wordsEq, short⟩ := read
  obtain ⟨more, longer⟩ := self.words_delimit
  refine ⟨word, rest ++ more, ?_, short⟩
  rw [← kept, ← longer, wordsEq, append_assoc, cons_append]

end Reader

/-! ## A quoted word -/

section

variable {text : List Char} (words : List (List Char)) (out err : PlainName)

theorem singleQuote_not_mem_redirections : singleQuote ∉ redirections out err := by
  have plain (name : PlainName) : singleQuote ∉ name.text := fun listed =>
    name.plain singleQuote listed (by decide)
  simp only [redirections, mem_append, not_or]
  exact ⟨⟨⟨by decide, plain out⟩, by decide⟩, plain err⟩

theorem redirections_plain :
    ∀ char ∈ redirections out err, char ∉ ['$', backquote, doubleQuote, backslash] := by
  have plain (name : PlainName) :
      ∀ char ∈ name.text, char ∉ ['$', backquote, doubleQuote, backslash] := by
    intro char listed meaning
    apply name.plain char listed
    simp only [mem_cons, not_mem_nil, or_false] at meaning
    rcases meaning with rfl | rfl | rfl | rfl <;> decide
  have front : ∀ char ∈ [' ', '>'], char ∉ ['$', backquote, doubleQuote, backslash] :=
    all_iff_forall_prop.mp (by decide)
  have middle : ∀ char ∈ [' ', '2', '>'], char ∉ ['$', backquote, doubleQuote, backslash] :=
    all_iff_forall_prop.mp (by decide)
  simp only [redirections, mem_append]
  rintro char (((listed | listed) | listed) | listed)
  · exact front char listed
  · exact plain out char listed
  · exact middle char listed
  · exact plain err char listed

theorem foldlM_quoted (clean : singleQuote ∉ text) (rest : List Char) :
    (singleQuote :: (text ++ singleQuote :: rest)).foldlM Reader.step (Reader.behind words) =
      rest.foldlM Reader.step ⟨.word, text, true, none, words, []⟩ := by
  have opened : (Reader.behind words).step singleQuote =
      some ⟨.single, [], true, none, words, []⟩ := rfl
  have closed : Reader.step ⟨.single, text, true, none, words, []⟩ singleQuote =
      some ⟨.word, text, true, none, words, []⟩ := rfl
  rw [foldlM_cons, opened, bind_eq_bind, bind_some, foldlM_append,
    Reader.foldlM_single _ _ _ _ _ clean, bind_eq_bind, bind_some, nil_append, foldlM_cons, closed,
    bind_eq_bind, bind_some]

theorem readQuoted (clean : singleQuote ∉ text) (out err : PlainName) :
    ((singleQuote :: (text ++ singleQuote :: redirections out err)).foldlM Reader.step
      (Reader.behind words)).bind Reader.finish =
        some ⟨words ++ [text], [(1, out.text), (2, err.text)]⟩ := by
  rw [foldlM_quoted words clean, foldlM_redirections]
  rfl

/-- Where the text has a single quote itself, the word that is read is shorter, or the line has no
end of its last quotes. -/
theorem readQuoted_ne (quoted : singleQuote ∈ text) (out err : PlainName) {command : SimpleCommand}
    (read : ((singleQuote :: (text ++ singleQuote :: redirections out err)).foldlM Reader.step
      (Reader.behind words)).bind Reader.finish = some command) :
    ∃ word rest, command.words = words ++ word :: rest ∧ word.length < text.length := by
  obtain ⟨front, back, rfl, clean⟩ := eq_append_cons_of_mem quoted
  rw [append_assoc, cons_append, foldlM_quoted words clean, foldlM_append] at read
  have inside : Reader.Inside words front.length ⟨.word, front, true, none, words, []⟩ :=
    ⟨rfl, rfl, rfl, le_rfl⟩
  have total : front.length + back.length < (front ++ singleQuote :: back).length := by
    rw [length_append, length_cons]
    omega
  have shorter {final : Reader} (behind : Reader.Behind words (front.length + back.length) final)
      (finished : final.finish = some command) : ∃ word rest,
        command.words = words ++ word :: rest ∧
          word.length < (front ++ singleQuote :: back).length := by
    obtain ⟨word, rest, wordsEq, short⟩ := behind.finish finished
    exact ⟨word, rest, wordsEq, lt_of_le_of_lt short total⟩
  cases middle : back.foldlM Reader.step ⟨.word, front, true, none, words, []⟩ with
  | none =>
    rw [middle] at read
    cases read
  | some reader =>
    rw [middle, bind_eq_bind, bind_some] at read
    obtain ⟨final, ends, finished⟩ := bind_eq_some_iff.mp read
    rcases inside.foldlM middle with still | behind
    swap
    · exact shorter (behind.foldlM ends) finished
    obtain ⟨mode, word, quoted, target, present, redirects⟩ := reader
    obtain ⟨rfl, rfl, rfl, short⟩ := still
    -- The quote at the end of the text closes the word, or it is inside of other quotes and opens
    -- what the line does not close.
    have spaced (kept : List Char) (short : kept.length ≤ front.length + back.length)
        (ends : (redirections out err).foldlM Reader.step
          ⟨.word, kept, true, none, present, redirects⟩ = some final) :
        Reader.Behind present (front.length + back.length) final := by
      have starts : redirections out err =
          ' ' :: (['>'] ++ out.text ++ [' ', '2', '>'] ++ err.text) := rfl
      have round : Reader.step ⟨.word, kept, true, none, present, redirects⟩ ' ' =
          some ⟨.blank, [], false, none, present ++ [kept], redirects⟩ := rfl
      rw [starts, foldlM_cons, round, bind_eq_bind, bind_some] at ends
      exact Reader.Behind.foldlM ⟨kept, [], rfl, short⟩ ends
    cases mode with
    | blank | operator | comment => exact absurd short id
    | word =>
      cases (Reader.foldlM_single word true none present redirects
        (singleQuote_not_mem_redirections out err)).symm.trans ends
      cases finished
    | single => exact shorter (spaced word short ends) finished
    | double =>
      cases (Reader.foldlM_double (word ++ [singleQuote]) true none present redirects
        (redirections_plain out err)).symm.trans ends
      cases finished
    | escaped inWord =>
      have short : (word ++ [singleQuote]).length ≤ front.length + back.length := by
        rw [length_append, length_singleton]
        exact short.2
      exact shorter (spaced _ short ends) finished
    | doubleEscaped =>
      cases (Reader.foldlM_double (word ++ [backslash, singleQuote]) true none present redirects
        (redirections_plain out err)).symm.trans ends
      cases finished

/-- A text between single quotes is read as it is exactly if it has no single quote. -/
theorem readQuoted_iff (text : List Char) (out err : PlainName) :
    ((singleQuote :: (text ++ singleQuote :: redirections out err)).foldlM Reader.step
      (Reader.behind words)).bind Reader.finish =
        some ⟨words ++ [text], [(1, out.text), (2, err.text)]⟩ ↔ singleQuote ∉ text := by
  constructor
  · intro read quoted
    obtain ⟨word, rest, same, shorter⟩ := readQuoted_ne words quoted out err read
    have tails : [text] = word :: rest := append_cancel_left same
    cases tails
    exact Nat.lt_irrefl _ shorter
  · exact fun clean => readQuoted words clean out err

end

end Vts.Lib.Shell
