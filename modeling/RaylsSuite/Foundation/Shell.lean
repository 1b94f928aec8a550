import Mathlib.Algebra.BigOperators.Group.List.Basic
import Mathlib.Algebra.Ring.Nat
import Mathlib.Data.List.Basic

/-! # Words of a shell command

A POSIX shell recognises the words of a command at the blanks between them.
Quotes and backslashes take the meaning off the characters that they quote and
are removed; an operator ends the words, or takes the next one as the file of a
redirection. Every word is then expanded, which depends on the variables and
the files that the shell finds.
-/

namespace RaylsSuite.Foundation.Posix

/-- What protects a character: nothing, double quotes, or single quotes or a backslash. -/
inductive Quoting where
  | unquoted
  | double
  | literal
deriving DecidableEq, Repr

abbrev ShellWord : Type := List (Char × Quoting)

namespace ShellWord

def text (word : ShellWord) : String := String.ofList (word.map Prod.fst)

/-- A character that the shell expands. -/
def expands : Char × Quoting → Bool
  | (char, .unquoted) => ['$', '`', '*', '?', '[', '~'].contains char
  | (char, .double) => ['$', '`'].contains char
  | (_, .literal) => false

/-- No character of the word is expanded. -/
def Inert (word : ShellWord) : Prop := ∀ entry ∈ word, expands entry = false

def unquoted (text : String) : ShellWord := text.toList.map fun char => (char, .unquoted)

@[simp] theorem text_unquoted (text : String) : (unquoted text).text = text := by
  simp [ShellWord.text, unquoted, Function.comp_def]

end ShellWord

/-! ## Token recognition -/

/-- What an unquoted character does to the words of a line. -/
inductive CharKind where
  | singleQuote
  | doubleQuote
  | backslash
  | blank
  | newline
  | control
  | parenthesis
  | angle
  | hash
  | ordinary
deriving DecidableEq, Repr

def charKind (char : Char) : CharKind :=
  if char = '\'' then .singleQuote
  else if char = '"' then .doubleQuote
  else if char = '\\' then .backslash
  else if [' ', '\t'].contains char then .blank
  else if char = '\n' then .newline
  else if [';', '&', '|'].contains char then .control
  else if ['(', ')'].contains char then .parenthesis
  else if ['<', '>'].contains char then .angle
  else if char = '#' then .hash
  else .ordinary

/-- Where the lexer stands; `redirected` is the rest of a redirection operator. -/
inductive LexMode where
  | word (redirected : Bool)
  | escaped
  | single
  | double
  | doubleEscaped
deriving DecidableEq, Repr

inductive ShellToken where
  | word (word : ShellWord)
  | redirect
  | control
deriving DecidableEq, Repr

def emit : Option ShellWord → List ShellToken
  | none => []
  | some word => [.word word]

/-- The digits right before a redirection operator name a file descriptor. -/
def isIoNumber : Option ShellWord → Bool
  | none => false
  | some word => word.all fun entry => entry.1.isDigit && entry.2 = .unquoted

def push (current : Option ShellWord) (char : Char) (quoting : Quoting) : Option ShellWord :=
  some (current.getD [] ++ [(char, quoting)])

/-- The tokens from a character on; none is a syntax error. -/
def lex : LexMode → Option ShellWord → List Char → Option (List ShellToken)
  | .word _, current, [] => some (emit current)
  -- a backslash at the very end stands for itself
  | .escaped, current, [] => some (emit (push current '\\' .literal))
  | .single, _, [] => none
  | .double, _, [] => none
  | .doubleEscaped, _, [] => none
  | .word redirected, current, char :: rest =>
      if redirected && ['<', '>', '&', '|'].contains char then lex (.word true) current rest
      else
        match charKind char with
        | .singleQuote => lex .single (some (current.getD [])) rest
        | .doubleQuote => lex .double (some (current.getD [])) rest
        | .backslash => lex .escaped current rest
        | .blank => (lex (.word false) none rest).map (emit current ++ ·)
        | .newline => some (emit current ++ [.control])
        | .control => (lex (.word false) none rest).map (emit current ++ .control :: ·)
        | .parenthesis => none
        | .angle => (lex (.word true) none rest).map
            ((if isIoNumber current then [] else emit current) ++ .redirect :: ·)
        -- a comment takes the rest of the line
        | .hash => if current = none then some []
            else lex (.word false) (push current char .unquoted) rest
        | .ordinary => lex (.word false) (push current char .unquoted) rest
  | .escaped, current, char :: rest =>
      if char = '\n' then lex (.word false) current rest
      else lex (.word false) (push current char .literal) rest
  | .single, current, char :: rest =>
      if char = '\'' then lex (.word false) current rest
      else lex .single (push current char .literal) rest
  | .double, current, char :: rest =>
      if char = '"' then lex (.word false) current rest
      else if char = '\\' then lex .doubleEscaped current rest
      else lex .double (push current char .double) rest
  | .doubleEscaped, current, char :: rest =>
      if ['$', '`', '"', '\\'].contains char then lex .double (push current char .literal) rest
      else if char = '\n' then lex .double current rest
      else lex .double (push (push current '\\' .literal) char .literal) rest

/-- The words of the first command, without the files of its redirections. -/
def commandWords : List ShellToken → List ShellWord
  | [] => []
  | .control :: _ => []
  | .redirect :: rest => (commandWords rest).drop 1
  | .word word :: rest => word :: commandWords rest

/-! ## What one character does -/

/-- A character that goes on with the word at hand, in the same mode or another. -/
inductive LexShift (current : Option ShellWord) (char : Char) :
    LexMode → LexMode → Option ShellWord → Prop where
  | operator : LexShift current char (.word true) (.word true) current
  | openSingle (redirected : Bool) :
      LexShift current char (.word redirected) .single (some (current.getD []))
  | openDouble (redirected : Bool) :
      LexShift current char (.word redirected) .double (some (current.getD []))
  | backslash (redirected : Bool) (hchar : charKind char = .backslash) :
      LexShift current char (.word redirected) .escaped current
  | ordinary (redirected : Bool) (hchar : charKind char = .ordinary ∨ charKind char = .hash)
      (hcomment : charKind char = .hash → current ≠ none) :
      LexShift current char (.word redirected) (.word false) (push current char .unquoted)
  | continuation : LexShift current char .escaped (.word false) current
  | escape : LexShift current char .escaped (.word false) (push current char .literal)
  | closeSingle : LexShift current char .single (.word false) current
  | insideSingle : LexShift current char .single .single (push current char .literal)
  | closeDouble : LexShift current char .double (.word false) current
  | doubleBackslash : LexShift current char .double .doubleEscaped current
  | insideDouble : LexShift current char .double .double (push current char .double)
  | doubleEscape : LexShift current char .doubleEscaped .double (push current char .literal)
  | doubleContinuation : LexShift current char .doubleEscaped .double current
  | doubleKept : LexShift current char .doubleEscaped .double
      (push (push current '\\' .literal) char .literal)

/-- The runs of the lexer that end without a syntax error. -/
inductive Lexes : LexMode → Option ShellWord → List Char → List ShellToken → Prop where
  | done (redirected : Bool) (current : Option ShellWord) :
      Lexes (.word redirected) current [] (emit current)
  | trailing (current : Option ShellWord) :
      Lexes .escaped current [] (emit (push current '\\' .literal))
  | shift {mode after : LexMode} {current next : Option ShellWord} {char : Char}
      {rest : List Char} {tokens : List ShellToken}
      (hshift : LexShift current char mode after next) (hrest : Lexes after next rest tokens) :
      Lexes mode current (char :: rest) tokens
  | blank (redirected : Bool) {current : Option ShellWord} {char : Char} {rest : List Char}
      {tokens : List ShellToken} (hrest : Lexes (.word false) none rest tokens) :
      Lexes (.word redirected) current (char :: rest) (emit current ++ tokens)
  | newline (redirected : Bool) (current : Option ShellWord) (char : Char) (rest : List Char) :
      Lexes (.word redirected) current (char :: rest) (emit current ++ [.control])
  | control (redirected : Bool) {current : Option ShellWord} {char : Char} {rest : List Char}
      {tokens : List ShellToken} (hrest : Lexes (.word false) none rest tokens) :
      Lexes (.word redirected) current (char :: rest) (emit current ++ .control :: tokens)
  | redirect (redirected : Bool) {current : Option ShellWord} {char : Char} {rest : List Char}
      {tokens : List ShellToken} (hrest : Lexes (.word true) none rest tokens) :
      Lexes (.word redirected) current (char :: rest) (emit current ++ .redirect :: tokens)
  | descriptor (redirected : Bool) {current : Option ShellWord} {char : Char} {rest : List Char}
      {tokens : List ShellToken} (hrest : Lexes (.word true) none rest tokens) :
      Lexes (.word redirected) current (char :: rest) (.redirect :: tokens)
  | comment (redirected : Bool) (char : Char) (rest : List Char) :
      Lexes (.word redirected) none (char :: rest) []

/-- Between words every kind of character has its own step. -/
theorem lexes_word {redirected : Bool} {current : Option ShellWord} {char : Char}
    {rest : List Char} {tokens : List ShellToken}
    (ih : ∀ {mode : LexMode} {current : Option ShellWord} {tokens : List ShellToken},
      lex mode current rest = some tokens → Lexes mode current rest tokens)
    (hlex : lex (.word redirected) current (char :: rest) = some tokens) :
    Lexes (.word redirected) current (char :: rest) tokens := by
  rw [lex] at hlex
  split at hlex
  next hoperator =>
    obtain rfl := (Bool.and_eq_true_iff.mp hoperator).1
    exact .shift .operator (ih hlex)
  next =>
    split at hlex
    next => exact .shift (.openSingle redirected) (ih hlex)
    next => exact .shift (.openDouble redirected) (ih hlex)
    next hchar => exact .shift (.backslash redirected hchar) (ih hlex)
    next =>
      obtain ⟨others, hothers, rfl⟩ := Option.map_eq_some_iff.mp hlex
      exact .blank redirected (ih hothers)
    next =>
      obtain rfl := Option.some.inj hlex
      exact .newline redirected current char rest
    next =>
      obtain ⟨others, hothers, rfl⟩ := Option.map_eq_some_iff.mp hlex
      exact .control redirected (ih hothers)
    next => cases hlex
    next =>
      obtain ⟨others, hothers, rfl⟩ := Option.map_eq_some_iff.mp hlex
      split
      next => exact .descriptor redirected (ih hothers)
      next => exact .redirect redirected (ih hothers)
    next hchar =>
      split at hlex
      next hnone =>
        obtain rfl := Option.some.inj hlex
        exact hnone ▸ .comment redirected char rest
      next hsome => exact .shift (.ordinary redirected (Or.inr hchar) fun _ => hsome) (ih hlex)
    next hchar =>
      refine .shift (.ordinary redirected (Or.inl hchar) fun hhash => ?_) (ih hlex)
      rw [hchar] at hhash
      cases hhash

/-- What the lexer reads is derivable. -/
theorem lexes_of_lex {mode : LexMode} {current : Option ShellWord} {chars : List Char}
    {tokens : List ShellToken} (hlex : lex mode current chars = some tokens) :
    Lexes mode current chars tokens := by
  induction chars generalizing mode current tokens with
  | nil =>
      cases mode with
      | word redirected => exact Option.some.inj hlex ▸ .done redirected current
      | escaped => exact Option.some.inj hlex ▸ .trailing current
      | single => cases hlex
      | double => cases hlex
      | doubleEscaped => cases hlex
  | cons char rest ih =>
      cases mode with
      | word redirected => exact lexes_word ih hlex
      | escaped =>
          rw [lex] at hlex
          split at hlex
          next => exact .shift .continuation (ih hlex)
          next => exact .shift .escape (ih hlex)
      | single =>
          rw [lex] at hlex
          split at hlex
          next => exact .shift .closeSingle (ih hlex)
          next => exact .shift .insideSingle (ih hlex)
      | double =>
          rw [lex] at hlex
          split at hlex
          next => exact .shift .closeDouble (ih hlex)
          next =>
            split at hlex
            next => exact .shift .doubleBackslash (ih hlex)
            next => exact .shift .insideDouble (ih hlex)
      | doubleEscaped =>
          rw [lex] at hlex
          split at hlex
          next => exact .shift .doubleEscape (ih hlex)
          next =>
            split at hlex
            next => exact .shift .doubleContinuation (ih hlex)
            next => exact .shift .doubleKept (ih hlex)

/-! ## Expansion -/

/-- A shell with the variables and the files that it finds: what it makes of a word. -/
structure Shell where
  expand : ShellWord → List String
  expand_inert : ∀ word, word.Inert → expand word = [word.text]

/-- Outside of quotes, the text is the word `read`, which whatever follows goes on with. -/
def ReadsAs (text : List Char) (read : ShellWord) : Prop :=
  ∀ rest, lex (.word false) none (text ++ rest) = lex (.word false) (some read) rest

namespace Shell

variable (shell : Shell)

/-- The argument vector of the command that `sh -c line` starts first. -/
def argv (line : String) : Option (List String) :=
  (lex (.word false) none line.toList).map fun tokens =>
    (commandWords tokens).flatMap shell.expand

/-- The argument vectors of all commands of a line. -/
def commands (line : String) : Option (List (List String)) :=
  (lex (.word false) none line.toList).map fun tokens =>
    (tokens.splitOnP (· = .control)).map fun command =>
      (commandWords command).flatMap shell.expand

/-- Outside of quotes, the text is one word, and the shell makes one argument of it. -/
def Reads (text arg : String) : Prop :=
  ∃ read, ReadsAs text.toList read ∧ shell.expand read = [arg]

/-- No word of the line's first command is changed by an expansion. -/
def Leaves (line : String) : Prop :=
  ∀ tokens, lex (.word false) none line.toList = some tokens →
    ∀ word ∈ commandWords tokens, shell.expand word = [word.text]

/-- A text that is one word without a quote. -/
structure Bare (text : List Char) : Prop where
  ne_nil : text ≠ []
  ordinary : ∀ char ∈ text, charKind char = .ordinary ∨ charKind char = .hash
  noComment : text.head? ≠ some '#'

instance (text : List Char) : Decidable (Bare text) :=
  decidable_of_iff (text ≠ [] ∧
    text.all (fun char => charKind char = .ordinary || charKind char = .hash) = true ∧
    text.head? ≠ some '#')
    ⟨fun ⟨hne, hall, hcomment⟩ => ⟨hne, by simpa using hall, hcomment⟩,
      fun ⟨hne, hordinary, hcomment⟩ => ⟨hne, by simpa using hordinary, hcomment⟩⟩

/-- A bare word that the shell's expansions leave as it is. -/
structure Plain (text : String) : Prop where
  bare : Bare text.toList
  kept : shell.expand (ShellWord.unquoted text) = [text]

end Shell

/-! ## A line of plain words -/

variable {current : Option ShellWord} {char : Char} {rest : List Char}

theorem ite_ne {α : Type} {p : Prop} [Decidable p] {first second other : α}
    (hfirst : first ≠ other) (hsecond : second ≠ other) :
    (if p then first else second) ≠ other := by
  split <;> assumption

theorem eq_hash (hchar : charKind char = .hash) : char = '#' := by
  by_contra hne
  refine absurd hchar ?_
  rw [charKind, if_neg hne]
  repeat' apply ite_ne
  all_goals decide

theorem eq_backslash (hchar : charKind char = .backslash) : char = '\\' := by
  by_contra hne
  refine absurd hchar ?_
  rw [charKind, if_neg hne]
  repeat' apply ite_ne
  all_goals decide

theorem lex_ordinary (hchar : charKind char = .ordinary ∨ charKind char = .hash)
    (hcomment : char ≠ '#' ∨ current ≠ none) :
    lex (.word false) current (char :: rest) =
      lex (.word false) (push current char .unquoted) rest := by
  rcases hchar with hordinary | hhash
  · simp [lex, hordinary]
  · simp [lex, hhash, hcomment.resolve_left (not_not.mpr (eq_hash hhash))]

theorem lex_blank (rest : List Char) : lex (.word false) current (' ' :: rest) =
    (lex (.word false) none rest).map (emit current ++ ·) := rfl

/-- Ordinary characters continue a word that has begun. -/
theorem lex_continue {word : ShellWord} {text : List Char}
    (htext : ∀ char ∈ text, charKind char = .ordinary ∨ charKind char = .hash) :
    lex (.word false) (some word) (text ++ rest) =
      lex (.word false) (some (word ++ text.map fun char => (char, .unquoted))) rest := by
  induction text generalizing word with
  | nil => simp
  | cons char text ih =>
      rw [List.cons_append, lex_ordinary (htext char List.mem_cons_self) (Or.inr (by simp)), push,
        Option.getD_some, ih fun other hmem => htext other (List.mem_cons_of_mem _ hmem),
        List.map_cons, List.append_assoc, List.singleton_append]

/-- A bare text reads as it stands. -/
theorem Shell.Bare.readsAs {text : List Char} (hbare : Shell.Bare text) :
    ReadsAs text (text.map fun char => (char, .unquoted)) := by
  intro rest
  obtain ⟨hne, hordinary, hcomment⟩ := hbare
  cases text with
  | nil => exact absurd rfl hne
  | cons char text =>
      have hfirst : char ≠ '#' := fun heq => hcomment (congrArg some heq)
      rw [List.cons_append, lex_ordinary (hordinary char List.mem_cons_self) (Or.inl hfirst)]
      exact lex_continue fun other hmem => hordinary other (List.mem_cons_of_mem _ hmem)

/-- A line of texts, each of which is a word, has these words. -/
theorem lex_join {α : Type} {text : α → String} {read : α → ShellWord} {items : List α}
    (hne : items ≠ []) (hreads : ∀ item ∈ items, ReadsAs (text item).toList (read item)) :
    lex (.word false) none (" ".intercalate (items.map text)).toList =
      some (items.map fun item => .word (read item)) := by
  induction items with
  | nil => exact absurd rfl hne
  | cons item items ih =>
      have hitem := hreads item List.mem_cons_self
      cases items with
      | nil =>
          have hlex := hitem []
          rw [List.append_nil] at hlex
          rw [List.map_singleton, String.intercalate_singleton, hlex]
          rfl
      | cons next items =>
          have hrest := ih (List.cons_ne_nil _ _) fun other hmem =>
            hreads other (List.mem_cons_of_mem _ hmem)
          rw [List.map_cons] at hrest
          rw [List.map_cons, List.map_cons, String.intercalate_cons_cons, String.toList_append,
            String.toList_append, List.append_assoc, hitem, show " ".toList = [' '] from rfl,
            List.singleton_append, lex_blank, hrest]
          rfl

/-- Plain words at the start of a line are read before the rest of it. -/
theorem lex_append {words rest : List String} (hrest : rest ≠ [])
    (hbare : ∀ word ∈ words, Shell.Bare word.toList) :
    lex (.word false) none (" ".intercalate (words ++ rest)).toList =
      (lex (.word false) none (" ".intercalate rest).toList).map
        ((words.map fun word => .word (ShellWord.unquoted word)) ++ ·) := by
  induction words with
  | nil => simp
  | cons word words ih =>
      obtain ⟨next, others, hnext⟩ := List.exists_cons_of_ne_nil
        (List.append_ne_nil_of_right_ne_nil words hrest)
      have htail := ih fun other hmem => hbare other (List.mem_cons_of_mem _ hmem)
      rw [hnext] at htail
      rw [List.cons_append, hnext, String.intercalate_cons_cons, String.toList_append,
        String.toList_append, List.append_assoc, (hbare word List.mem_cons_self).readsAs,
        show " ".toList = [' '] from rfl, List.singleton_append, lex_blank, htail, Option.map_map]
      rfl

theorem commandWords_append (words : List ShellWord) (tokens : List ShellToken) :
    commandWords (words.map ShellToken.word ++ tokens) = words ++ commandWords tokens := by
  induction words with
  | nil => rfl
  | cons word words ih => exact congrArg (word :: ·) ih

theorem commandWords_words (words : List ShellWord) :
    commandWords (words.map ShellToken.word) = words := by
  have hwords := commandWords_append words []
  rwa [List.append_nil, commandWords, List.append_nil] at hwords

/-- The arguments of a line of texts, each of which is a word. -/
theorem Shell.argv_words (shell : Shell) {α : Type} {text : α → String} {read : α → ShellWord}
    {items : List α} (hne : items ≠ [])
    (hreads : ∀ item ∈ items, ReadsAs (text item).toList (read item)) :
    shell.argv (" ".intercalate (items.map text)) =
      some (items.flatMap fun item => shell.expand (read item)) := by
  have hwords : (items.map fun item => ShellToken.word (read item)) =
      (items.map read).map ShellToken.word := by
    rw [List.map_map]
    rfl
  rw [Shell.argv, lex_join hne hreads, Option.map_some, hwords, commandWords_words,
    List.flatMap_map]

/-- Texts joined by blanks reach the command as the arguments that they stand for. -/
theorem Shell.argv_join (shell : Shell) {α : Type} {text arg : α → String} {items : List α}
    (hne : items ≠ []) (hreads : ∀ item ∈ items, shell.Reads (text item) (arg item)) :
    shell.argv (" ".intercalate (items.map text)) = some (items.map arg) := by
  choose! read hread using hreads
  rw [shell.argv_words hne fun item hmem => (hread item hmem).1]
  refine congrArg some ?_
  calc
    items.flatMap (fun item => shell.expand (read item)) = items.flatMap fun item => [arg item] :=
      List.flatMap_congr fun item hmem => (hread item hmem).2
    _ = items.map arg := List.map_eq_flatMap.symm

/-- Plain words before a line that the shell leaves as it is are left, too. -/
theorem Shell.Leaves.append {shell : Shell} {words rest : List String} (hrest : rest ≠ [])
    (hplain : ∀ word ∈ words, shell.Plain word) (hleaves : shell.Leaves (" ".intercalate rest)) :
    shell.Leaves (" ".intercalate (words ++ rest)) := by
  intro tokens hlex
  rw [lex_append hrest fun word hmem => (hplain word hmem).bare] at hlex
  obtain ⟨others, hothers, rfl⟩ := Option.map_eq_some_iff.mp hlex
  have hwords : (words.map fun word => ShellToken.word (ShellWord.unquoted word)) =
      (words.map ShellWord.unquoted).map ShellToken.word := by
    rw [List.map_map]
    rfl
  intro word hmem
  rw [hwords, commandWords_append] at hmem
  rcases List.mem_append.mp hmem with hword | hother
  · obtain ⟨text, htext, rfl⟩ := List.mem_map.mp hword
    rw [(hplain text htext).kept, ShellWord.text_unquoted]
  · exact hleaves others hothers word hother

theorem Shell.Plain.reads {shell : Shell} {text : String} (hplain : shell.Plain text) :
    shell.Reads text text := ⟨_, hplain.bare.readsAs, hplain.kept⟩

/-! ## What the words of a line weigh

A word weighs its characters and one for what separates it from the next. The words of a
line weigh at most its characters and one, and less as soon as a character is lost to a
quote, an operator or a comment.
-/

def weight (words : List ShellWord) : Nat := (words.map fun word => word.length + 1).sum

theorem weight_cons (word : ShellWord) (words : List ShellWord) :
    weight (word :: words) = word.length + 1 + weight words := by
  simp [weight]

/-- The file of a redirection weighs something, if there is one. -/
theorem weight_tail (words : List ShellWord) :
    weight (words.drop 1) = 0 ∨ weight (words.drop 1) + 1 ≤ weight words := by
  cases words with
  | nil => exact Or.inl rfl
  | cons word words =>
      right
      rw [weight_cons, List.drop_one, List.tail_cons]
      omega

theorem weight_emit (current : Option ShellWord) (tokens : List ShellToken) :
    weight (commandWords (emit current ++ tokens)) ≤
      (current.getD []).length + 1 + weight (commandWords tokens) := by
  cases current with
  | none => simp [emit]
  | some word => simp [emit, commandWords, weight_cons]

theorem weight_control (current : Option ShellWord) (tokens : List ShellToken) :
    weight (commandWords (emit current ++ .control :: tokens)) ≤ (current.getD []).length + 1 :=
  weight_emit current (.control :: tokens)

/-- What a mode may still add to the weight. -/
def slack : LexMode → Nat
  | .word _ => 1
  | .escaped => 2
  | .single => 0
  | .double => 0
  | .doubleEscaped => 1

theorem length_push (current : Option ShellWord) (char : Char) (quoting : Quoting) :
    ((push current char quoting).getD []).length = (current.getD []).length + 1 := by
  simp [push]

theorem LexShift.slack_le {mode after : LexMode} {next : Option ShellWord}
    (hshift : LexShift current char mode after next) :
    (next.getD []).length + slack after ≤ (current.getD []).length + slack mode + 1 := by
  cases hshift <;>
    simp only [slack, push, Option.getD_some, List.length_append, List.length_singleton] <;> omega

/-- The words of a command are not longer than its text. -/
theorem Lexes.weight_le {mode : LexMode} {chars : List Char} {tokens : List ShellToken}
    (hlexes : Lexes mode current chars tokens) :
    weight (commandWords tokens) ≤ chars.length + (current.getD []).length + slack mode := by
  induction hlexes with
  | done redirected current =>
      have hemit := weight_emit current []
      rw [List.append_nil] at hemit
      simpa [commandWords, weight, slack] using hemit
  | trailing current => simp [push, emit, commandWords, slack, weight]
  | shift hshift _ ih =>
      have hslack := hshift.slack_le
      rw [List.length_cons]
      omega
  | @blank redirected current char rest tokens _ ih =>
      have hemit := weight_emit current tokens
      simp only [slack, Option.getD_none, List.length_nil, List.length_cons] at ih ⊢
      omega
  | newline redirected current char rest =>
      have hcontrol := weight_control current []
      simp only [slack, List.length_cons]
      omega
  | @control redirected current char rest tokens =>
      have hcontrol := weight_control current tokens
      simp only [slack, List.length_cons]
      omega
  | @redirect redirected current char rest tokens _ ih =>
      have hemit := weight_emit current (.redirect :: tokens)
      have htail := weight_tail (commandWords tokens)
      simp only [slack, commandWords, Option.getD_none, List.length_nil, List.length_cons]
        at hemit ih ⊢
      omega
  | @descriptor redirected current char rest tokens _ ih =>
      have htail := weight_tail (commandWords tokens)
      simp only [slack, commandWords, Option.getD_none, List.length_nil, List.length_cons]
        at ih ⊢
      omega
  | comment => exact Nat.zero_le _

theorem weight_redirect {tokens : List ShellToken} (hrest : Lexes (.word true) none rest tokens) :
    weight (commandWords (emit current ++ .redirect :: tokens)) ≤
      rest.length + (current.getD []).length + 1 := by
  have hemit := weight_emit current (.redirect :: tokens)
  have htail := weight_tail (commandWords tokens)
  have hweight := hrest.weight_le
  simp only [slack, commandWords, Option.getD_none, List.length_nil] at hemit hweight
  omega

/-! ## Lines that lose nothing -/

/-- The word is bare. -/
def ShellWord.Bare (word : ShellWord) : Prop := Shell.Bare (word.map Prod.fst)

/-- A bare word stays bare with an ordinary character. -/
theorem bare_push (hcurrent : ∀ word, current = some word → word.Bare)
    (hchar : charKind char = .ordinary ∨ charKind char = .hash)
    (hcomment : charKind char = .hash → current ≠ none) :
    ∀ word, push current char .unquoted = some word → word.Bare := by
  rintro _ ⟨⟩
  cases current with
  | none =>
      refine ⟨List.cons_ne_nil _ _, fun other hmem => List.mem_singleton.mp hmem ▸ hchar, ?_⟩
      intro hsharp
      obtain rfl : char = '#' := Option.some.inj hsharp
      exact hcomment rfl rfl
  | some word =>
      obtain ⟨hne, hordinary, hhead⟩ := hcurrent word rfl
      constructor
      case ne_nil => simp
      case ordinary =>
        intro other hmem
        rw [Option.getD_some, List.map_append, List.mem_append] at hmem
        exact hmem.elim (hordinary other) fun hlast => List.mem_singleton.mp hlast ▸ hchar
      case noComment =>
        rwa [Option.getD_some, List.map_append, List.head?_append_of_ne_nil _ hne]

/-- The character behind a backslash is kept or lost, the backslash itself is lost. -/
theorem Lexes.weight_escaped {tokens : List ShellToken}
    (hlexes : Lexes .escaped current (char :: rest) tokens) :
    weight (commandWords tokens) ≤ (char :: rest).length + (current.getD []).length + 1 := by
  cases hlexes with
  | shift hescape hrest =>
      have hweight := hrest.weight_le
      rw [List.length_cons]
      cases hescape with
      | continuation =>
          simp only [slack] at hweight
          omega
      | escape =>
          simp only [slack, length_push] at hweight
          omega

/-- A line whose words weigh as much as they can has lost no character but the blanks between
them, so its words are bare. A backslash at the end is left out, as it is not lost. -/
theorem Lexes.bare {redirected : Bool} {chars : List Char} {tokens : List ShellToken}
    (hlexes : Lexes (.word redirected) current chars tokens)
    (htight : chars.length + (current.getD []).length + 1 ≤ weight (commandWords tokens))
    (hback : chars.getLast? ≠ some '\\') (hcurrent : ∀ word, current = some word → word.Bare) :
    ∀ word ∈ commandWords tokens, word.Bare := by
  induction chars generalizing redirected current tokens with
  | nil =>
      cases hlexes with
      | done =>
          cases current with
          | none => exact fun _ hmem => absurd hmem List.not_mem_nil
          | some word =>
              intro other hmem
              exact List.mem_singleton.mp hmem ▸ hcurrent word rfl
  | cons char rest ih =>
      have hrestBack : rest.getLast? ≠ some '\\' := by
        cases rest with
        | nil => simp
        | cons next rest => simpa using hback
      rw [List.length_cons] at htight
      cases hlexes with
      | shift hshift hrest =>
          have hweight := hrest.weight_le
          cases hshift with
          | ordinary _ hchar hcomment =>
              refine ih hrest ?_ hrestBack (bare_push hcurrent hchar hcomment)
              rw [length_push]
              omega
          | backslash _ hchar =>
              cases rest with
              | nil => exact absurd (congrArg some (eq_backslash hchar)) hback
              | cons next rest =>
                  have hescaped := hrest.weight_escaped
                  omega
          | _ =>
              simp only [slack, Option.getD_some] at hweight
              omega
      | blank _ hrest =>
          have hweight := hrest.weight_le
          simp only [slack, Option.getD_none, List.length_nil] at hweight
          cases current with
          | none =>
              simp only [emit, List.nil_append, Option.getD_none, List.length_nil] at htight
              omega
          | some word =>
              simp only [emit, List.singleton_append, commandWords, weight_cons,
                Option.getD_some] at htight ⊢
              refine List.forall_mem_cons.mpr ⟨hcurrent word rfl, ih hrest ?_ hrestBack ?_⟩
              · rw [Option.getD_none, List.length_nil]
                omega
              · intro _ hnone
                cases hnone
      | newline =>
          have hcontrol := Nat.le_trans htight (weight_control _ _)
          omega
      | control =>
          have hcontrol := Nat.le_trans htight (weight_control _ _)
          omega
      | redirect _ hrest =>
          have hredirect := Nat.le_trans htight (weight_redirect hrest)
          omega
      | @descriptor _ _ _ _ tokens hrest =>
          have hredirect : weight (commandWords (.redirect :: tokens)) ≤ rest.length + 1 :=
            @weight_redirect none rest tokens hrest
          have hlight := Nat.le_trans htight hredirect
          omega
      | comment => exact absurd htight (by simp [commandWords, weight])

/-! ## Lines of words -/

/-- The length of a command line by its words. -/
theorem length_join {words : List String} (hne : words ≠ []) :
    (" ".intercalate words).toList.length + 1 =
      (words.map fun word => word.toList.length + 1).sum := by
  induction words with
  | nil => exact absurd rfl hne
  | cons word words ih =>
      cases words with
      | nil => simp
      | cons next words =>
          have hrest := ih (List.cons_ne_nil _ _)
          rw [String.intercalate_cons_cons, String.toList_append, String.toList_append,
            List.length_append, List.length_append, List.map_cons, List.sum_cons, ← hrest,
            show " ".toList.length = 1 from rfl]
          omega

/-- A line ends in a backslash only if its last word does. -/
theorem backslash_of_join {words : List String} {last : String}
    (hlast : words.getLast? = some last)
    (hback : (" ".intercalate words).toList.getLast? = some '\\') :
    last.toList.getLast? = some '\\' := by
  induction words with
  | nil => cases hlast
  | cons word words ih =>
      cases words with
      | nil =>
          obtain rfl : word = last := Option.some.inj hlast
          rwa [String.intercalate_singleton] at hback
      | cons next words =>
          rw [String.intercalate_cons_cons, String.toList_append, String.toList_append] at hback
          rw [List.getLast?_cons_cons] at hlast
          by_cases hrest : (" ".intercalate (next :: words)).toList = []
          · rw [hrest, List.append_nil, show " ".toList = [' '] from rfl,
              List.getLast?_concat] at hback
            exact absurd (Option.some.inj hback) (by decide)
          · rw [List.getLast?_append_of_ne_nil _ hrest] at hback
            exact ih hlast hback

/-- Words that no expansion changes and that reach the command as they are were bare. The
backslash at the end of a line is left to the shell by POSIX and left out here. -/
theorem Shell.bare_of_argv_join (shell : Shell) {words : List String} {last : String}
    (hlast : words.getLast? = some last) (hback : last.toList.getLast? ≠ some '\\')
    (hleaves : shell.Leaves (" ".intercalate words))
    (hargv : shell.argv (" ".intercalate words) = some words) :
    ∀ word ∈ words, Shell.Bare word.toList := by
  obtain ⟨tokens, hlex, hwords⟩ := Option.map_eq_some_iff.mp hargv
  have htexts : (commandWords tokens).map ShellWord.text = words := by
    rw [← hwords, List.flatMap_congr (hleaves tokens hlex)]
    exact List.map_eq_flatMap
  have hweight : weight (commandWords tokens) = (" ".intercalate words).toList.length + 1 := by
    have hne : words ≠ [] := by
      rintro rfl
      cases hlast
    rw [length_join hne, ← htexts, List.map_map, weight]
    simp [Function.comp_def, ShellWord.text]
  have hbare := (lexes_of_lex hlex).bare (Nat.le_of_eq hweight.symm)
    (fun hend => hback (backslash_of_join hlast hend)) fun _ hnone => by cases hnone
  intro word hmem
  rw [← htexts] at hmem
  obtain ⟨found, hfound, rfl⟩ := List.mem_map.mp hmem
  have hfoundBare := hbare found hfound
  rwa [ShellWord.Bare, ← String.toList_ofList (l := found.map Prod.fst)] at hfoundBare

/-- What the shell would expand outside of quotes. -/
def expansionChars : List Char := ['$', '`', '*', '?', '[', '~']

/-- Without characters to expand, a bare word is plain. -/
theorem Shell.Bare.plain (shell : Shell) {text : String} (hbare : Shell.Bare text.toList)
    (hchars : ∀ char ∈ text.toList, char ∉ expansionChars) : shell.Plain text := by
  refine ⟨hbare, (shell.expand_inert _ ?_).trans ?_⟩
  · intro entry hmem
    obtain ⟨char, hchar, rfl⟩ := List.mem_map.mp hmem
    simpa [ShellWord.expands, expansionChars] using hchars char hchar
  · rw [ShellWord.text_unquoted]

end RaylsSuite.Foundation.Posix
