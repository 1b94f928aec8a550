import RaylsSuite.Foundation.Shell
import RaylsSuite.Foundation.Text

/-! # Flags of an npm script

The runner takes the globs and the flags of an npm script apart with a regular
expression that strips quotes, adds the flags of its own command line, and
drops duplicates. An undefined entry, here `none`, is what the expression makes
of an empty pair of quotes; `Array.join` renders it as the empty text.
-/

namespace RaylsSuite.Runner

open Foundation Posix

universe u

variable {α : Type u} [DecidableEq α]

/-! ## The tokenizer -/

/-- `value || undefined` on a text. -/
def truthy (text : String) : Option String := if text = "" then none else some text

theorem truthy_of_ne {text : String} (hne : text ≠ "") : truthy text = some text := if_neg hne

/-- `'([^']*)'`, or the same with another quote: what stands between the quotes. -/
def quotedMatch (quote : Char) : List Char → Option (List Char)
  | [] => none
  | char :: rest =>
      if char = quote ∧ quote ∈ rest then some (rest.takeWhile (· ≠ quote)) else none

/-- The match of `/'([^']*)'|"([^"]*)"|(\S+)/` at the start of a text, as
`match[1] || match[2] || match[3]` and the number of characters that it takes. -/
def matchToken (chars : List Char) : Option (Option String × Nat) :=
  match quotedMatch '\'' chars with
  | some content => some (truthy (String.ofList content), content.length + 2)
  | none =>
      match quotedMatch '"' chars with
      | some content => some (truthy (String.ofList content), content.length + 2)
      | none =>
          match chars.takeWhile fun char => !Text.isStrWhiteSpace char with
          | [] => none
          | run => some (some (String.ofList run), run.length)

/-- The matches from a position on, after the rest of the match before it. -/
def tokensFrom : Nat → List Char → List (Option String)
  | _, [] => []
  | skip + 1, _ :: rest => tokensFrom skip rest
  | 0, char :: rest =>
      match matchToken (char :: rest) with
      | none => tokensFrom 0 rest
      | some (token, length) => token :: tokensFrom (length - 1) rest

/-! ## Globs and flags -/

/-- How `parseHardhatScript` fails: it logs a message and exits, or calls a method of an
undefined token. -/
inductive ScriptError where
  | exit (message : String)
  | typeError
deriving DecidableEq, Repr

structure ParsedScript where
  globs : List String
  flags : List (Option String)
deriving DecidableEq, Repr

/-- The tokens behind the first `test` that does not come before the first `hardhat`. Without
the latter the search begins at the last token, as `indexOf` counts -1 from the end. -/
def hardhatArgs (hardhat test : α) (tokens : List α) : Option (List α) :=
  let start := (tokens.findIdx? (· = hardhat)).getD (tokens.length - 1)
  ((tokens.drop start).idxOf? test).map fun offset => tokens.drop (start + offset + 1)

/-- The loop over the arguments; only `--grep` takes a value. -/
def splitArgs : List (Option String) → Except ScriptError ParsedScript
  | [] => .ok ⟨[], []⟩
  | none :: _ => .error .typeError
  | some arg :: rest =>
      if Text.startsWith arg "-" then
        if arg = "--grep" then
          match rest with
          | [] => .ok ⟨[], [some arg]⟩
          | pattern :: rest => (splitArgs rest).map fun parsed =>
              { parsed with flags := some arg :: pattern :: parsed.flags }
        else (splitArgs rest).map fun parsed => { parsed with flags := some arg :: parsed.flags }
      else (splitArgs rest).map fun parsed => { parsed with globs := arg :: parsed.globs }

theorem splitArgs_grep (pattern : Option String) (rest : List (Option String)) :
    splitArgs (some "--grep" :: pattern :: rest) = (splitArgs rest).map fun parsed =>
      { parsed with flags := some "--grep" :: pattern :: parsed.flags } := by
  rw [splitArgs, if_pos (by decide), if_pos rfl]

theorem splitArgs_flag {arg : String} (harg : Text.startsWith arg "-" = true)
    (hgrep : arg ≠ "--grep") (rest : List (Option String)) :
    splitArgs (some arg :: rest) = (splitArgs rest).map fun parsed =>
      { parsed with flags := some arg :: parsed.flags } := by
  cases rest <;> simp [splitArgs, harg, hgrep]

theorem splitArgs_glob {arg : String} (harg : Text.startsWith arg "-" ≠ true)
    (rest : List (Option String)) :
    splitArgs (some arg :: rest) = (splitArgs rest).map fun parsed =>
      { parsed with globs := arg :: parsed.globs } := by
  cases rest <;> simp [splitArgs, harg]

def parseTokens (scriptCmd : String) (tokens : List (Option String)) :
    Except ScriptError ParsedScript :=
  match hardhatArgs (some "hardhat") (some "test") tokens with
  | none => .error (.exit s!"Script command does not contain 'hardhat test': {scriptCmd}")
  | some args => splitArgs args

def parseHardhatScript (scriptCmd : String) : Except ScriptError ParsedScript :=
  parseTokens scriptCmd (tokensFrom 0 scriptCmd.toList)

/-! ## Duplicates -/

/-- `out.splice(out.lastIndexOf(flag), 2)`, if the flag is there. -/
def spliceLast (flag : α) (out : List α) : List α :=
  match out.reverse.idxOf? flag with
  | none => out
  | some back => out.take (out.length - 1 - back) ++ out.drop (out.length - 1 - back + 2)

/-- The loop of `_dedupeFlags`: the first `--bail` and the last `--grep` stay. -/
def dedupeFlagsFrom (bail grep : α) (out : List α) : List α → List α
  | [] => out
  | flag :: rest =>
      if flag = bail then
        dedupeFlagsFrom bail grep (if bail ∈ out then out else out ++ [bail]) rest
      else if flag = grep then
        match rest with
        | [] => spliceLast grep out ++ [grep]
        | pattern :: rest => dedupeFlagsFrom bail grep (spliceLast grep out ++ [grep, pattern]) rest
      else dedupeFlagsFrom bail grep (out ++ [flag]) rest

section Equations

variable {bail grep flag pattern : α} {out rest : List α}

theorem dedupeFlagsFrom_bail : dedupeFlagsFrom bail grep out (bail :: rest) =
    dedupeFlagsFrom bail grep (if bail ∈ out then out else out ++ [bail]) rest := by
  cases rest <;> simp [dedupeFlagsFrom]

theorem dedupeFlagsFrom_grep_last (hne : grep ≠ bail) :
    dedupeFlagsFrom bail grep out [grep] = spliceLast grep out ++ [grep] := by
  simp [dedupeFlagsFrom, hne]

theorem dedupeFlagsFrom_grep (hne : grep ≠ bail) :
    dedupeFlagsFrom bail grep out (grep :: pattern :: rest) =
      dedupeFlagsFrom bail grep (spliceLast grep out ++ [grep, pattern]) rest := by
  simp [dedupeFlagsFrom, hne]

theorem dedupeFlagsFrom_other (hbail : flag ≠ bail) (hgrep : flag ≠ grep) :
    dedupeFlagsFrom bail grep out (flag :: rest) =
      dedupeFlagsFrom bail grep (out ++ [flag]) rest := by
  cases rest <;> simp [dedupeFlagsFrom, hbail, hgrep]

end Equations

def _dedupeFlags (extraFlags : List (Option String)) : List (Option String) :=
  dedupeFlagsFrom (some "--bail") (some "--grep") [] extraFlags

/-- `this.flags` for a script, as `resolveFiles` stores it. -/
def resolveFlags (scriptCmd : String) (cliExtraFlags : List String) :
    Except ScriptError (List (Option String)) :=
  (parseHardhatScript scriptCmd).map fun parsed =>
    _dedupeFlags (parsed.flags ++ cliExtraFlags.map some)

/-- The texts that `join` puts into a command. -/
def joinTexts (flags : List (Option String)) : List String := flags.map (·.getD "")

end RaylsSuite.Runner
