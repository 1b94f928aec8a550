import Mathlib.Algebra.Group.Action.Defs
import Mathlib.Algebra.Order.BigOperators.Group.List
import Mathlib.Algebra.Order.Ring.Nat
import RaylsSuite.Runner.Flags
import RaylsSuite.Runner.History

/-! # Whether flags reach the children

The flags are joined into a command line that `sh -c` takes apart again. They
arrive as the shell would have read them in the script if each of them, without
the quotes that the runner has stripped, is one word that the shell makes the
same argument of.
-/

namespace RaylsSuite.Runner

open Foundation Posix

universe u v

/-! ## Scripts as they are written -/

/-- A character that neither separates tokens nor quotes. -/
def bareChar (char : Char) : Bool :=
  !Text.isStrWhiteSpace char && !(['\'', '"', '\\'].contains char)

/-- A token of a script: quoted, or bare and without any quoting character. -/
inductive Token where
  | single (content : String) (hquote : '\'' ∉ content.toList)
  | double (content : String) (hquote : '"' ∉ content.toList)
  | bare (text : String) (hne : text.toList ≠ []) (hchars : text.toList.all bareChar = true)

namespace Token

def content : Token → String
  | .single content _ => content
  | .double content _ => content
  | .bare text _ _ => text

def render : Token → List Char
  | .single content _ => '\'' :: (content.toList ++ ['\''])
  | .double content _ => '"' :: (content.toList ++ ['"'])
  | .bare text _ _ => text.toList

end Token

/-- A script of the given tokens, with blanks between them and around. -/
inductive Renders : List Token → List Char → Prop where
  | nil : Renders [] []
  | blank {tokens : List Token} {chars : List Char} (char : Char) (hchar : char ∈ [' ', '\t'])
      (hrest : Renders tokens chars) : Renders tokens (char :: chars)
  | token {tokens : List Token} {chars : List Char} (token : Token)
      (hgap : ∀ char ∈ chars.head?, char ∈ [' ', '\t']) (hrest : Renders tokens chars) :
      Renders (token :: tokens) (token.render ++ chars)

/-! ## The tokenizer on such a script -/

theorem tokensFrom_skip (taken rest : List Char) :
    tokensFrom taken.length (taken ++ rest) = tokensFrom 0 rest := by
  induction taken with
  | nil => rfl
  | cons char taken ih => exact ih

/-- A quoted text is matched up to its closing quote. -/
theorem quotedMatch_quoted (quote : Char) {content : List Char} (hquote : quote ∉ content)
    (rest : List Char) :
    quotedMatch quote (quote :: (content ++ quote :: rest)) = some content := by
  have htake : (content ++ quote :: rest).takeWhile (· ≠ quote) = content := by
    rw [List.takeWhile_append_of_pos, List.takeWhile_cons_of_neg (by simp), List.append_nil]
    intro char hchar
    exact decide_eq_true fun heq => hquote (heq ▸ hchar)
  rw [quotedMatch, if_pos ⟨rfl, by simp⟩, htake]

theorem quotedMatch_other {quote char : Char} (hne : char ≠ quote) (rest : List Char) :
    quotedMatch quote (char :: rest) = none :=
  if_neg fun hmatch => hne hmatch.1

theorem matchToken_blank {char : Char} (hchar : char ∈ [' ', '\t']) (rest : List Char) :
    matchToken (char :: rest) = none := by
  simp only [List.mem_cons, List.not_mem_nil, or_false] at hchar
  rcases hchar with rfl | rfl <;> rfl

/-- The tokenizer takes a token as a whole and leaves out its quotes. -/
theorem matchToken_render (token : Token) {rest : List Char}
    (hgap : ∀ char ∈ rest.head?, char ∈ [' ', '\t']) :
    matchToken (token.render ++ rest) = some (truthy token.content, token.render.length) := by
  cases token with
  | single content hquote =>
      have hmatch := quotedMatch_quoted '\'' hquote rest
      simp only [Token.render, List.cons_append, List.append_assoc, List.nil_append]
      simp only [matchToken, hmatch, String.ofList_toList, Token.content]
      simp
  | double content hquote =>
      have hmatch := quotedMatch_quoted '"' hquote rest
      simp only [Token.render, List.cons_append, List.append_assoc, List.nil_append]
      simp only [matchToken, quotedMatch_other (show '"' ≠ '\'' by decide), hmatch,
        String.ofList_toList, Token.content]
      simp
  | bare text hne hall =>
      have hchars : ∀ char ∈ text.toList,
          Text.isStrWhiteSpace char = false ∧ char ∉ ['\'', '"', '\\'] := by
        simpa [bareChar] using hall
      have hrun : (text.toList ++ rest).takeWhile (fun char => !Text.isStrWhiteSpace char) =
          text.toList := by
        rw [List.takeWhile_append_of_pos fun char hmem => by simp [(hchars char hmem).1]]
        cases rest with
        | nil => simp
        | cons char rest =>
            have hblank := hgap char rfl
            rw [List.takeWhile_cons_of_neg, List.append_nil]
            simp only [List.mem_cons, List.not_mem_nil, or_false] at hblank
            rcases hblank with rfl | rfl <;> decide
      have hquotes : ∀ quote ∈ ['\'', '"'], quotedMatch quote (text.toList ++ rest) = none := by
        intro quote hmem
        obtain ⟨first, others, hfirst⟩ := List.exists_cons_of_ne_nil hne
        rw [hfirst, List.cons_append]
        refine quotedMatch_other ?_ _
        rintro rfl
        refine (hchars first (hfirst ▸ List.mem_cons_self)).2 ?_
        simp only [List.mem_cons, List.not_mem_nil, or_false] at hmem ⊢
        tauto
      have htext : text ≠ "" := fun hempty => hne (congrArg String.toList hempty)
      simp only [Token.render, matchToken, hquotes '\'' (by decide), hquotes '"' (by decide), hrun,
        Token.content, truthy_of_ne htext]
      cases hchars' : text.toList with
      | nil => exact absurd hchars' hne
      | cons first others => rw [← hchars', String.ofList_toList]

theorem render_ne_nil (token : Token) : token.render ≠ [] := by
  cases token with
  | single => exact List.cons_ne_nil _ _
  | double => exact List.cons_ne_nil _ _
  | bare text hne => exact hne

theorem tokensFrom_renders {tokens : List Token} {chars : List Char}
    (hrenders : Renders tokens chars) :
    tokensFrom 0 chars = tokens.map fun token => truthy token.content := by
  induction hrenders with
  | nil => rfl
  | blank char hchar _ ih => rw [tokensFrom, matchToken_blank hchar, ih]
  | @token tokens chars token hgap _ ih =>
      have hmatch := matchToken_render token hgap
      obtain ⟨first, taken, hrender⟩ := List.exists_cons_of_ne_nil (render_ne_nil token)
      rw [hrender, List.cons_append] at hmatch
      rw [hrender, List.cons_append, tokensFrom, hmatch, List.length_cons]
      simp only [Nat.add_sub_cancel]
      rw [tokensFrom_skip, ih, List.map_cons]

/-! ## Globs, flags and duplicates do not look at the rest of a token -/

section Images

variable {α : Type u} {β : Type v} [DecidableEq α] [DecidableEq β] {image : α → β}

theorem idxOf?_map {token : α} {other : β} (himage : ∀ x, image x = other ↔ x = token)
    (tokens : List α) : (tokens.map image).idxOf? other = tokens.idxOf? token := by
  induction tokens with
  | nil => rfl
  | cons first rest ih =>
      simp only [List.map_cons, List.idxOf?_cons, beq_iff_eq, himage, ih]

/-- Finding `hardhat test` commutes with a map that confuses no other token with either word. -/
theorem hardhatArgs_map {hardhat test : α} {hardhat' test' : β}
    (hhardhat : ∀ x, image x = hardhat' ↔ x = hardhat) (htest : ∀ x, image x = test' ↔ x = test)
    (tokens : List α) : hardhatArgs hardhat' test' (tokens.map image) =
      (hardhatArgs hardhat test tokens).map (List.map image) := by
  have hfind : (tokens.map image).findIdx? (· = hardhat') = tokens.findIdx? (· = hardhat) := by
    rw [List.findIdx?_map]
    congr 1
    funext x
    simp [hhardhat]
  simp only [hardhatArgs, hfind, List.length_map, ← List.map_drop, idxOf?_map htest,
    Option.map_map]
  rfl

theorem spliceLast_map {flag : α} {flag' : β} (hflag : ∀ x, image x = flag' ↔ x = flag)
    (out : List α) : spliceLast flag' (out.map image) = (spliceLast flag out).map image := by
  simp only [spliceLast, ← List.map_reverse, idxOf?_map hflag, List.length_map]
  cases out.reverse.idxOf? flag with
  | none => rfl
  | some back => simp [List.map_take, List.map_drop]

/-- Deduplicating commutes with a map that confuses no other flag with `--bail` or `--grep`. -/
theorem dedupeFlagsFrom_map {bail grep : α} {bail' grep' : β}
    (hbail : ∀ x, image x = bail' ↔ x = bail) (hgrep : ∀ x, image x = grep' ↔ x = grep)
    (out flags : List α) : dedupeFlagsFrom bail' grep' (out.map image) (flags.map image) =
      (dedupeFlagsFrom bail grep out flags).map image := by
  have hbailImage : image bail = bail' := (hbail bail).mpr rfl
  have hgrepImage : image grep = grep' := (hgrep grep).mpr rfl
  have hmem : ∀ out : List α, bail' ∈ out.map image ↔ bail ∈ out := fun out => by
    simp only [List.mem_map, hbail, exists_eq_right]
  have hapart : grep' = bail' ↔ grep = bail := hgrepImage ▸ hbail grep
  induction out, flags using dedupeFlagsFrom.induct bail grep with
  | case1 out => rfl
  | case2 out rest ih =>
      rw [List.map_cons, hbailImage, dedupeFlagsFrom_bail, dedupeFlagsFrom_bail, ← ih]
      congr 1
      by_cases hin : bail ∈ out
      · rw [if_pos hin, if_pos ((hmem out).mpr hin)]
      · rw [if_neg hin, if_neg (mt (hmem out).mp hin), List.map_append, List.map_singleton,
          hbailImage]
  | case3 out hne =>
      rw [List.map_singleton, hgrepImage, dedupeFlagsFrom_grep_last hne,
        dedupeFlagsFrom_grep_last (mt hapart.mp hne), spliceLast_map hgrep, List.map_append,
        List.map_singleton, hgrepImage]
  | case4 out pattern rest hne ih =>
      rw [List.map_cons, List.map_cons, hgrepImage, dedupeFlagsFrom_grep hne,
        dedupeFlagsFrom_grep (mt hapart.mp hne), ← ih, spliceLast_map hgrep, List.map_append,
        List.map_cons, List.map_singleton, hgrepImage]
  | case5 out flag rest hnotBail hnotGrep ih =>
      rw [List.map_cons, dedupeFlagsFrom_other hnotBail hnotGrep,
        dedupeFlagsFrom_other (mt (hbail flag).mp hnotBail) (mt (hgrep flag).mp hnotGrep), ← ih,
        List.map_append, List.map_singleton]

end Images

/-! ## What the runner makes of a script -/

/-- An empty pair of quotes stands where the runner looks at the first character of a token;
behind `--grep` it does not look. -/
def strayEmpty : List String → Bool
  | [] => false
  | arg :: rest =>
      if arg = "" then true
      else if arg = "--grep" then
        match rest with
        | [] => false
        | _ :: rest => strayEmpty rest
      else strayEmpty rest

/-- The empty tokens become undefined, wherever they are let through. -/
theorem splitArgs_truthy (args : List String) :
    splitArgs (args.map truthy) =
      if strayEmpty args then .error .typeError
      else (splitArgs (args.map some)).map fun parsed =>
        { parsed with flags := parsed.flags.map (·.bind truthy) } := by
  induction args using strayEmpty.induct with
  | case1 => rfl
  | case2 rest => cases rest <;> rfl
  | case3 => rfl
  | case4 pattern rest hne ih =>
      have hstray : strayEmpty ("--grep" :: pattern :: rest) = strayEmpty rest := by
        rw [strayEmpty, if_neg hne, if_pos rfl]
      simp only [List.map_cons, truthy_of_ne hne, splitArgs_grep, ih, hstray]
      cases strayEmpty rest <;> cases splitArgs (rest.map some) <;> rfl
  | case5 arg rest hne hgrep ih =>
      have hstray : strayEmpty (arg :: rest) = strayEmpty rest := by
        cases rest <;> simp [strayEmpty, hne, hgrep]
      by_cases harg : Text.startsWith arg "-" = true
      · simp only [List.map_cons, truthy_of_ne hne, splitArgs_flag harg hgrep, ih, hstray]
        cases strayEmpty rest <;> cases splitArgs (rest.map some) <;>
          simp [Except.map, truthy_of_ne hne]
      · simp only [List.map_cons, truthy_of_ne hne, splitArgs_glob harg, ih, hstray]
        cases strayEmpty rest <;> cases splitArgs (rest.map some) <;> rfl

theorem splitArgs_some {args : List String} (hstray : strayEmpty args = false) :
    ∃ parsed, splitArgs (args.map some) = .ok parsed := by
  induction args using strayEmpty.induct with
  | case1 => exact ⟨_, rfl⟩
  | case2 rest => cases rest <;> simp [strayEmpty] at hstray
  | case3 => exact ⟨_, rfl⟩
  | case4 pattern rest hne ih =>
      rw [strayEmpty, if_neg hne, if_pos rfl] at hstray
      obtain ⟨parsed, hparsed⟩ := ih hstray
      exact ⟨_, (splitArgs_grep _ _).trans (by rw [hparsed]; rfl)⟩
  | case5 arg rest hne hgrep ih =>
      have hrest : strayEmpty rest = false := by
        cases rest with
        | nil => rfl
        | cons next rest => simpa [strayEmpty, hne, hgrep] using hstray
      obtain ⟨parsed, hparsed⟩ := ih hrest
      by_cases harg : Text.startsWith arg "-" = true
      · exact ⟨_, (splitArgs_flag harg hgrep _).trans (by rw [hparsed]; rfl)⟩
      · exact ⟨_, (splitArgs_glob harg _).trans (by rw [hparsed]; rfl)⟩

/-- The flags among the words of a command, by the rules of `parseHardhatScript`. -/
def flagsOf (words : List String) : Option (List String) :=
  match hardhatArgs "hardhat" "test" words with
  | none => none
  | some args =>
      match splitArgs (args.map some) with
      | .error _ => none
      | .ok parsed => some (joinTexts parsed.flags)

/-- The command has `hardhat`, and `test` behind it. -/
def isHardhatTest (words : List String) : Bool :=
  (words.dropWhile (· ≠ "hardhat")).contains "test"

/-- The script's flags as a shell tokenises them: quotes, expansions, comments and operators are
the shell's, and the flags are those of the command that has `hardhat test`. -/
def shellScriptFlags (shell : Shell) (scriptCmd : String) : Option (List String) :=
  (shell.commands scriptCmd).bind fun commands => (commands.find? isHardhatTest).bind flagsOf

/-- `_dedupeFlags` of the script's flags as a shell would have tokenised them, followed by the
flags of the runner's own command line. -/
def shellFlags (shell : Shell) (scriptCmd : String) (cliExtraFlags : List String) :
    Option (List String) :=
  (shellScriptFlags shell scriptCmd).map fun flags =>
    joinTexts (_dedupeFlags (flags.map some ++ cliExtraFlags.map some))

/-- The runner refuses the script before it spawns a child: there is no `hardhat test`, or an
empty token among its arguments. -/
def Refused (tokens : List Token) : Prop :=
  match hardhatArgs "hardhat" "test" (tokens.map Token.content) with
  | none => True
  | some args => strayEmpty args = true

/-- The text of the deduplicated flags is the deduplicated text of the flags. -/
theorem joinTexts_dedupe (flags : List (Option String)) :
    joinTexts (_dedupeFlags flags) = dedupeFlagsFrom "--bail" "--grep" [] (joinTexts flags) := by
  have himage : ∀ text : String, text ≠ "" → ∀ flag : Option String,
      flag.getD "" = text ↔ flag = some text := by
    rintro text htext (_ | flag)
    · simpa using htext.symm
    · simp
  exact (dedupeFlagsFrom_map (himage "--bail" (by decide)) (himage "--grep" (by decide))
    [] flags).symm

variable {shell : Shell} {tokens : List Token} {scriptCmd : String} {cliExtraFlags : List String}

theorem parseTokens_map {image : String → Option String}
    (himage : ∀ text ∈ ["hardhat", "test"], ∀ word, image word = some text ↔ word = text)
    (words : List String) : parseTokens scriptCmd (words.map image) =
      match hardhatArgs "hardhat" "test" words with
      | none => .error (.exit s!"Script command does not contain 'hardhat test': {scriptCmd}")
      | some args => splitArgs (args.map image) := by
  rw [parseTokens, hardhatArgs_map (himage "hardhat" (by decide)) (himage "test" (by decide))]
  cases hardhatArgs "hardhat" "test" words <;> rfl

theorem truthy_eq_some {text : String} (htext : text ≠ "") (word : String) :
    truthy word = some text ↔ word = text := by
  unfold truthy
  split
  next hempty => simp [hempty, htext.symm]
  next => simp

theorem joinTexts_truthy (flags : List (Option String)) :
    joinTexts (flags.map (·.bind truthy)) = joinTexts flags := by
  rw [joinTexts, List.map_map]
  apply List.map_congr_left
  intro flag _
  cases flag with
  | none => rfl
  | some text => by_cases hempty : text = "" <;> simp [truthy, hempty]

/-- The runner refuses the script, or keeps the flags among its tokens without their quotes. -/
theorem resolveFlags_cases (cliExtraFlags : List String)
    (hrenders : Renders tokens scriptCmd.toList) :
    (Refused tokens ∧ ∃ error, resolveFlags scriptCmd cliExtraFlags = .error error) ∨
      (¬Refused tokens ∧ ∃ flags script, resolveFlags scriptCmd cliExtraFlags = .ok flags ∧
        flagsOf (tokens.map Token.content) = some script ∧
          joinTexts flags = dedupeFlagsFrom "--bail" "--grep" [] (script ++ cliExtraFlags)) := by
  have hraw : parseHardhatScript scriptCmd =
      parseTokens scriptCmd ((tokens.map Token.content).map truthy) := by
    rw [parseHardhatScript, tokensFrom_renders hrenders, List.map_map]
    rfl
  have hreal : ∀ text ∈ ["hardhat", "test"], text ≠ "" := by decide
  simp only [Refused, resolveFlags, flagsOf, hraw,
    parseTokens_map fun text hmem => truthy_eq_some (hreal text hmem)]
  cases hardhatArgs "hardhat" "test" (tokens.map Token.content) with
  | none => exact Or.inl ⟨trivial, _, rfl⟩
  | some args =>
      simp only [splitArgs_truthy]
      cases hstray : strayEmpty args with
      | true => exact Or.inl ⟨rfl, _, rfl⟩
      | false =>
          obtain ⟨parsed, hparsed⟩ := splitArgs_some hstray
          refine Or.inr ⟨Bool.false_ne_true, _, joinTexts parsed.flags, by rw [hparsed]; rfl,
            by rw [hparsed], ?_⟩
          rw [joinTexts_dedupe]
          congr 1
          have hcli : joinTexts (cliExtraFlags.map some) = cliExtraFlags := by
            simp [joinTexts, Function.comp_def]
          calc
            joinTexts (parsed.flags.map (·.bind truthy) ++ cliExtraFlags.map some) =
                joinTexts (parsed.flags.map (·.bind truthy)) ++
                  joinTexts (cliExtraFlags.map some) := List.map_append
            _ = joinTexts parsed.flags ++ cliExtraFlags := by rw [joinTexts_truthy, hcli]

/-! ## The law of the flags -/

/-- Every test child of every run with the script's flags sees its files and the flags of the
shell, when `sh -c` has taken its command line apart. -/
def FlagsReachChildren (shell : Shell) (scriptCmd : String) (cliExtraFlags : List String) : Prop :=
  ∀ flags expected, resolveFlags scriptCmd cliExtraFlags = .ok flags →
    shellFlags shell scriptCmd cliExtraFlags = some expected →
    ∀ (run : Run) (state : RunState) (child : Child), run.runner.flags = joinTexts flags →
      run.Reachable state → child ∈ state.tests → (∀ file ∈ child.files, shell.Plain file) →
      shell.argv child.command.line = some (["npx", "hardhat", "test"] ++ child.files ++ expected)

/-- A flag of the script: its text without quotes, which the runner keeps, and the argument that
the shell makes of it. Both are the same kind of flag. -/
structure PairedFlag where
  text : String
  arg : String
  bail_iff : text = "--bail" ↔ arg = "--bail"
  grep_iff : text = "--grep" ↔ arg = "--grep"
deriving DecidableEq

namespace PairedFlag

/-- A flag of the runner's own command line, which stands for itself. -/
def same (text : String) : PairedFlag := ⟨text, text, Iff.rfl, Iff.rfl⟩

theorem ext {first second : PairedFlag} (htext : first.text = second.text)
    (harg : first.arg = second.arg) : first = second := by
  cases first
  cases second
  cases htext
  cases harg
  rfl

theorem eq_same {kind : String} {flag : PairedFlag} (hkind : flag.text = kind ↔ flag.arg = kind) :
    (flag.text = kind ↔ flag = same kind) ∧ (flag.arg = kind ↔ flag = same kind) := by
  have hboth : flag.text = kind → flag = same kind := fun htext => ext htext (hkind.mp htext)
  constructor
  · exact ⟨hboth, fun hsame => hsame ▸ rfl⟩
  · exact ⟨fun harg => hboth (hkind.mpr harg), fun hsame => hsame ▸ rfl⟩

end PairedFlag

/-- The runner and the shell find the same flags in the script, one for one. -/
structure Paired (shell : Shell) (tokens : List Token) (scriptCmd : String)
    (script : List PairedFlag) : Prop where
  texts : flagsOf (tokens.map Token.content) = some (script.map PairedFlag.text)
  args : shellScriptFlags shell scriptCmd = some (script.map PairedFlag.arg)

/-- The flags that stay of the script's and the extra ones. -/
def keptFlags (script : List PairedFlag) (cliExtraFlags : List String) : List PairedFlag :=
  dedupeFlagsFrom (.same "--bail") (.same "--grep") [] (script ++ cliExtraFlags.map .same)

/-- Runner and shell find the same flags, and every flag that is kept is one word without its
quotes, which the shell makes the same argument of. -/
def FlagsSurvive (shell : Shell) (tokens : List Token) (scriptCmd : String)
    (cliExtraFlags : List String) : Prop :=
  ∃ script, Paired shell tokens scriptCmd script ∧
    ∀ flag ∈ keptFlags script cliExtraFlags, shell.Reads flag.text flag.arg

theorem keptFlags_map (script : List PairedFlag) (cliExtraFlags : List String) :
    dedupeFlagsFrom "--bail" "--grep" [] (script.map PairedFlag.text ++ cliExtraFlags) =
        (keptFlags script cliExtraFlags).map PairedFlag.text ∧
      dedupeFlagsFrom "--bail" "--grep" [] (script.map PairedFlag.arg ++ cliExtraFlags) =
        (keptFlags script cliExtraFlags).map PairedFlag.arg := by
  have hbail := fun flag : PairedFlag => PairedFlag.eq_same flag.bail_iff
  have hgrep := fun flag : PairedFlag => PairedFlag.eq_same flag.grep_iff
  have htexts := dedupeFlagsFrom_map (fun flag => (hbail flag).1) (fun flag => (hgrep flag).1)
    [] (script ++ cliExtraFlags.map PairedFlag.same)
  have hargs := dedupeFlagsFrom_map (fun flag => (hbail flag).2) (fun flag => (hgrep flag).2)
    [] (script ++ cliExtraFlags.map PairedFlag.same)
  have hcli : (cliExtraFlags.map PairedFlag.same).map PairedFlag.text = cliExtraFlags ∧
      (cliExtraFlags.map PairedFlag.same).map PairedFlag.arg = cliExtraFlags := by
    simp [PairedFlag.same, Function.comp_def]
  rw [List.map_append, hcli.1] at htexts
  rw [List.map_append, hcli.2] at hargs
  exact ⟨htexts, hargs⟩

theorem Paired.shellFlags_eq {script : List PairedFlag}
    (hpaired : Paired shell tokens scriptCmd script) (cliExtraFlags : List String) :
    shellFlags shell scriptCmd cliExtraFlags =
      some ((keptFlags script cliExtraFlags).map PairedFlag.arg) := by
  have hall : joinTexts ((script.map PairedFlag.arg).map some ++ cliExtraFlags.map some) =
      script.map PairedFlag.arg ++ cliExtraFlags := by
    simp [joinTexts, Function.comp_def]
  rw [shellFlags, hpaired.args, Option.map_some, joinTexts_dedupe, hall,
    (keptFlags_map script cliExtraFlags).2]

/-- The runner's flags, where it takes the script. -/
theorem Paired.resolveFlags_eq {script : List PairedFlag}
    (hpaired : Paired shell tokens scriptCmd script) (hrenders : Renders tokens scriptCmd.toList)
    (cliExtraFlags : List String) :
    (Refused tokens ∧ ∃ error, resolveFlags scriptCmd cliExtraFlags = .error error) ∨
      ∃ flags, resolveFlags scriptCmd cliExtraFlags = .ok flags ∧
        joinTexts flags = (keptFlags script cliExtraFlags).map PairedFlag.text := by
  rcases resolveFlags_cases cliExtraFlags hrenders with hrefused | ⟨_, flags, found, hok, hfound,
    hflags⟩
  · exact Or.inl hrefused
  · obtain rfl := Option.some.inj (hpaired.texts.symm.trans hfound)
    exact Or.inr ⟨flags, hok, hflags.trans (keptFlags_map script cliExtraFlags).1⟩

theorem Child.command_eq {run : Run} {state : RunState} {child : Child}
    (hhistory : run.History state) (hchild : child ∈ state.tests) :
    child.command = .test child.files run.runner.flags := by
  rcases hhistory.mem_tests hchild with rfl | ⟨dispatch, rfl⟩ <;> rfl

/-- The words of a child's command line: fixed ones and files, which stand for themselves, and
the kept flags. -/
def childWords (files : List String) (kept : List PairedFlag) : List PairedFlag :=
  (["npx", "hardhat", "test"] ++ files).map .same ++ kept

theorem childWords_map (files : List String) (kept : List PairedFlag) :
    (childWords files kept).map PairedFlag.text =
        ["npx", "hardhat", "test"] ++ files ++ kept.map PairedFlag.text ∧
      (childWords files kept).map PairedFlag.arg =
        ["npx", "hardhat", "test"] ++ files ++ kept.map PairedFlag.arg := by
  simp [childWords, PairedFlag.same, Function.comp_def]

theorem childWords_ne_nil (files : List String) (kept : List PairedFlag) :
    childWords files kept ≠ [] := by
  simp [childWords]

/-- The words of a child's command line before its flags, with a file that is plain. -/
def leadingWords : List String := ["npx", "hardhat", "test"] ++ ["test/a.ts"]

theorem leadingWords_unexpanded : ∀ word ∈ leadingWords, ∀ char ∈ word.toList,
    char ∉ expansionChars := by
  have hall : ∀ word ∈ leadingWords,
      word.toList.all (fun char => !expansionChars.contains char) = true := by decide
  intro word hmem char hchar
  simpa using List.all_eq_true.mp (hall word hmem) char hchar

theorem plain_leadingWords (shell : Shell) : ∀ word ∈ leadingWords, shell.Plain word := by
  have hbare : ∀ word ∈ leadingWords, Shell.Bare word.toList := by decide
  exact fun word hmem => (hbare word hmem).plain shell (leadingWords_unexpanded word hmem)

/-- Flags that survive reach every child. -/
theorem FlagsSurvive.reach (hsurvive : FlagsSurvive shell tokens scriptCmd cliExtraFlags)
    (hrenders : Renders tokens scriptCmd.toList) :
    FlagsReachChildren shell scriptCmd cliExtraFlags := by
  obtain ⟨script, hpaired, hreads⟩ := hsurvive
  intro flags expected hflags hexpected run state child hrun hreach hchild hfiles
  obtain rfl := Option.some.inj ((hpaired.shellFlags_eq cliExtraFlags).symm.trans hexpected)
  rcases hpaired.resolveFlags_eq hrenders cliExtraFlags with ⟨_, error, herror⟩ | ⟨found, hfound,
    htexts⟩
  · cases herror.symm.trans hflags
  · obtain rfl := Except.ok.inj (hfound.symm.trans hflags)
    obtain ⟨hline, hargs⟩ := childWords_map child.files (keptFlags script cliExtraFlags)
    rw [Child.command_eq hreach.history hchild, hrun, htexts]
    change shell.argv (" ".intercalate (["npx", "hardhat", "test"] ++ child.files ++
      (keptFlags script cliExtraFlags).map PairedFlag.text)) = _
    rw [← hline, ← hargs]
    apply shell.argv_join (childWords_ne_nil _ _)
    intro flag hmem
    rcases List.mem_append.mp hmem with hfixed | hkept
    · obtain ⟨word, hword, rfl⟩ := List.mem_map.mp hfixed
      rcases List.mem_append.mp hword with hnpx | hfile
      · exact (plain_leadingWords shell word (List.mem_append_left _ hnpx)).reads
      · exact (hfiles word hfile).reads
    · exact hreads flag hkept

/-- A run of one serial file, which is plain. -/
def serialRun (flags : List String) : Run :=
  ⟨.new ⟨some "1", none, none, none⟩ flags, fun _ => none,
    E2eParallelRunner.partitionFiles (fun _ => "@serial") ["test/a.ts"]⟩

theorem serialRun_child (flags : List String) : ∃ state, (serialRun flags).Reachable state ∧
    (serialRun flags).runner.serialChild ["test/a.ts"] ∈ state.tests :=
  ⟨_, ⟨[.start], rfl⟩, List.mem_cons_self⟩

theorem plain_file (shell : Shell) : ∀ file ∈ ["test/a.ts"], shell.Plain file :=
  fun file hfile => plain_leadingWords shell file (List.mem_append_right _ hfile)

/-- What the child of that run is given. -/
theorem FlagsReachChildren.serial {script : List PairedFlag}
    (hreach : FlagsReachChildren shell scriptCmd cliExtraFlags)
    (hpaired : Paired shell tokens scriptCmd script) (hrenders : Renders tokens scriptCmd.toList)
    (haccepted : ¬Refused tokens) :
    shell.argv (" ".intercalate
        ((childWords ["test/a.ts"] (keptFlags script cliExtraFlags)).map PairedFlag.text)) =
      some ((childWords ["test/a.ts"] (keptFlags script cliExtraFlags)).map PairedFlag.arg) := by
  rcases hpaired.resolveFlags_eq hrenders cliExtraFlags with ⟨hrefused, _⟩ | ⟨flags, hflags,
    htexts⟩
  · exact absurd hrefused haccepted
  · obtain ⟨state, hstate, hchild⟩ := serialRun_child (joinTexts flags)
    have hargv := hreach flags _ hflags (hpaired.shellFlags_eq cliExtraFlags) _ state _ rfl
      hstate hchild (plain_file shell)
    obtain ⟨hline, hargs⟩ := childWords_map ["test/a.ts"] (keptFlags script cliExtraFlags)
    rw [hline, hargs, ← htexts]
    exact hargv

/-- What the shell finds makes no difference for the kept flags: no word of a line with them is
changed by an expansion, or they are words as they stand, of which none vanishes or none becomes
several. -/
inductive Undisturbed (shell : Shell) (kept : List PairedFlag) : Prop where
  | unchanged (hsame : ∀ flag ∈ kept, flag.text = flag.arg)
      (hleaves : shell.Leaves (" ".intercalate (kept.map PairedFlag.text)))
      (hlast : ∀ flag ∈ kept.getLast?, flag.text.toList.getLast? ≠ some '\\')
  | bare (hbare : ∀ flag ∈ kept, Shell.Bare flag.text.toList)
      (hcount : (∀ flag ∈ kept, 1 ≤ (shell.expand (ShellWord.unquoted flag.text)).length) ∨
        ∀ flag ∈ kept, (shell.expand (ShellWord.unquoted flag.text)).length ≤ 1)

/-- Lists of which none is empty, or none has two elements, and that join to as many elements
as they are, are singletons. -/
theorem singletons_of_flatMap {α β : Type} {items : List α} {args : α → List β} {arg : α → β}
    (hjoin : items.flatMap args = items.map arg)
    (hcount : (∀ item ∈ items, 1 ≤ (args item).length) ∨
      ∀ item ∈ items, (args item).length ≤ 1) :
    ∀ item ∈ items, args item = [arg item] := by
  induction items with
  | nil => exact fun _ hmem => absurd hmem List.not_mem_nil
  | cons first rest ih =>
      rw [List.flatMap_cons, List.map_cons] at hjoin
      have hlength : (args first).length + ((rest.map fun item => (args item).length)).sum =
          rest.length + 1 := by
        have htotal := congrArg List.length hjoin
        simpa [List.length_flatMap] using htotal
      have hrest : (∀ item ∈ rest, 1 ≤ (args item).length) ∨
          ∀ item ∈ rest, (args item).length ≤ 1 := by
        refine hcount.imp ?_ ?_ <;> exact fun hall item hmem =>
          hall item (List.mem_cons_of_mem _ hmem)
      have hone : (args first).length = 1 := by
        rcases hcount with hall | hall
        · have hsum := List.length_le_sum_of_one_le (rest.map fun item => (args item).length)
            (List.forall_mem_map.mpr fun item hmem => hall item (List.mem_cons_of_mem _ hmem))
          rw [List.length_map] at hsum
          have hfirst := hall first List.mem_cons_self
          omega
        · have hsum := List.sum_le_card_nsmul (rest.map fun item => (args item).length) 1
            (List.forall_mem_map.mpr fun item hmem => hall item (List.mem_cons_of_mem _ hmem))
          rw [List.length_map, smul_eq_mul, Nat.mul_one] at hsum
          have hfirst := hall first List.mem_cons_self
          omega
      obtain ⟨value, hvalue⟩ := List.length_eq_one_iff.mp hone
      rw [hvalue, List.singleton_append, List.cons.injEq] at hjoin
      intro item hmem
      rcases List.mem_cons.mp hmem with rfl | hmem
      · rw [hvalue, hjoin.1]
      · exact ih hjoin.2 hrest item hmem

/-- Undisturbed flags that reach a child are words that the shell makes the same argument of. -/
theorem Undisturbed.reads {kept : List PairedFlag} (hundisturbed : Undisturbed shell kept)
    (hargv : shell.argv (" ".intercalate ((childWords ["test/a.ts"] kept).map PairedFlag.text)) =
      some ((childWords ["test/a.ts"] kept).map PairedFlag.arg)) :
    ∀ flag ∈ kept, shell.Reads flag.text flag.arg := by
  intro flag hflag
  have hne : kept.map PairedFlag.text ≠ [] := List.ne_nil_of_mem (List.mem_map_of_mem hflag)
  cases hundisturbed with
  | unchanged hsame hleaves hlast =>
      have hargs : kept.map PairedFlag.arg = kept.map PairedFlag.text :=
        List.map_congr_left fun other hmem => (hsame other hmem).symm
      obtain ⟨hline, hexpected⟩ := childWords_map ["test/a.ts"] kept
      rw [hline, hexpected, hargs] at hargv
      obtain ⟨last, hlastFlag⟩ : ∃ last, kept.getLast? = some last :=
        ⟨_, List.getLast?_eq_some_getLast (List.ne_nil_of_mem hflag)⟩
      have hlastWord : (["npx", "hardhat", "test"] ++ ["test/a.ts"] ++
          kept.map PairedFlag.text).getLast? = some last.text := by
        rw [List.getLast?_append_of_ne_nil _ hne, List.getLast?_map, hlastFlag, Option.map_some]
      have hbare := shell.bare_of_argv_join hlastWord (hlast last hlastFlag)
        (Shell.Leaves.append hne (plain_leadingWords shell) hleaves) hargv
      have hkept : ∀ other ∈ kept, Shell.Bare other.text.toList := fun other hmem =>
        hbare other.text (List.mem_append_right _ (List.mem_map_of_mem hmem))
      -- the flags are words as they stand, so the shell leaves each of them
      have hwords := lex_join (List.ne_nil_of_mem hflag) fun other hmem =>
        (hkept other hmem).readsAs
      have hword := hleaves _ hwords (ShellWord.unquoted flag.text) ?_
      · rw [ShellWord.text_unquoted] at hword
        exact ⟨_, (hkept flag hflag).readsAs, hsame flag hflag ▸ hword⟩
      · have hmap : (kept.map fun other => ShellToken.word (ShellWord.unquoted other.text)) =
            (kept.map fun other => ShellWord.unquoted other.text).map ShellToken.word := by
          rw [List.map_map]
          rfl
        rw [show (kept.map fun other => ShellToken.word
          (other.text.toList.map fun char => (char, Quoting.unquoted))) = _ from hmap,
          commandWords_words]
        exact List.mem_map_of_mem hflag
  | bare hbare hcount =>
      have hplain : ∀ other ∈ (["npx", "hardhat", "test"] ++ ["test/a.ts"]).map PairedFlag.same,
          shell.Plain other.text := by
        intro other hmem
        obtain ⟨word, hword, rfl⟩ := List.mem_map.mp hmem
        exact plain_leadingWords shell word hword
      have hreads : ∀ other ∈ childWords ["test/a.ts"] kept,
          ReadsAs other.text.toList (ShellWord.unquoted other.text) := by
        intro other hmem
        rcases List.mem_append.mp hmem with hfixed | hother
        · exact (hplain other hfixed).bare.readsAs
        · exact (hbare other hother).readsAs
      rw [shell.argv_words (childWords_ne_nil _ _) hreads, Option.some.injEq, childWords,
        List.flatMap_append, List.map_append (f := PairedFlag.arg)] at hargv
      have hfixed : ((["npx", "hardhat", "test"] ++ ["test/a.ts"]).map PairedFlag.same).flatMap
          (fun other => shell.expand (ShellWord.unquoted other.text)) =
            ((["npx", "hardhat", "test"] ++ ["test/a.ts"]).map PairedFlag.same).map
              PairedFlag.arg := by
        rw [List.map_eq_flatMap (f := PairedFlag.arg)]
        apply List.flatMap_congr
        intro other hmem
        rw [(hplain other hmem).kept]
        obtain ⟨word, _, rfl⟩ := List.mem_map.mp hmem
        rfl
      rw [hfixed, List.append_cancel_left_eq] at hargv
      exact ⟨_, (hbare flag hflag).readsAs, singletons_of_flatMap hargv hcount flag hflag⟩

/-- A script with one blank between its tokens. -/
def spaced : List Token → List Char
  | [] => []
  | [token] => token.render
  | token :: next :: rest => token.render ++ ' ' :: spaced (next :: rest)

/-- Tokens joined by single spaces are a rendering of themselves. -/
theorem renders_spaced (tokens : List Token) : Renders tokens (spaced tokens) := by
  induction tokens with
  | nil => exact .nil
  | cons token rest ih =>
      cases rest with
      | nil =>
          have hlast := Renders.token token (by simp) Renders.nil
          rwa [List.append_nil] at hlast
      | cons next rest => exact .token token (by simp) (.blank ' ' (by simp) ih)

/-- A shell without variables, in a directory where no pattern finds a file. -/
def literalShell : Shell where
  expand word := [word.text]
  expand_inert _ _ := rfl

/-- The tokens of the smoke script. -/
def smokeScript : List Token :=
  [.bare "npx" (by decide) (by decide), .bare "hardhat" (by decide) (by decide),
    .bare "test" (by decide) (by decide), .bare "test/e2e/*.ts" (by decide) (by decide),
    .bare "--grep" (by decide) (by decide), .single "@smoke" (by decide),
    .bare "--bail" (by decide) (by decide)]

end RaylsSuite.Runner
