import Mathlib.Data.List.DropRight
import Mathlib.Data.List.Infix
import Mathlib.Data.List.TakeWhile

/-! # Decimal texts

Numbers cross process boundaries as decimal text: they are rendered on one
side and parsed on the other. The reader follows ECMAScript's `parseInt` with
radix 10, which skips leading white space, takes an optional sign and the
longest run of digits after it, and has no value (NaN) without a digit.
-/

namespace RaylsSuite.Foundation.Text

/-- The code points of ECMAScript's white space and line terminators. -/
def strWhiteSpace : List Nat :=
  [0x09, 0x0A, 0x0B, 0x0C, 0x0D, 0x20, 0xA0, 0x1680, 0x2000, 0x2001, 0x2002, 0x2003, 0x2004,
    0x2005, 0x2006, 0x2007, 0x2008, 0x2009, 0x200A, 0x2028, 0x2029, 0x202F, 0x205F, 0x3000, 0xFEFF]

def isStrWhiteSpace (char : Char) : Bool := strWhiteSpace.contains char.toNat

/-- The number written by the leading digits of a text, if there is one. -/
def leadingDigits (chars : List Char) : Option Nat :=
  match chars.takeWhile Char.isDigit with
  | [] => none
  | digits => some (Nat.ofDigitChars 10 digits 0)

/-- `parseInt(text, 10)`; `none` is NaN. -/
def parseInt (text : String) : Option Int :=
  match text.toList.dropWhile isStrWhiteSpace with
  | '-' :: rest => (leadingDigits rest).map fun magnitude => -(magnitude : Int)
  | '+' :: rest => (leadingDigits rest).map Int.ofNat
  | rest => (leadingDigits rest).map Int.ofNat

/-- `value || fallback` on a text that may be undefined: the empty text is falsy. -/
def orElse (value : Option String) (fallback : String) : String :=
  match value with
  | some text => if text = "" then fallback else text
  | none => fallback

/-- `String.prototype.toLowerCase` on one character. Besides the capital ASCII letters only
these two characters have ASCII letters in their lower-case form; other letters are kept. -/
def toLowerChar (char : Char) : List Char :=
  if char = '\u212A' then ['k']
  else if char = '\u0130' then ['i', '\u0307']
  else [char.toLower]

/-- `text.toLowerCase()` on ASCII texts, such as addresses are. Of other texts it keeps the
capital letters outside ASCII, which no search for an ASCII text can tell apart; it is used on
them for such a search only. -/
def toLowerCase (text : String) : String :=
  String.ofList (text.toList.flatMap toLowerChar)

/-- `text.includes(pattern)`. -/
def includes (text pattern : String) : Bool :=
  decide (pattern.toList <:+: text.toList)

/-- `text.startsWith(start)`. -/
def startsWith (text start : String) : Bool :=
  decide (start.toList <+: text.toList)

/-- `text.endsWith(suffix)`. -/
def endsWith (text suffix : String) : Bool :=
  decide (suffix.toList <:+ text.toList)

/-- The text without its last characters. -/
def dropRight (text : String) (count : Nat) : String :=
  String.ofList (text.toList.take (text.toList.length - count))

def takeLeft (text : String) (count : Nat) : String :=
  String.ofList (text.toList.take count)

def takeRight (text : String) (count : Nat) : String :=
  String.ofList (text.toList.drop (text.toList.length - count))

/-- `text.split(separator)` for a separator of one character. -/
def split (text : String) (separator : Char) : List String :=
  (text.toList.splitOn separator).map String.ofList

/-- `text.trim()`. -/
def trim (text : String) : String :=
  String.ofList ((text.toList.dropWhile isStrWhiteSpace).rdropWhile isStrWhiteSpace)

example : parseInt " -12px" = some (-12) := by decide

/-! ## Rendering and reading back -/

theorem isDigit_of_mem_repr {n : Nat} {char : Char} (hchar : char ∈ n.repr.toList) :
    char.isDigit = true := by
  rw [Nat.toList_repr] at hchar
  exact Nat.isDigit_of_mem_toDigits (by decide) (by decide) hchar

theorem isStrWhiteSpace_of_isDigit {char : Char} (hdigit : char.isDigit = true) :
    isStrWhiteSpace char = false := by
  have hbounds : 48 ≤ char.toNat ∧ char.toNat ≤ 57 := Char.isDigit_iff_toNat.mp hdigit
  have houtside : ∀ point ∈ strWhiteSpace, point < 48 ∨ 57 < point := by decide
  rw [isStrWhiteSpace, List.contains_eq_mem, decide_eq_false_iff_not]
  intro hmem
  have := houtside _ hmem
  omega

/-- The digits of a number are read as that number. -/
theorem leadingDigits_repr (n : Nat) : leadingDigits n.repr.toList = some n := by
  have htake : n.repr.toList.takeWhile Char.isDigit = Nat.toDigits 10 n := by
    rw [List.takeWhile_eq_self_iff.mpr fun _ hchar => isDigit_of_mem_repr hchar, Nat.toList_repr]
  unfold leadingDigits
  rw [htake]
  cases hdigits : Nat.toDigits 10 n with
  | nil => exact absurd hdigits Nat.toDigits_ne_nil
  | cons first rest =>
      rw [← hdigits]
      simp

/-- A natural number survives the trip through its decimal text. -/
@[simp] theorem parseInt_repr (n : Nat) : parseInt n.repr = some (n : Int) := by
  have hread := leadingDigits_repr n
  cases hchars : n.repr.toList with
  | nil => exact absurd (Nat.toList_repr ▸ hchars) Nat.toDigits_ne_nil
  | cons first rest =>
      have hdigit : first.isDigit = true :=
        isDigit_of_mem_repr (n := n) (hchars ▸ List.mem_cons_self)
      have hminus : first ≠ '-' := by rintro rfl; simp [Char.isDigit] at hdigit
      have hplus : first ≠ '+' := by rintro rfl; simp [Char.isDigit] at hdigit
      rw [hchars] at hread
      unfold parseInt
      rw [hchars, List.dropWhile_cons_of_neg (by simp [isStrWhiteSpace_of_isDigit hdigit])]
      split
      next rest' heq => exact absurd (List.cons.inj heq).1 hminus
      next rest' heq => exact absurd (List.cons.inj heq).1 hplus
      next => rw [hread]; rfl

theorem repr_ne_empty (n : Nat) : n.repr ≠ "" := by
  intro hempty
  have hparse := parseInt_repr n
  rw [hempty, show parseInt "" = none by decide] at hparse
  cases hparse

theorem repr_inj {m n : Nat} (heq : m.repr = n.repr) : m = n := by
  have hparse := congrArg parseInt heq
  rw [parseInt_repr, parseInt_repr] at hparse
  exact Int.ofNat_inj.mp (Option.some.inj hparse)

/-! ## Parts of a text -/

theorem includes_self (text : String) : includes text text = true :=
  decide_eq_true List.infix_rfl

theorem includes_trans {text middle part : String} (houter : includes text middle = true)
    (hinner : includes middle part = true) : includes text part = true :=
  decide_eq_true ((of_decide_eq_true hinner : part.toList <:+: middle.toList).trans
    (of_decide_eq_true houter))

theorem includes_append_left {text part : String} (hpart : includes text part = true)
    (rest : String) : includes (text ++ rest) part = true := by
  have hinfix : part.toList <:+: text.toList := of_decide_eq_true hpart
  apply decide_eq_true
  rw [String.toList_append]
  exact hinfix.trans (List.prefix_append _ _).isInfix

theorem includes_append_right {text part : String} (hpart : includes text part = true)
    (start : String) : includes (start ++ text) part = true := by
  have hinfix : part.toList <:+: text.toList := of_decide_eq_true hpart
  apply decide_eq_true
  rw [String.toList_append]
  exact hinfix.trans (List.suffix_append _ _).isInfix

/-- A text includes each of the parts that it joins. -/
theorem includes_join {parts : List String} {part : String} (hpart : part ∈ parts) :
    includes (parts.foldr (· ++ ·) "") part = true := by
  induction parts with
  | nil => cases hpart
  | cons first rest ih =>
      rw [List.foldr_cons]
      cases hpart with
      | head => exact includes_append_left (includes_self part) _
      | tail _ hrest => exact includes_append_right (ih hrest) first

/-- A part without the separator lies on one side of it. -/
theorem includes_separated {left right part : String} {separator : Char}
    (hpart : separator ∉ part.toList)
    (hincludes : includes (left ++ String.singleton separator ++ right) part = true) :
    includes left part = true ∨ includes right part = true := by
  obtain ⟨before, after, heq⟩ := of_decide_eq_true hincludes
  rw [String.toList_append, String.toList_append, String.toList_singleton, List.append_assoc,
    List.append_assoc, List.singleton_append] at heq
  rcases List.append_eq_append_iff.mp heq with ⟨rest, hleft, hrest⟩ | ⟨rest, hbefore, hrest⟩
  · rcases List.append_eq_append_iff.mp hrest with ⟨tail, hrest, -⟩ | ⟨tail, hsplit, hright⟩
    · exact Or.inl (decide_eq_true ⟨before, tail, by rw [hleft, hrest, List.append_assoc]⟩)
    · cases tail with
      | nil =>
          rw [List.append_nil] at hsplit
          exact Or.inl (decide_eq_true ⟨before, [], by rw [hleft, hsplit, List.append_nil]⟩)
      | cons char tail =>
          obtain rfl := (List.cons.inj hright).1
          rw [hsplit] at hpart
          exact absurd (List.mem_append_right _ List.mem_cons_self) hpart
  · cases rest with
    | nil =>
        rw [List.nil_append] at hrest
        cases hchars : part.toList with
        | nil =>
            exact Or.inl (decide_eq_true (hchars ▸ List.nil_infix))
        | cons char tail =>
            rw [hchars, List.cons_append] at hrest
            rw [hchars, (List.cons.inj hrest).1] at hpart
            exact absurd List.mem_cons_self hpart
    | cons char tail =>
        rw [List.cons_append] at hrest
        exact Or.inr (decide_eq_true ⟨tail, after, by
          rw [(List.cons.inj hrest).2, List.append_assoc]⟩)

theorem split_append_cons {text : String} {separator : Char} (htext : separator ∉ text.toList)
    (rest : String) : split (text ++ String.singleton separator ++ rest) separator =
      text :: split rest separator := by
  simp only [split, String.toList_append, String.toList_singleton, List.append_assoc,
    List.cons_append, List.nil_append]
  rw [List.splitOn_append_cons_self_of_not_mem htext, List.map_cons, String.ofList_toList]

theorem split_eq_singleton {text : String} {separator : Char} (htext : separator ∉ text.toList) :
    split text separator = [text] := by
  rw [split, List.splitOn_eq_singleton htext, List.map_singleton, String.ofList_toList]

/-! ## Separated numbers -/

/-- A separator outside a class of characters splits a text in one way only. -/
theorem append_separator_inj (member : Char → Bool) {separator : Char}
    (hseparator : member separator = false) {left left' right right' : List Char}
    (hleft : ∀ char ∈ left, member char) (hleft' : ∀ char ∈ left', member char)
    (heq : left ++ separator :: right = left' ++ separator :: right') :
    left = left' ∧ right = right' := by
  have htake : ∀ front back : List Char, (∀ char ∈ front, member char) →
      (front ++ separator :: back).takeWhile member = front := by
    intro front back hfront
    rw [List.takeWhile_append_of_pos hfront, List.takeWhile_cons_of_neg (by simp [hseparator]),
      List.append_nil]
  have hfront : left = left' := by
    rw [← htake left right hleft, heq, htake left' right' hleft']
  subst hfront
  exact ⟨rfl, (List.cons.inj (List.append_cancel_left heq)).2⟩

/-- Two numbers joined by a hyphen are recovered from the joined text. -/
theorem hyphenated_inj {a b c d : Nat} (heq : s!"{a}-{b}" = s!"{c}-{d}") : a = c ∧ b = d := by
  have hlists : a.repr.toList ++ '-' :: b.repr.toList = c.repr.toList ++ '-' :: d.repr.toList := by
    have hchars := congrArg String.toList heq
    simp only [String.toList_append, toString, List.append_assoc] at hchars
    exact hchars
  obtain ⟨hleft, hright⟩ := append_separator_inj Char.isDigit (by decide)
    (fun _ => isDigit_of_mem_repr) (fun _ => isDigit_of_mem_repr) hlists
  exact ⟨repr_inj (String.toList_inj.mp hleft), repr_inj (String.toList_inj.mp hright)⟩

end RaylsSuite.Foundation.Text
