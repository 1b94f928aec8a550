import Mathlib.Data.List.Basic
import RaylsSuite.Foundation.Hex
import RaylsSuite.Foundation.Text

/-! # Percent-encoded texts

A text becomes a component of a URL byte by byte: its unreserved characters
stand for themselves and the UTF-8 bytes of every other one are escaped. A
component has none of the characters that separate a URL, so that components
can be joined and split again.
-/

namespace RaylsSuite.Foundation.Percent

/-- The characters that `encodeURIComponent` keeps. -/
def unreserved (char : Char) : Bool := char.isAlphanum || "-_.!~*'()".toList.contains char

def hexDigit (n : Nat) : Char := "0123456789ABCDEF".toList.getD n '0'

def escape (byte : UInt8) : List Char :=
  ['%', hexDigit (byte.toNat / 16), hexDigit (byte.toNat % 16)]

def encodeChar (char : Char) : List Char :=
  if unreserved char then [char] else (String.utf8EncodeChar char).flatMap escape

/-- `encodeURIComponent(text)`. -/
def encode (text : String) : String := String.ofList (text.toList.flatMap encodeChar)

/-- The bytes that a component writes; a `%` has to begin an escape. -/
def bytes : List Char → Option (List UInt8)
  | [] => some []
  | '%' :: high :: low :: rest =>
      (Hex.pairValue high low).bind fun byte => (bytes rest).map (byte :: ·)
  | char :: rest =>
      if char = '%' then none else (bytes rest).map (String.utf8EncodeChar char ++ ·)

/-- `decodeURIComponent(component)`; `none` is a component without a text. -/
def decode (component : String) : Option String :=
  (bytes component.toList).bind fun found =>
    found.toByteArray.utf8Decode?.map fun chars => String.ofList chars.toList

example : encode "a/b é" = "a%2Fb%20%C3%A9" := by decide

/-- The two digits of a byte are read as that byte. -/
theorem pairValue_hexDigit (byte : UInt8) :
    Hex.pairValue (hexDigit (byte.toNat / 16)) (hexDigit (byte.toNat % 16)) = some byte := by
  have hvalue : ∀ digit < 16, Hex.digitValue (hexDigit digit) = some digit := by decide
  have hbyte : byte.toNat < 256 := byte.toNat_lt
  have hsum : 16 * (byte.toNat / 16) + byte.toNat % 16 = byte.toNat := by omega
  rw [Hex.pairValue, hvalue _ (by omega), hvalue _ (Nat.mod_lt _ (by decide))]
  change some (UInt8.ofNat (16 * (byte.toNat / 16) + byte.toNat % 16)) = some byte
  rw [hsum, UInt8.ofNat_toNat]

theorem bytes_escape (byte : UInt8) (rest : List Char) :
    bytes (escape byte ++ rest) = (bytes rest).map (byte :: ·) := by
  simp only [escape, List.cons_append, bytes, pairValue_hexDigit, Option.bind_some,
    List.nil_append]

theorem bytes_escapes (found : List UInt8) (rest : List Char) :
    bytes (found.flatMap escape ++ rest) = (bytes rest).map (found ++ ·) := by
  induction found with
  | nil => simp
  | cons byte found ih =>
      rw [List.flatMap_cons, List.append_assoc, bytes_escape, ih, Option.map_map]
      rfl

theorem bytes_cons {char : Char} (hchar : char ≠ '%') (rest : List Char) :
    bytes (char :: rest) = (bytes rest).map (String.utf8EncodeChar char ++ ·) := by
  rw [bytes.eq_def]
  split
  next heq => cases heq
  next heq => exact absurd (List.cons.inj heq).1 hchar
  next heq =>
    obtain ⟨rfl, rfl⟩ := List.cons.inj heq
    rw [if_neg hchar]

theorem ne_of_unreserved {char other : Char} (hchar : unreserved char = true)
    (hother : unreserved other = false) : char ≠ other := by
  intro heq
  rw [heq, hother] at hchar
  cases hchar

theorem bytes_encodeChar (char : Char) (rest : List Char) :
    bytes (encodeChar char ++ rest) = (bytes rest).map (String.utf8EncodeChar char ++ ·) := by
  unfold encodeChar
  split
  next hchar => exact bytes_cons (ne_of_unreserved hchar (by decide)) rest
  next => exact bytes_escapes _ rest

theorem bytes_encode (chars : List Char) :
    bytes (chars.flatMap encodeChar) = some (chars.flatMap String.utf8EncodeChar) := by
  induction chars with
  | nil => rfl
  | cons char chars ih =>
      rw [List.flatMap_cons, bytes_encodeChar, ih]
      rfl

theorem decode_of_bytes {component text : List Char}
    (hbytes : bytes component = some (text.flatMap String.utf8EncodeChar)) :
    decode (String.ofList component) = some (String.ofList text) := by
  have hutf8 : (text.flatMap String.utf8EncodeChar).toByteArray = text.utf8Encode := rfl
  rw [decode, String.toList_ofList, hbytes, Option.bind_some, hutf8, List.utf8Decode?_utf8Encode]
  rfl

/-- A text is read back from its component. -/
theorem decode_encode (text : String) : decode (encode text) = some text := by
  rw [encode, decode_of_bytes (bytes_encode text.toList), String.ofList_toList]

theorem encode_empty : encode "" = "" := rfl

/-- A component consists of escapes and unreserved characters. -/
theorem mem_encode {text : String} {char : Char} (hchar : char ∈ (encode text).toList) :
    char = '%' ∨ unreserved char = true := by
  rw [encode, String.toList_ofList] at hchar
  obtain ⟨source, _, hsource⟩ := List.mem_flatMap.mp hchar
  unfold encodeChar at hsource
  split at hsource
  next hkept =>
    rw [List.mem_singleton.mp hsource]
    exact .inr hkept
  next =>
    have hdigit : ∀ digit < 16, unreserved (hexDigit digit) = true := by decide
    obtain ⟨byte, _, hbyte⟩ := List.mem_flatMap.mp hsource
    have hlt : byte.toNat < 256 := byte.toNat_lt
    simp only [escape, List.mem_cons, List.not_mem_nil, or_false] at hbyte
    rcases hbyte with rfl | rfl | rfl
    · exact .inl rfl
    · exact .inr (hdigit _ (by omega))
    · exact .inr (hdigit _ (Nat.mod_lt _ (by decide)))

theorem ne_of_mem_encode {text : String} {char other : Char} (hchar : char ∈ (encode text).toList)
    (hother : unreserved other = false) (hescape : other ≠ '%') : char ≠ other := by
  rcases mem_encode hchar with rfl | hkept
  · exact hescape.symm
  · exact ne_of_unreserved hkept hother

theorem mapM_decode (texts : List String) :
    (texts.map encode).mapM decode = some texts := by
  induction texts with
  | nil => rfl
  | cons text texts ih =>
      rw [List.map_cons, List.mapM_cons, ih, decode_encode]
      rfl

/-! ## Paths

A client reads the path of a URL segment by segment. A segment of one or two
dots is no name: it stands for the current or for the parent directory.
-/

/-- What follows the host of an absolute URL, up to a query or a fragment. -/
def pathname (url : String) : List Char :=
  (((url.toList.dropWhile (· ≠ ':')).drop 3).dropWhile (· ≠ '/')).takeWhile
    fun char => char ≠ '?' && char ≠ '#'

def singleDots : List String := [".", "%2e", "%2E"]

def doubleDots : List String :=
  ["..", ".%2e", ".%2E", "%2e.", "%2E.", "%2e%2e", "%2e%2E", "%2E%2e", "%2E%2E"]

/-- The segments that are left of a path behind those so far. -/
def normalise (before : List String) : List String → List String
  | [] => before
  | segment :: rest =>
      let ended := if rest = [] then [""] else []
      if segment ∈ doubleDots then normalise (before.dropLast ++ ended) rest
      else if segment ∈ singleDots then normalise (before ++ ended) rest
      else normalise (before ++ [segment]) rest

/-- The texts of the segments that a request for the URL names. -/
def segments (url : String) : Option (List String) :=
  (normalise [] (Text.split (String.ofList ((pathname url).drop 1)) '/')).mapM decode

/-- The URL of a path below an origin. -/
def locate (origin : String) (texts : List String) : String :=
  origin ++ String.ofList ('/' :: ['/'].intercalate (texts.map fun text => (encode text).toList))

/-- A text that names a segment. -/
def Plain (text : String) : Prop := text ≠ "." ∧ text ≠ ".."

/-- The origin of a server: its host, and nothing that would end it. -/
structure IsOrigin (origin : String) (authority : List Char) : Prop where
  eq : origin = String.ofList ("http://".toList ++ authority)
  host : ∀ char ∈ authority, char ≠ '/' ∧ char ≠ '?' ∧ char ≠ '#'

section Path

variable {origin : String} {authority : List Char} {texts : List String}

/-- A dot segment names a dot, however its dots are written. -/
theorem decode_dots : (∀ segment ∈ singleDots, decode segment = some ".") ∧
    ∀ segment ∈ doubleDots, decode segment = some ".." := by
  have hdots : ∀ (text : String) (segments : List String), (∀ segment ∈ segments,
      bytes segment.toList = some (text.toList.flatMap String.utf8EncodeChar)) →
        ∀ segment ∈ segments, decode segment = some text := by
    intro text segments hsegments segment hsegment
    simpa using decode_of_bytes (hsegments segment hsegment)
  exact ⟨hdots "." singleDots (by decide), hdots ".." doubleDots (by decide)⟩

/-- The component of a text that names a segment is no dots. -/
theorem Plain.encode_notMem {text : String} (htext : Plain text) :
    encode text ∉ doubleDots ∧ encode text ∉ singleDots := by
  constructor
  · intro hdots
    have heq := decode_dots.2 _ hdots
    rw [decode_encode] at heq
    exact htext.2 (Option.some.inj heq)
  · intro hdot
    have heq := decode_dots.1 _ hdot
    rw [decode_encode] at heq
    exact htext.1 (Option.some.inj heq)

/-- Plain texts are left as they are. -/
theorem normalise_plain (htexts : ∀ text ∈ texts, Plain text) (before : List String) :
    normalise before (texts.map encode) = before ++ texts.map encode := by
  induction texts generalizing before with
  | nil => simp [normalise]
  | cons text rest ih =>
      obtain ⟨htext, hrest⟩ := List.forall_mem_cons.mp htexts
      obtain ⟨hdouble, hsingle⟩ := htext.encode_notMem
      simp only [List.map_cons, normalise, if_neg hdouble, if_neg hsingle, ih hrest,
        List.append_assoc, List.cons_append, List.nil_append]

theorem mem_intercalate {components : List (List Char)} {separator char : Char}
    (hchar : char ∈ [separator].intercalate components) :
    char = separator ∨ ∃ component ∈ components, char ∈ component := by
  induction components with
  | nil => cases hchar
  | cons component rest ih =>
      by_cases hrest : rest = []
      · subst hrest
        exact .inr ⟨component, List.mem_cons_self, by simpa using hchar⟩
      · rw [List.intercalate_cons_of_ne_nil hrest, List.append_assoc] at hchar
        rcases List.mem_append.mp hchar with hchar | hchar
        · exact .inr ⟨component, List.mem_cons_self, hchar⟩
        · rcases List.mem_cons.mp hchar with rfl | hchar
          · exact .inl rfl
          · exact (ih hchar).imp id fun ⟨other, hother, hmem⟩ =>
              ⟨other, List.mem_cons_of_mem component hother, hmem⟩

/-- The path of a located text is found behind its origin. -/
theorem pathname_locate (horigin : IsOrigin origin authority) :
    pathname (locate origin texts) =
      '/' :: ['/'].intercalate (texts.map fun text => (encode text).toList) := by
  have hpath : ∀ char ∈ '/' :: ['/'].intercalate (texts.map fun text => (encode text).toList),
      (char ≠ '?' && char ≠ '#') = true := by
    intro char hchar
    rw [Bool.and_eq_true, decide_eq_true_eq, decide_eq_true_eq]
    rcases List.mem_cons.mp hchar with rfl | hchar
    · exact ⟨by decide, by decide⟩
    · rcases mem_intercalate hchar with rfl | ⟨component, hcomponent, hmem⟩
      · exact ⟨by decide, by decide⟩
      · obtain ⟨text, _, rfl⟩ := List.mem_map.mp hcomponent
        exact ⟨ne_of_mem_encode hmem (by decide) (by decide),
          ne_of_mem_encode hmem (by decide) (by decide)⟩
  have hhost : (authority ++
      '/' :: ['/'].intercalate (texts.map fun text => (encode text).toList)).dropWhile (· ≠ '/') =
        '/' :: ['/'].intercalate (texts.map fun text => (encode text).toList) := by
    rw [List.dropWhile_append_of_pos fun char hchar => decide_eq_true (horigin.host char hchar).1]
    simp
  have hscheme : ((locate origin texts).toList.dropWhile (· ≠ ':')).drop 3 = authority ++
      '/' :: ['/'].intercalate (texts.map fun text => (encode text).toList) := by
    rw [locate, horigin.eq]
    simp
  rw [pathname, hscheme, hhost, List.takeWhile_eq_self_iff.mpr hpath]

/-- The path of components is split at its slashes. -/
theorem segments_eq_normalise (horigin : IsOrigin origin authority) (hnonempty : texts ≠ []) :
    segments (locate origin texts) = (normalise [] (texts.map encode)).mapM decode := by
  have hsplit : ∀ component ∈ texts.map fun text => (encode text).toList, '/' ∉ component := by
    intro component hcomponent hslash
    obtain ⟨text, _, rfl⟩ := List.mem_map.mp hcomponent
    exact ne_of_mem_encode hslash (by decide) (by decide) rfl
  rw [segments, pathname_locate horigin, List.drop_one, List.tail_cons, Text.split,
    String.toList_ofList, List.splitOn_intercalate '/' hsplit (by simpa using hnonempty),
    List.map_map]
  have hmap : (String.ofList ∘ fun text => (encode text).toList) = encode := by
    funext text
    exact String.ofList_toList
  rw [hmap]

/-- The texts are read back from the URL of their components. -/
theorem segments_locate (horigin : IsOrigin origin authority) (htexts : ∀ text ∈ texts, Plain text)
    (hnonempty : texts ≠ []) : segments (locate origin texts) = some texts := by
  rw [segments_eq_normalise horigin hnonempty, normalise_plain htexts, List.nil_append,
    mapM_decode]

/-- What is left of a path is one of its segments, or empty. -/
theorem mem_normalise {before rest : List String} {segment : String}
    (hsegment : segment ∈ normalise before rest) : segment ∈ before ∨ segment = "" ∨
      segment ∈ rest ∧ segment ∉ doubleDots ∧ segment ∉ singleDots := by
  induction rest generalizing before with
  | nil => exact .inl hsegment
  | cons first rest ih =>
      have hended : segment ∈ (if rest = [] then [""] else []) → segment = "" := by
        split
        next => exact List.mem_singleton.mp
        next => exact fun hmem => absurd hmem List.not_mem_nil
      have hstep : ∀ start, segment ∈ normalise start rest → (segment ∈ start →
          segment ∈ before ∨ segment = "" ∨
            segment ∈ first :: rest ∧ segment ∉ doubleDots ∧ segment ∉ singleDots) →
          segment ∈ before ∨ segment = "" ∨
            segment ∈ first :: rest ∧ segment ∉ doubleDots ∧ segment ∉ singleDots := by
        intro start hmem hstart
        rcases ih hmem with hmem | hempty | ⟨hmem, hdots⟩
        · exact hstart hmem
        · exact .inr (.inl hempty)
        · exact .inr (.inr ⟨List.mem_cons_of_mem first hmem, hdots⟩)
      rw [normalise] at hsegment
      split at hsegment
      next =>
        apply hstep _ hsegment
        intro hmem
        rcases List.mem_append.mp hmem with hmem | hmem
        · exact .inl (List.mem_of_mem_dropLast hmem)
        · exact .inr (.inl (hended hmem))
      next hdouble =>
        split at hsegment
        next =>
          apply hstep _ hsegment
          intro hmem
          exact (List.mem_append.mp hmem).imp id fun hmem => .inl (hended hmem)
        next hsingle =>
          apply hstep _ hsegment
          intro hmem
          refine (List.mem_append.mp hmem).imp id fun hmem => .inr ?_
          obtain rfl := List.mem_singleton.mp hmem
          exact ⟨List.mem_cons_self, hdouble, hsingle⟩

theorem exists_of_mem_mapM {components found : List String} {text : String}
    (hfound : components.mapM decode = some found) (htext : text ∈ found) :
    ∃ component ∈ components, decode component = some text := by
  induction components generalizing found with
  | nil =>
      obtain rfl := Option.some.inj hfound
      cases htext
  | cons component rest ih =>
      rw [List.mapM_cons] at hfound
      obtain ⟨first, hfirst, hfound⟩ := Option.bind_eq_some_iff.mp hfound
      obtain ⟨others, hothers, hfound⟩ := Option.bind_eq_some_iff.mp hfound
      obtain rfl := Option.some.inj hfound
      rcases List.mem_cons.mp htext with rfl | htext
      · exact ⟨component, List.mem_cons_self, hfirst⟩
      · obtain ⟨other, hother, hdecode⟩ := ih hothers htext
        exact ⟨other, List.mem_cons_of_mem component hother, hdecode⟩

/-- What is read from the URL of components names segments. -/
theorem plain_of_segments {found : List String} (horigin : IsOrigin origin authority)
    (hnonempty : texts ≠ []) (hfound : segments (locate origin texts) = some found)
    {text : String} (htext : text ∈ found) : Plain text := by
  rw [segments_eq_normalise horigin hnonempty] at hfound
  obtain ⟨component, hcomponent, hdecode⟩ := exists_of_mem_mapM hfound htext
  rcases mem_normalise hcomponent with hnil | rfl | ⟨hmem, hdouble, hsingle⟩
  · cases hnil
  · rw [← encode_empty, decode_encode] at hdecode
    obtain rfl := Option.some.inj hdecode
    exact ⟨by decide, by decide⟩
  · obtain ⟨source, _, rfl⟩ := List.mem_map.mp hmem
    rw [decode_encode] at hdecode
    obtain rfl := Option.some.inj hdecode
    constructor
    · rintro rfl
      exact hsingle (by decide)
    · rintro rfl
      exact hdouble (by decide)

end Path

end RaylsSuite.Foundation.Percent
