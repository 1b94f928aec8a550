import Mathlib.Algebra.Ring.Nat
import Mathlib.Data.List.Count
import RaylsSuite.Runner.Flags

/-! # What is left of repeated flags

The tokens of a list of flags are read as items: the two flags that the runner
knows, one of them with its pattern, and everything else. Of these items the
first `--bail` and the last `--grep` stay where they stood, and so do all others.
-/

namespace RaylsSuite.Runner

open Foundation

/-- An item of a list of flags. An empty pair of quotes makes an undefined token, which is a
pattern as well. -/
inductive FlagItem where
  | bail
  | grep (pattern : Option String)
      (hpattern : ∀ text ∈ pattern, Text.startsWith text "-" = false)
  | other (token : Option String) (hbail : token ≠ some "--bail") (hgrep : token ≠ some "--grep")

namespace FlagItem

def render : FlagItem → List (Option String)
  | .bail => [some "--bail"]
  | .grep pattern _ => [some "--grep", pattern]
  | .other token _ _ => [token]

def isBail : FlagItem → Bool
  | .bail => true
  | .grep _ _ | .other _ _ _ => false

def isGrep : FlagItem → Bool
  | .grep _ _ => true
  | .bail | .other _ _ _ => false

def isOther : FlagItem → Bool
  | .other _ _ _ => true
  | .bail | .grep _ _ => false

/-- Whether the item at a position stays: a `--bail` does if none stands before it, a
`--grep` if none stands behind it. -/
def survives (items : List FlagItem) (item : FlagItem) (index : Nat) : Bool :=
  match item with
  | .bail => !(items.take index).any isBail
  | .grep _ _ => !(items.drop (index + 1)).any isGrep
  | .other _ _ _ => true

end FlagItem

open FlagItem

/-- The tokens of the items. -/
def renderItems (items : List FlagItem) : List (Option String) := items.flatMap FlagItem.render

/-- The items that stay, each at its place. -/
def keptItems (items : List FlagItem) : List FlagItem :=
  (items.zipIdx.filter fun entry => survives items entry.1 entry.2).map Prod.fst

/-- What `_dedupeFlags` makes of the items. -/
structure DedupeLaw (items : List FlagItem) (result : List (Option String)) : Prop where
  kept : result = renderItems (keptItems items)
  bail_once : result.count (some "--bail") ≤ 1
  grep_once : result.count (some "--grep") ≤ 1
  others : (keptItems items).filter isOther = items.filter isOther
  again : _dedupeFlags result = result

/-! ## Tokens of items -/

@[simp] theorem renderItems_nil : renderItems [] = [] := rfl

@[simp] theorem renderItems_cons (item : FlagItem) (items : List FlagItem) :
    renderItems (item :: items) = item.render ++ renderItems items := List.flatMap_cons

@[simp] theorem renderItems_append (first second : List FlagItem) :
    renderItems (first ++ second) = renderItems first ++ renderItems second :=
  List.flatMap_append

theorem pattern_ne {pattern : Option String} {flag : String}
    (hpattern : ∀ text ∈ pattern, Text.startsWith text "-" = false)
    (hflag : Text.startsWith flag "-" = true) : pattern ≠ some flag := by
  rintro rfl
  exact absurd ((hpattern flag rfl).symm.trans hflag) Bool.false_ne_true

/-- A token that an item shows once or not at all. -/
theorem count_renderItems {token : Option String} {shows : FlagItem → Bool}
    (hcount : ∀ item : FlagItem, item.render.count token = if shows item then 1 else 0)
    (items : List FlagItem) : (renderItems items).count token = items.countP shows := by
  induction items with
  | nil => rfl
  | cons item items ih =>
      rw [renderItems_cons, List.count_append, ih, List.countP_cons, hcount, Nat.add_comm]

/-- Rendering keeps the number of `--bail` flags. -/
theorem count_bail_render (items : List FlagItem) :
    (renderItems items).count (some "--bail") = items.countP isBail := by
  refine count_renderItems (fun item => ?_) items
  cases item with
  | bail => rfl
  | grep pattern hpattern =>
      simp [FlagItem.render, isBail,
        pattern_ne hpattern (show Text.startsWith "--bail" "-" = true by decide)]
  | other token hbail => simp [FlagItem.render, isBail, hbail]

/-- Rendering keeps the number of `--grep` flags. -/
theorem count_grep_render (items : List FlagItem) :
    (renderItems items).count (some "--grep") = items.countP isGrep := by
  refine count_renderItems (fun item => ?_) items
  cases item with
  | bail => rfl
  | grep pattern hpattern =>
      simp [FlagItem.render, isGrep,
        pattern_ne hpattern (show Text.startsWith "--grep" "-" = true by decide)]
  | other token _ hgrep => simp [FlagItem.render, isGrep, hgrep]

theorem mem_bail_render {items : List FlagItem} :
    some "--bail" ∈ renderItems items ↔ items.any isBail = true := by
  rw [← List.count_pos_iff, count_bail_render, List.countP_pos_iff, List.any_eq_true]

theorem mem_grep_render {items : List FlagItem} :
    some "--grep" ∈ renderItems items ↔ items.any isGrep = true := by
  rw [← List.count_pos_iff, count_grep_render, List.countP_pos_iff, List.any_eq_true]

/-! ## One item more -/

theorem survives_concat {items : List FlagItem} {item : FlagItem} {index : Nat}
    (hindex : index < items.length) (next : FlagItem) :
    survives (items ++ [next]) item index =
      (survives items item index && !(item.isGrep && next.isGrep)) := by
  have htake : (items ++ [next]).take index = items.take index :=
    List.take_append_of_le_length hindex.le
  have hdrop : (items ++ [next]).drop (index + 1) = items.drop (index + 1) ++ [next] :=
    List.drop_append_of_le_length hindex
  cases item with
  | bail => simp [survives, isGrep, htake]
  | grep pattern hpattern => simp [survives, isGrep, hdrop, List.any_append]
  | other token => simp [survives, isGrep]

theorem keptItems_concat (items : List FlagItem) (next : FlagItem) :
    keptItems (items ++ [next]) =
      (keptItems items).filter (fun item => !(item.isGrep && next.isGrep)) ++
        if next.isBail && items.any isBail then [] else [next] := by
  have hearlier : (items.zipIdx.filter fun entry =>
        survives (items ++ [next]) entry.1 entry.2).map Prod.fst =
      (keptItems items).filter fun item => !(item.isGrep && next.isGrep) := by
    rw [keptItems, List.filter_map, List.filter_filter]
    refine congrArg _ (List.filter_congr fun entry hentry => ?_)
    rw [survives_concat (by simpa using List.snd_lt_add_of_mem_zipIdx hentry), Bool.and_comm]
    rfl
  have hlast : survives (items ++ [next]) next items.length =
      !(next.isBail && items.any isBail) := by
    cases next <;> simp [survives, isBail]
  rw [keptItems, List.zipIdx_append, List.filter_append, List.map_append, hearlier,
    List.zipIdx_cons, List.zipIdx_nil, Nat.zero_add, List.filter_cons, hlast]
  cases next.isBail && items.any isBail <;> rfl

theorem keptItems_bail (items : List FlagItem) :
    keptItems (items ++ [.bail]) =
      keptItems items ++ if items.any isBail then [] else [.bail] := by
  simp [keptItems_concat, isBail, isGrep]

theorem keptItems_grep (items : List FlagItem) {pattern : Option String}
    (hpattern : ∀ text ∈ pattern, Text.startsWith text "-" = false) :
    keptItems (items ++ [.grep pattern hpattern]) =
      (keptItems items).filter (fun item => !item.isGrep) ++ [.grep pattern hpattern] := by
  simp [keptItems_concat, isBail, isGrep]

theorem keptItems_other (items : List FlagItem) {token : Option String}
    (hbail : token ≠ some "--bail") (hgrep : token ≠ some "--grep") :
    keptItems (items ++ [.other token hbail hgrep]) =
      keptItems items ++ [.other token hbail hgrep] := by
  simp [keptItems_concat, isBail, isGrep]

/-! ## Which items stay -/

/-- Some `--bail` is kept exactly when one was given. -/
theorem any_bail_kept (items : List FlagItem) :
    (keptItems items).any isBail = items.any isBail := by
  induction items using List.reverseRecOn with
  | nil => rfl
  | append_singleton items next ih =>
      cases next with
      | bail => cases hany : items.any isBail <;> simp [keptItems_bail, ih, hany, isBail]
      | grep pattern hpattern =>
          have hfilter : ((keptItems items).filter fun item => !item.isGrep).any isBail =
              (keptItems items).any isBail := by
            rw [List.any_filter]
            refine congrArg _ (funext fun item => ?_)
            cases item <;> rfl
          rw [keptItems_grep, List.any_append, List.any_append, hfilter, ih]
      | other token hbail hgrep => simp [keptItems_other, ih, isBail]

/-- At most one `--bail` is kept. -/
theorem countP_bail_kept (items : List FlagItem) : (keptItems items).countP isBail ≤ 1 := by
  induction items using List.reverseRecOn with
  | nil => exact Nat.zero_le 1
  | append_singleton items next ih =>
      cases next with
      | bail =>
          rw [keptItems_bail, List.countP_append]
          cases hany : items.any isBail with
          | true => simpa using ih
          | false =>
              rw [← any_bail_kept, ← Bool.not_eq_true, List.any_eq_true,
                ← List.countP_pos_iff] at hany
              rw [Nat.eq_zero_of_not_pos hany]
              exact Nat.le_refl 1
      | grep pattern hpattern =>
          rw [keptItems_grep, List.countP_append]
          exact (List.filter_sublist.countP_le).trans ih
      | other token hbail hgrep =>
          rw [keptItems_other, List.countP_append]
          exact ih

/-- At most one `--grep` is kept. -/
theorem countP_grep_kept (items : List FlagItem) : (keptItems items).countP isGrep ≤ 1 := by
  induction items using List.reverseRecOn with
  | nil => exact Nat.zero_le 1
  | append_singleton items next ih =>
      cases next with
      | bail =>
          rw [keptItems_bail, List.countP_append]
          cases items.any isBail <;> exact ih
      | grep pattern hpattern =>
          rw [keptItems_grep, List.countP_append, List.countP_eq_zero.mpr]
          · exact Nat.le_refl 1
          · intro item hmem
            simpa using (List.mem_filter.mp hmem).2
      | other token hbail hgrep =>
          rw [keptItems_other, List.countP_append]
          exact ih

/-- The flags that are neither `--bail` nor `--grep` are all kept, in their order. -/
theorem filter_other_kept (items : List FlagItem) :
    (keptItems items).filter isOther = items.filter isOther := by
  induction items using List.reverseRecOn with
  | nil => rfl
  | append_singleton items next ih =>
      rw [List.filter_append, ← ih]
      cases next with
      | bail =>
          rw [keptItems_bail, List.filter_append]
          cases items.any isBail <;> rfl
      | grep pattern hpattern =>
          rw [keptItems_grep, List.filter_append, List.filter_filter]
          refine congrArg (· ++ _) (List.filter_congr fun item _ => ?_)
          cases item <;> rfl
      | other token hbail hgrep => rw [keptItems_other, List.filter_append]

/-- A list without repetitions keeps all its items. -/
theorem keptItems_eq_self {items : List FlagItem} (hbail : items.countP isBail ≤ 1)
    (hgrep : items.countP isGrep ≤ 1) : keptItems items = items := by
  have hall : items.zipIdx.filter (fun entry => survives items entry.1 entry.2) =
      items.zipIdx := by
    refine List.filter_eq_self.mpr ?_
    rintro ⟨item, index⟩ hentry
    have hitem := List.mk_mem_zipIdx_iff_getElem?.mp hentry
    obtain ⟨hindex, rfl⟩ := List.getElem?_eq_some_iff.mp hitem
    have hsplit : items = items.take index ++ items[index] :: items.drop (index + 1) := by
      rw [List.getElem_cons_drop, List.take_append_drop]
    rw [hsplit, List.countP_append, List.countP_cons] at hbail hgrep
    cases hkind : items[index] with
    | bail =>
        have hnone : (items.take index).countP isBail = 0 := by
          rw [hkind, if_pos (show isBail .bail = true from rfl)] at hbail
          omega
        rw [List.countP_eq_zero] at hnone
        simpa [survives] using hnone
    | grep pattern hpattern =>
        have hnone : (items.drop (index + 1)).countP isGrep = 0 := by
          rw [hkind, if_pos (show isGrep (.grep pattern hpattern) = true from rfl)] at hgrep
          omega
        rw [List.countP_eq_zero] at hnone
        simpa [survives] using hnone
    | other token => rfl
  rw [keptItems, hall, List.zipIdx_map_fst]

/-! ## The loop -/

section Splice

variable {α : Type} [DecidableEq α] {flag : α} {out front before after : List α}

theorem idxOf?_append_cons (hfront : flag ∉ front) :
    (front ++ flag :: after).idxOf? flag = some front.length := by
  induction front with
  | nil => simp [List.idxOf?_cons]
  | cons first front ih =>
      rw [List.mem_cons, not_or] at hfront
      rw [List.cons_append, List.idxOf?_cons, if_neg (by simpa using Ne.symm hfront.1), ih hfront.2]
      rfl

theorem spliceLast_of_not_mem (hout : flag ∉ out) : spliceLast flag out = out := by
  rw [spliceLast, List.idxOf?_eq_none_iff.mpr (by simpa using hout)]

theorem spliceLast_append_cons (hafter : flag ∉ after) :
    spliceLast flag (before ++ flag :: after) = before ++ after.drop 1 := by
  have hback : (before ++ flag :: after).reverse.idxOf? flag = some after.length := by
    rw [List.reverse_append, List.reverse_cons, List.append_assoc, List.singleton_append,
      idxOf?_append_cons (by simpa using hafter), List.length_reverse]
  have hposition : (before ++ flag :: after).length - 1 - after.length = before.length := by
    rw [List.length_append, List.length_cons]
    omega
  simp only [spliceLast, hback, hposition, List.take_left']
  rw [← List.drop_drop, List.drop_left' rfl]
  cases after <;> rfl

end Splice

/-- The splice drops the `--grep` of a list that has at most one. -/
theorem spliceLast_render {items : List FlagItem} (hgrep : items.countP isGrep ≤ 1) :
    spliceLast (some "--grep") (renderItems items) =
      renderItems (items.filter fun item => !item.isGrep) := by
  by_cases hany : items.any isGrep = true
  · obtain ⟨item, hmem, hitem⟩ := List.any_eq_true.mp hany
    obtain ⟨before, after, rfl⟩ := List.append_of_mem hmem
    cases item with
    | bail => cases hitem
    | other token => cases hitem
    | grep pattern hpattern =>
        rw [List.countP_append, List.countP_cons_of_pos rfl] at hgrep
        have hbefore : before.filter (fun item => !item.isGrep) = before := by
          have hnone : before.countP isGrep = 0 := by omega
          rw [List.countP_eq_zero] at hnone
          exact List.filter_eq_self.mpr fun item hitem => by simpa using hnone item hitem
        have hrest : after.countP isGrep = 0 := by omega
        have hafter : after.filter (fun item => !item.isGrep) = after := by
          rw [List.countP_eq_zero] at hrest
          exact List.filter_eq_self.mpr fun item hitem => by simpa using hrest item hitem
        have habsent : some "--grep" ∉ pattern :: renderItems after := by
          rw [List.mem_cons, not_or, ← List.count_eq_zero, count_grep_render]
          exact ⟨(pattern_ne hpattern (by decide)).symm, hrest⟩
        rw [renderItems_append, renderItems_cons, FlagItem.render, List.cons_append,
          List.singleton_append, spliceLast_append_cons habsent, List.filter_append,
          List.filter_cons_of_neg (by simp [isGrep]), hbefore, hafter, renderItems_append]
        rfl
  · rw [spliceLast_of_not_mem (mt mem_grep_render.mp hany)]
    refine congrArg _ (List.filter_eq_self.mpr fun item hmem => ?_).symm
    have hitem : isGrep item ≠ true := fun hgrep => hany (List.any_eq_true.mpr ⟨item, hmem, hgrep⟩)
    simpa using hitem

/-- The loop invariant: what has been built renders the items kept of those read. -/
theorem dedupeFlagsFrom_render (items rest : List FlagItem) :
    dedupeFlagsFrom (some "--bail") (some "--grep") (renderItems (keptItems items))
        (renderItems rest) = renderItems (keptItems (items ++ rest)) := by
  induction rest generalizing items with
  | nil => simp [dedupeFlagsFrom]
  | cons item rest ih =>
      rw [show items ++ item :: rest = items ++ [item] ++ rest by simp, ← ih, renderItems_cons]
      cases item with
      | bail =>
          rw [FlagItem.render, List.singleton_append, dedupeFlagsFrom_bail, keptItems_bail]
          simp only [mem_bail_render, any_bail_kept]
          split <;> simp [FlagItem.render]
      | grep pattern hpattern =>
          rw [FlagItem.render, List.cons_append, List.singleton_append,
            dedupeFlagsFrom_grep (by decide), keptItems_grep, renderItems_append,
            spliceLast_render (countP_grep_kept items)]
          rfl
      | other token hbail hgrep =>
          rw [FlagItem.render, List.singleton_append, dedupeFlagsFrom_other hbail hgrep,
            keptItems_other, renderItems_append]
          rfl

theorem dedupeFlags_render (items : List FlagItem) :
    _dedupeFlags (renderItems items) = renderItems (keptItems items) :=
  dedupeFlagsFrom_render [] items

/-- For every list of items: the first `--bail` and the last `--grep` stay with all other
tokens, and the result is stable. -/
theorem dedupeFlags_law (items : List FlagItem) :
    DedupeLaw items (_dedupeFlags (renderItems items)) where
  kept := dedupeFlags_render items
  bail_once := by
    rw [dedupeFlags_render, count_bail_render]
    exact countP_bail_kept items
  grep_once := by
    rw [dedupeFlags_render, count_grep_render]
    exact countP_grep_kept items
  others := filter_other_kept items
  again := by
    have hkept := keptItems_eq_self (countP_bail_kept items) (countP_grep_kept items)
    rw [dedupeFlags_render, dedupeFlags_render, hkept]

example : _dedupeFlags ([some "--grep", some "@smoke", some "--bail", some "--grep",
    some "@hubless", some "--bail"]) = [some "--bail", some "--grep", some "@hubless"] := by
  decide

end RaylsSuite.Runner
