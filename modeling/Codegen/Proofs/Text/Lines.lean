import Codegen.Text.Blank
import Codegen.Text.Lines
import Mathlib.Data.List.Basic
import Mathlib.Data.List.Induction

/-! The lines of texts that are put together, and those of them that are not blank. Joining texts line
by line joins their lines; line ends at the edges of a text only make blank lines. Things that are sorted
by a text of each are in the order of their texts. -/
namespace Codegen.Text

theorem cutAppend (mark : Char) (first second : List Char) :
    cut mark (first ++ mark :: second) = cut mark first ++ cut mark second := by
  induction first with
  | nil => simp [cut]
  | cons c rest ih =>
    rw [List.cons_append, cut]
    split
    · rename_i same
      rw [ih, cut, if_pos same, List.cons_append]
    · rename_i other
      rw [ih, cut, if_neg other]
      cases pieces : cut mark rest with
      | nil => exact absurd pieces (cutNonempty mark rest)
      | cons piece others => rfl

theorem cutPlain {mark : Char} {cs : List Char} (plain : mark ∉ cs) : cut mark cs = [cs] := by
  induction cs with
  | nil => rfl
  | cons c rest ih =>
    have other : c ≠ mark := fun same => plain (by simp [same])
    rw [cut, if_neg other, ih fun inside => plain (List.mem_cons_of_mem _ inside)]

theorem cutPieces {mark : Char} {cs piece : List Char} (member : piece ∈ cut mark cs) :
    mark ∉ piece := by
  induction cs generalizing piece with
  | nil =>
    rw [cut, List.mem_singleton] at member
    simp [member]
  | cons c rest ih =>
    rw [cut] at member
    split at member
    · rcases List.mem_cons.mp member with rfl | inside
      · exact List.not_mem_nil
      · exact ih inside
    · rename_i other
      cases pieces : cut mark rest with
      | nil => exact absurd pieces (cutNonempty mark rest)
      | cons first others =>
        simp only [pieces, List.mem_cons] at member ih
        rcases member with rfl | inside
        · rw [List.mem_cons, not_or]
          exact ⟨Ne.symm other, ih (.inl rfl)⟩
        · exact ih (.inr inside)

/- A character stands in the piece that has as many marks before it. -/
theorem cutAt {mark c : Char} (other : c ≠ mark) (before after : List Char) :
    ∃ piece, (cut mark (before ++ c :: after))[before.count mark]? = some piece ∧ c ∈ piece := by
  induction before with
  | nil =>
    rw [List.nil_append, cut, if_neg other]
    cases cut mark after with
    | nil => exact ⟨[c], rfl, List.mem_cons_self⟩
    | cons piece pieces => exact ⟨c :: piece, rfl, List.mem_cons_self⟩
  | cons d rest ih =>
    obtain ⟨piece, found, inside⟩ := ih
    rw [List.cons_append, cut]
    split
    · rename_i same
      rw [same, List.count_cons_self]
      exact ⟨piece, found, inside⟩
    · rename_i apart
      rw [List.count_cons_of_ne apart]
      cases pieces : cut mark (rest ++ c :: after) with
      | nil => exact absurd pieces (cutNonempty mark _)
      | cons first others =>
        rw [pieces] at found
        cases index : rest.count mark with
        | zero =>
          rw [index] at found
          cases found
          exact ⟨d :: piece, rfl, List.mem_cons_of_mem d inside⟩
        | succ n =>
          rw [index] at found
          exact ⟨piece, found, inside⟩

/- The pieces before a piece, with their marks, are the text before it. -/
theorem cutBefore {mark : Char} {cs piece : List Char} {first more : List (List Char)}
    (parts : cut mark cs = first ++ piece :: more) :
    ∃ rest, cs = first.flatMap (· ++ [mark]) ++ rest := by
  have glued : ∃ rest, glue mark (first ++ piece :: more) = first.flatMap (· ++ [mark]) ++ rest := by
    clear parts
    induction first with
    | nil => exact ⟨_, rfl⟩
    | cons front others ih =>
      obtain ⟨rest, text⟩ := ih
      refine ⟨rest, ?_⟩
      cases parts : others ++ piece :: more with
      | nil => simp at parts
      | cons next later =>
        rw [parts] at text
        rw [List.cons_append, parts, glue, text]
        · simp
        · simp
  rwa [← parts, glueCut] at glued

theorem joinGlued (mark : Char) (pieces : List (List Char)) :
    join (String.ofList [mark]) (pieces.map String.ofList) = String.ofList (glue mark pieces) := by
  induction pieces using glue.induct with
  | case1 => rfl
  | case2 piece => simp [join, glue]
  | case3 piece pieces more ih =>
    have some : pieces.map String.ofList ≠ [] := fun none => more (List.map_eq_nil_iff.mp none)
    rw [List.map_cons, join, String.intercalate_cons_of_ne_nil some, ← join, ih, glue]
    · rw [String.append_assoc, ← String.ofList_append, ← String.ofList_append]
      rfl
    · exact more

theorem joinSplit (mark : Char) (s : String) : join (String.ofList [mark]) (split mark s) = s := by
  rw [split, joinGlued, glueCut, String.ofList_toList]

theorem splitAppend (mark : Char) (first second : String) :
    split mark (first ++ String.ofList [mark] ++ second) = split mark first ++ split mark second := by
  have text : (first ++ String.ofList [mark] ++ second).toList = first.toList ++ mark :: second.toList := by
    simp
  rw [split, text, cutAppend, List.map_append]
  rfl

theorem splitPlain {mark : Char} {s : String} (plain : mark ∉ s.toList) : split mark s = [s] := by
  rw [split, cutPlain plain, List.map_singleton, String.ofList_toList]

theorem splitJoin {mark : Char} {parts : List String} (some : parts ≠ [])
    (plain : ∀ part ∈ parts, mark ∉ part.toList) :
    split mark (join (String.ofList [mark]) parts) = parts := by
  induction parts with
  | nil => exact absurd rfl some
  | cons part rest ih =>
    have first := splitPlain (plain part List.mem_cons_self)
    by_cases last : rest = []
    · simpa [last, join] using first
    · rw [join, String.intercalate_cons_of_ne_nil last, splitAppend, first]
      exact congrArg (part :: ·) (ih last fun other member => plain other (List.mem_cons_of_mem _ member))

theorem joinExtended {mark : Char} {s : String} {pieces : List String} (starts : split mark s <+: pieces) :
    join (String.ofList [mark]) pieces = s ∨
      ∃ rest, join (String.ofList [mark]) pieces = s ++ String.ofList [mark] ++ rest := by
  obtain ⟨more, rfl⟩ := starts
  by_cases last : more = []
  · rw [last, List.append_nil]
    exact .inl (joinSplit mark s)
  · have some : split mark s ≠ [] := fun none => cutNonempty mark s.toList (List.map_eq_nil_iff.mp none)
    refine .inr ⟨join (String.ofList [mark]) more, ?_⟩
    rw [join, String.intercalate_append_of_ne_nil some last, ← join, joinSplit]
    rfl

theorem splitPrefix {mark : Char} {s t : String} :
    split mark s <+: split mark t ↔ t = s ∨ ∃ rest, t = s ++ String.ofList [mark] ++ rest := by
  constructor
  · intro starts
    have extended := joinExtended starts
    rwa [joinSplit] at extended
  · rintro (rfl | ⟨rest, rfl⟩)
    · exact List.prefix_rfl
    · rw [splitAppend]
      exact List.prefix_append _ _

theorem joinListed (part : String) {rest : List String} (some : rest ≠ []) :
    (join ", " (part :: rest)).toList = part.toList ++ ',' :: ' ' :: (join ", " rest).toList := by
  rw [join, String.intercalate_cons_of_ne_nil some, join]
  simp

theorem startsAppend {s start : String} : startsWith s start = true ↔ ∃ rest, s = start ++ rest := by
  rw [startsWith, List.isPrefixOf_iff_prefix]
  constructor
  · rintro ⟨rest, whole⟩
    exact ⟨String.ofList rest, String.toList_inj.mp (by rw [String.toList_append, String.toList_ofList, whole])⟩
  · rintro ⟨rest, rfl⟩
    rw [String.toList_append]
    exact List.prefix_append _ _

section Trailing

variable (mark : Char)

theorem splitTrailing (s : String) : split mark (dropTrailing mark s) <+: split mark s := by
  have dropped (cs : List Char) :
      cut mark (cs.reverse.dropWhile (· = mark)).reverse <+: cut mark cs := by
    induction cs using List.reverseRecOn with
    | nil => exact List.prefix_rfl
    | append_singleton cs c ih =>
      rw [List.reverse_append, List.reverse_singleton, List.singleton_append, List.dropWhile_cons]
      split
      · rename_i ends
        rw [of_decide_eq_true ends, cutAppend]
        exact ih.trans (List.prefix_append _ _)
      · have whole : (c :: cs.reverse).reverse = cs ++ [c] := by
          rw [List.reverse_cons, List.reverse_reverse]
        exact whole ▸ List.prefix_rfl
  rw [split, dropTrailing, String.toList_ofList]
  exact (dropped s.toList).map String.ofList

theorem dropTrailingAppend (first second : String) :
    dropTrailing mark (first ++ String.ofList [mark] ++ second) =
      if dropTrailing mark second = "" then dropTrailing mark first
      else first ++ String.ofList [mark] ++ dropTrailing mark second := by
  have backwards : (first ++ String.ofList [mark] ++ second).toList.reverse =
      second.toList.reverse ++ mark :: first.toList.reverse := by simp
  rw [dropTrailing, backwards, List.dropWhile_append, dropTrailing]
  by_cases none : second.toList.reverse.dropWhile (· = mark) = []
  · simp [none, dropTrailing]
  · simp [none, ← String.toList_inj]

end Trailing

theorem linesAppend (first second : String) :
    lines (first ++ "\n" ++ second) = lines first ++ lines second :=
  splitAppend '\n' first second

theorem lineOfText {text line : String} (member : line ∈ lines text) : '\n' ∉ line.toList := by
  obtain ⟨piece, inside, rfl⟩ := List.mem_map.mp member
  rw [String.toList_ofList]
  exact cutPieces inside

def nonBlank (texts : List String) : List String :=
  texts.filter (fun line => !allBlank line)

def nonBlankLines (s : String) : List String :=
  nonBlank (lines s)

theorem nonBlankAppend (first second : List String) :
    nonBlank (first ++ second) = nonBlank first ++ nonBlank second :=
  List.filter_append ..

theorem nonBlankReverse (texts : List String) : nonBlank texts.reverse = (nonBlank texts).reverse :=
  List.filter_reverse ..

theorem nonBlankDropped (texts : List String) : nonBlank (texts.dropWhile allBlank) = nonBlank texts := by
  induction texts with
  | nil => rfl
  | cons line rest ih =>
    rw [List.dropWhile_cons]
    split
    · rename_i blank
      simpa [nonBlank, blank] using ih
    · rfl

theorem nonBlankLinesAppend (first second : String) :
    nonBlankLines (first ++ "\n" ++ second) = nonBlankLines first ++ nonBlankLines second := by
  rw [nonBlankLines, linesAppend, nonBlankAppend]
  rfl

theorem nonBlankLinesJoin (parts : List String) :
    nonBlankLines (join "\n" parts) = parts.flatMap nonBlankLines := by
  induction parts with
  | nil => rfl
  | cons part rest ih =>
    by_cases last : rest = []
    · simp [last, join]
    · rw [join, String.intercalate_cons_of_ne_nil last, nonBlankLinesAppend, List.flatMap_cons, ← ih]
      rfl

theorem linesJoin {texts : List String} (some : texts ≠ [])
    (plain : ∀ line ∈ texts, '\n' ∉ line.toList) : lines (join "\n" texts) = texts :=
  splitJoin some plain

theorem nonBlankLinesLeading (s : String) : nonBlankLines (dropLeading '\n' s) = nonBlankLines s := by
  have dropped (cs : List Char) : nonBlankLines (String.ofList (cs.dropWhile (· = '\n'))) =
      nonBlankLines (String.ofList cs) := by
    induction cs with
    | nil => rfl
    | cons c rest ih =>
      rw [List.dropWhile_cons]
      split
      · rename_i ends
        have same : c = '\n' := of_decide_eq_true ends
        have text : String.ofList (c :: rest) = "" ++ "\n" ++ String.ofList rest := by
          rw [same, String.ofList_cons]
          rfl
        rw [ih, text, nonBlankLinesAppend]
        rfl
      · rfl
  rw [dropLeading, dropped, String.ofList_toList]

theorem nonBlankLinesTrailing (s : String) : nonBlankLines (dropTrailing '\n' s) = nonBlankLines s := by
  have dropped (cs : List Char) :
      nonBlankLines (String.ofList ((cs.reverse.dropWhile (· = '\n')).reverse)) =
        nonBlankLines (String.ofList cs) := by
    induction cs using List.reverseRecOn with
    | nil => rfl
    | append_singleton rest c ih =>
      rw [List.reverse_append, List.reverse_singleton, List.singleton_append, List.dropWhile_cons]
      split
      · rename_i ends
        have same : c = '\n' := of_decide_eq_true ends
        have text : String.ofList (rest ++ [c]) = String.ofList rest ++ "\n" ++ "" := by
          rw [same, String.ofList_append, String.append_empty]
        have nothing : nonBlankLines "" = [] := rfl
        rw [ih, text, nonBlankLinesAppend, nothing, List.append_nil]
      · rw [List.reverse_cons, List.reverse_reverse]
  rw [dropTrailing, dropped, String.ofList_toList]

theorem nonBlankLinesStrip (s : String) : nonBlankLines (strip '\n' s) = nonBlankLines s := by
  rw [strip, nonBlankLinesTrailing, nonBlankLinesLeading]

section Sorted

variable {α : Type} {text : α → String}

theorem sortedOn (text : α → String) (xs : List α) :
    (xs.mergeSort (fun a b => precedes (text a) (text b))).Pairwise (fun a b => text a ≤ text b) := by
  refine (List.pairwise_mergeSort (fun a b c first second => ?_) (fun a b => ?_) xs).imp of_decide_eq_true
  · exact decide_eq_true (String.le_trans (of_decide_eq_true first) (of_decide_eq_true second))
  · simpa [precedes] using String.le_total (text a) (text b)

theorem sortedApart {xs : List α} (distinct : (xs.map text).Nodup) :
    (xs.mergeSort (fun a b => precedes (text a) (text b))).Pairwise (fun a b => text a < text b) := by
  have same := List.mergeSort_perm xs (fun a b => precedes (text a) (text b))
  have apart := List.pairwise_map.mp ((same.map text).nodup_iff.mpr distinct)
  refine ((sortedOn text xs).and apart).imp fun both => ?_
  by_contra above
  exact both.2 (String.le_antisymm both.1 (String.not_lt.mp above))

theorem sortedPerm {texts others : List String} (order : texts.Perm others) : sorted texts = sorted others := by
  refine List.Perm.eq_of_pairwise (fun a b _ _ below above => String.le_antisymm below above)
    (sortedOn id texts) (sortedOn id others) ?_
  exact (List.mergeSort_perm texts precedes).trans (order.trans (List.mergeSort_perm others precedes).symm)

end Sorted

end Codegen.Text
