import Codegen.Proofs.Text.Lines
import Codegen.Source.Spacing
import Mathlib.Data.List.TakeWhile

/-! Spacing keeps what a text says: its lines that are not blank stay, each once and in their order,
whichever lines count as declarations. -/
namespace Codegen.Source

open Text (nonBlank nonBlankLines)

structure Respaced (before after : List String) : Prop where
  kept : nonBlank after = nonBlank before
  lines : ∀ line ∈ after, line = "" ∨ line ∈ before

namespace Respaced

theorem same (texts : List String) : Respaced texts texts :=
  ⟨rfl, fun _ => .inr⟩

theorem trans {first second third : List String} (left : Respaced first second)
    (right : Respaced second third) : Respaced first third := by
  refine ⟨right.kept.trans left.kept, fun line member => ?_⟩
  rcases right.lines line member with empty | inside
  · exact .inl empty
  · exact left.lines line inside

theorem below {before after : List String} (respaced : Respaced before after) (above : List String) :
    Respaced (above ++ before) (above ++ after) := by
  refine ⟨?_, fun line member => ?_⟩
  · rw [Text.nonBlankAppend, respaced.kept, Text.nonBlankAppend]
  · rcases List.mem_append.mp member with first | last
    · exact .inr (List.mem_append_left _ first)
    · exact (respaced.lines line last).imp_right (List.mem_append_right _)

theorem dropped (texts : List String) : Respaced texts (texts.dropWhile Text.allBlank) :=
  ⟨Text.nonBlankDropped texts, fun _ member => .inr (List.dropWhile_subset _ member)⟩

theorem cleared {blanks : List String} (blank : ∀ line ∈ blanks, Text.allBlank line = true)
    (rest : List String) : Respaced (blanks ++ rest) rest := by
  have none : nonBlank blanks = [] := by
    rw [nonBlank, List.filter_eq_nil_iff]
    intro line member
    simp [blank line member]
  exact ⟨by rw [Text.nonBlankAppend, none, List.nil_append], fun _ member =>
    .inr (List.mem_append_right _ member)⟩

theorem parted (texts : List String) : Respaced texts ("" :: "" :: texts) := by
  refine ⟨rfl, fun line member => ?_⟩
  simp only [List.mem_cons] at member
  tauto

end Respaced

theorem startPlain {line : String} {c : Char} {rest : List Char} (text : line.toList = c :: rest)
    (other : c ∉ ['@', 'd', 'a', 'c']) : isDecorator line = false ∧ isDeclaration line = false := by
  simp only [List.mem_cons, List.not_mem_nil, or_false, not_or] at other
  obtain ⟨first, second, third, fourth⟩ := other
  unfold isDecorator isDeclaration declarationStarts Text.startsWith
  rw [text]
  simp [List.isPrefixOf, Ne.symm first, Ne.symm second, Ne.symm third, Ne.symm fourth]

theorem commentStart {line : String} : isComment line = true ↔ line.toList.head? = some '#' := by
  unfold isComment Text.startsWith
  cases line.toList with
  | nil => simp
  | cons c rest => simpa [List.isPrefixOf] using eq_comm

theorem decoratorStart {line : String} : isDecorator line = true ↔ line.toList.head? = some '@' := by
  unfold isDecorator Text.startsWith
  cases line.toList with
  | nil => simp
  | cons c rest => simpa [List.isPrefixOf] using eq_comm

theorem commentPlain {line : String} (comment : isComment line = true) :
    isDecorator line = false ∧ isDeclaration line = false := by
  obtain ⟨rest, text⟩ := List.head?_eq_some_iff.mp (commentStart.mp comment)
  exact startPlain text (by decide)

theorem blankPlain {line : String} (blank : Text.allBlank line = true) :
    isComment line = false ∧ isDecorator line = false := by
  have apart {mark : Char} (full : Text.isBlank mark = false) : line.toList.head? ≠ some mark := by
    intro first
    have inside := List.all_eq_true.mp blank mark (List.mem_of_mem_head? first)
    rw [full] at inside
    cases inside
  rw [← Bool.not_eq_true, ← Bool.not_eq_true, commentStart, decoratorStart]
  exact ⟨apart rfl, apart rfl⟩

/-- What can stand above a declaration, the last line first: comments, and above them nothing but blank
lines, or a decorator, or some blank lines and a line that ends other things. -/
inductive Above : List String → Prop where
  | bare {comments blanks : List String} (all : ∀ line ∈ comments, isComment line = true)
      (blank : ∀ line ∈ blanks, Text.allBlank line = true) : Above (comments ++ blanks)
  | decorated {comments rest : List String} {last : String}
      (all : ∀ line ∈ comments, isComment line = true) (mark : isDecorator last = true) :
      Above (comments ++ last :: rest)
  | parted {comments blanks rest : List String} {last : String}
      (all : ∀ line ∈ comments, isComment line = true)
      (blank : ∀ line ∈ blanks, Text.allBlank line = true) (full : Text.allBlank last = false)
      (other : blanks = [] → isComment last = false ∧ isDecorator last = false) :
      Above (comments ++ (blanks ++ last :: rest))

section Above

variable {comments blanks rest : List String} {last : String}

theorem commentsAside (all : ∀ line ∈ comments, isComment line = true)
    (stops : ∀ line ∈ rest.head?, isComment line = false) :
    (comments ++ rest).takeWhile isComment = comments ∧ (comments ++ rest).dropWhile isComment = rest := by
  rw [List.takeWhile_append_of_pos all, List.dropWhile_append_of_pos all]
  cases rest with
  | nil => simp
  | cons first others => simp [stops first rfl]

theorem spacedBare (all : ∀ line ∈ comments, isComment line = true)
    (blank : ∀ line ∈ blanks, Text.allBlank line = true) : spaced (comments ++ blanks) = comments := by
  obtain ⟨front, back⟩ := commentsAside all fun line first =>
    (blankPlain (blank line (List.mem_of_mem_head? first))).1
  rw [spaced, front, back]
  cases blanks with
  | nil => rfl
  | cons first others =>
    have plain := (blankPlain (blank first List.mem_cons_self)).2
    have none : (first :: others).dropWhile Text.allBlank = [] := List.dropWhile_eq_nil_iff.mpr blank
    simp [plain, none]

theorem spacedDecorated (all : ∀ line ∈ comments, isComment line = true) (mark : isDecorator last = true) :
    spaced (comments ++ last :: rest) = comments ++ last :: rest := by
  obtain ⟨front, back⟩ := @commentsAside comments (last :: rest) all fun line first => by
    cases first
    by_contra comment
    rw [(commentPlain (by simpa using comment)).1] at mark
    cases mark
  rw [spaced, front, back]
  simp [mark]

theorem spacedParted (all : ∀ line ∈ comments, isComment line = true)
    (blank : ∀ line ∈ blanks, Text.allBlank line = true) (full : Text.allBlank last = false)
    (other : blanks = [] → isComment last = false ∧ isDecorator last = false) :
    spaced (comments ++ (blanks ++ last :: rest)) = comments ++ "" :: "" :: last :: rest := by
  have first : ∀ line ∈ (blanks ++ last :: rest).head?, isComment line = false ∧ isDecorator line = false := by
    intro line first
    cases blanks with
    | nil =>
      cases first
      exact other rfl
    | cons =>
      cases first
      exact blankPlain (blank line List.mem_cons_self)
  obtain ⟨front, back⟩ := commentsAside all fun line head => (first line head).1
  have kept : (blanks ++ last :: rest).dropWhile Text.allBlank = last :: rest := by
    rw [List.dropWhile_append_of_pos blank]
    simp [full]
  rw [spaced, front, back]
  cases listed : blanks ++ last :: rest with
  | nil => simp at listed
  | cons head others =>
    rw [listed] at first kept
    simp [(first head rfl).2, kept]

end Above

theorem aboveForms (above : List String) : Above above := by
  have split : above.takeWhile isComment ++ above.dropWhile isComment = above :=
    List.takeWhile_append_dropWhile
  have all : ∀ line ∈ above.takeWhile isComment, isComment line = true := fun _ => List.mem_takeWhile_imp
  have stops := List.head?_dropWhile_not isComment above
  generalize above.takeWhile isComment = comments at split all
  generalize above.dropWhile isComment = rest at split stops
  subst split
  have parts : rest.takeWhile Text.allBlank ++ rest.dropWhile Text.allBlank = rest :=
    List.takeWhile_append_dropWhile
  have blank : ∀ line ∈ rest.takeWhile Text.allBlank, Text.allBlank line = true := fun _ =>
    List.mem_takeWhile_imp
  have full := List.head?_dropWhile_not Text.allBlank rest
  generalize rest.takeWhile Text.allBlank = blanks at parts blank
  generalize rest.dropWhile Text.allBlank = kept at parts full
  subst parts
  cases kept with
  | nil =>
    rw [List.append_nil]
    exact .bare all blank
  | cons last others =>
    have full : Text.allBlank last = false := by simpa using full
    by_cases lone : blanks = []
    · subst lone
      have plain : isComment last = false := by simpa using stops
      cases mark : isDecorator last with
      | true => exact .decorated all mark
      | false => exact .parted all blank full fun _ => ⟨plain, mark⟩
    · exact .parted all blank full fun none => absurd none lone

theorem spacedRespaced (above : List String) : Respaced above (spaced above) := by
  cases aboveForms above with
  | bare all blank =>
    rw [spacedBare all blank]
    simpa using (Respaced.cleared blank []).below _
  | decorated all mark =>
    rw [spacedDecorated all mark]
    exact .same _
  | parted all blank full other =>
    rw [spacedParted all blank full other]
    exact ((Respaced.cleared blank _).trans (.parted _)).below _

def place (above : List String) (line : String) : List String :=
  line :: if isDeclaration line then spaced above else above

theorem takeLineFree {spans : List Span} {line : String × Nat} (free : inLiteral spans line.2 = false)
    (above : List String) : takeLine spans above line = place above line.1 := by
  rw [takeLine, place, free, Bool.not_false, Bool.true_and]
  split <;> rfl

theorem takenRespaced (spans : List Span) (above : List String) (line : String × Nat) :
    Respaced (line.1 :: above) (takeLine spans above line) := by
  rw [takeLine]
  split
  · exact (spacedRespaced above).below [line.1]
  · exact .same _

/- The lines are taken one by one, the last of them first in the list. -/
theorem foldRespaced (spans : List Span) (lines : List (String × Nat)) (above : List String) :
    Respaced ((lines.map Prod.fst).reverse ++ above) (lines.foldl (takeLine spans) above) := by
  induction lines generalizing above with
  | nil => exact .same above
  | cons line rest ih =>
    rw [List.foldl_cons, List.map_cons, List.reverse_cons, List.append_assoc, List.singleton_append]
    exact ((takenRespaced spans above line).below _).trans (ih _)

theorem linesEnded {taken : List String} (plain : ∀ line ∈ taken, '\n' ∉ line.toList) :
    Text.lines (ended taken) = (taken.dropWhile Text.allBlank).reverse ++ [""] := by
  have clean : ∀ line ∈ (taken.dropWhile Text.allBlank).reverse, '\n' ∉ line.toList := fun line member =>
    plain line (List.dropWhile_subset _ (List.mem_reverse.mp member))
  unfold ended
  cases kept : taken.dropWhile Text.allBlank with
  | nil => rfl
  | cons last others =>
    rw [kept] at clean
    have final : Text.join "\n" (last :: others).reverse ++ "\n" =
        Text.join "\n" (last :: others).reverse ++ "\n" ++ "" := (String.append_empty ..).symm
    simp only []
    rw [final, Text.linesAppend, Text.linesJoin (by simp) clean]
    rfl

theorem endedLines {taken : List String} (plain : ∀ line ∈ taken, '\n' ∉ line.toList) :
    nonBlankLines (ended taken) = (nonBlank taken).reverse := by
  rw [nonBlankLines, linesEnded plain, Text.nonBlankAppend, Text.nonBlankReverse, Text.nonBlankDropped]
  exact List.append_nil _

theorem foldPlain (spans : List Span) {lines : List String} (plain : ∀ line ∈ lines, '\n' ∉ line.toList) :
    ∀ line ∈ (lines.zipIdx 1).foldl (takeLine spans) [], '\n' ∉ line.toList := by
  have all := (foldRespaced spans (lines.zipIdx 1) []).lines
  rw [List.append_nil, List.zipIdx_map_fst] at all
  intro line inside
  rcases all line inside with rfl | old
  · exact List.not_mem_nil
  · exact plain line (List.mem_reverse.mp old)

theorem takenPlain (code : String) :
    ∀ line ∈ ((Text.lines code).zipIdx 1).foldl (takeLine (literalSpans code)) [], '\n' ∉ line.toList :=
  foldPlain (literalSpans code) fun _ inside => Text.lineOfText inside

theorem nonBlankLinesNormalize (code : String) : nonBlankLines (normalize code) = nonBlankLines code := by
  have taken := foldRespaced (literalSpans code) ((Text.lines code).zipIdx 1) []
  rw [List.append_nil, List.zipIdx_map_fst] at taken
  have plain := takenPlain code
  rw [normalize, endedLines plain, taken.kept, Text.nonBlankReverse, List.reverse_reverse]
  rfl

end Codegen.Source
