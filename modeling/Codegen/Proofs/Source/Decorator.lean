import Codegen.Proofs.Source.Reading
import Codegen.Proofs.Source.Untouched

/-! Decorators and what they apply to. A declaration that follows a decorator, perhaps with comments in
between, stays with it if spacing sees the mark of the decorator above the comments: as it looks at one
line only, a decorator that goes on over several lines is parted from its declaration. -/
namespace Codegen.Source

open Literal (restsAfter)
open Text (nonBlank)

def startsNote (line : String) : Bool :=
  (line.toList.dropWhile isIndent).head? = some '#'

def isNote (line : String) : Bool :=
  startsNote line && '\r' ∉ line.toList.dropLast

def opensDecorator (line : String) : Bool :=
  (Margin.ofBlanks (line.toList.takeWhile isIndent)).column = 0 &&
    (line.toList.dropWhile isIndent).head? = some '@'

/-- A decorator on the outermost level, read behind other lines: its first line has the mark at the left
margin, and it goes on until nothing is left open. Its last line holds the end of its expression. -/
structure Decorator (before lines : List String) : Prop where
  outside : restsAfter before = true
  marked : ∃ first ∈ lines.head?, opensDecorator first = true
  goesOn : ∀ n < lines.length, 0 < n → restsAfter (before ++ lines.take n) = false
  complete : restsAfter (before ++ lines) = true
  ends : ∃ last ∈ lines.getLast?, Text.allBlank last = false

/-- A part of a text stands in other lines as it was, behind and before the same lines that are not
blank: no line came in between. -/
def Together (before part after lines : List String) : Prop :=
  ∃ above below, lines = above ++ part ++ below ∧ nonBlank above = nonBlank before ∧
    nonBlank below = nonBlank after

theorem noteParts {line : String} (note : startsNote line = true) :
    ∃ blanks rest, line.toList = blanks ++ '#' :: rest ∧ ∀ c ∈ blanks, isIndent c = true := by
  rw [startsNote, decide_eq_true_eq] at note
  obtain ⟨rest, mark⟩ := List.head?_eq_some_iff.mp note
  refine ⟨line.toList.takeWhile isIndent, rest, ?_, fun _ => List.mem_takeWhile_imp⟩
  rw [← mark, List.takeWhile_append_dropWhile]

theorem noteStarts {line : String} (note : isNote line = true) : startsNote line = true := by
  rw [isNote, Bool.and_eq_true] at note
  exact note.1

theorem noteFull {line : String} (note : isNote line = true) : Text.allBlank line = false := by
  obtain ⟨blanks, rest, text, _⟩ := noteParts (noteStarts note)
  rw [Text.allBlank, List.all_eq_false]
  exact ⟨'#', by simp [text], by decide⟩

theorem notePlain {line : String} (note : isNote line = true) :
    isDecorator line = false ∧ isDeclaration line = false := by
  obtain ⟨blanks, rest, text, indents⟩ := noteParts (noteStarts note)
  cases blanks with
  | nil => exact startPlain text (by decide)
  | cons c others =>
    refine startPlain text fun listed => ?_
    have indent := indents c List.mem_cons_self
    simp only [List.mem_cons, List.not_mem_nil, or_false] at listed
    rcases listed with rfl | rfl | rfl | rfl <;> cases indent

theorem commentStarts {line : String} (comment : isComment line = true) : startsNote line = true := by
  obtain ⟨rest, text⟩ := List.head?_eq_some_iff.mp (commentStart.mp comment)
  rw [startsNote, text]
  rfl

theorem noteRests {before : List String} {line : String} (plain : '\n' ∉ line.toList)
    (note : isNote line = true) (rests : restsAfter before = true) :
    restsAfter (before ++ [line]) = true := by
  obtain ⟨blanks, body, text, indents⟩ := noteParts (noteStarts note)
  rw [isNote, Bool.and_eq_true, decide_eq_true_eq] at note
  rw [restsAfter, Option.any_eq_true] at rests
  obtain ⟨state, read, atRest⟩ := rests
  obtain ⟨⟨place, level⟩, opened⟩ : (state.lexer.place = .fresh ∧ state.lexer.level = 0) ∧ state.opened = [] := by
    simpa [Literal.State.atRest, Literal.State.complete] using atRest
  have fresh : state = { state with lexer := state.lexer.goTo .fresh } := by
    rw [Lexer.goTo, ← place]
  have mark (m : Margin) (rest : List Char) :
      ('#' :: rest).foldlM Literal.step { state with lexer := state.lexer.goTo (.margin m 0 false) } =
        rest.foldlM Literal.step { state with lexer := state.lexer.goTo .comment } := rfl
  have inner : '\n' ∉ body := fun inside => plain (by simp [text, inside])
  have returns : '\r' ∉ body.dropLast := by
    intro inside
    refine note.2 ?_
    rw [text, List.dropLast_append_of_ne_nil (by simp)]
    cases body with
    | nil => cases inside
    | cons c rest => exact List.mem_append_right _ (List.mem_cons_of_mem _ inside)
  rw [restsAfter, Literal.readLinesAppend, read, Option.bind_some, List.flatMap_singleton, Literal.wholeLine,
    text, List.append_assoc, fresh, Place.fresh, Literal.blanksFold indents, List.cons_append, mark,
    Literal.commentEnds returns inner]
  simp [Literal.State.atRest, Literal.State.complete, Lexer.goTo, level, opened]

theorem notesRest {before notes : List String} (plain : ∀ line ∈ notes, '\n' ∉ line.toList)
    (noted : ∀ line ∈ notes, isNote line = true) (rests : restsAfter before = true) :
    restsAfter (before ++ notes) = true := by
  induction notes generalizing before with
  | nil => rwa [List.append_nil]
  | cons line notes ih =>
    obtain ⟨first, others⟩ := List.forall_mem_cons.mp noted
    obtain ⟨top, below⟩ := List.forall_mem_cons.mp plain
    simpa using ih below others (noteRests top first rests)

theorem spacedComments {comments : List String} (all : ∀ line ∈ comments, isComment line = true)
    (above : List String) : spaced (comments ++ above) = comments ++ spaced above := by
  simp only [spaced, List.takeWhile_append_of_pos all, List.dropWhile_append_of_pos all]
  split
  · rfl
  · split
    · rw [List.append_assoc]
    · split <;> simp

/- Lines that are not blank tell where they stand. -/
theorem alignedFull {first second more other : List String} (equal : first ++ more = second ++ other)
    (same : nonBlank first = nonBlank second) (full : ∀ line ∈ more.head?, Text.allBlank line = false)
    (others : ∀ line ∈ other.head?, Text.allBlank line = false) : first = second := by
  induction first generalizing second with
  | nil =>
    cases second with
    | nil => rfl
    | cons line rest =>
      have top : Text.allBlank line = false := full line (by rw [← List.nil_append more, equal]; rfl)
      simp [nonBlank, top] at same
  | cons line rest ih =>
    cases second with
    | nil =>
      have top : Text.allBlank line = false := others line (by rw [← List.nil_append other, ← equal]; rfl)
      simp [nonBlank, top] at same
    | cons line' rest' =>
      obtain ⟨rfl, tail⟩ := List.cons.inj equal
      refine congrArg (line :: ·) (ih tail ?_)
      cases blank : Text.allBlank line <;> simpa [nonBlank, blank] using same

/- Notes are no declarations: they come to stand on the line above them. -/
theorem notesTaken (spans : List Span) (start : Nat) (before : List String) (last : String)
    {notes : List String} (noted : ∀ line ∈ notes, isNote line = true) :
    ∃ above, nonBlank above.reverse = nonBlank before ∧
      ((before ++ last :: notes).zipIdx start).foldl (takeLine spans) [] = notes.reverse ++ last :: above := by
  obtain ⟨above, taken, respaced⟩ := takeLineOnTop spans ((before.zipIdx start).foldl (takeLine spans) [])
    (last, start + before.length)
  have early := ((foldRespaced spans (before.zipIdx start) []).trans respaced).kept
  rw [List.append_nil, List.zipIdx_map_fst, Text.nonBlankReverse] at early
  refine ⟨above, by rw [Text.nonBlankReverse, early, List.reverse_reverse], ?_⟩
  rw [List.zipIdx_append, List.foldl_append, List.zipIdx_cons, List.foldl_cons, taken, foldUndeclared,
    List.zipIdx_map_fst]
  intro line inside
  rw [declares, (notePlain (noted line.1 (List.fst_mem_of_mem_zipIdx inside))).2, Bool.and_false]

theorem staysAbove (spans : List Span) {target : String} (full : Text.allBlank target = false)
    (other : startsNote target = false) (after : List (String × Nat)) (above : List String) :
    ∃ top, after.foldl (takeLine spans) (target :: above) = top ++ target :: above ∧
      Respaced (after.map Prod.fst).reverse top := by
  have unattached : ¬Attached spans ((target, 0) :: after) := by
    rintro ⟨comments, declaration, rest, split, some, all, _⟩
    cases comments with
    | nil => exact some rfl
    | cons first others =>
      cases (List.cons.inj split).1
      rw [commentStarts (all (target, 0) List.mem_cons_self)] at other
      cases other
  obtain ⟨top, folded, respaced, _⟩ := foldAbove above unattached full
  exact ⟨top, folded, respaced⟩

theorem lastOther (p : String → Bool) (lines : List String) : (∀ line ∈ lines, p line = true) ∨
    ∃ front line back, lines = front ++ line :: back ∧ p line = false ∧ ∀ other ∈ back, p other = true := by
  induction lines using List.reverseRecOn with
  | nil => exact .inl (by simp)
  | append_singleton lines line ih =>
    cases passes : p line with
    | false => exact .inr ⟨lines, line, [], rfl, passes, by simp⟩
    | true =>
      rcases ih with all | ⟨front, other, back, rfl, stops, rest⟩
      · exact .inl (List.forall_mem_append.mpr ⟨all, by simpa using passes⟩)
      · exact .inr ⟨front, other, back ++ [line], by simp, stops,
          List.forall_mem_append.mpr ⟨rest, by simpa using passes⟩⟩

/- Where spacing does not see a mark above the comments, it sees a line that ends other things. -/
theorem lastPlain {last : String} {notes : List String} (noted : ∀ line ∈ notes, isNote line = true)
    (apart : ¬((∀ line ∈ notes, isComment line = true) ∧ (isDecorator last = true ∨ isComment last = true))) :
    ∃ upper line comments, last :: notes = upper ++ line :: comments ∧
      (∀ other ∈ comments, isComment other = true) ∧ isComment line = false ∧ isDecorator line = false := by
  rcases lastOther isComment (last :: notes) with all | ⟨upper, line, comments, order, plain, all⟩
  · obtain ⟨comment, others⟩ := List.forall_mem_cons.mp all
    exact absurd ⟨others, .inr comment⟩ apart
  · refine ⟨upper, line, comments, order, all, plain, ?_⟩
    cases upper with
    | nil =>
      cases order
      by_contra mark
      exact apart ⟨all, .inl (by simpa using mark)⟩
    | cons first rest =>
      have note : line ∈ notes := by simp [(List.cons.inj order).2]
      exact (notePlain (noted line note)).1

section Placed

variable {code last target : String} {before notes after : List String}
  (text : Text.lines code = before ++ last :: notes ++ target :: after)
  (rests : restsAfter (before ++ last :: notes) = true) (noted : ∀ line ∈ notes, isNote line = true)
  (full : Text.allBlank target = false) (other : startsNote target = false)

include text rests noted full other

/- What spacing makes of the lines above a declaration is what comes to stand above it. -/
theorem declarationPlaced : ∃ above below, nonBlank above.reverse = nonBlank before ∧
    nonBlank below = nonBlank after ∧
    Text.lines (normalize code) = (place (notes.reverse ++ last :: above) target).reverse ++ below := by
  have free := restsFree text rests
  have plain := takenPlain code
  unfold normalize
  rw [linesEnded plain, text, List.zipIdx_append, List.foldl_append, List.zipIdx_cons, List.foldl_cons,
    Nat.add_comm 1]
  generalize literalSpans code = spans at free
  obtain ⟨above, early, taken⟩ := notesTaken spans 1 before last noted
  rw [taken, takeLineFree free]
  obtain ⟨more, placed⟩ : ∃ more, place (notes.reverse ++ last :: above) target = target :: more := ⟨_, rfl⟩
  obtain ⟨top, folded, late⟩ := staysAbove spans full other
    (after.zipIdx ((before ++ last :: notes).length + 1 + 1)) more
  have kept : (top ++ target :: more).dropWhile Text.allBlank =
      top.dropWhile Text.allBlank ++ target :: more := (throughAppend more fun _ => full).2
  rw [List.zipIdx_map_fst] at late
  refine ⟨above, (top.dropWhile Text.allBlank).reverse ++ [""], early, ?_, ?_⟩
  · rw [Text.nonBlankAppend, Text.nonBlankReverse, Text.nonBlankDropped, late.kept, Text.nonBlankReverse,
      List.reverse_reverse]
    exact List.append_nil _
  · rw [placed, folded, kept]
    simp

/- Spacing looks at the line above the comments only. -/
theorem keptTogether (attached : isDeclaration target = false ∨
    (∀ line ∈ notes, isComment line = true) ∧ (isDecorator last = true ∨ isComment last = true)) :
    Together before (last :: notes ++ [target]) after (Text.lines (normalize code)) := by
  obtain ⟨above, below, early, late, lines⟩ := declarationPlaced text rests noted full other
  have parts : ∃ rest, nonBlank rest.reverse = nonBlank before ∧
      place (notes.reverse ++ last :: above) target = target :: (notes.reverse ++ last :: rest) := by
    unfold place
    rcases attached with undeclared | ⟨comments, decorator | comment⟩
    · exact ⟨above, early, by rw [undeclared]; rfl⟩
    · have all : ∀ line ∈ notes.reverse, isComment line = true := fun line member =>
        comments line (List.mem_reverse.mp member)
      refine ⟨above, early, ?_⟩
      rw [spacedDecorated all decorator, ite_self]
    · have all : ∀ line ∈ notes.reverse ++ [last], isComment line = true := by
        intro line member
        rcases List.mem_append.mp member with note | same
        · exact comments line (List.mem_reverse.mp note)
        · rwa [List.mem_singleton.mp same]
      have moved := spacedComments all above
      rw [List.append_assoc, List.singleton_append, List.append_assoc, List.singleton_append] at moved
      split
      · refine ⟨spaced above, ?_, congrArg (target :: ·) moved⟩
        rw [Text.nonBlankReverse, (spacedRespaced above).kept, ← Text.nonBlankReverse, early]
      · exact ⟨above, early, rfl⟩
  obtain ⟨rest, front, stack⟩ := parts
  refine ⟨rest.reverse, below, ?_, front, late⟩
  rw [lines, stack]
  simp

/- The line above the comments gets two empty lines below it, which tell the result from one where the
lines stand together. -/
theorem partedAbove (declaration : isDeclaration target = true) (ends : Text.allBlank last = false)
    (apart : ¬((∀ line ∈ notes, isComment line = true) ∧ (isDecorator last = true ∨ isComment last = true))) :
    ¬Together before (last :: notes ++ [target]) after (Text.lines (normalize code)) := by
  rintro ⟨front, back, together, same, _⟩
  obtain ⟨above, below, early, _, lines⟩ := declarationPlaced text rests noted full other
  have solid : ∀ line ∈ last :: notes, Text.allBlank line = false :=
    List.forall_mem_cons.mpr ⟨ends, fun line member => noteFull (noted line member)⟩
  obtain ⟨upper, line, comments, order, all, plain⟩ := lastPlain noted apart
  have stack : notes.reverse ++ last :: above = comments.reverse ++ ([] ++ line :: (upper.reverse ++ above)) := by
    have turned := congrArg (fun lines => lines.reverse ++ above) order
    simpa using turned
  have gap : spaced (notes.reverse ++ last :: above) =
      comments.reverse ++ "" :: "" :: line :: (upper.reverse ++ above) := by
    rw [stack]
    exact spacedParted (fun other member => all other (List.mem_reverse.mp member)) (by simp)
      (solid line (by simp [order])) fun _ => plain
  have head (others : List String) : ∀ first ∈ (upper ++ line :: others).head?,
      Text.allBlank first = false := by
    intro first top
    refine solid first ?_
    rw [order]
    cases upper <;> cases top <;> simp
  have equal : above.reverse ++ (upper ++ line :: "" :: "" :: (comments ++ target :: below)) =
      front ++ (upper ++ line :: (comments ++ target :: back)) := by
    rw [place, declaration, if_pos rfl, gap, together, order] at lines
    simpa using lines.symm
  have aligned := alignedFull equal (early.trans same.symm) (head _) (head _)
  rw [aligned, List.append_cancel_left_eq, List.append_cancel_left_eq] at equal
  have below : "" :: "" :: (comments ++ target :: below) = comments ++ target :: back :=
    (List.cons.inj equal).2
  -- below the line come the empty lines in one text, and a comment or the declaration in the other
  cases comments with
  | nil =>
    cases below
    cases full
  | cons comment _ =>
    cases (List.cons.inj below).1
    exact absurd (all "" List.mem_cons_self) (by decide)

end Placed

theorem decoratorAttached {code last target : String} {before decorator notes after : List String}
    (text : Text.lines code = before ++ (decorator ++ [last]) ++ notes ++ target :: after)
    (whole : Decorator before (decorator ++ [last])) (noted : ∀ line ∈ notes, isNote line = true)
    (full : Text.allBlank target = false) (other : startsNote target = false) :
    Together (before ++ decorator) (last :: notes ++ [target]) after (Text.lines (normalize code)) ↔
      isDeclaration target = false ∨
        (∀ line ∈ notes, isComment line = true) ∧ (isDecorator last = true ∨ isComment last = true) := by
  have lines : Text.lines code = (before ++ decorator) ++ last :: notes ++ target :: after := by
    simpa using text
  have rests : restsAfter ((before ++ decorator) ++ last :: notes) = true := by
    have plain : ∀ line ∈ notes, '\n' ∉ line.toList := fun line member =>
      Text.lineOfText (by rw [text]; simp [member])
    simpa using notesRest plain noted whole.complete
  have ends : Text.allBlank last = false := by
    obtain ⟨final, found, ends⟩ := whole.ends
    rw [List.getLast?_concat] at found
    cases found
    exact ends
  constructor
  · intro together
    by_contra neither
    obtain ⟨declaration, apart⟩ := not_or.mp neither
    exact partedAbove lines rests noted full other (by simpa using declaration) ends apart together
  · exact keptTogether lines rests noted full other

namespace Sample

/- A decorator with a comment below it, then one whose last line has a mark of its own. -/
def stacked : String :=
  "x = 1\n@a\n# b\n@c(\n  d\n@e)\ndef f():\n    pass"

theorem firstAttached : Decorator ["x = 1"] ["@a"] ∧
    Text.lines stacked = ["x = 1"] ++ ["@a"] ++ ["# b"] ++ "@c(" :: ["  d", "@e)", "def f():", "    pass"] ∧
    Together ["x = 1"] ["@a", "# b", "@c("] ["  d", "@e)", "def f():", "    pass"]
      (Text.lines (normalize stacked)) := by
  have whole : Decorator ["x = 1"] ["@a"] :=
    ⟨by decide +kernel, ⟨"@a", rfl, by decide +kernel⟩, by decide +kernel, by decide +kernel,
      ⟨"@a", rfl, by decide +kernel⟩⟩
  have text : Text.lines stacked =
      ["x = 1"] ++ ["@a"] ++ ["# b"] ++ "@c(" :: ["  d", "@e)", "def f():", "    pass"] := by
    decide +kernel
  have attached := @decoratorAttached stacked "@a" "@c(" ["x = 1"] [] ["# b"]
    ["  d", "@e)", "def f():", "    pass"] text whole (by decide +kernel) (by decide +kernel) (by decide +kernel)
  exact ⟨whole, text, attached.mpr (.inr ⟨by decide +kernel, .inl (by decide +kernel)⟩)⟩

/- The decorator goes on over three lines, and the last of them has no mark. -/
def longer : String :=
  "@a(\n    1,\n)\ndef f():\n    pass"

theorem longerParted : (Literal.read longer).isSome = true ∧ Decorator [] ["@a(", "    1,", ")"] ∧
    Text.lines longer = ["@a(", "    1,", ")"] ++ "def f():" :: ["    pass"] ∧
    normalize longer = "@a(\n    1,\n)\n\n\ndef f():\n    pass\n" ∧
    ¬Together ["@a(", "    1,"] [")", "def f():"] ["    pass"] (Text.lines (normalize longer)) := by
  have whole : Decorator [] ["@a(", "    1,", ")"] :=
    ⟨by decide +kernel, ⟨"@a(", rfl, by decide +kernel⟩, by decide +kernel, by decide +kernel,
      ⟨")", rfl, by decide +kernel⟩⟩
  have text : Text.lines longer = ["@a(", "    1,", ")"] ++ "def f():" :: ["    pass"] := by
    decide +kernel
  have apart : ¬Together ["@a(", "    1,"] ([")"] ++ ["def f():"]) ["    pass"]
      (Text.lines (normalize longer)) :=
    @partedAbove longer ")" "def f():" ["@a(", "    1,"] [] ["    pass"] text whole.complete (by simp)
      (by decide +kernel) (by decide +kernel) (by decide +kernel) (by decide +kernel) (by decide +kernel)
  exact ⟨by decide +kernel, whole, text, by decide +kernel, apart⟩

end Sample
end Codegen.Source
