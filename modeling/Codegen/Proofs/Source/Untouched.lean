import Codegen.Proofs.Source.Literal
import Codegen.Proofs.Source.Spacing

/-! Spacing and the literals of a text. The lines of a literal stay together and as they are, unless its
last line begins a run of comment lines above a declaration: such a run moves as a whole, and takes
that line away from those before it. -/
namespace Codegen.Source

open Text (nonBlank)

theorem throughAppend {p : String → Bool} {top : List String} {last : String} (more : List String)
    (stops : (∀ line ∈ top, p line = true) → p last = false) :
    (top ++ last :: more).takeWhile p = top.takeWhile p ∧
      (top ++ last :: more).dropWhile p = top.dropWhile p ++ last :: more := by
  induction top with
  | nil =>
    have stop := stops (by simp)
    simp [stop]
  | cons line rest ih =>
    by_cases passes : p line = true
    · have tail := ih fun all => stops (List.forall_mem_cons.mpr ⟨passes, all⟩)
      simp [passes, tail]
    · simp [passes]

theorem spacedAbove {top : List String} {last : String} (more : List String)
    (full : Text.allBlank last = false)
    (stops : (∀ line ∈ top, isComment line = true) → isComment last = false) :
    ∃ next, spaced (top ++ last :: more) = next ++ last :: more ∧ Respaced top next := by
  obtain ⟨comments, rest⟩ := throughAppend more stops
  have split : top.takeWhile isComment ++ top.dropWhile isComment = top :=
    List.takeWhile_append_dropWhile
  have dropped := Respaced.dropped (top.dropWhile isComment)
  have blanks := (throughAppend more
    fun (_ : ∀ line ∈ top.dropWhile isComment, Text.allBlank line = true) => full).2
  simp only [spaced, comments, rest]
  generalize top.takeWhile isComment = front at split
  generalize top.dropWhile isComment = back at split dropped blanks
  subst split
  have spread : Respaced (front ++ back) (front ++ "" :: "" :: back.dropWhile Text.allBlank) :=
    (dropped.trans (.parted _)).below front
  cases listed : back ++ last :: more with
  | nil => simp at listed
  | cons first others =>
    simp only [← listed, blanks]
    split
    · exact ⟨front ++ back, by simp, .same _⟩
    · refine ⟨_, ?_, spread⟩
      cases kept : back.dropWhile Text.allBlank ++ last :: more with
      | nil => simp at kept
      | cons => simp [← kept]

def declares (spans : List Span) (line : String × Nat) : Bool :=
  !inLiteral spans line.2 && isDeclaration line.1

theorem commentDeclares {spans : List Span} {line : String × Nat} (comment : isComment line.1 = true) :
    declares spans line = false := by
  rw [declares, (commentPlain comment).2, Bool.and_false]

def Attached (spans : List Span) (lines : List (String × Nat)) : Prop :=
  ∃ comments declaration rest, lines = comments ++ declaration :: rest ∧ comments ≠ [] ∧
    (∀ line ∈ comments, isComment line.1 = true) ∧ declares spans declaration = true

/- What has been taken after a line that is not blank stays above it. -/
theorem foldAbove {spans : List Span} {last : String × Nat} {lines : List (String × Nat)}
    (more : List String) (free : ¬Attached spans (last :: lines))
    (full : Text.allBlank last.1 = false) :
    ∃ top, lines.foldl (takeLine spans) (last.1 :: more) = top ++ last.1 :: more ∧
      Respaced (lines.map Prod.fst).reverse top ∧
      ((∀ line ∈ top, isComment line = true) → ∀ line ∈ lines, isComment line.1 = true) := by
  induction lines using List.reverseRecOn with
  | nil => exact ⟨[], rfl, .same [], by simp⟩
  | append_singleton lines line ih =>
    have before : ¬Attached spans (last :: lines) := by
      intro attached
      obtain ⟨comments, declaration, rest, split, some, all, declared⟩ := attached
      exact free ⟨comments, declaration, rest ++ [line], by
        rw [← List.cons_append, split]; simp, some, all, declared⟩
    obtain ⟨top, folded, respaced, comments⟩ := ih before
    rw [List.foldl_append, folded, List.foldl_cons, List.foldl_nil, takeLine]
    have reversed : ((lines ++ [line]).map Prod.fst).reverse = [line.1] ++ (lines.map Prod.fst).reverse := by
      simp
    rw [reversed]
    split
    · rename_i declared
      have stops : (∀ other ∈ top, isComment other = true) → isComment last.1 = false := by
        intro all
        by_contra comment
        refine free ⟨last :: lines, line, [], by simp, by simp, ?_, declared⟩
        exact List.forall_mem_cons.mpr ⟨by simpa using comment, comments all⟩
      obtain ⟨next, equal, moved⟩ := spacedAbove more full stops
      refine ⟨line.1 :: next, by rw [equal]; rfl, (respaced.trans moved).below [line.1], ?_⟩
      intro all
      have comment := all line.1 List.mem_cons_self
      rw [show (!inLiteral spans line.2 && isDeclaration line.1) = declares spans line from rfl,
        commentDeclares comment] at declared
      cases declared
    · refine ⟨line.1 :: top, rfl, respaced.below [line.1], ?_⟩
      intro all other member
      obtain ⟨first, others⟩ := List.forall_mem_cons.mp all
      rcases List.mem_append.mp member with old | new
      · exact comments others other old
      · rw [List.mem_singleton.mp new]
        exact first

theorem foldUndeclared {spans : List Span} {lines : List (String × Nat)}
    (plain : ∀ line ∈ lines, declares spans line = false) (above : List String) :
    lines.foldl (takeLine spans) above = (lines.map Prod.fst).reverse ++ above := by
  induction lines generalizing above with
  | nil => rfl
  | cons line rest ih =>
    obtain ⟨first, others⟩ := List.forall_mem_cons.mp plain
    have taken : takeLine spans above line = line.1 :: above := if_neg (Bool.eq_false_iff.mp first)
    rw [List.foldl_cons, taken, ih others]
    simp

theorem takeLineOnTop (spans : List Span) (above : List String) (line : String × Nat) :
    ∃ rest, takeLine spans above line = line.1 :: rest ∧ Respaced above rest := by
  rw [takeLine]
  split
  · exact ⟨_, rfl, spacedRespaced above⟩
  · exact ⟨_, rfl, .same above⟩

theorem endedAbove {top more : List String} {last : String} (full : Text.allBlank last = false)
    (plain : ∀ line ∈ top ++ last :: more, '\n' ∉ line.toList) :
    Text.lines (ended (top ++ last :: more)) =
      more.reverse ++ last :: ((top.dropWhile Text.allBlank).reverse ++ [""]) := by
  have kept := (throughAppend more
    fun (_ : ∀ line ∈ top, Text.allBlank line = true) => full).2
  rw [linesEnded plain, kept]
  simp

def Span.block (span : Span) (lines : List String) : List String :=
  (lines.drop (span.first - 1)).take (span.last + 1 - span.first)

/-- The lines of a literal stand together and as they were, with the same lines that are not blank
before and after them. -/
def Untouched (span : Span) (before after : List String) : Prop :=
  ∃ above below, after = above ++ span.block before ++ below ∧
    nonBlank above = nonBlank (before.take (span.first - 1)) ∧
    nonBlank below = nonBlank (before.drop span.last)

def Span.Attached (code : String) (span : Span) : Prop :=
  Source.Attached (literalSpans code) (((Text.lines code).zipIdx 1).drop (span.last - 1))

/- A text with a literal: what stands before it, the line that opens it, the lines that go on with it,
the line that closes it and what stands after it. -/
theorem literalParts {lines : List String} {span : Span} (within : span.Within lines) :
    ∃ head middle last, span.block lines = head :: (middle ++ [last]) ∧
      lines[span.last - 1]? = some last ∧ (lines.take (span.first - 1)).length + 1 = span.first ∧
      middle.length + 1 = span.last - span.first ∧
      lines = lines.take (span.first - 1) ++ head :: (middle ++ [last]) ++ lines.drop span.last := by
  obtain ⟨starts, longer, last, closing, _⟩ := within
  have inside := (List.getElem?_eq_some_iff.mp closing).1
  have length : (span.block lines).length = span.last + 1 - span.first := by
    simp only [Span.block, List.length_take, List.length_drop]
    omega
  have whole : lines = lines.take (span.first - 1) ++ span.block lines ++ lines.drop span.last := by
    have behind : lines.drop span.last = (lines.drop (span.first - 1)).drop (span.last + 1 - span.first) := by
      rw [List.drop_drop]
      congr 1
      omega
    rw [behind, Span.block, List.append_assoc, List.take_append_drop, List.take_append_drop]
  have final : (span.block lines)[span.last - span.first]? = some last := by
    rw [Span.block, List.getElem?_take_of_lt (by omega), List.getElem?_drop, ← closing]
    congr 1
    omega
  obtain ⟨head, tail, split⟩ := List.exists_cons_of_length_pos (l := span.block lines) (by omega)
  rcases List.eq_nil_or_concat tail with rfl | ⟨middle, other, rfl⟩
  · rw [split, List.length_singleton] at length
    omega
  · rw [List.concat_eq_append] at split
    have count : middle.length + 1 = span.last - span.first := by
      rw [split] at length
      simp only [List.length_cons, List.length_append, List.length_nil] at length
      omega
    have same : other = last := by
      rw [split, ← count, List.getElem?_cons_succ, List.getElem?_concat_length] at final
      exact Option.some.inj final
    subst same
    refine ⟨head, middle, other, split, closing, ?_, count, ?_⟩
    · rw [List.length_take]
      omega
    · rw [← split]
      exact whole

theorem quoteFull {line : String} {c : Char} (inside : c ∈ line.toList) (quote : isQuote c = true) :
    Text.allBlank line = false := by
  have full : Text.isBlank c = false := by
    simp only [isQuote, Bool.or_eq_true, decide_eq_true_eq] at quote
    rcases quote with rfl | rfl <;> rfl
  rw [Text.allBlank, List.all_eq_false]
  exact ⟨c, inside, by simp [full]⟩

section Around

variable {spans : List Span} {span : Span} {before middle after : List String} {last : String}

/- The lines of a text with a literal, numbered: the line that opens it has the first of its numbers and
the line that closes it has the last one. -/
theorem numberedAround (head : String) (after : List String) (front : before.length + 1 = span.first)
    (count : middle.length + 1 = span.last - span.first) :
    (before ++ head :: (middle ++ [last]) ++ after).zipIdx 1 = before.zipIdx 1 ++ (head, span.first) ::
      ((middle ++ [last]).zipIdx (span.first + 1) ++ after.zipIdx (span.last + 1)) := by
  have opens : 1 + before.length = span.first := by omega
  have goes : span.first + 1 + (middle ++ [last]).length = span.last + 1 := by
    rw [List.length_append, List.length_singleton]
    omega
  rw [List.append_assoc, List.zipIdx_append, opens, List.cons_append, List.zipIdx_cons,
    List.zipIdx_append, goes]

theorem numberedLast (head : String) (front : before.length + 1 = span.first)
    (count : middle.length + 1 = span.last - span.first) :
    ((before ++ head :: (middle ++ [last]) ++ after).zipIdx 1).drop (span.last - 1) =
      (last, span.last) :: after.zipIdx (span.last + 1) := by
  have closes : span.first + 1 + middle.length = span.last := by omega
  have parted : (before ++ head :: (middle ++ [last]) ++ after).zipIdx 1 = (before.zipIdx 1 ++
      (head, span.first) :: middle.zipIdx (span.first + 1)) ++
        (last, span.last) :: after.zipIdx (span.last + 1) := by
    rw [numberedAround head after front count, List.zipIdx_append, closes]
    simp
  rw [parted]
  refine List.drop_left' ?_
  simp only [List.length_append, List.length_cons, List.length_zipIdx]
  omega

/- The lines of the literal come to stand on each other, on what the lines before it left, and nothing
that is taken after them reaches below its last line. -/
theorem foldAround (head : String) (member : span ∈ spans) (front : before.length + 1 = span.first)
    (count : middle.length + 1 = span.last - span.first) (full : Text.allBlank last = false)
    (free : ¬Attached spans ((last, span.last) :: after.zipIdx (span.last + 1))) :
    ∃ above top, ((before ++ head :: (middle ++ [last]) ++ after).zipIdx 1).foldl (takeLine spans) [] =
        top ++ last :: (middle.reverse ++ head :: above) ∧
      Respaced before.reverse above ∧ Respaced after.reverse top := by
  obtain ⟨above, taken, respaced⟩ := takeLineOnTop spans ((before.zipIdx 1).foldl (takeLine spans) [])
    (head, span.first)
  obtain ⟨top, folded, late, _⟩ := foldAbove (middle.reverse ++ head :: above) free full
  have literal : ((middle ++ [last]).zipIdx (span.first + 1)).foldl (takeLine spans) (head :: above) =
      last :: (middle.reverse ++ head :: above) := by
    rw [foldUndeclared, List.zipIdx_map_fst]
    · simp
    · intro line inside
      obtain ⟨low, high, _⟩ := List.mem_zipIdx inside
      rw [List.length_append, List.length_singleton] at high
      have within : inLiteral spans line.2 = true := by
        refine List.any_eq_true.mpr ⟨span, member, ?_⟩
        simp only [Span.continuedAt, decide_eq_true_eq]
        omega
      rw [declares, within, Bool.not_true, Bool.false_and]
  have early := (foldRespaced spans (before.zipIdx 1) []).trans respaced
  rw [List.append_nil, List.zipIdx_map_fst] at early
  rw [List.zipIdx_map_fst] at late
  refine ⟨above, top, ?_, early, late⟩
  rw [numberedAround head after front count, List.foldl_append, List.foldl_cons, taken, List.foldl_append,
    literal, folded]

end Around

theorem literalUntouched (code : String) {span : Span} (member : span ∈ literalSpans code)
    (free : ¬span.Attached code) : Untouched span (Text.lines code) (Text.lines (normalize code)) := by
  have within := literalWithin member
  have plain : ∀ line ∈ Text.lines code, '\n' ∉ line.toList := fun line inside => Text.lineOfText inside
  unfold Span.Attached at free
  unfold normalize
  generalize literalSpans code = spans at member free
  generalize Text.lines code = lines at *
  obtain ⟨head, middle, last, block, closing, front, count, whole⟩ := literalParts within
  have full : Text.allBlank last = false := by
    obtain ⟨line, found, c, inside, quote⟩ := within.closing
    rw [closing] at found
    cases found
    exact quoteFull inside quote
  unfold Untouched
  rw [block]
  generalize lines.take (span.first - 1) = before at front whole ⊢
  generalize lines.drop span.last = after at whole ⊢
  have clean := foldPlain spans plain
  rw [whole, numberedLast head front count] at free
  obtain ⟨above, top, stack, early, late⟩ := foldAround head member front count full free
  rw [← whole] at stack
  rw [stack] at clean
  have dropped := late.trans (.dropped top)
  refine ⟨above.reverse, (top.dropWhile Text.allBlank).reverse ++ [""], ?_, ?_, ?_⟩
  · rw [stack, endedAbove full clean]
    simp
  · rw [Text.nonBlankReverse, early.kept, Text.nonBlankReverse, List.reverse_reverse]
  · rw [Text.nonBlankAppend, Text.nonBlankReverse, dropped.kept, Text.nonBlankReverse,
      List.reverse_reverse]
    exact List.append_nil _

namespace Sample

/- The literal is a template. It holds what looks like a comment and a declaration, and its last line,
where a field ends, is neither. -/
def apart : String :=
  "x = f\"\"\"\n# y\nclass Z:\n\x7ba\n\x7d\"\"\"\n# note\ndef f():\n    pass"

theorem literalKept : ⟨1, 5⟩ ∈ literalSpans apart ∧ ¬Span.Attached apart ⟨1, 5⟩ ∧
    Untouched ⟨1, 5⟩ (Text.lines apart) (Text.lines (normalize apart)) := by
  have member : ⟨1, 5⟩ ∈ literalSpans apart := by decide +kernel
  have free : ¬Span.Attached apart ⟨1, 5⟩ := by
    have last : ((Text.lines apart).zipIdx 1).drop 4 =
        [("\x7d\"\"\"", 5), ("# note", 6), ("def f():", 7), ("    pass", 8)] := by decide +kernel
    intro attached
    obtain ⟨comments, declaration, rest, split, some, all, _⟩ := attached
    cases comments with
    | nil => exact some rfl
    | cons first others =>
      cases (List.cons.inj (last.symm.trans split)).1
      exact absurd (all _ List.mem_cons_self) (by decide +kernel)
  exact ⟨member, free, literalUntouched apart member free⟩

def torn : String :=
  "x = \"\"\"\n# y\"\"\"\ndef f():\n    pass"

theorem literalTorn : ⟨1, 2⟩ ∈ literalSpans torn ∧
    normalize torn = "x = \"\"\"\n\n\n# y\"\"\"\ndef f():\n    pass\n" ∧
    ¬(Span.block ⟨1, 2⟩ (Text.lines torn) <:+: Text.lines (normalize torn)) := by
  decide +kernel

end Sample
end Codegen.Source
