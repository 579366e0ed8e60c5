import Codegen.Proofs.Source.Spacing
import Mathlib.Data.List.DropRight

/-! Texts whose declarations are set apart. Going up from a declaration one passes its comments and comes to
the start of the text, to a decorator or to two empty lines. Where no literal runs over several lines,
spacing makes every text such a text, and it leaves such texts as they are. -/
namespace Codegen.Source

inductive SetApart : List String → Prop where
  | start {comments : List String} (all : ∀ line ∈ comments, isComment line = true) : SetApart comments
  | decorated {rest comments : List String} {last : String} (mark : isDecorator last = true)
      (all : ∀ line ∈ comments, isComment line = true) : SetApart (rest ++ last :: comments)
  | parted {rest comments : List String} {last : String} (full : Text.allBlank last = false)
      (all : ∀ line ∈ comments, isComment line = true) : SetApart (rest ++ last :: "" :: "" :: comments)

theorem spacedTwice (above : List String) : spaced (spaced above) = spaced above := by
  cases aboveForms above with
  | bare all blank =>
    rw [spacedBare all blank]
    simpa using spacedBare all (List.forall_mem_nil _)
  | decorated all mark => rw [spacedDecorated all mark, spacedDecorated all mark]
  | parted all blank full other =>
    rw [spacedParted all blank full other]
    have empty : ∀ line ∈ ["", ""], Text.allBlank line = true := by decide
    exact spacedParted all empty full (by simp)

theorem fixedApart {above : List String} (fixed : spaced above = above) : SetApart above.reverse := by
  have turned {comments : List String} (all : ∀ line ∈ comments, isComment line = true) :
      ∀ line ∈ comments.reverse, isComment line = true := fun line member => all line (List.mem_reverse.mp member)
  cases aboveForms above with
  | bare all blank =>
    rw [spacedBare all blank] at fixed
    rw [← fixed]
    exact .start (turned all)
  | @decorated comments rest last all mark =>
    have shape : SetApart (rest.reverse ++ last :: comments.reverse) := .decorated mark (turned all)
    simpa using shape
  | @parted comments _ rest last all blank full other =>
    rw [spacedParted all blank full other] at fixed
    have shape : SetApart (rest.reverse ++ last :: "" :: "" :: comments.reverse) := .parted full (turned all)
    simpa [← fixed] using shape

inductive Settled : List String → Prop where
  | nil : Settled []
  | plain {line : String} {above : List String} (other : isDeclaration line = false)
      (rest : Settled above) : Settled (line :: above)
  | declared {line : String} {above : List String} (fixed : spaced above = above)
      (rest : Settled above) : Settled (line :: above)

namespace Settled

theorem lower {top above : List String} (settled : Settled (top ++ above)) : Settled above := by
  induction top with
  | nil => exact settled
  | cons line top ih =>
    cases settled with
    | plain _ rest => exact ih rest
    | declared _ rest => exact ih rest

theorem commented {comments above : List String} (all : ∀ line ∈ comments, isComment line = true)
    (settled : Settled above) : Settled (comments ++ above) := by
  induction comments with
  | nil => exact settled
  | cons line comments ih =>
    obtain ⟨first, others⟩ := List.forall_mem_cons.mp all
    exact .plain ((commentPlain first).2) (ih others)

theorem spacing {above : List String} (settled : Settled above) : Settled (spaced above) := by
  cases aboveForms above with
  | bare all blank =>
    rw [spacedBare all blank]
    simpa using commented all .nil
  | decorated all mark =>
    rw [spacedDecorated all mark]
    exact settled
  | parted all blank full other =>
    rw [spacedParted all blank full other]
    exact commented all (.plain rfl (.plain rfl settled.lower.lower))

theorem apart {below above : List String} {line : String} (settled : Settled (below ++ line :: above))
    (declaration : isDeclaration line = true) : SetApart above.reverse := by
  cases settled.lower with
  | plain other =>
    rw [other] at declaration
    cases declaration
  | declared fixed => exact fixedApart fixed

end Settled

theorem foldFree {spans : List Span} (free : ∀ n, inLiteral spans n = false) (lines above : List String)
    (start : Nat) : (lines.zipIdx start).foldl (takeLine spans) above = lines.foldl place above := by
  induction lines generalizing above start with
  | nil => rfl
  | cons line rest ih =>
    rw [List.zipIdx_cons, List.foldl_cons, takeLineFree (free _), ih]
    rfl

theorem placeSettled {above : List String} (settled : Settled above) (line : String) :
    Settled (place above line) := by
  unfold place
  split
  · exact .declared (spacedTwice above) settled.spacing
  · rename_i other
    exact .plain (by simpa using other) settled

theorem foldSettled (lines : List String) {above : List String} (settled : Settled above) :
    Settled (lines.foldl place above) := by
  induction lines generalizing above with
  | nil => exact settled
  | cons line rest ih => exact ih (placeSettled settled line)

theorem placeFixed {line : String} {above : List String} (settled : Settled (line :: above)) :
    place above line = line :: above := by
  unfold place
  split
  · rename_i declaration
    cases settled with
    | plain other =>
      rw [other] at declaration
      cases declaration
    | declared fixed => rw [fixed]
  · rfl

theorem foldFixed {taken : List String} (settled : Settled taken) : taken.reverse.foldl place [] = taken := by
  induction taken with
  | nil => rfl
  | cons line above ih =>
    rw [List.reverse_cons, List.foldl_append, ih (@Settled.lower [line] above settled), List.foldl_cons,
      List.foldl_nil, placeFixed settled]

section Free

variable {code : String} (free : ∀ n, inLiteral (literalSpans code) n = false)

include free

theorem normalizeFree : normalize code = ended ((Text.lines code).foldl place []) := by
  rw [normalize, foldFree free]

/- The lines that spacing leaves, last line first; the text goes on with the end of the last one. -/
theorem normalizedLines : ∃ kept, Settled kept ∧ normalize code = ended kept ∧
    Text.lines (normalize code) = kept.reverse ++ [""] ∧ ∀ line ∈ kept.head?, Text.allBlank line = false := by
  have settled := foldSettled (Text.lines code) .nil
  have plain := takenPlain code
  rw [foldFree free] at plain
  rw [normalizeFree free]
  generalize (Text.lines code).foldl place [] = taken at settled plain
  refine ⟨taken.dropWhile Text.allBlank, ?_, ?_, linesEnded plain, ?_⟩
  · rw [← List.takeWhile_append_dropWhile (p := Text.allBlank) (l := taken)] at settled
    exact settled.lower
  · rw [ended, ended, List.dropWhile_idempotent]
  · have full := List.head?_dropWhile_not Text.allBlank taken
    intro line first
    rw [Option.mem_def] at first
    simpa [first] using full

end Free

theorem normalizeSettles {code : String} (free : ∀ n, inLiteral (literalSpans code) n = false)
    (after : ∀ n, inLiteral (literalSpans (normalize code)) n = false) :
    normalize (normalize code) = normalize code ∧
      Text.nonBlankLines (normalize code) = Text.nonBlankLines code ∧
      (normalize code = "" ∨ ∃ above last, Text.lines (normalize code) = above ++ [last, ""] ∧
        Text.allBlank last = false) ∧
      ∀ above declaration below, Text.lines (normalize code) = above ++ declaration :: below →
        isDeclaration declaration = true → SetApart above := by
  obtain ⟨kept, settled, text, lines, full⟩ := normalizedLines free
  refine ⟨?_, nonBlankLinesNormalize code, ?_, fun above declaration below split declared => ?_⟩
  · -- the end of the last line makes an empty line, which is taken and then dropped again
    have empty : place kept "" = "" :: kept := rfl
    rw [normalizeFree after, lines, List.foldl_append, foldFixed settled, List.foldl_cons, List.foldl_nil,
      empty, text]
    rfl
  · cases kept with
    | nil => exact .inl text
    | cons last others => exact .inr ⟨others.reverse, last, by simpa using lines, full last rfl⟩
  · rw [lines] at split
    rcases List.eq_nil_or_concat below with rfl | ⟨others, line, rfl⟩
    · obtain ⟨_, last⟩ := List.append_inj' split rfl
      cases last
      cases declared
    · rw [List.concat_eq_append, ← List.cons_append, ← List.append_assoc] at split
      obtain ⟨front, _⟩ := List.append_inj' split rfl
      have turned : kept = others.reverse ++ declaration :: above.reverse := by
        rw [← List.reverse_reverse kept, front]
        simp
      subst turned
      simpa using settled.apart declared

namespace Sample

def loose : String :=
  "# a\n@b\n# c\nclass D:\n    e = 1\n \n# f\ndef g():\n    pass\n\n\n"

def tight : String :=
  "# a\n@b\n# c\nclass D:\n    e = 1\n\n\n# f\ndef g():\n    pass\n"

theorem looseSettles : (∀ n, inLiteral (literalSpans loose) n = false) ∧
    (∀ n, inLiteral (literalSpans (normalize loose)) n = false) ∧ normalize loose = tight ∧
    normalize (normalize loose) = normalize loose ∧
    SetApart ["# a", "@b", "# c", "class D:", "    e = 1", "", "", "# f"] := by
  have text : normalize loose = tight := by decide +kernel
  have first : literalSpans loose = [] := by decide +kernel
  have second : literalSpans tight = [] := by decide +kernel
  have lines : Text.lines tight =
      ["# a", "@b", "# c", "class D:", "    e = 1", "", "", "# f"] ++ "def g():" :: ["    pass", ""] := by
    decide +kernel
  have free : ∀ n, inLiteral (literalSpans loose) n = false := fun _ => by rw [first]; rfl
  have after : ∀ n, inLiteral (literalSpans (normalize loose)) n = false := fun _ => by
    rw [text, second]
    rfl
  obtain ⟨twice, _, _, apart⟩ := normalizeSettles free after
  rw [← text] at lines
  exact ⟨free, after, text, twice, apart _ _ _ lines (by decide +kernel)⟩

end Sample
end Codegen.Source
