import Codegen.Banner
import Codegen.Proofs.Text.Lines

/-! The banner is made of comment lines only if no name and no source in it begins a line of its own:
the mark of a comment stands once, in front of everything that a line of the banner shows. The content
below stays as it is, and below a banner of any plugins no other is put. -/
namespace Codegen.Banner

def Covered (cs : List Char) : Prop :=
  ∀ before after, cs = before ++ '\n' :: after → after.head? = some '#'

def Commented (text : String) : Prop :=
  ∃ notes, Text.lines text = notes ++ [""] ∧ ∀ note ∈ notes, Text.startsWith note "#" = true

section Covered

variable {c : Char} {cs first second label : List Char}

theorem coveredNone : Covered [] := by
  intro before after parts
  cases before <;> cases parts

theorem coveredBreak : Covered ('\n' :: cs) ↔ cs.head? = some '#' ∧ Covered cs := by
  constructor
  · intro covered
    refine ⟨covered [] cs rfl, fun before after parts => ?_⟩
    exact covered ('\n' :: before) after (by rw [parts, List.cons_append])
  · intro covered before after parts
    cases before with
    | nil =>
      cases parts
      exact covered.1
    | cons c before =>
      obtain ⟨_, rest⟩ := List.cons.inj parts
      exact covered.2 before after rest

theorem coveredOther (other : c ≠ '\n') : Covered (c :: cs) ↔ Covered cs := by
  constructor
  · intro covered before after parts
    exact covered (c :: before) after (by rw [parts, List.cons_append])
  · intro covered before after parts
    cases before with
    | nil => exact absurd (List.cons.inj parts).1 other
    | cons d before => exact covered before after (List.cons.inj parts).2

theorem coveredLabel (plain : '\n' ∉ label) : Covered (label ++ cs) ↔ Covered cs := by
  induction label with
  | nil => rfl
  | cons c label ih =>
    rw [List.mem_cons, not_or] at plain
    rw [List.cons_append, coveredOther (Ne.symm plain.1), ih plain.2]

/- What is put behind a text must not make up for the mark that is missing at its end. -/
theorem coveredAppend (other : c ≠ '\n') (unmarked : c ≠ '#') :
    Covered (first ++ c :: second) ↔ Covered first ∧ Covered second := by
  induction first with
  | nil => rw [List.nil_append, coveredOther other, and_iff_right coveredNone]
  | cons d first ih =>
    rw [List.cons_append]
    by_cases ends : d = '\n'
    · have head : (first ++ c :: second).head? = some '#' ↔ first.head? = some '#' := by
        cases first with
        | nil => simp [unmarked]
        | cons e first => rfl
      rw [ends, coveredBreak, coveredBreak, ih, head, and_assoc]
    · rw [coveredOther ends, coveredOther ends, ih]

theorem cutFirst {mark : Char} {piece : List Char} {others : List (List Char)} (other : c ≠ mark)
    (parts : Text.cut mark cs = piece :: others) : piece.head? = some c ↔ cs.head? = some c := by
  cases cs with
  | nil =>
    cases parts
    rfl
  | cons d rest =>
    rw [Text.cut] at parts
    split at parts
    · rename_i same
      cases parts
      simp [same, Ne.symm other]
    · split at parts <;> cases parts <;> rfl

theorem piecesCovered :
    (∀ piece ∈ (Text.cut '\n' cs).tail, piece.head? = some '#') ↔ Covered cs := by
  induction cs with
  | nil => simp [Text.cut, coveredNone]
  | cons c rest ih =>
    obtain ⟨piece, others, parts⟩ := List.exists_cons_of_ne_nil (Text.cutNonempty '\n' rest)
    rw [parts, List.tail_cons] at ih
    by_cases ends : c = '\n'
    · rw [ends, Text.cut, if_pos rfl, coveredBreak, List.tail_cons, parts, List.forall_mem_cons, ih,
        cutFirst (by decide) parts]
    · rw [Text.cut, if_neg ends, parts, coveredOther ends]
      exact ih

end Covered

section Commented

variable {line rest : String}

theorem commentedNone : Commented "" :=
  ⟨[], rfl, by simp⟩

theorem startsMarked (note : String) :
    Text.startsWith note "#" = true ↔ note.toList.head? = some '#' := by
  rw [Text.startsWith, List.isPrefixOf_iff_prefix]
  cases note.toList with
  | nil => simp
  | cons c rest => simp [List.cons_prefix_cons, eq_comm (a := c)]

theorem linesCovered (marked : line.toList.head? = some '#') :
    (∀ note ∈ Text.lines line, Text.startsWith note "#" = true) ↔ Covered line.toList := by
  obtain ⟨piece, others, parts⟩ := List.exists_cons_of_ne_nil (Text.cutNonempty '\n' line.toList)
  have first := (cutFirst (by decide) parts).mpr marked
  rw [← piecesCovered, Text.lines, Text.split, parts, List.forall_mem_map, List.forall_mem_cons]
  simp only [startsMarked, String.toList_ofList, first, true_and, List.tail_cons]

theorem commentedNext (marked : line.toList.head? = some '#') :
    Commented (line ++ "\n" ++ rest) ↔ Covered line.toList ∧ Commented rest := by
  rw [Commented, Text.linesAppend, ← linesCovered marked]
  constructor
  · intro commented
    obtain ⟨notes, lines, all⟩ := commented
    have some : Text.lines rest ≠ [] := by
      simp [Text.lines, Text.split, Text.cutNonempty]
    obtain ⟨init, last, ended⟩ := (List.eq_nil_or_concat' _).resolve_left some
    rw [ended, ← List.append_assoc] at lines
    obtain ⟨rfl, same⟩ := List.append_inj' lines rfl
    rw [List.forall_mem_append] at all
    exact ⟨all.1, init, same ▸ ended, all.2⟩
  · intro parts
    obtain ⟨first, notes, lines, all⟩ := parts
    refine ⟨Text.lines line ++ notes, by rw [lines, List.append_assoc], fun note member => ?_⟩
    exact (List.mem_append.mp member).elim (first note) (all note)

theorem commentedNote {label shown : String} (marked : label.toList.head? = some '#')
    (plain : '\n' ∉ label.toList) :
    Commented (label ++ shown ++ "\n" ++ rest) ↔ Covered shown.toList ∧ Commented rest := by
  have head : (label ++ shown).toList.head? = some '#' := by
    rw [String.toList_append, List.head?_append, marked, Option.some_or]
  rw [commentedNext head, String.toList_append, coveredLabel plain]

end Commented

section Rendered

variable (plugins : List String) (source : Value)

structure Contained : Prop where
  plugins : ∀ plugin ∈ plugins, Covered plugin.toList
  source : source.truthy = true → Covered source.display.toList

theorem coveredJoined :
    Covered (Text.join ", " plugins).toList ↔ ∀ plugin ∈ plugins, Covered plugin.toList := by
  induction plugins with
  | nil => simp [Text.join, coveredNone]
  | cons plugin rest ih =>
    rw [List.forall_mem_cons, ← ih]
    by_cases last : rest = []
    · simp [last, Text.join, coveredNone]
    · rw [Text.joinListed plugin last, coveredAppend (by decide) (by decide), coveredOther (by decide)]

theorem pluginsCommented (rest : String) :
    Commented (pluginLine plugins ++ rest) ↔ (∀ plugin ∈ plugins, Covered plugin.toList) ∧ Commented rest := by
  rw [pluginLine]
  split
  · rename_i none
    simp [List.isEmpty_iff.mp none]
  · rw [commentedNote rfl (by decide), coveredJoined]

theorem sourceCommented :
    Commented (sourceLine source) ↔ (source.truthy = true → Covered source.display.toList) := by
  rw [sourceLine]
  split
  · rename_i shown
    have note : Commented ("# Source: " ++ source.display ++ "\n" ++ "") ↔ _ := commentedNote rfl (by decide)
    rw [String.append_empty, and_iff_left commentedNone] at note
    rw [note, forall_prop_of_true shown]
  · rename_i hidden
    exact iff_of_true commentedNone fun shown => absurd shown hidden

theorem renderCommented : Commented (render plugins source) ↔ Contained plugins source := by
  have first : firstLine.toList.head? = some '#' := rfl
  have plain : Covered (firstLine.toList ++ []) := (coveredLabel (by decide)).mpr coveredNone
  rw [List.append_nil] at plain
  rw [render, String.append_assoc, commentedNext first, and_iff_right plain, pluginsCommented, sourceCommented]
  exact ⟨fun parts => ⟨parts.1, parts.2⟩, fun contained => ⟨contained.plugins, contained.source⟩⟩

end Rendered

section Applied

variable (content : String) (plugins : List String) (source : Value)

theorem renderStarts : Text.startsWith (render plugins source ++ content) firstLine = true := by
  rw [Text.startsWith, List.isPrefixOf_iff_prefix, render, String.append_assoc, String.append_assoc,
    String.append_assoc, String.toList_append]
  exact List.prefix_append ..

theorem applyTwice (others : List String) (other : Value) :
    apply (apply content plugins source) others other = apply content plugins source := by
  have starts : Text.startsWith (apply content plugins source) firstLine = true := by
    rw [apply]
    split
    · assumption
    · exact renderStarts content plugins source
  rw [apply, if_pos starts]

theorem applyCommented :
    (∃ banner, Commented banner ∧ apply content plugins source = banner ++ content) ↔
      Text.startsWith content firstLine = true ∨ Contained plugins source := by
  rw [apply]
  split
  · rename_i starts
    exact iff_of_true ⟨"", commentedNone, (String.empty_append ..).symm⟩ (.inl starts)
  · rename_i fresh
    rw [or_iff_right fresh, ← renderCommented]
    constructor
    · intro added
      obtain ⟨banner, commented, same⟩ := added
      exact (String.append_left_inj content).mp same ▸ commented
    · intro commented
      exact ⟨_, commented, rfl⟩

structure Applied : Prop where
  kept : ∃ banner, apply content plugins source = banner ++ content
  comments : (∃ banner, Commented banner ∧ apply content plugins source = banner ++ content) ↔
    Text.startsWith content firstLine = true ∨ Contained plugins source
  once : ∀ others other,
    apply (apply content plugins source) others other = apply content plugins source

theorem bannerApplied : Applied content plugins source where
  kept := by
    rw [apply]
    split
    · exact ⟨"", (String.empty_append ..).symm⟩
    · exact ⟨_, rfl⟩
  comments := applyCommented content plugins source
  once := applyTwice content plugins source

end Applied

/- A name that goes on in a second line puts a line of code above the content. -/
namespace Sample

theorem codeAdded : Text.lines (apply "x = 1\n" ["a\nimport os"] .null) =
      [firstLine, "# Generated by: a", "import os", "x = 1", ""] ∧
    ¬∃ banner, Commented banner ∧ apply "x = 1\n" ["a\nimport os"] .null = banner ++ "x = 1\n" := by
  refine ⟨by decide +kernel, ?_⟩
  rw [applyCommented]
  intro either
  rcases either with starts | contained
  · exact absurd starts (by decide)
  · exact absurd (contained.plugins "a\nimport os" (by simp) ['a'] "import os".toList rfl) (by decide)

end Sample
end Codegen.Banner
