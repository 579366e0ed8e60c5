import Codegen.Emission.Attribution
import Codegen.Proofs.Table
import Codegen.Proofs.Text.Lines

/-! Reading an attribution back. The text is cut at every comma and blank, so the names come back as they
were added if none of them holds these two. An attribution without text is read as one without names:
if the first name is empty it does not count among those that are known, until a name with a text is
added. -/
namespace Codegen.Attribution

def mark : List Char :=
  [',', ' ']

def Single (name : String) : Prop :=
  ¬mark <:+: name.toList

def attributed : List String → String
  | [] => ""
  | first :: rest => rest.foldl add first

def Nameless (added : List String) : Prop :=
  added = [""] ∨ ["", ""] <+: added

structure Legible (added : List String) : Prop where
  single : ∀ name ∈ added, Single name
  named : ¬Nameless added

section Pieces

theorem piecesSome (cs : List Char) : pieces cs ≠ [] := by
  fun_cases pieces cs <;> simp

/- What `pieces` meets at the front of a text: nothing, a mark, or a character that begins none. -/
theorem piecesCases {holds : List Char → Prop} (nil : holds [])
    (marked : ∀ rest, holds rest → holds (',' :: ' ' :: rest))
    (plain : ∀ c rest, (∀ after, c = ',' → rest = ' ' :: after → False) → holds rest → holds (c :: rest))
    (cs : List Char) : holds cs := by
  induction cs using pieces.induct with
  | case1 => exact nil
  | case2 rest ih => exact marked rest ih
  | case3 c rest other _ ih => exact plain c rest other ih
  | case4 c rest other _ _ _ ih => exact plain c rest other ih

theorem piecesOther {c : Char} {rest : List Char} (other : ∀ after, c = ',' → rest = ' ' :: after → False) :
    ∃ piece others, pieces rest = piece :: others ∧ pieces (c :: rest) = (c :: piece) :: others := by
  obtain ⟨piece, others, parts⟩ := List.exists_cons_of_ne_nil (piecesSome rest)
  refine ⟨piece, others, parts, ?_⟩
  rw [pieces]
  · simp [parts]
  · exact other

theorem piecesAppend (first second : List Char) :
    pieces (first ++ ',' :: ' ' :: second) = pieces first ++ pieces second := by
  induction first using piecesCases with
  | nil => rfl
  | marked rest ih =>
    rw [List.cons_append, List.cons_append, pieces, pieces, ih, List.cons_append]
  | plain c rest other ih =>
    have still (after : List Char) (comma : c = ',')
        (blank : rest ++ ',' :: ' ' :: second = ' ' :: after) : False := by
      cases rest with
      | nil => cases blank
      | cons next more =>
        cases blank
        exact other more comma rfl
    obtain ⟨piece, others, parts, whole⟩ := piecesOther other
    obtain ⟨piece', others', parts', whole'⟩ := piecesOther still
    rw [ih, parts, List.cons_append] at parts'
    cases parts'
    rw [List.cons_append, whole, whole', List.cons_append]

/- The first piece begins the text, so that a blank in front of it stands behind no comma. -/
theorem piecesFirst {cs piece : List Char} {others : List (List Char)} (parts : pieces cs = piece :: others) :
    piece <+: cs := by
  induction cs using piecesCases generalizing piece others with
  | nil =>
    cases parts
    exact List.prefix_refl []
  | marked rest ih =>
    cases parts
    exact List.nil_prefix
  | plain c rest other ih =>
    obtain ⟨piece', others', parts', whole⟩ := piecesOther other
    rw [whole] at parts
    cases parts
    exact List.cons_prefix_cons.mpr ⟨rfl, ih parts'⟩

theorem piecesSingle {cs piece : List Char} (member : piece ∈ pieces cs) : ¬mark <:+: piece := by
  induction cs using piecesCases generalizing piece with
  | nil =>
    rw [pieces, List.mem_singleton] at member
    rw [member]
    decide
  | marked rest ih =>
    rw [pieces] at member
    rcases List.mem_cons.mp member with rfl | inside
    · decide
    · exact ih inside
  | plain c rest other ih =>
    obtain ⟨first, others, parts, whole⟩ := piecesOther other
    rw [whole] at member
    rcases List.mem_cons.mp member with rfl | inside
    · rw [mark, List.infix_cons_iff, List.cons_prefix_cons]
      intro held
      rcases held with ⟨comma, blank⟩ | within
      · obtain ⟨after, text⟩ := blank.trans (piecesFirst parts)
        exact other after comma.symm text.symm
      · exact ih (parts ▸ List.mem_cons_self) within
    · exact ih (parts ▸ List.mem_cons_of_mem _ inside)

theorem piecesPlain {cs : List Char} (single : ¬mark <:+: cs) : pieces cs = [cs] := by
  induction cs using piecesCases with
  | nil => rfl
  | marked rest ih => exact absurd ⟨[], rest, rfl⟩ single
  | plain c rest other ih =>
    obtain ⟨piece, others, parts, whole⟩ := piecesOther other
    rw [ih fun within => single (List.infix_cons within)] at parts
    cases parts
    exact whole

end Pieces

section Names

theorem namesSome {text : String} (some : text ≠ "") :
    names text = (pieces text.toList).map String.ofList :=
  if_neg some

theorem namesSingle {text name : String} (member : name ∈ names text) : Single name := by
  by_cases empty : text = ""
  · simp [names, empty] at member
  · rw [namesSome empty] at member
    obtain ⟨piece, inside, rfl⟩ := List.mem_map.mp member
    rw [Single, String.toList_ofList]
    exact piecesSingle inside

theorem longerSome (text name : String) : text ++ ", " ++ name ≠ "" := by
  simp [String.append_eq_empty_iff]

theorem namesLonger {text : String} (name : String) (some : text ≠ "") :
    names (text ++ ", " ++ name) = names text ++ (pieces name.toList).map String.ofList := by
  have chars : (text ++ ", " ++ name).toList = text.toList ++ ',' :: ' ' :: name.toList := by simp
  rw [namesSome (longerSome text name), namesSome some, chars, piecesAppend, List.map_append]

theorem addKept {text : String} (name : String) (some : text ≠ "") :
    add text name ≠ "" ∧ names text <+: names (add text name) := by
  unfold add
  split
  · exact ⟨some, List.prefix_refl _⟩
  · rw [namesLonger name some]
    exact ⟨longerSome text name, List.prefix_append ..⟩

theorem addedKept {text : String} (some : text ≠ "") (added : List String) :
    names text <+: names (added.foldl add text) := by
  induction added generalizing text with
  | nil => exact List.prefix_refl _
  | cons name rest ih =>
    obtain ⟨longer, kept⟩ := addKept name some
    exact kept.trans (ih longer)

theorem piecesJoined {listed : List String} (some : listed ≠ []) (single : ∀ name ∈ listed, Single name) :
    (pieces (Text.join ", " listed).toList).map String.ofList = listed := by
  induction listed with
  | nil => exact absurd rfl some
  | cons name rest ih =>
    have first := piecesPlain (single name List.mem_cons_self)
    by_cases last : rest = []
    · simp [last, Text.join, first]
    · rw [Text.joinListed name last, piecesAppend, first, List.map_append, ih last fun other member =>
        single other (List.mem_cons_of_mem _ member)]
      simp

theorem joinEmpty {listed : List String} (empty : Text.join ", " listed = "") :
    listed = [] ∨ listed = [""] := by
  cases listed with
  | nil => exact .inl rfl
  | cons name rest =>
    by_cases last : rest = []
    · subst last
      exact .inr (by simpa [Text.join] using empty)
    · rw [Text.join, String.intercalate_cons_of_ne_nil last] at empty
      exact absurd empty (longerSome name _)

theorem joinSnoc {listed : List String} (some : listed ≠ []) (name : String) :
    Text.join ", " (listed ++ [name]) = Text.join ", " listed ++ ", " ++ name := by
  rw [Text.join, String.intercalate_append_of_ne_nil some (by simp), String.intercalate_singleton, Text.join]

end Names

section Attributed

variable {added : List String}

theorem attributedSnoc (some : added ≠ []) (name : String) :
    attributed (added ++ [name]) = add (attributed added) name := by
  cases added with
  | nil => exact absurd rfl some
  | cons first rest => exact List.foldl_append

theorem firstsSome (some : added ≠ []) : added.eraseDups ≠ [] := by
  obtain ⟨first, rest, rfl⟩ := List.exists_cons_of_ne_nil some
  simp [List.eraseDups_cons]

/- Only repetitions of the empty name leave nothing but the empty name. -/
theorem namelessFirsts (only : added.eraseDups = [""]) : Nameless added := by
  have all : ∀ name ∈ added, name = "" := fun name member =>
    List.mem_singleton.mp (only ▸ List.mem_eraseDups.mpr member)
  match added with
  | [] => cases only
  | [first] => exact .inl (by rw [all first (by simp)])
  | first :: second :: rest =>
    rw [all first (by simp), all second (by simp)]
    exact .inr ⟨rest, rfl⟩

theorem joinedRead (some : added ≠ []) (legible : Legible added) :
    names (Text.join ", " added.eraseDups) = added.eraseDups := by
  obtain ⟨single, named⟩ := legible
  have text : Text.join ", " added.eraseDups ≠ "" := by
    intro empty
    rcases joinEmpty empty with none | only
    · exact firstsSome some none
    · exact named (namelessFirsts only)
  rw [namesSome text]
  exact piecesJoined (firstsSome some) fun name member => single name (List.mem_eraseDups.mp member)

theorem attributedJoined (some : added ≠ []) (legible : Legible added) :
    attributed added = Text.join ", " added.eraseDups := by
  obtain ⟨single, named⟩ := legible
  induction added using List.reverseRecOn with
  | nil => exact absurd rfl some
  | append_singleton added name ih =>
    have earlier : ∀ other ∈ added, Single other := fun other member =>
      single other (List.mem_append_left _ member)
    by_cases first : added = []
    · subst first
      simp [attributed, Text.join, List.eraseDups_cons]
    · rw [attributedSnoc first, Text.firstsSnoc, Text.extendOne]
      by_cases nameless : Nameless added
      · -- The names before are the empty name alone, which is not read back, and another one follows it.
        have alone : added = [""] := nameless.resolve_right fun twice =>
          named (.inr (twice.trans (List.prefix_append ..)))
        subst alone
        have other : name ≠ "" := by
          rintro rfl
          exact named (.inr (List.prefix_refl _))
        simp [attributed, add, names, List.eraseDups_cons, other, Text.join, String.intercalate_cons_of_ne_nil]
      · have read := joinedRead first ⟨earlier, nameless⟩
        rw [ih first earlier nameless, add, read]
        split
        · rfl
        · exact (joinSnoc (firstsSome first) name).symm

theorem attributedNameless (nameless : Nameless added) : names (attributed added) ≠ added.eraseDups := by
  rcases nameless with rfl | ⟨rest, rfl⟩
  · decide
  · intro same
    have kept : names ", " <+: names (attributed (["", ""] ++ rest)) :=
      addedKept (by decide) rest
    have distinct := Text.firstsDistinct (["", ""] ++ rest)
    rw [← same] at distinct
    exact absurd (distinct.sublist kept.sublist) (by decide)

theorem namesListed (some : added ≠ []) :
    names (attributed added) = added.eraseDups ↔ Legible added := by
  constructor
  · intro same
    have single (name : String) (member : name ∈ added) : Single name :=
      namesSingle (same ▸ List.mem_eraseDups.mpr member)
    exact ⟨single, fun nameless => attributedNameless nameless same⟩
  · intro legible
    rw [attributedJoined some legible, joinedRead some legible]

end Attributed

end Codegen.Attribution
