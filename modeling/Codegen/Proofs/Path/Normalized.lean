import Codegen.Proofs.Path
import Codegen.Proofs.Text.Lines

/-! What a normalized path text denotes. The names of a path do not change, since a dot in front of a slash
does not count among them. The root does where more than one slash follows the dots: once these are
gone, the slashes that are left begin the text, and a relative path has become an absolute one. -/
namespace Codegen.Path

def slashedText (s : String) : String :=
  String.ofList (s.toList.map slashed)

def dots (count : Nat) : String :=
  String.join (List.replicate count "./")

def Uprooted (s : String) : Prop :=
  ∃ count rest, slashedText s = dots (count + 1) ++ "/" ++ rest

theorem dropDotsNames (cs : List Char) :
    ((Text.cut '/' (dropDots cs)).map String.ofList).filter counts =
      ((Text.cut '/' cs).map String.ofList).filter counts := by
  induction cs using dropDots.induct with
  | case1 rest ih =>
    have parted : Text.cut '/' ('.' :: '/' :: rest) = ['.'] :: Text.cut '/' rest :=
      Text.cutAppend '/' ['.'] rest
    have uncounted : counts (String.ofList ['.']) = false := by decide
    rw [dropDots, ih, parted, List.map_cons, List.filter_cons, uncounted]
    rfl
  | case2 cs other => rw [dropDotsKept other]

theorem dropDotsParts (cs : List Char) : ∃ count, cs = (dots count).toList ++ dropDots cs := by
  induction cs using dropDots.induct with
  | case1 rest ih =>
    obtain ⟨count, parts⟩ := ih
    refine ⟨count + 1, ?_⟩
    rw [dropDots, dots, List.replicate_succ, String.join_cons, String.toList_append, ← dots,
      List.append_assoc, ← parts]
    rfl
  | case2 cs other => exact ⟨0, by rw [dropDotsKept other]; rfl⟩

theorem dropDotsRepeated (count : Nat) (rest : List Char) :
    dropDots ((dots count).toList ++ rest) = dropDots rest := by
  induction count with
  | zero => rfl
  | succ count ih =>
    rw [dots, List.replicate_succ, String.join_cons, String.toList_append, ← dots, List.append_assoc]
    exact ih

theorem dropDotsUndotted (cs rest : List Char) : dropDots cs ≠ '.' :: '/' :: rest := by
  induction cs using dropDots.induct with
  | case1 more ih =>
    rw [dropDots]
    exact ih
  | case2 cs other =>
    rw [dropDotsKept other]
    exact other rest

theorem normalizeChars (s : String) :
    (normalize s).toList = dropDots (slashedText s).toList := by
  rw [normalize, slashedText, String.toList_ofList, String.toList_ofList]

theorem normalizeNames (s : String) :
    (parse (normalize s)).names = (parse (slashedText s)).names := by
  simp only [parse, Text.split, normalizeChars]
  exact dropDotsNames _

theorem rootGiven (count : Nat) : rootOf (count + 1) ≠ "" := by
  unfold rootOf
  split
  · contradiction
  · simp
  · simp

theorem rootNone {cs : List Char} :
    rootOf (cs.takeWhile (· = '/')).length = "" ↔ cs.head? ≠ some '/' := by
  cases cs with
  | nil => exact iff_of_true rfl (by simp)
  | cons c rest =>
    by_cases slash : c = '/'
    · subst slash
      rw [List.takeWhile_cons_of_pos (by simp), List.length_cons]
      exact iff_of_false (rootGiven _) (by simp)
    · rw [List.takeWhile_cons_of_neg (by simpa using slash)]
      exact iff_of_true rfl (by simpa using slash)

theorem uprootedHeads (s : String) : Uprooted s ↔
    (slashedText s).toList.head? ≠ some '/' ∧ (normalize s).toList.head? = some '/' := by
  rw [normalizeChars]
  constructor
  · intro uprooted
    obtain ⟨count, rest, text⟩ := uprooted
    have chars : (slashedText s).toList = (dots (count + 1)).toList ++ '/' :: rest.toList := by
      rw [text, String.append_assoc, String.toList_append, String.toList_append]
      rfl
    have dotted : (dots (count + 1)).toList = '.' :: '/' :: (dots count).toList := by
      rw [dots, List.replicate_succ, String.join_cons, String.toList_append]
      rfl
    have first : (slashedText s).toList.head? = some '.' := by
      rw [chars, dotted]
      rfl
    rw [first, chars, dropDotsRepeated, dropDotsKept (fun _ same => by cases same)]
    simp
  · intro heads
    obtain ⟨count, parts⟩ := dropDotsParts (slashedText s).toList
    obtain ⟨rest, slash⟩ := List.head?_eq_some_iff.mp heads.2
    cases count with
    | zero =>
      -- No dot was dropped, so that both texts begin alike.
      have same : (slashedText s).toList = dropDots (slashedText s).toList := by
        simpa [dots] using parts
      exact absurd (same ▸ heads.2) heads.1
    | succ count =>
      have text : slashedText s = dots (count + 1) ++ "/" ++ String.ofList rest := by
        rw [← String.toList_inj, parts, slash, String.append_assoc, String.toList_append, String.toList_append]
        simp
      exact ⟨count, _, text⟩

theorem parsedRoot (s : String) : (parse s).root = "" ↔ s.toList.head? ≠ some '/' :=
  rootNone

theorem normalizeRooted {s : String} (slash : (slashedText s).toList.head? = some '/') :
    normalize s = slashedText s := by
  rw [← String.toList_inj, normalizeChars]
  refine dropDotsKept fun rest dotted => ?_
  rw [dotted] at slash
  cases slash

theorem normalizeRoot (s : String) :
    (parse (normalize s)).root = (parse (slashedText s)).root ↔ ¬Uprooted s := by
  rw [uprootedHeads]
  by_cases slash : (slashedText s).toList.head? = some '/'
  · rw [normalizeRooted slash]
    exact iff_of_true rfl fun heads => heads.1 slash
  · rw [(parsedRoot (slashedText s)).mpr slash, parsedRoot]
    exact not_congr ⟨fun gained => ⟨slash, gained⟩, fun heads => heads.2⟩

structure Normal (s text : String) : Prop where
  slashes : '\\' ∉ text.toList
  undotted : Text.startsWith text "./" = false
  settled : normalize text = text
  names : (parse text).names = (parse (slashedText s)).names
  same : parse text = parse (slashedText s) ↔ ¬Uprooted s
  root : Uprooted s → (parse (slashedText s)).root = "" ∧ (parse text).root ≠ ""

theorem normalizeSlashes (s : String) : '\\' ∉ (normalize s).toList := by
  intro member
  rw [normalizeChars] at member
  have inside := (dropDotsSuffix _).subset member
  rw [slashedText, String.toList_ofList] at inside
  obtain ⟨c, _, same⟩ := List.mem_map.mp inside
  unfold slashed at same
  split at same
  · cases same
  · rename_i other
    exact other same

theorem normalizeUndotted (s : String) : Text.startsWith (normalize s) "./" = false := by
  rw [Text.startsWith, Bool.eq_false_iff, ne_eq, List.isPrefixOf_iff_prefix, normalizeChars]
  intro starts
  obtain ⟨rest, text⟩ := starts
  exact dropDotsUndotted _ rest text.symm

theorem normalizeDenotes (s : String) : Normal s (normalize s) where
  slashes := normalizeSlashes s
  undotted := normalizeUndotted s
  settled := normalizeTwice s
  names := normalizeNames s
  same := by
    rw [← normalizeRoot, Path.mk.injEq]
    exact and_iff_left (normalizeNames s)
  root uprooted := by
    obtain ⟨relative, absolute⟩ := (uprootedHeads s).mp uprooted
    rw [ne_eq, parsedRoot, parsedRoot]
    exact ⟨relative, not_not.mpr absolute⟩

/- The path of a file below the output directory becomes that of a file at the root. -/
namespace Sample

theorem rootGained : (parse (slashedText ".//a.py")).parts = ["a.py"] ∧
    (parse (normalize ".//a.py")).parts = ["/", "a.py"] ∧
    join (parse "out") (parse (normalize ".//a.py")) = parse "/a.py" := by
  decide +kernel

end Sample
end Codegen.Path
