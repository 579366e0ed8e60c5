import Codegen.Proofs.Text.Lines
import Codegen.Text.Words
import Mathlib.Data.List.TakeWhile

/-! Names with an underscore between their words. The words are the matches that a search from left to right
finds; all letters and digits of a text are in them, so that only what separates words gets lost. In lower
case a word is letters or digits throughout, and there the search would cut again: at the underscores. -/
namespace Codegen.Text

inductive Match : List Char → Prop where
  | small {c rest} (first : c.isLower = true) (all : ∀ d ∈ rest, d.isLower = true) : Match (c :: rest)
  | capital {c rest} (first : c.isUpper = true) (all : ∀ d ∈ rest, d.isLower = true) : Match (c :: rest)
  | number {c rest} (first : c.isDigit = true) (all : ∀ d ∈ rest, d.isDigit = true) : Match (c :: rest)

/-- The matches from left to right, each as long as it can be; a character that begins none is passed by. -/
inductive Scanned : List Char → List (List Char) → Prop where
  | ends : Scanned [] []
  | passes {c rest found} (none : ¬Match [c]) (next : Scanned rest found) : Scanned (c :: rest) found
  | takes {word rest found} (matched : Match word) (longest : ∀ d ∈ rest.head?, ¬Match (word ++ [d]))
      (next : Scanned rest found) : Scanned (word ++ rest) (word :: found)

def blanked (c : Char) : Char :=
  if c = '_' ∨ c = '-' then ' ' else c

def lowered (word : List Char) : List Char :=
  word.map Char.toLower

def Plain (word : List Char) : Prop :=
  word ≠ [] ∧ ((∀ c ∈ word, c.isLower = true) ∨ ∀ c ∈ word, c.isDigit = true)

section Chars

variable {c d : Char}

theorem lowerRange : c.isLower = true ↔ 'a'.val ≤ c.val ∧ c.val ≤ 'z'.val := by
  change (decide ('a'.val ≤ c.val) && decide (c.val ≤ 'z'.val)) = true ↔ _
  rw [Bool.and_eq_true, decide_eq_true_eq, decide_eq_true_eq]

theorem digitRange : c.isDigit = true ↔ '0'.val ≤ c.val ∧ c.val ≤ '9'.val := by
  change (decide ('0'.val ≤ c.val) && decide (c.val ≤ '9'.val)) = true ↔ _
  rw [Bool.and_eq_true, decide_eq_true_eq, decide_eq_true_eq]

theorem upperRange : c.isUpper = true ↔ 'A'.val ≤ c.val ∧ c.val ≤ 'Z'.val :=
  decide_eq_true_iff

theorem digitApart (digit : c.isDigit = true) : c.isLower = false ∧ c.isUpper = false := by
  grind [digitRange, lowerRange, upperRange]

theorem upperApart (upper : c.isUpper = true) : c.isLower = false := by
  grind [lowerRange, upperRange]

theorem upperLowered (upper : c.isUpper = true) : c.toLower.isLower = true := by
  have range := upperRange.mp upper
  have moved : c.toLower.val = c.val + ('a'.val - 'A'.val) := congrArg Char.val (dif_pos range)
  rw [lowerRange, moved]
  grind

theorem unlowered (other : c.isUpper = false) : c.toLower = c :=
  dif_neg fun range => absurd (upperRange.mpr range) (Bool.eq_false_iff.mp other)

theorem plainKept (plain : c.isLower = true ∨ c.isDigit = true) : c.toLower = c := by
  refine unlowered (Bool.eq_false_iff.mpr fun upper => ?_)
  rcases plain with small | digit
  · exact absurd small (by simp [upperApart upper])
  · exact absurd upper (by simp [(digitApart digit).2])

theorem wordCharAlphanum (c : Char) : isWordChar c = c.isAlphanum :=
  congrArg (· || c.isDigit) (Bool.or_comm c.isLower c.isUpper)

end Chars

section Matches

variable {c d : Char} {word rest : List Char}

theorem continuesLetter (letter : c.isLower = true ∨ c.isUpper = true) : continues c = Char.isLower := by
  have other : ¬c.isDigit = true := by
    intro digit
    simp [digitApart digit] at letter
  funext d
  rw [continues, if_neg other]

theorem continuesDigit (digit : c.isDigit = true) : continues c = Char.isDigit := by
  funext d
  rw [continues, if_pos digit]

theorem matchContinues : Match (c :: rest) ↔ isWordChar c = true ∧ ∀ d ∈ rest, continues c d = true := by
  rw [isWordChar, Bool.or_eq_true, Bool.or_eq_true]
  constructor
  · rintro (⟨first, all⟩ | ⟨first, all⟩ | ⟨first, all⟩)
    · exact ⟨.inl (.inl first), continuesLetter (.inl first) ▸ all⟩
    · exact ⟨.inl (.inr first), continuesLetter (.inr first) ▸ all⟩
    · exact ⟨.inr first, continuesDigit first ▸ all⟩
  · rintro ⟨(small | capital) | digit, all⟩
    · exact .small small (continuesLetter (.inl small) ▸ all)
    · exact .capital capital (continuesLetter (.inr capital) ▸ all)
    · exact .number digit (continuesDigit digit ▸ all)

theorem matchOne : Match [c] ↔ isWordChar c = true := by
  simp [matchContinues]

theorem continuesSame (begins : isWordChar c = true) (goesOn : continues c d = true) :
    isWordChar d = true ∧ continues d = continues c := by
  simp only [isWordChar, Bool.or_eq_true] at begins ⊢
  rcases begins with letter | digit
  · rw [continuesLetter letter] at goesOn ⊢
    exact ⟨.inl (.inl goesOn), continuesLetter (.inl goesOn)⟩
  · rw [continuesDigit digit] at goesOn ⊢
    exact ⟨.inr goesOn, continuesDigit goesOn⟩

theorem wordsPassed (none : ¬Match [c]) : words (c :: rest) = words rest := by
  rw [matchOne] at none
  rw [words, if_neg none]

/- A word is made from its end, one character at a time; so far as it goes on, nothing begins a new one. -/
theorem wordsRun (begins : isWordChar c = true) :
    words (c :: rest) = (c :: rest.takeWhile (continues c)) :: words (rest.dropWhile (continues c)) := by
  induction rest generalizing c with
  | nil => rw [words, if_pos begins]; rfl
  | cons d rest ih =>
    rw [words, if_pos begins, List.head?_cons]
    by_cases goesOn : continues c d = true
    · obtain ⟨wordChar, same⟩ := continuesSame begins goesOn
      simp only [ih wordChar, goesOn, if_true, same, List.takeWhile_cons, List.dropWhile_cons]
    · rw [List.takeWhile_cons_of_neg goesOn, List.dropWhile_cons_of_neg goesOn]
      cases words (d :: rest) with
      | nil => rfl
      | cons word others => exact if_neg goesOn

theorem wordsTaken (matched : Match word) (longest : ∀ d ∈ rest.head?, ¬Match (word ++ [d])) :
    words (word ++ rest) = word :: words rest := by
  obtain ⟨c, more, rfl⟩ : ∃ c more, word = c :: more := by cases matched <;> exact ⟨_, _, rfl⟩
  obtain ⟨begins, all⟩ := matchContinues.mp matched
  have stops : ∀ d ∈ rest.head?, ¬continues c d = true := by
    intro d head goesOn
    refine longest d head (matchContinues.mpr ⟨begins, ?_⟩)
    simpa [or_imp, forall_and] using ⟨all, goesOn⟩
  have none : rest.takeWhile (continues c) = [] ∧ rest.dropWhile (continues c) = rest := by
    cases rest with
    | nil => exact ⟨rfl, rfl⟩
    | cons d rest =>
      have stop := stops d rfl
      rw [List.takeWhile_cons_of_neg stop, List.dropWhile_cons_of_neg stop]
      exact ⟨rfl, rfl⟩
  rw [List.cons_append, wordsRun begins, List.takeWhile_append_of_pos all,
    List.dropWhile_append_of_pos all, none.1, none.2, List.append_nil]

end Matches

section Scans

variable {cs : List Char} {found : List (List Char)}

theorem scannedWords (scanned : Scanned cs found) : words cs = found := by
  induction scanned with
  | ends => rfl
  | passes none _ ih => rw [wordsPassed none, ih]
  | takes matched longest _ ih => rw [wordsTaken matched longest, ih]

theorem wordsScanned (cs : List Char) : Scanned cs (words cs) := by
  induction size : cs.length using Nat.strongRecOn generalizing cs with
  | _ size ih =>
    cases cs with
    | nil => exact .ends
    | cons c rest =>
      rw [List.length_cons] at size
      by_cases begins : Match [c]
      · have fewer := (List.dropWhile_sublist (continues c) (l := rest)).length_le
        have next := ih _ (by omega) (rest.dropWhile (continues c)) rfl
        have matched : Match (c :: rest.takeWhile (continues c)) :=
          matchContinues.mpr ⟨matchOne.mp begins, fun _ => List.mem_takeWhile_imp⟩
        have longest : ∀ d ∈ (rest.dropWhile (continues c)).head?,
            ¬Match (c :: rest.takeWhile (continues c) ++ [d]) := by
          intro d head longer
          have stops := List.head?_dropWhile_not (continues c) rest
          rw [head] at stops
          have goesOn := (matchContinues.mp longer).2 d (by simp)
          exact absurd goesOn (by simpa using stops)
        have taken := Scanned.takes matched longest next
        rwa [List.cons_append, List.takeWhile_append_dropWhile, ← wordsRun (matchOne.mp begins)] at taken
      · rw [wordsPassed begins]
        exact .passes begins (ih rest.length (by omega) rest rfl)

theorem matchAlphanum {word : List Char} (matched : Match word) : ∀ c ∈ word, c.isAlphanum = true := by
  simp only [← wordCharAlphanum, isWordChar, Bool.or_eq_true]
  rcases matched with ⟨first, all⟩ | ⟨first, all⟩ | ⟨first, all⟩
  · exact List.forall_mem_cons.mpr ⟨.inl (.inl first), fun d member => .inl (.inl (all d member))⟩
  · exact List.forall_mem_cons.mpr ⟨.inl (.inr first), fun d member => .inl (.inl (all d member))⟩
  · exact List.forall_mem_cons.mpr ⟨.inr first, fun d member => .inr (all d member)⟩

theorem scannedComplete (scanned : Scanned cs found) : found.flatten = cs.filter Char.isAlphanum := by
  induction scanned with
  | ends => rfl
  | passes none _ ih =>
    rw [matchOne, wordCharAlphanum] at none
    rw [List.filter_cons_of_neg none, ih]
  | takes matched _ _ ih =>
    rw [List.flatten_cons, List.filter_append, List.filter_eq_self.mpr (matchAlphanum matched), ih]

theorem scannedMatches (scanned : Scanned cs found) : ∀ word ∈ found, Match word := by
  induction scanned with
  | ends => exact fun _ member => absurd member List.not_mem_nil
  | passes _ _ ih => exact ih
  | takes matched _ _ ih => exact List.forall_mem_cons.mpr ⟨matched, ih⟩

theorem blankedSame {c : Char} (kept : c.isAlphanum = true ∨ (blanked c).isAlphanum = true) :
    blanked c = c := by
  rw [blanked] at kept ⊢
  split at kept
  · rename_i separates
    rcases separates with rfl | rfl <;> exact absurd kept (by decide)
  · rename_i other
    rw [if_neg other]

/- A separator and the blank that it counts as both begin no match and go on in none. -/
theorem scannedBlanked (scanned : Scanned cs found) : Scanned (cs.map blanked) found := by
  induction scanned with
  | ends => exact .ends
  | passes none _ ih =>
    rw [matchOne, wordCharAlphanum] at none
    refine .passes (fun begins => ?_) ih
    rw [matchOne, wordCharAlphanum] at begins
    exact none (blankedSame (.inr begins) ▸ begins)
  | @takes word rest _ matched longest _ ih =>
    have same : word.map blanked = word.map id :=
      List.map_congr_left fun c member => blankedSame (.inl (matchAlphanum matched c member))
    rw [List.map_append, same, List.map_id]
    refine .takes matched (fun d head longer => ?_) ih
    rw [List.head?_map] at head
    obtain ⟨c, first, rfl⟩ := Option.map_eq_some_iff.mp head
    have kept := matchAlphanum longer (blanked c) (by simp)
    exact longest c first (blankedSame (.inr kept) ▸ longer)

end Scans

section Lowered

variable {word : List Char} {parts : List (List Char)}

theorem loweredSame (plain : ∀ c ∈ word, c.isLower = true ∨ c.isDigit = true) : lowered word = word :=
  (List.map_congr_left fun c member => plainKept (plain c member)).trans (List.map_id word)

theorem loweredPlain (matched : Match word) : Plain (lowered word) := by
  cases matched with
  | @small c rest first all =>
    have small : ∀ d ∈ c :: rest, d.isLower = true := List.forall_mem_cons.mpr ⟨first, all⟩
    rw [loweredSame fun d member => .inl (small d member)]
    exact ⟨List.cons_ne_nil _ _, .inl small⟩
  | @capital c rest first all =>
    have behind : lowered (c :: rest) = c.toLower :: rest :=
      congrArg (c.toLower :: ·) (loweredSame fun d member => .inl (all d member))
    rw [behind]
    exact ⟨List.cons_ne_nil _ _, .inl (List.forall_mem_cons.mpr ⟨upperLowered first, all⟩)⟩
  | @number c rest first all =>
    have digits : ∀ d ∈ c :: rest, d.isDigit = true := List.forall_mem_cons.mpr ⟨first, all⟩
    rw [loweredSame fun d member => .inr (digits d member)]
    exact ⟨List.cons_ne_nil _ _, .inr digits⟩

theorem plainLowered (plain : Plain word) : lowered word = word :=
  loweredSame fun c member => plain.2.imp (· c member) (· c member)

theorem plainMatch (plain : Plain word) : Match word := by
  obtain ⟨some, all | all⟩ := plain
  · obtain ⟨c, rest, rfl⟩ := List.exists_cons_of_ne_nil some
    exact .small (all c List.mem_cons_self) fun d member => all d (List.mem_cons_of_mem _ member)
  · obtain ⟨c, rest, rfl⟩ := List.exists_cons_of_ne_nil some
    exact .number (all c List.mem_cons_self) fun d member => all d (List.mem_cons_of_mem _ member)

/- The underscore behind a part ends the match, and begins none itself. -/
theorem gluedScanned (plain : ∀ part ∈ parts, Plain part) : Scanned (glue '_' parts) parts := by
  induction parts using glue.induct with
  | case1 => exact .ends
  | case2 part =>
    have matched := plainMatch (plain part List.mem_cons_self)
    have whole := Scanned.takes matched (fun d head => by cases head) .ends
    rwa [List.append_nil] at whole
  | case3 part parts more ih =>
    rw [List.forall_mem_cons] at plain
    rw [glue]
    · refine .takes (plainMatch plain.1) (fun d head longer => ?_) (.passes ?_ (ih plain.2))
      · cases head
        exact absurd (matchAlphanum longer '_' (by simp)) (by decide)
      · rw [matchOne]
        decide
    · exact more

theorem snakeGlued (s : String) :
    snakeCase s = String.ofList (glue '_' ((words s.toList).map lowered)) := by
  rw [snakeCase, ← joinGlued, List.map_map]
  rfl

theorem wordsPlain (cs : List Char) : ∀ part ∈ (words cs).map lowered, Plain part := by
  intro part member
  obtain ⟨word, inside, rfl⟩ := List.mem_map.mp member
  exact loweredPlain (scannedMatches (wordsScanned cs) word inside)

theorem snakeSettled (s : String) : snakeCase (snakeCase s) = snakeCase s := by
  have plain := wordsPlain s.toList
  have kept : ((words s.toList).map lowered).map lowered = ((words s.toList).map lowered).map id :=
    List.map_congr_left fun part member => plainLowered (plain part member)
  rw [snakeGlued (snakeCase s), snakeGlued s, String.toList_ofList, scannedWords (gluedScanned plain), kept,
    List.map_id]

end Lowered

structure Snaked (s : String) (found : List (List Char)) : Prop where
  scanned : Scanned (s.toList.map blanked) found
  joined : snakeCase s = join "_" (found.map (fun word => String.ofList (lowered word)))
  plain : ∀ word ∈ found, Plain (lowered word)
  complete : (found.map lowered).flatten = lowered (s.toList.filter Char.isAlphanum)
  settled : snakeCase (snakeCase s) = snakeCase s

theorem snakeCased (s : String) : ∃ found, Snaked s found := by
  have scanned := wordsScanned s.toList
  refine ⟨words s.toList, scannedBlanked scanned, rfl, ?_, ?_, snakeSettled s⟩
  · exact fun word member => loweredPlain (scannedMatches scanned word member)
  · rw [← scannedComplete scanned, lowered, List.map_flatten]
    rfl

/- A capital begins a word, also behind another capital, and so do digits behind letters. -/
example : snakeCase "parseHTTPUrl-v2" = "parse_h_t_t_p_url_v_2" := by cbv

end Codegen.Text
