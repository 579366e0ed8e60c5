import Codegen.Value.CanonicalJson
import Mathlib.Data.List.Basic
import Std.Data.String.ToInt

/-! The canonical texts of strings and integers, with more text behind them. Such a whole text tells the
string or the integer and where its text ends: an escape is told from what follows by its first
characters, and a number ends at the first character that no number holds. -/
namespace Codegen.Value

def shortForms : List (Char × Char) :=
  [('"', '"'), ('\\', '\\'), ('\n', 'n'), ('\r', 'r'), ('\t', 't'), ('\x0c', 'f'), ('\x08', 'b')]

def unitsOf (c : Char) : List Nat :=
  if c.toNat < 0x10000 then [c.toNat]
  else [0xd800 + (c.toNat - 0x10000) / 0x400, 0xdc00 + (c.toNat - 0x10000) % 0x400]

inductive Escaped (c : Char) : List Char → Prop where
  | short {letter} (known : (c, letter) ∈ shortForms) : Escaped c ['\\', letter]
  | plain (quote : c ≠ '"') (slash : c ≠ '\\') : Escaped c [c]
  | units : Escaped c ((unitsOf c).flatMap unitEscape)

theorem jsonEscaped (c : Char) : Escaped c (jsonChar c) := by
  unfold jsonChar
  split
  · rename_i same
    subst same
    exact .short (by decide)
  rename_i quote
  split
  · rename_i same
    subst same
    exact .short (by decide)
  rename_i slash
  iterate 5
    split
    · rename_i same
      subst same
      exact .short (by decide)
  split
  · exact .plain quote slash
  · have long : Escaped c ((unitsOf c).flatMap unitEscape) := .units
    unfold unitsOf at long
    split
    · rename_i small
      rwa [if_pos small, List.flatMap_singleton] at long
    · rename_i large
      rwa [if_neg large, List.flatMap_cons, List.flatMap_singleton] at long

section Units

theorem hexSplit (width : Nat) {n m : Nat} {r s : List Char} (left : n < Nat.pow 16 width)
    (right : m < Nat.pow 16 width)
    (same : Text.hexDigits width n ++ r = Text.hexDigits width m ++ s) : n = m ∧ r = s := by
  have digits : ∀ i < 16, ∀ j < 16, Text.hexDigit i = Text.hexDigit j → i = j := by decide
  induction width generalizing n m r s with
  | zero => exact ⟨(Nat.lt_one_iff.mp left).trans (Nat.lt_one_iff.mp right).symm, same⟩
  | succ width ih =>
    replace left : n < 16 * Nat.pow 16 width := Nat.mul_comm 16 _ ▸ left
    replace right : m < 16 * Nat.pow 16 width := Nat.mul_comm 16 _ ▸ right
    simp only [Text.hexDigits, List.append_assoc] at same
    obtain ⟨front, back⟩ := ih (Nat.div_lt_of_lt_mul left) (Nat.div_lt_of_lt_mul right) same
    obtain ⟨last, rest⟩ := List.cons.inj back
    have low := digits _ (Nat.mod_lt n (by decide)) _ (Nat.mod_lt m (by decide)) last
    exact ⟨by omega, rest⟩

theorem unitSplit {n m : Nat} {r s : List Char} (left : n < 0x10000) (right : m < 0x10000)
    (same : unitEscape n ++ r = unitEscape m ++ s) : n = m ∧ r = s :=
  hexSplit 4 left right (List.cons.inj (List.cons.inj same).2).2

/- The first of two units stands for no character alone, as no character has a number in that range. -/
theorem unitsSplit {c d : Char} {r s : List Char}
    (same : (unitsOf c).flatMap unitEscape ++ r = (unitsOf d).flatMap unitEscape ++ s) :
    c = d ∧ r = s := by
  have left : c.toNat < 0xd800 ∨ 0xdfff < c.toNat ∧ c.toNat < 0x110000 := c.valid
  have right : d.toNat < 0xd800 ∨ 0xdfff < d.toNat ∧ d.toNat < 0x110000 := d.valid
  unfold unitsOf at same
  split at same <;> split at same <;>
    simp only [List.flatMap_cons, List.flatMap_nil, List.append_nil, List.append_assoc] at same
  · obtain ⟨unit, rest⟩ := unitSplit (by omega) (by omega) same
    exact ⟨Char.toNat_inj.mp unit, rest⟩
  · have unit := (unitSplit (by omega) (by omega) same).1
    omega
  · have unit := (unitSplit (by omega) (by omega) same).1
    omega
  · obtain ⟨high, more⟩ := unitSplit (by omega) (by omega) same
    obtain ⟨low, rest⟩ := unitSplit (by omega) (by omega) more
    exact ⟨Char.toNat_inj.mp (by omega), rest⟩

theorem unitsStart (c : Char) (r : List Char) :
    ∃ more, (unitsOf c).flatMap unitEscape ++ r = '\\' :: 'u' :: more := by
  unfold unitsOf
  split <;> exact ⟨_, rfl⟩

end Units

section Strings

theorem escapedSplit {c d : Char} {cs ds r s : List Char} (left : Escaped c cs) (right : Escaped d ds)
    (same : cs ++ r = ds ++ s) : c = d ∧ r = s := by
  have apart : ∀ form ∈ shortForms, form.2 ≠ 'u' := by decide
  have once : ∀ form ∈ shortForms, ∀ other ∈ shortForms, form.2 = other.2 → form.1 = other.1 := by
    decide
  obtain ⟨more, start⟩ := unitsStart c r
  obtain ⟨others, start'⟩ := unitsStart d s
  cases left with
  | short known =>
    cases right with
    | short other =>
      obtain ⟨letter, rest⟩ := List.cons.inj (List.cons.inj same).2
      exact ⟨once _ known _ other letter, rest⟩
    | plain _ slash => exact absurd (List.cons.inj same).1.symm slash
    | units =>
      rw [start'] at same
      exact absurd (List.cons.inj (List.cons.inj same).2).1 (apart _ known)
  | plain _ slash =>
    cases right with
    | short _ => exact absurd (List.cons.inj same).1 slash
    | plain _ _ => exact List.cons.inj same
    | units =>
      rw [start'] at same
      exact absurd (List.cons.inj same).1 slash
  | units =>
    cases right with
    | short other =>
      rw [start] at same
      exact absurd (List.cons.inj (List.cons.inj same).2).1.symm (apart _ other)
    | plain _ slash =>
      rw [start] at same
      exact absurd (List.cons.inj same).1.symm slash
    | units => exact unitsSplit same

theorem escapedStart {c : Char} {cs : List Char} (escaped : Escaped c cs) :
    ∃ first more, cs = first :: more ∧ first ≠ '"' := by
  cases escaped with
  | short known => exact ⟨_, _, rfl, by decide⟩
  | plain quote slash => exact ⟨_, _, rfl, quote⟩
  | units =>
    obtain ⟨more, start⟩ := unitsStart c []
    exact ⟨_, _, by rwa [List.append_nil] at start, by decide⟩

theorem charsSplit {cs ds r s : List Char}
    (same : cs.flatMap jsonChar ++ '"' :: r = ds.flatMap jsonChar ++ '"' :: s) : cs = ds ∧ r = s := by
  have unclosed : ∀ (c : Char) (rest more t : List Char), '"' :: t ≠ (c :: rest).flatMap jsonChar ++ more := by
    intro c rest more t equal
    obtain ⟨first, others, start, other⟩ := escapedStart (jsonEscaped c)
    rw [List.flatMap_cons, start] at equal
    exact other (List.cons.inj equal).1.symm
  induction cs generalizing ds with
  | nil =>
    cases ds with
    | nil => exact ⟨rfl, (List.cons.inj same).2⟩
    | cons d rest => exact absurd same (unclosed d rest _ _)
  | cons c rest ih =>
    cases ds with
    | nil => exact absurd same.symm (unclosed c rest _ _)
    | cons d others =>
      simp only [List.flatMap_cons, List.append_assoc] at same
      obtain ⟨equal, tail⟩ := escapedSplit (jsonEscaped c) (jsonEscaped d) same
      obtain ⟨chars, left⟩ := ih tail
      exact ⟨by rw [equal, chars], left⟩

theorem stringSplit {s t : String} {r r' : List Char} (same : jsonString s ++ r = jsonString t ++ r') :
    s = t ∧ r = r' := by
  simp only [jsonString, List.cons_append, List.append_assoc, List.nil_append, List.cons.injEq,
    true_and] at same
  obtain ⟨chars, rest⟩ := charsSplit same
  exact ⟨String.toList_injective chars, rest⟩

end Strings

section Numbers

def isNumeric (c : Char) : Bool :=
  c.isDigit || c = '-'

theorem intText (n : Int) : (toString n).toList = Nat.toDigits 10 n.natAbs ∨
    (toString n).toList = '-' :: Nat.toDigits 10 n.natAbs := by
  rw [Int.toString_eq_repr]
  cases n with
  | ofNat m => exact .inl Nat.toList_repr
  | negSucc m =>
    refine .inr ?_
    rw [Int.repr, String.toList_append, Nat.toList_repr]
    rfl

theorem intNumeric (n : Int) : ∀ c ∈ (toString n).toList, isNumeric c = true := by
  have digits : ∀ c ∈ Nat.toDigits 10 n.natAbs, isNumeric c = true := fun c member => by
    simp [isNumeric, Nat.isDigit_of_mem_toDigits (by decide) (by decide) member]
  rcases intText n with text | text
  · rwa [text]
  · rw [text]
    exact List.forall_mem_cons.mpr ⟨rfl, digits⟩

def Ended (r : List Char) : Prop :=
  ∀ c more, r = c :: more → isNumeric c = false

theorem runNone {more r s : List Char} (ended : Ended r) (numeric : ∀ c ∈ more, isNumeric c = true)
    (rest : r = more ++ s) : more = [] := by
  cases more with
  | nil => rfl
  | cons c more =>
    have stops := ended c _ rest
    rw [numeric c List.mem_cons_self] at stops
    cases stops

theorem runSplit {cs ds r s : List Char} (left : ∀ c ∈ cs, isNumeric c = true)
    (right : ∀ c ∈ ds, isNumeric c = true) (ended : Ended r) (ended' : Ended s)
    (same : cs ++ r = ds ++ s) : cs = ds ∧ r = s := by
  rcases List.append_eq_append_iff.mp same with ⟨more, rfl, rest⟩ | ⟨more, rfl, rest⟩
  · cases runNone ended (fun c member => right c (List.mem_append_right _ member)) rest
    exact ⟨(List.append_nil cs).symm, rest⟩
  · cases runNone ended' (fun c member => left c (List.mem_append_right _ member)) rest
    exact ⟨List.append_nil ds, rest.symm⟩

theorem intSplit {n m : Int} {r s : List Char} (ended : Ended r) (ended' : Ended s)
    (same : (toString n).toList ++ r = (toString m).toList ++ s) : n = m ∧ r = s := by
  obtain ⟨digits, rest⟩ := runSplit (intNumeric n) (intNumeric m) ended ended' same
  refine ⟨Int.repr_injective ?_, rest⟩
  rw [← Int.toString_eq_repr, ← Int.toString_eq_repr]
  exact String.toList_injective digits

end Numbers
end Codegen.Value
