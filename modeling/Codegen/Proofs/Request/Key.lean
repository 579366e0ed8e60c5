import Codegen.Proofs.Value.Leaf
import Codegen.Request
import Mathlib.Data.List.Basic

/-! A key tells the kind of its request. Two colons part the kind from the canonical text, and in such a
text two colons stand together within strings only; a text that was entered within a string could not
be left outside of one again. -/
namespace Codegen

inductive Reading where
  | outside (colon : Bool)
  | inside
  | escaped

namespace Reading

def read : Reading → Char → Option Reading
  | outside colon, c =>
    if c = '"' then some inside
    else if c = '\\' then none
    else if c = ':' then if colon then none else some (outside true)
    else some (outside false)
  | inside, c =>
    if c = '"' then some (outside false) else if c = '\\' then some escaped else some inside
  | escaped, _ => some inside

def readAll (reading : Reading) (cs : List Char) : Option Reading :=
  cs.foldlM read reading

theorem readAppend {first last : Reading} {cs ds : List Char} :
    first.readAll (cs ++ ds) = some last ↔
      ∃ middle, first.readAll cs = some middle ∧ middle.readAll ds = some last := by
  simp only [readAll, List.foldlM_append, Option.bind_eq_bind, Option.bind_eq_some_iff]

theorem readCons {first last : Reading} {c : Char} {cs : List Char} :
    first.readAll (c :: cs) = some last ↔
      ∃ middle, first.read c = some middle ∧ middle.readAll cs = some last := by
  simp only [readAll, List.foldlM_cons, Option.bind_eq_bind, Option.bind_eq_some_iff]

def Whole (cs : List Char) : Prop :=
  ∀ colon, (outside colon).readAll cs = some (outside false)

def Inert (c : Char) : Prop :=
  c ≠ '"' ∧ c ≠ '\\' ∧ c ≠ ':'

instance : DecidablePred Inert := fun _ => inferInstanceAs (Decidable (_ ∧ _ ∧ _))

theorem readInert {c : Char} (inert : Inert c) (colon : Bool) :
    (outside colon).read c = some (outside false) := by
  obtain ⟨quote, slash, mark⟩ := inert
  simp [read, quote, slash, mark]

theorem inertRead {cs : List Char} (inert : ∀ c ∈ cs, Inert c) :
    (outside false).readAll cs = some (outside false) := by
  induction cs with
  | nil => rfl
  | cons c rest ih =>
    refine readCons.mpr ⟨_, readInert (inert c List.mem_cons_self) false, ih fun other member => ?_⟩
    exact inert other (List.mem_cons_of_mem _ member)

theorem inertAll {cs : List Char} (all : cs.all (fun c => decide (Inert c)) = true) :
    ∀ c ∈ cs, Inert c :=
  fun c member => of_decide_eq_true (List.all_eq_true.mp all c member)

theorem wholeInert {c : Char} {cs : List Char} (first : Inert c) (rest : ∀ d ∈ cs, Inert d) :
    Whole (c :: cs) :=
  fun colon => readCons.mpr ⟨_, readInert first colon, inertRead rest⟩

theorem inertDigit {c : Char} (digit : c.isDigit = true) : Inert c := by
  refine ⟨?_, ?_, ?_⟩
  · rintro rfl
    exact absurd digit (by decide)
  · rintro rfl
    exact absurd digit (by decide)
  · rintro rfl
    exact absurd digit (by decide)

theorem inertDigits {n : Nat} : ∀ c ∈ Nat.toDigits 10 n, Inert c := fun _ member =>
  inertDigit (Nat.isDigit_of_mem_toDigits (by decide) (by decide) member)

theorem wholeNonempty {cs : List Char} (nonempty : cs ≠ []) (inert : ∀ c ∈ cs, Inert c) :
    Whole cs := by
  obtain ⟨c, rest, rfl⟩ := List.exists_cons_of_ne_nil nonempty
  exact wholeInert (inert c List.mem_cons_self) fun d member => inert d (List.mem_cons_of_mem _ member)

inductive Opposed : Reading → Reading → Prop where
  | left (colon : Bool) : Opposed (outside colon) inside
  | right (colon : Bool) : Opposed inside (outside colon)

theorem Opposed.symm {first second : Reading} : Opposed first second → Opposed second first
  | .left colon => .right colon
  | .right colon => .left colon

/- A backslash stops the reader outside, so that the other never comes to an escaped character. -/
theorem partedStep {colon : Bool} {c : Char} {first second : Reading}
    (left : (outside colon).read c = some first) (right : inside.read c = some second) :
    Opposed first second := by
  simp only [read] at left right
  split at left
  · rename_i quote
    rw [if_pos quote] at right
    cases left
    cases right
    exact .right false
  · rename_i quote
    rw [if_neg quote] at right
    split at left
    · cases left
    · rename_i slash
      rw [if_neg slash] at right
      cases right
      split at left
      · split at left
        · cases left
        · cases left
          exact .left true
      · cases left
        exact .left false

theorem opposedStep {first second first' second' : Reading} (opposed : Opposed first second) {c : Char}
    (left : first.read c = some first') (right : second.read c = some second') :
    Opposed first' second' := by
  cases opposed with
  | left colon => exact partedStep left right
  | right colon => exact (partedStep right left).symm

theorem opposedAll {first second first' second' : Reading} (opposed : Opposed first second)
    {cs : List Char} (left : first.readAll cs = some first') (right : second.readAll cs = some second') :
    Opposed first' second' := by
  induction cs generalizing first second with
  | nil =>
    cases left
    cases right
    exact opposed
  | cons c rest ih =>
    obtain ⟨_, step, left⟩ := readCons.mp left
    obtain ⟨_, step', right⟩ := readCons.mp right
    exact ih (opposedStep opposed step step') left right

theorem wholeUnparted {cs front back : List Char} (whole : Whole cs) (ending : Whole back) :
    cs ≠ front ++ ':' :: ':' :: back := by
  rintro rfl
  obtain ⟨reading, _, rest⟩ := readAppend.mp (whole true)
  obtain ⟨next, first, rest⟩ := readCons.mp rest
  obtain ⟨last, second, rest⟩ := readCons.mp rest
  have within : last = inside := by
    cases reading with
    | outside colon =>
      -- the second of two colons outside is refused
      cases colon
      · cases first
        cases second
      · cases first
    | inside =>
      cases first
      cases second
      rfl
    | escaped =>
      cases first
      cases second
      rfl
  subst within
  cases opposedAll (.left true) (ending true) rest

theorem wholeUncolon {cs : List Char} : ¬Whole (':' :: cs) := by
  intro whole
  obtain ⟨next, first, _⟩ := readCons.mp (whole true)
  cases first

theorem insideAll {cs : List Char} (inert : ∀ c ∈ cs, Inert c) :
    inside.readAll cs = some inside := by
  induction cs with
  | nil => rfl
  | cons c rest ih =>
    obtain ⟨quote, slash, _⟩ := inert c List.mem_cons_self
    refine readCons.mpr ⟨inside, by simp [read, quote, slash], ih fun other member => ?_⟩
    exact inert other (List.mem_cons_of_mem _ member)

end Reading

namespace Value

open Reading

theorem hexInert {width n : Nat} : ∀ c ∈ Text.hexDigits width n, Inert c := by
  have each : ∀ k < 16, Inert (Text.hexDigit k) := by decide
  induction width generalizing n with
  | zero => simp [Text.hexDigits]
  | succ width ih =>
    intro c member
    rcases List.mem_append.mp member with before | last
    · exact ih c before
    · cases List.mem_singleton.mp last
      exact each _ (Nat.mod_lt _ (by decide))

theorem unitInside (unit : Nat) : inside.readAll (unitEscape unit) = some inside :=
  readCons.mpr ⟨escaped, rfl, readCons.mpr ⟨inside, rfl, insideAll hexInert⟩⟩

theorem charInside (c : Char) : inside.readAll (jsonChar c) = some inside := by
  unfold jsonChar
  split
  · rfl
  rename_i quote
  split
  · rfl
  rename_i slash
  iterate 5
    split
    · rfl
  split
  · exact readCons.mpr ⟨inside, by simp [Reading.read, quote, slash], rfl⟩
  · split
    · exact unitInside _
    · exact readAppend.mpr ⟨_, unitInside _, unitInside _⟩

theorem stringWhole (s : String) : Whole (jsonString s) := by
  intro colon
  have within : inside.readAll (s.toList.flatMap jsonChar) = some inside := by
    induction s.toList with
    | nil => rfl
    | cons c rest ih => exact readAppend.mpr ⟨_, charInside c, ih⟩
  refine readCons.mpr ⟨inside, rfl, readAppend.mpr ⟨inside, within, rfl⟩⟩

theorem memberWhole {key : String} {value : List Char} (whole : Whole value) :
    Whole (jsonMember key value) :=
  fun colon => readAppend.mpr
    ⟨_, stringWhole key colon, readCons.mpr ⟨outside true, rfl, whole true⟩⟩

theorem gluedRead {items : List (List Char)} (whole : ∀ item ∈ items, Whole item) :
    (outside false).readAll (Text.glue ',' items) = some (outside false) := by
  induction items using Text.glue.induct with
  | case1 => rfl
  | case2 item => exact whole item List.mem_cons_self false
  | case3 item items more ih =>
    have rest := ih fun other member => whole other (List.mem_cons_of_mem _ member)
    rw [Text.glue]
    · exact readAppend.mpr ⟨_, whole item List.mem_cons_self false, readCons.mpr ⟨_, rfl, rest⟩⟩
    · exact more

theorem enclosedWhole {opening closing : Char} (opens : Inert opening) (closes : Inert closing)
    {items : List (List Char)} (whole : ∀ item ∈ items, Whole item) :
    Whole (enclosed opening closing items) :=
  fun colon => readCons.mpr ⟨_, readInert opens colon,
    readAppend.mpr ⟨_, gluedRead whole, readCons.mpr ⟨_, readInert closes false, rfl⟩⟩⟩

theorem intWhole (n : Int) : Whole (toString n).toList := by
  rcases intText n with text | text
  · rw [text]
    exact wholeNonempty Nat.toDigits_ne_nil inertDigits
  · rw [text]
    exact wholeInert (by decide) inertDigits

theorem layoutInert {significant : List Char} (digits : ∀ c ∈ significant, Inert c) (point : Int) :
    ∀ c ∈ Decimal.layout significant point, Inert c := by
  have zeros (n : Nat) : ∀ c ∈ List.replicate n '0', Inert c := fun c member =>
    List.eq_of_mem_replicate member ▸ by decide
  have taken (n : Nat) : ∀ c ∈ significant.take n, Inert c := fun c member =>
    digits c (List.mem_of_mem_take member)
  have dropped (n : Nat) : ∀ c ∈ significant.drop n, Inert c := fun c member =>
    digits c (List.mem_of_mem_drop member)
  have marks : Inert '0' ∧ Inert '.' ∧ Inert 'e' ∧ Inert '-' ∧ Inert '+' := by decide
  obtain ⟨zero, dot, power, minus, plus⟩ := marks
  unfold Decimal.layout
  dsimp only
  split
  · split
    · simp only [List.forall_mem_append, List.forall_mem_cons]
      exact ⟨⟨zero, dot, zeros _⟩, digits⟩
    · split
      · simp only [List.forall_mem_append, List.forall_mem_cons]
        exact ⟨⟨digits, zeros _⟩, dot, zero, by simp⟩
      · simp only [List.forall_mem_append, List.forall_mem_cons]
        exact ⟨taken _, dot, dropped _⟩
  · simp only [List.forall_mem_append, List.forall_mem_cons]
    refine ⟨?_, power, ?_, ?_⟩
    · split
      · simp only [List.forall_mem_cons] at digits ⊢
        exact ⟨digits.1, dot, digits.2⟩
      · exact digits
    · split
      · exact minus
      · exact plus
    · split
      · exact List.forall_mem_cons.mpr ⟨zero, inertDigits⟩
      · exact inertDigits

theorem layoutNonempty (significant : List Char) (point : Int) :
    Decimal.layout significant point ≠ [] := by
  unfold Decimal.layout
  dsimp only
  repeat' split
  all_goals simp

theorem magnitudeInert (x : Binary64) : x.magnitude ≠ [] ∧ ∀ c ∈ x.magnitude, Inert c := by
  unfold Binary64.magnitude
  split
  · exact ⟨by decide, inertAll (by decide)⟩
  · refine ⟨layoutNonempty _ _, layoutInert (fun c member => ?_) _⟩
    simp only [List.mem_reverse] at member
    exact inertDigits c (List.mem_reverse.mp ((List.dropWhile_sublist _).subset member))

theorem floatWhole (x : Binary64) : Whole x.text.toList := by
  have signed : ∀ magnitude : List Char, magnitude ≠ [] → (∀ c ∈ magnitude, Inert c) →
      Whole (if x.negative then '-' :: magnitude else magnitude) := by
    intro magnitude nonempty inert
    split
    · exact wholeInert (by decide) inert
    · exact wholeNonempty nonempty inert
  unfold Binary64.text Binary64.textWith
  split
  · exact wholeNonempty (by decide) (inertAll (by decide))
  · rw [String.toList_ofList]
    refine signed _ ?_ ?_
    · split
      · exact (magnitudeInert x).1
      · decide
    · split
      · exact (magnitudeInert x).2
      · exact inertAll (by decide)

mutual

theorem jsonWhole : ∀ value : Value, Whole value.json
  | null => by rw [json]; exact wholeInert (by decide) (inertAll (by decide))
  | bool true => by rw [json]; exact wholeInert (by decide) (inertAll (by decide))
  | bool false => by rw [json]; exact wholeInert (by decide) (inertAll (by decide))
  | int n => intWhole n
  | float x => floatWhole x
  | text s => stringWhole s
  | list items => enclosedWhole (by decide) (by decide) (itemsWhole items)
  | object members => by
    refine enclosedWhole (by decide) (by decide) fun item member => ?_
    obtain ⟨m, inside, rfl⟩ := List.mem_map.mp member
    exact memberWhole (membersWhole members m (List.mem_mergeSort.mp inside))

theorem itemsWhole : ∀ items : List Value, ∀ item ∈ jsonItems items, Whole item
  | [], _, member => absurd member List.not_mem_nil
  | value :: rest, item, member => by
    rcases List.mem_cons.mp member with rfl | inside
    · exact jsonWhole value
    · exact itemsWhole rest item inside

theorem membersWhole : ∀ members : List (String × Value), ∀ m ∈ jsonMembers members, Whole m.2
  | [], _, member => absurd member List.not_mem_nil
  | (_, value) :: rest, m, member => by
    rcases List.mem_cons.mp member with rfl | inside
    · exact jsonWhole value
    · exact membersWhole rest m inside

end

theorem canonicalWhole (value : Value) : Whole value.canonical.toList := by
  cases value with
  | null => intro colon; cases colon <;> rfl
  | _ => simpa [canonical] using jsonWhole _

end Value

theorem Reading.partedOnce {first second more : List Char} (whole : Whole first)
    (ending : Whole second) (rest : ':' :: ':' :: first = more ++ ':' :: ':' :: second) :
    more = [] := by
  match more with
  | [] => rfl
  | [_] =>
    have colon := (List.cons.inj (List.cons.inj rest).2).2
    exact absurd (colon ▸ whole) wholeUncolon
  | _ :: _ :: more =>
    have parted := (List.cons.inj (List.cons.inj rest).2).2
    exact absurd parted (wholeUnparted whole ending)

theorem Request.keyParts {r s : Request} (same : r.key = s.key) :
    r.kind = s.kind ∧ r.params.canonical = s.params.canonical := by
  have texts : r.kind.toList ++ ':' :: ':' :: r.params.canonical.toList =
      s.kind.toList ++ ':' :: ':' :: s.params.canonical.toList := by
    simpa [key] using congrArg String.toList same
  have kinds : r.kind.toList = s.kind.toList := by
    rcases List.append_eq_append_iff.mp texts with ⟨more, longer, rest⟩ | ⟨more, longer, rest⟩
    · have none := Reading.partedOnce (Value.canonicalWhole _) (Value.canonicalWhole _) rest
      simpa [none, eq_comm] using longer
    · have none := Reading.partedOnce (Value.canonicalWhole _) (Value.canonicalWhole _) rest
      simpa [none] using longer
  rw [kinds] at texts
  have params := List.append_cancel_left texts
  simp only [List.cons.injEq, true_and] at params
  exact ⟨String.toList_injective kinds, String.toList_injective params⟩

end Codegen
