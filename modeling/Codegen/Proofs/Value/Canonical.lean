import Codegen.Proofs.Text.Lines
import Codegen.Proofs.Value.Leaf
import Mathlib.Data.List.Forall2
import Mathlib.Data.List.Nodup
import Mathlib.Data.List.Perm.Basic

/-! Canonical texts tell values apart. Two values have one text if they differ in the order of members
only; and a whole text with more behind it tells the value up to that order and where its text ends. -/
namespace Codegen.Value

/-- Values without floats, in which no object has two members of one name. -/
inductive Plain : Value → Prop where
  | null : Plain .null
  | bool (b) : Plain (.bool b)
  | int (n) : Plain (.int n)
  | text (s) : Plain (.text s)
  | list {items} (each : ∀ item ∈ items, Plain item) : Plain (.list items)
  | object {members} (distinct : (members.map Prod.fst).Nodup) (each : ∀ m ∈ members, Plain m.2) :
      Plain (.object members)

inductive Alike : Value → Value → Prop where
  | null : Alike .null .null
  | bool (b) : Alike (.bool b) (.bool b)
  | int (n) : Alike (.int n) (.int n)
  | float (x) : Alike (.float x) (.float x)
  | text (s) : Alike (.text s) (.text s)
  | list {xs ys} (items : List.Forall₂ Alike xs ys) : Alike (.list xs) (.list ys)
  | object {xs ys zs} (order : xs.Perm zs) (names : zs.map Prod.fst = ys.map Prod.fst)
      (values : List.Forall₂ Alike (zs.map Prod.snd) (ys.map Prod.snd)) :
      Alike (.object xs) (.object ys)

section Texts

def byName {α : Type} (a b : String × α) : Bool :=
  Text.precedes a.1 b.1

def memberText (m : String × Value) : List Char :=
  jsonMember m.1 m.2.json

theorem sortedSame {α : Type} {xs ys : List (String × α)} (order : xs.Perm ys)
    (distinct : (xs.map Prod.fst).Nodup) : xs.mergeSort byName = ys.mergeSort byName := by
  have ordered (zs : List (String × α)) (apart : (zs.map Prod.fst).Nodup) :
      (zs.mergeSort byName).Pairwise (fun a b => a.1 < b.1) := Text.sortedApart apart
  -- distinct names make the order strict, and a list has one strict order
  refine List.Perm.eq_of_pairwise (fun a b _ _ below above => absurd above (String.lt_asymm below))
    (ordered xs distinct) (ordered ys ((order.map _).nodup_iff.mp distinct)) ?_
  exact (List.mergeSort_perm xs byName).trans (order.trans (List.mergeSort_perm ys byName).symm)

theorem itemTexts (items : List Value) : jsonItems items = items.map json := by
  induction items with
  | nil => rfl
  | cons item rest ih => rw [jsonItems, ih, List.map_cons]

theorem memberTexts (members : List (String × Value)) :
    jsonMembers members = members.map (fun m => (m.1, m.2.json)) := by
  induction members with
  | nil => rfl
  | cons m rest ih =>
    obtain ⟨name, value⟩ := m
    rw [jsonMembers, ih, List.map_cons]

theorem listText (items : List Value) : (list items).json = enclosed '[' ']' (items.map json) := by
  rw [json, itemTexts]

theorem objectText (members : List (String × Value)) : (object members).json =
    enclosed '\x7b' '\x7d' ((members.mergeSort byName).map memberText) := by
  have texts : (jsonMembers members).mergeSort byName =
      (members.mergeSort byName).map (fun m => (m.1, m.2.json)) := by
    rw [memberTexts]
    exact (List.map_mergeSort (f := fun m : String × Value => (m.1, m.2.json)) (r := byName)
      (s := byName) fun _ _ _ _ => rfl).symm
  have whole : (object members).json = enclosed '\x7b' '\x7d'
      (((jsonMembers members).mergeSort byName).map (fun m => jsonMember m.1 m.2)) := by
    rw [json]
    rfl
  rw [whole, texts, List.map_map]
  rfl

theorem textsAlike {xs ys : List Value} (texts : ∀ x ∈ xs, ∀ y, x.Alike y → x.json = y.json)
    (items : List.Forall₂ Alike xs ys) : xs.map json = ys.map json := by
  induction items with
  | nil => rfl
  | cons head tail ih =>
    obtain ⟨first, rest⟩ := List.forall_mem_cons.mp texts
    rw [List.map_cons, List.map_cons, first _ head, ih rest]

theorem alikeText {v w : Value} (plain : v.Plain) (alike : v.Alike w) : v.json = w.json := by
  induction plain generalizing w with
  | null | bool | int | text =>
    cases alike
    rfl
  | list each ih =>
    cases alike with
    | list items => rw [listText, listText, textsAlike (fun x member y => ih x member) items]
  | @object xs distinct each ih =>
    cases alike with
    | @object _ ys zs order names values =>
      have texts : (zs.map Prod.snd).map json = (ys.map Prod.snd).map json := by
        refine textsAlike (fun x member y => ?_) values
        obtain ⟨m, inside, rfl⟩ := List.mem_map.mp member
        exact ih m (order.mem_iff.mpr inside)
      have pairs : ∀ members : List (String × Value), jsonMembers members =
          (members.map Prod.fst).zip ((members.map Prod.snd).map json) := by
        intro members
        rw [memberTexts, List.map_map, List.zip_map']
        rfl
      have moved : (jsonMembers xs).Perm (jsonMembers ys) := by
        rw [pairs ys, ← names, ← texts, ← pairs zs, memberTexts, memberTexts]
        exact order.map _
      have single : ((jsonMembers xs).map Prod.fst).Nodup := by
        rwa [memberTexts, List.map_map]
      have sorted := sortedSame moved single
      rw [json, json]
      exact congrArg (fun members => enclosed '\x7b' '\x7d'
        (members.map (fun m : String × List Char => jsonMember m.1 m.2))) sorted

end Texts

section Splits

def kindStarted (c : Char) : String :=
  if c = 'n' then "NoneType"
  else if c = 't' ∨ c = 'f' then "bool"
  else if c = '"' then "str"
  else if c = '[' then "list"
  else if c = '\x7b' then "dict"
  else if isNumeric c then "int"
  else ""

theorem numericKind {c : Char} (numeric : isNumeric c = true) : kindStarted c = "int" := by
  have apart : ∀ d, isNumeric d = false → c ≠ d := by
    rintro d other rfl
    rw [numeric] at other
    cases other
  simp [kindStarted, numeric, apart 'n' rfl, apart 't' rfl, apart 'f' rfl, apart '"' rfl,
    apart '[' rfl, apart '\x7b' rfl]

theorem intStart (n : Int) : ∃ c more, (toString n).toList = c :: more ∧ isNumeric c = true := by
  obtain ⟨c, more, start⟩ : ∃ c more, (toString n).toList = c :: more := by
    rcases intText n with text | text
    · exact text ▸ List.exists_cons_of_ne_nil Nat.toDigits_ne_nil
    · exact ⟨_, _, text⟩
  exact ⟨c, more, start, intNumeric n c (start ▸ List.mem_cons_self)⟩

theorem jsonStart {v : Value} (plain : v.Plain) :
    ∃ c more, v.json = c :: more ∧ kindStarted c = v.kindName := by
  cases plain with
  | null => exact ⟨_, _, by rw [json], rfl⟩
  | bool b =>
    cases b
    · exact ⟨_, _, by rw [json], rfl⟩
    · exact ⟨_, _, by rw [json], rfl⟩
  | int n =>
    obtain ⟨c, more, start, numeric⟩ := intStart n
    exact ⟨c, more, start, numericKind numeric⟩
  | text s => exact ⟨_, _, rfl, rfl⟩
  | list each => exact ⟨_, _, rfl, rfl⟩
  | object distinct each => exact ⟨_, _, rfl, rfl⟩

inductive Kindred : Value → Value → Prop where
  | null : Kindred .null .null
  | bool (b c) : Kindred (.bool b) (.bool c)
  | int (n m) : Kindred (.int n) (.int m)
  | text (s t) : Kindred (.text s) (.text t)
  | list (xs ys) : Kindred (.list xs) (.list ys)
  | object (xs ys) : Kindred (.object xs) (.object ys)

theorem sameKind {v w : Value} {r s : List Char} (plain : v.Plain) (plain' : w.Plain)
    (same : v.json ++ r = w.json ++ s) : v.Kindred w := by
  obtain ⟨c, more, start, kind⟩ := jsonStart plain
  obtain ⟨d, others, start', kind'⟩ := jsonStart plain'
  rw [start, start'] at same
  have named : v.kindName = w.kindName := by rw [← kind, ← kind', (List.cons.inj same).1]
  cases plain <;> cases plain' <;> first | constructor | simp [kindName] at named

section Entries

variable {α : Type} {text : α → List Char} {closing : Char} {R : α → α → Prop} {xs ys : List α}
  {r s : List Char}

theorem gluedCons (x : α) (xs : List α) : Text.glue ',' ((x :: xs).map text) =
    text x ++ xs.flatMap (fun other => ',' :: text other) := by
  induction xs generalizing x with
  | nil => simp [Text.glue]
  | cons y rest ih =>
    have glued : Text.glue ',' ((x :: y :: rest).map text) =
        text x ++ ',' :: Text.glue ',' ((y :: rest).map text) := rfl
    rw [glued, ih, List.flatMap_cons, List.cons_append]

def Opens (closing : Char) (cs : List Char) : Prop :=
  ∃ c more, cs = c :: more ∧ c ≠ closing

def Splits (text : α → List Char) (R : α → α → Prop) (xs ys : List α) : Prop :=
  ∀ x ∈ xs, ∀ y ∈ ys, ∀ r s, Ended r → Ended s → text x ++ r = text y ++ s → R x y ∧ r = s

theorem restEnded (numeric : isNumeric closing = false) (xs : List α) (r : List Char) :
    Ended (xs.flatMap (fun other => ',' :: text other) ++ closing :: r) := by
  intro c more start
  cases xs with
  | nil =>
    obtain ⟨rfl, -⟩ := List.cons.inj start
    exact numeric
  | cons x rest =>
    obtain ⟨rfl, -⟩ := List.cons.inj start
    rfl

theorem restSplit (numeric : isNumeric closing = false) (apart : closing ≠ ',')
    (splits : Splits text R xs ys)
    (same : xs.flatMap (fun other => ',' :: text other) ++ closing :: r =
      ys.flatMap (fun other => ',' :: text other) ++ closing :: s) :
    List.Forall₂ R xs ys ∧ r = s := by
  induction xs generalizing ys with
  | nil =>
    cases ys with
    | nil => exact ⟨.nil, (List.cons.inj same).2⟩
    | cons y others => exact absurd (List.cons.inj same).1 apart
  | cons x rest ih =>
    cases ys with
    | nil => exact absurd (List.cons.inj same).1.symm apart
    | cons y others =>
      simp only [List.flatMap_cons, List.cons_append, List.append_assoc, List.cons.injEq,
        true_and] at same
      obtain ⟨head, tail⟩ := splits x List.mem_cons_self y List.mem_cons_self _ _
        (restEnded numeric rest r) (restEnded numeric others s) same
      obtain ⟨entries, left⟩ := ih (fun x member y member' =>
        splits x (List.mem_cons_of_mem _ member) y (List.mem_cons_of_mem _ member')) tail
      exact ⟨.cons head entries, left⟩

theorem enclosedSplit {opening : Char} (numeric : isNumeric closing = false) (apart : closing ≠ ',')
    (left : ∀ x ∈ xs, Opens closing (text x)) (right : ∀ y ∈ ys, Opens closing (text y))
    (splits : Splits text R xs ys)
    (same : enclosed opening closing (xs.map text) ++ r =
      enclosed opening closing (ys.map text) ++ s) : List.Forall₂ R xs ys ∧ r = s := by
  simp only [enclosed, List.cons_append, List.append_assoc, List.nil_append, List.cons.injEq,
    true_and] at same
  cases xs with
  | nil =>
    cases ys with
    | nil => exact ⟨.nil, (List.cons.inj same).2⟩
    | cons y others =>
      obtain ⟨c, more, start, other⟩ := right y List.mem_cons_self
      rw [gluedCons, start] at same
      exact absurd (List.cons.inj same).1.symm other
  | cons x rest =>
    cases ys with
    | nil =>
      obtain ⟨c, more, start, other⟩ := left x List.mem_cons_self
      rw [gluedCons, start] at same
      exact absurd (List.cons.inj same).1 other
    | cons y others =>
      rw [gluedCons, gluedCons, List.append_assoc, List.append_assoc] at same
      obtain ⟨head, tail⟩ := splits x List.mem_cons_self y List.mem_cons_self _ _
        (restEnded numeric rest r) (restEnded numeric others s) same
      obtain ⟨entries, left⟩ := restSplit numeric apart (fun x member y member' =>
        splits x (List.mem_cons_of_mem _ member) y (List.mem_cons_of_mem _ member')) tail
      exact ⟨.cons head entries, left⟩

end Entries

theorem plainOpens {v : Value} (plain : v.Plain) : Opens ']' v.json := by
  obtain ⟨c, more, start, kind⟩ := jsonStart plain
  have named : "" ≠ v.kindName := by cases v <;> simp [kindName]
  refine ⟨c, more, start, ?_⟩
  rintro rfl
  exact named kind

theorem memberOpens (m : String × Value) : Opens '\x7d' (memberText m) :=
  ⟨_, _, rfl, by decide⟩

theorem memberSplit {m n : String × Value} {r s : List Char}
    (same : memberText m ++ r = memberText n ++ s) : m.1 = n.1 ∧ m.2.json ++ r = n.2.json ++ s := by
  simp only [memberText, jsonMember, List.append_assoc, List.cons_append] at same
  obtain ⟨name, rest⟩ := stringSplit same
  exact ⟨name, (List.cons.inj rest).2⟩

theorem sortedAlike {xs ys : List (String × Value)}
    (sorted : List.Forall₂ (fun m n => m.1 = n.1 ∧ m.2.Alike n.2) (xs.mergeSort byName)
      (ys.mergeSort byName)) : (object xs).Alike (object ys) := by
  -- the names of the second object are put back in the order in which they were given
  have moved : Relation.Comp (List.Forall₂ fun m n : String × Value => m.1 = n.1 ∧ m.2.Alike n.2)
      List.Perm (xs.mergeSort byName) ys := ⟨_, sorted, List.mergeSort_perm ys byName⟩
  rw [List.forall₂_comp_perm_eq_perm_comp_forall₂] at moved
  obtain ⟨zs, order, members⟩ := moved
  have entries : zs.map Prod.fst = ys.map Prod.fst ∧
      List.Forall₂ Alike (zs.map Prod.snd) (ys.map Prod.snd) := by
    clear order sorted
    induction members with
    | nil => exact ⟨rfl, .nil⟩
    | cons head tail ih =>
      rw [List.map_cons, List.map_cons, head.1, ih.1]
      exact ⟨rfl, .cons head.2 ih.2⟩
  exact .object ((List.mergeSort_perm xs byName).symm.trans order) entries.1 entries.2

def Told (v : Value) : Prop :=
  ∀ {w r s}, w.Plain → Ended r → Ended s → v.json ++ r = w.json ++ s → v.Alike w ∧ r = s

theorem listTold {xs : List Value} (plain : (list xs).Plain) (told : ∀ x ∈ xs, Told x) :
    Told (list xs) := by
  intro w r s plain' _ _ same
  cases sameKind plain plain' same with
  | list _ ys =>
    cases plain with
    | list each =>
      cases plain' with
      | list each' =>
        have splits : Splits json Alike xs ys := fun x member y member' _ _ =>
          told x member (each' y member')
        rw [listText, listText] at same
        obtain ⟨items, rest⟩ := enclosedSplit (by decide) (by decide)
          (fun x member => plainOpens (each x member)) (fun y member => plainOpens (each' y member))
          splits same
        exact ⟨.list items, rest⟩

theorem objectTold {xs : List (String × Value)} (plain : (object xs).Plain)
    (told : ∀ m ∈ xs, Told m.2) : Told (object xs) := by
  intro w r s plain' _ _ same
  cases sameKind plain plain' same with
  | object _ ys =>
    cases plain' with
    | object _ each' =>
      have splits : Splits memberText (fun m n => m.1 = n.1 ∧ m.2.Alike n.2) (xs.mergeSort byName)
          (ys.mergeSort byName) := by
        intro m member n member' r s ended ended' same
        rw [List.mem_mergeSort] at member member'
        obtain ⟨name, values⟩ := memberSplit same
        obtain ⟨alike, rest⟩ := told m member (each' n member') ended ended' values
        exact ⟨⟨name, alike⟩, rest⟩
      rw [objectText, objectText] at same
      obtain ⟨members, rest⟩ := enclosedSplit (by decide) (by decide) (fun m _ => memberOpens m)
        (fun n _ => memberOpens n) splits same
      exact ⟨sortedAlike members, rest⟩

theorem plainTold {v : Value} (plain : v.Plain) : Told v := by
  induction plain with
  | null =>
    intro w r s plain' _ _ same
    cases sameKind .null plain' same
    exact ⟨.null, List.append_cancel_left same⟩
  | bool b =>
    intro w r s plain' _ _ same
    cases sameKind (.bool b) plain' same with
    | bool _ c =>
      rw [json.eq_def, json.eq_def (bool c)] at same
      cases b <;> cases c
      · exact ⟨.bool false, List.append_cancel_left same⟩
      · exact absurd (List.cons.inj same).1 (by decide)
      · exact absurd (List.cons.inj same).1 (by decide)
      · exact ⟨.bool true, List.append_cancel_left same⟩
  | int n =>
    intro w r s plain' ended ended' same
    cases sameKind (.int n) plain' same
    obtain ⟨rfl, rest⟩ := intSplit ended ended' same
    exact ⟨.int n, rest⟩
  | text t =>
    intro w r s plain' _ _ same
    cases sameKind (.text t) plain' same
    obtain ⟨rfl, rest⟩ := stringSplit same
    exact ⟨.text t, rest⟩
  | list each ih => exact listTold (.list each) ih
  | object distinct each ih => exact objectTold (.object distinct each) ih

theorem plainText {v w : Value} (plain : v.Plain) (plain' : w.Plain) :
    v.json = w.json ↔ v.Alike w := by
  refine ⟨fun same => ?_, alikeText plain⟩
  have ended : Ended [] := fun c more start => by cases start
  exact (plainTold plain plain' ended ended (by rw [same])).1

end Splits

section Filled

def filled : Value → Value
  | null => object []
  | value => value

theorem filledText (v : Value) : v.canonical = String.ofList v.filled.json := by
  cases v with
  | null => cbv
  | _ => rfl

theorem filledPlain {v : Value} (plain : v.Plain) : v.filled.Plain := by
  cases v with
  | null => exact .object .nil fun m member => absurd member List.not_mem_nil
  | _ => exact plain

theorem canonicalAlike {v w : Value} (plain : v.Plain) (plain' : w.Plain) :
    v.canonical = w.canonical ↔ v.filled.Alike w.filled := by
  rw [filledText, filledText, String.ofList_inj]
  exact plainText (filledPlain plain) (filledPlain plain')

end Filled
end Codegen.Value
