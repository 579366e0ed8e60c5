import Codegen.Proofs.Outcome
import Codegen.Settings
import Mathlib.Data.List.Find
import Mathlib.Data.List.Induction
import Mathlib.Data.List.Nodup
import Mathlib.Logic.Function.Basic

/-! Settings that are read from members of distinct names are what is found under each name, whatever the order
of the members. What was exported is read back as it was. -/
namespace Codegen.Settings

def exported (d : Value) : Except ShapeError Value :=
  read d >>= value

def sections : List String :=
  ["formatter", "output"]

def fields : List String :=
  ["output_dir", "add_generation_comment", "strict_references", "default_file"] ++ sections

def refused : List String :=
  [classKey, membersKey, referencesKey]

def reserved : List String :=
  exportKey :: refused

variable {s t : Settings} {key : String} {v r : Value}

section Gathered

variable {found : String → Option Value} {formatter : Section FormatterSettings}
  {output : Section OutputSettings} {members first second : List (String × Value)}

def sectionOf {α : Type} (read : Value → Except ShapeError α) (fallback : α) :
    Option Value → Option (Section α)
  | none => some (.parsed fallback)
  | some (.object members) => (read (.object members)).toOption.map .parsed
  | some other => some (.raw other)

@[simp] theorem sectionAbsent {α : Type} (read : Value → Except ShapeError α) (fallback : α) :
    sectionOf read fallback none = some (.parsed fallback) :=
  rfl

def filled (found : String → Option Value) (formatter : Section FormatterSettings)
    (output : Section OutputSettings) : Settings where
  outputDir := (found "output_dir").getD (.text "generated")
  addBanner := (found "add_generation_comment").getD (.bool true)
  strictReferences := (found "strict_references").getD (.bool false)
  defaultFile := (found "default_file").getD (.text "index.py")
  formatter := formatter
  output := output
  shadowed := (found exportKey).isSome

def assembled (found : String → Option Value) : Option Settings :=
  (sectionOf FormatterSettings.read {} (found "formatter")).bind fun formatter =>
    (sectionOf OutputSettings.read {} (found "output")).map (filled found formatter)

def gathered (found : String → Option Value) : Option Settings :=
  if ∀ key ∈ refused, found key = none then assembled found else none

theorem assignPut (known : key ∉ refused) (plain : key ∉ sections) (s : Settings) (v : Value) :
    s.assign key v = .ok (s.put key v) := by
  simp only [refused, sections, List.mem_cons, List.not_mem_nil, or_false, not_or] at known plain
  cases v <;> simp [assign, known, plain]

theorem assignFormatter (s : Settings) (v : Value) : (s.assign "formatter" v).toOption =
    (sectionOf FormatterSettings.read {} (some v)).map fun part => { s with formatter := part } := by
  cases v with
  | object members =>
    cases parsed : FormatterSettings.read (.object members) <;>
      simp [assign, sectionOf, parsed, bind, Except.bind, Except.toOption]
  | _ => rfl

theorem assignOutput (s : Settings) (v : Value) : (s.assign "output" v).toOption =
    (sectionOf OutputSettings.read {} (some v)).map fun part => { s with output := part } := by
  cases v with
  | object members =>
    cases parsed : OutputSettings.read (.object members) <;>
      simp [assign, sectionOf, parsed, bind, Except.bind, Except.toOption]
  | _ => rfl

theorem assignRefused (named : key ∈ refused) (plain : key = membersKey → ∀ members, v ≠ .object members)
    (s : Settings) : (s.assign key v).toOption = none := by
  simp only [refused, List.mem_cons, List.not_mem_nil, or_false] at named
  rcases named with rfl | rfl | rfl
  · cases v <;> rfl
  · cases v with
    | object members => exact absurd rfl (plain rfl members)
    | _ => rfl
  · cases v <;> rfl

theorem filledPut (plain : key ∉ sections) : (filled found formatter output).put key v =
    filled (Function.update found key (some v)) formatter output := by
  simp only [sections, List.mem_cons, List.not_mem_nil, or_false, not_or] at plain
  by_cases named : key ∈ ["output_dir", "add_generation_comment", "strict_references", "default_file",
    exportKey]
  · simp only [List.mem_cons, List.not_mem_nil, or_false] at named
    rcases named with rfl | rfl | rfl | rfl | rfl <;> rfl
  · simp only [List.mem_cons, List.not_mem_nil, or_false, not_or] at named
    simp [put, filled, eq_comm, plain, named]

theorem assembledFormatter (fresh : found "formatter" = none) :
    assembled (Function.update found "formatter" (some v)) =
      (assembled found).bind fun s => (s.assign "formatter" v).toOption := by
  have kept : Function.update found "formatter" (some v) "output" = found "output" := rfl
  rw [assembled, assembled, Function.update_self, kept, fresh]
  cases given : sectionOf FormatterSettings.read {} (some v) <;>
    cases sectionOf OutputSettings.read {} (found "output") <;>
      simp [assignFormatter, given]
  rfl

theorem assembledOutput (fresh : found "output" = none) :
    assembled (Function.update found "output" (some v)) =
      (assembled found).bind fun s => (s.assign "output" v).toOption := by
  have kept : Function.update found "output" (some v) "formatter" = found "formatter" := rfl
  rw [assembled, assembled, Function.update_self, kept, fresh]
  cases given : sectionOf OutputSettings.read {} (some v) <;>
    cases sectionOf FormatterSettings.read {} (found "formatter") <;>
      simp [assignOutput, given]
  rfl

theorem assembledPut (known : key ∉ refused) (plain : key ∉ sections) :
    assembled (Function.update found key (some v)) =
      (assembled found).bind fun s => (s.assign key v).toOption := by
  have kept : ∀ other ∈ sections, Function.update found key (some v) other = found other :=
    fun other member => Function.update_of_ne (ne_of_mem_of_not_mem member plain) _ _
  rw [assembled, assembled, kept "formatter" (by decide), kept "output" (by decide)]
  simp only [Option.map_eq_bind, Function.comp_def, Option.bind_assoc, Option.bind_some,
    assignPut known plain, Except.toOption, filledPut plain]

theorem assignAssembled (known : key ∉ refused) (fresh : found key = none) :
    assembled (Function.update found key (some v)) =
      (assembled found).bind fun s => (s.assign key v).toOption := by
  by_cases part : key ∈ sections
  · simp only [sections, List.mem_cons, List.not_mem_nil, or_false] at part
    rcases part with rfl | rfl
    · exact assembledFormatter fresh
    · exact assembledOutput fresh
  · exact assembledPut known part

theorem assignGathered (fresh : found key = none)
    (plain : key = membersKey → ∀ members, v ≠ .object members) :
    gathered (Function.update found key (some v)) =
      (gathered found).bind fun s => (s.assign key v).toOption := by
  by_cases named : key ∈ refused
  · have given : ¬ ∀ other ∈ refused, Function.update found key (some v) other = none :=
      fun all => absurd (all key named) (by simp)
    rw [gathered, if_neg given, funext (assignRefused named plain)]
    exact (Option.bind_fun_none _).symm
  · have kept : (∀ other ∈ refused, Function.update found key (some v) other = none) ↔
        ∀ other ∈ refused, found other = none :=
      forall₂_congr fun other member => by rw [Function.update_of_ne (ne_of_mem_of_not_mem member named)]
    simp only [gathered, kept]
    split
    · exact assignAssembled named fresh
    · rfl

theorem memberAbsent : Value.member? key members = none ↔ key ∉ members.map Prod.fst := by
  rw [Value.member?, Option.map_eq_none_iff, List.find?_eq_none, List.mem_map]
  constructor
  · rintro apart ⟨m, member, named⟩
    exact apart m member (decide_eq_true named)
  · intro fresh m member named
    exact fresh ⟨m, member, of_decide_eq_true named⟩

theorem memberSnoc (fresh : key ∉ members.map Prod.fst) (v : Value) :
    (Value.member? · (members ++ [(key, v)])) =
      Function.update (Value.member? · members) key (some v) := by
  funext other
  by_cases same : other = key
  · subst same
    have absent := memberAbsent.mpr fresh
    rw [Value.member?, Option.map_eq_none_iff] at absent
    rw [Function.update_self, Value.member?, List.find?_append, absent]
    simp
  · rw [Function.update_of_ne same, Value.member?, List.find?_append]
    simp [Value.member?, Ne.symm same]

theorem readGathered (distinct : (members.map Prod.fst).Nodup)
    (plain : ∀ inner, (membersKey, .object inner) ∉ members) :
    (read (.object members)).toOption = gathered (Value.member? · members) := by
  induction members using List.reverseRecOn with
  | nil => rfl
  | append_singleton init m ih =>
    obtain ⟨key, v⟩ := m
    rw [List.map_append, List.nodup_append] at distinct
    have fresh : key ∉ init.map Prod.fst := fun inside => distinct.2.2 key inside key (by simp) rfl
    have before := ih distinct.1 fun inner member => plain inner (List.mem_append_left _ member)
    have single : key = membersKey → ∀ inner, v ≠ .object inner := by
      rintro rfl inner rfl
      exact plain inner (by simp)
    rw [memberSnoc fresh, assignGathered (memberAbsent.mpr fresh) single, ← before]
    rw [read, List.foldlM_append, Outcome.optionBind]
    simp only [List.foldlM_cons, List.foldlM_nil, bind_pure]
    rfl

theorem memberMoved (order : first.Perm second) (distinct : (first.map Prod.fst).Nodup) (key : String) :
    Value.member? key first = Value.member? key second := by
  refine congrArg (Option.map Prod.snd) (List.find?_eq_find?_of_perm order ?_)
  rintro m ⟨member, named⟩ n ⟨member', named'⟩
  exact List.inj_on_of_nodup_map distinct member member'
    ((of_decide_eq_true named).trans (of_decide_eq_true named').symm)

end Gathered

section Export

theorem modeBack {mode : OutputMode} (shown : mode.value = .ok v) : OutputMode.read v = .ok mode := by
  cases mode <;> cases shown <;> rfl

theorem outputBack {o : OutputSettings} (shown : o.value = .ok v) :
    sectionOf OutputSettings.read {} (some v) = some (.parsed o) := by
  obtain ⟨mode, named, last⟩ := Outcome.bindOk.mp shown
  cases last
  have back : OutputSettings.read (.object [("mode", mode), ("validate_before_write", o.validate),
      ("atomic_write", o.atomic)]) = .ok o := Outcome.bindOk.mpr ⟨o.mode, modeBack named, rfl⟩
  rw [sectionOf, back]
  rfl

theorem formatterBack (f : FormatterSettings) :
    sectionOf FormatterSettings.read {} (some f.value) = some (.parsed f) :=
  rfl

theorem sectionOk {α : Type} {part : Section α} {settings : α} :
    part.get = .ok settings ↔ part = .parsed settings := by
  cases part <;> simp [Section.get]

def exportMembers (s : Settings) (formatter output : Value) : List (String × Value) :=
  [("output_dir", s.outputDir), ("add_generation_comment", s.addBanner),
    ("strict_references", s.strictReferences), ("default_file", s.defaultFile),
    ("formatter", formatter), ("output", output)]

theorem exportKeys (s : Settings) (formatter output : Value) :
    (exportMembers s formatter output).map Prod.fst = fields :=
  rfl

theorem exportParts (ok : s.value = .ok r) : ∃ f o v, s.shadowed = false ∧ s.formatter = .parsed f ∧
    s.output = .parsed o ∧ o.value = .ok v ∧ r = .object (exportMembers s f.value v) := by
  rw [value] at ok
  split at ok
  · cases ok
  · rename_i plain
    obtain ⟨f, formatter, ok⟩ := Outcome.bindOk.mp ok
    obtain ⟨o, output, ok⟩ := Outcome.bindOk.mp ok
    obtain ⟨v, parsed, last⟩ := Outcome.bindOk.mp ok
    cases last
    exact ⟨f, o, v, Bool.eq_false_iff.mpr plain, sectionOk.mp formatter, sectionOk.mp output, parsed, rfl⟩

theorem exportShown {f : FormatterSettings} {o : OutputSettings} (visible : ¬s.shadowed = true)
    (formatter : s.formatter = .parsed f) (output : s.output = .parsed o) (parsed : o.value = .ok v) :
    s.value = .ok (.object (exportMembers s f.value v)) := by
  rw [value, if_neg visible]
  exact Outcome.bindOk.mpr ⟨f, sectionOk.mpr formatter, Outcome.bindOk.mpr ⟨o, sectionOk.mpr output,
    Outcome.bindOk.mpr ⟨v, parsed, rfl⟩⟩⟩

theorem exportBack (ok : s.value = .ok r) : read r = .ok s := by
  obtain ⟨f, o, v, shown, formatter, output, parsed, rfl⟩ := exportParts ok
  have keys := exportKeys s f.value v
  have absent : ∀ key ∉ fields, Value.member? key (exportMembers s f.value v) = none :=
    fun key other => memberAbsent.mpr (keys ▸ other)
  have plain : ∀ inner, (membersKey, .object inner) ∉ exportMembers s f.value v := fun inner member =>
    absurd (keys ▸ List.mem_map_of_mem member : membersKey ∈ fields) (by decide)
  have formatted : sectionOf FormatterSettings.read {}
      (Value.member? "formatter" (exportMembers s f.value v)) = some (.parsed f) := formatterBack f
  have written : sectionOf OutputSettings.read {}
      (Value.member? "output" (exportMembers s f.value v)) = some (.parsed o) := outputBack parsed
  rw [← Outcome.optionOk, readGathered (keys ▸ by decide) plain, gathered,
    if_pos fun key named => absent key (by revert key; decide), assembled, formatted, written]
  have shape : s =
      ⟨s.outputDir, s.addBanner, s.strictReferences, s.defaultFile, .parsed f, .parsed o, false⟩ := by
    rw [← formatter, ← output, ← shown]
  rw [shape]
  rfl

theorem exportedBack {d : Value} (ok : exported d = .ok r) : exported r = .ok r := by
  obtain ⟨s, _, shown⟩ := Outcome.bindOk.mp ok
  exact Outcome.bindOk.mpr ⟨s, exportBack shown, shown⟩

end Export

end Codegen.Settings
