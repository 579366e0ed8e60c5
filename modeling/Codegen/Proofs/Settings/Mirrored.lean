import Codegen.Proofs.Settings.Gathered

/-! What of an object counts when it is read as settings and exported again. Neither the order of the members
nor members that are no setting do, but for a few names that mean the settings object itself: one of them hides
the export, two cannot be assigned, and under the fourth an object takes the place of all members that came
before. -/
namespace Codegen.Settings

variable {s t : Settings} {key : String} {v r : Value}

section Steps

variable {members before after : List (String × Value)} {m : String × Value}

def assignAll (members : List (String × Value)) (s : Settings) : Except ShapeError Settings :=
  members.foldlM (fun s m => s.assign m.1 m.2) s

theorem assignedCons : assignAll (m :: after) s = .ok t ↔
    ∃ next, s.assign m.1 m.2 = .ok next ∧ assignAll after next = .ok t := by
  rw [assignAll, List.foldlM_cons, Outcome.bindOk]
  rfl

theorem assignedAround : assignAll (before ++ m :: after) s = .ok t ↔
    ∃ u w, assignAll before s = .ok u ∧ u.assign m.1 m.2 = .ok w ∧ assignAll after w = .ok t := by
  rw [assignAll, List.foldlM_append, Outcome.bindOk]
  constructor
  · rintro ⟨u, first, rest⟩
    obtain ⟨w, step, last⟩ := assignedCons.mp rest
    exact ⟨u, w, first, step, last⟩
  · rintro ⟨u, w, first, step, last⟩
    exact ⟨u, first, assignedCons.mpr ⟨w, step, last⟩⟩

theorem exportedAll : exported (.object members) = .ok r ↔
    ∃ s, assignAll members {} = .ok s ∧ s.value = .ok r :=
  Outcome.bindOk

theorem assignCases (ok : s.assign key v = .ok t) :
    (∃ part, key = "formatter" ∧ sectionOf FormatterSettings.read {} (some v) = some part ∧
      t = { s with formatter := part }) ∨
    (∃ part, key = "output" ∧ sectionOf OutputSettings.read {} (some v) = some part ∧
      t = { s with output := part }) ∨
    (∃ inner, key = membersKey ∧ v = .object inner ∧ t = replaceAll inner) ∨
    (key ∉ refused ∧ key ∉ sections ∧ t = s.put key v) := by
  by_cases named : key ∈ refused
  · by_cases replaces : key = membersKey ∧ ∃ inner, v = .object inner
    · obtain ⟨rfl, inner, rfl⟩ := replaces
      cases ok
      exact .inr (.inr (.inl ⟨inner, rfl, rfl, rfl⟩))
    · have refusal := assignRefused named (fun same inner given => replaces ⟨same, inner, given⟩) s
      rw [ok] at refusal
      cases refusal
  by_cases part : key ∈ sections
  · rw [← Outcome.optionOk] at ok
    simp only [sections, List.mem_cons, List.not_mem_nil, or_false] at part
    rcases part with rfl | rfl
    · rw [assignFormatter, Option.map_eq_some_iff] at ok
      obtain ⟨part, given, rfl⟩ := ok
      exact .inl ⟨part, rfl, given, rfl⟩
    · rw [assignOutput, Option.map_eq_some_iff] at ok
      obtain ⟨part, given, rfl⟩ := ok
      exact .inr (.inl ⟨part, rfl, given, rfl⟩)
  · rw [assignPut named part] at ok
    cases ok
    exact .inr (.inr (.inr ⟨named, part, rfl⟩))

theorem hiddenPut (s : Settings) (key : String) (v : Value) :
    (s.put key v).shadowed = true ↔ s.shadowed = true ∨ key = exportKey := by
  by_cases named : key ∈ exportKey :: fields
  · simp only [fields, sections, List.cons_append, List.nil_append, List.mem_cons, List.not_mem_nil,
      or_false] at named
    rcases named with rfl | rfl | rfl | rfl | rfl | rfl | rfl <;> simp [put, exportKey]
  · simp only [fields, sections, List.cons_append, List.nil_append, List.mem_cons, List.not_mem_nil,
      or_false, not_or] at named
    simp [put, named]

theorem hiddenReplaced (members : List (String × Value)) :
    (replaceAll members).shadowed = true ↔ exportKey ∈ members.map Prod.fst := by
  induction members using List.reverseRecOn with
  | nil => simp [replaceAll]
  | append_singleton init m ih =>
    rw [replaceAll] at ih ⊢
    rw [List.foldl_append, List.foldl_cons, List.foldl_nil, hiddenPut, ih, List.map_append,
      List.mem_append, List.map_cons, List.map_nil, List.mem_singleton]
    exact or_congr_right eq_comm

theorem hiddenAssigned (apart : key ≠ membersKey) (ok : s.assign key v = .ok t)
    (hidden : s.shadowed = true) : t.shadowed = true := by
  rcases assignCases ok with ⟨_, _, _, rfl⟩ | ⟨_, _, _, rfl⟩ | ⟨_, same, _⟩ | ⟨_, _, rfl⟩
  · exact hidden
  · exact hidden
  · exact absurd same apart
  · exact (hiddenPut s key v).mpr (.inl hidden)

theorem hiddenKept (apart : membersKey ∉ members.map Prod.fst) (hidden : s.shadowed = true)
    (ok : assignAll members s = .ok t) : t.shadowed = true := by
  induction members generalizing s with
  | nil =>
    cases ok
    exact hidden
  | cons m rest ih =>
    rw [List.map_cons, List.mem_cons, not_or] at apart
    obtain ⟨next, step, rest⟩ := assignedCons.mp ok
    exact ih apart.2 (hiddenAssigned (Ne.symm apart.1) step hidden) rest

theorem putSections (plain : key ∉ sections) :
    (s.put key v).formatter = s.formatter ∧ (s.put key v).output = s.output := by
  simp only [sections, List.mem_cons, List.not_mem_nil, or_false, not_or] at plain
  rw [put, if_neg plain.1, if_neg plain.2]
  split_ifs <;> exact ⟨rfl, rfl⟩

def Raw (s : Settings) : Prop :=
  (∃ w, s.formatter = .raw w) ∧ ∃ w, s.output = .raw w

theorem rawPut (raw : Raw s) (key : String) (v : Value) : Raw (s.put key v) := by
  by_cases part : key ∈ sections
  · simp only [sections, List.mem_cons, List.not_mem_nil, or_false] at part
    rcases part with rfl | rfl
    · exact ⟨⟨v, rfl⟩, raw.2⟩
    · exact ⟨raw.1, ⟨v, rfl⟩⟩
  · rwa [Raw, (putSections part).1, (putSections part).2]

theorem rawReplaced (members : List (String × Value)) : Raw (replaceAll members) := by
  induction members using List.reverseRecOn with
  | nil => exact ⟨⟨_, rfl⟩, _, rfl⟩
  | append_singleton init m ih =>
    rw [replaceAll, List.foldl_append]
    exact rawPut ih m.1 m.2

end Steps

section Sections

variable {α : Type} {members inner : List (String × Value)} {read : Value → Except ShapeError α}
  {fallback settings : α} {name : String}

theorem sectionRead (given : sectionOf read fallback (some v) = some (.parsed settings)) :
    ∃ members, v = .object members ∧ read v = .ok settings := by
  cases v with
  | object members =>
    obtain ⟨_, ok, same⟩ := Option.map_eq_some_iff.mp given
    cases same
    exact ⟨members, rfl, Outcome.optionOk.mp ok⟩
  | _ => cases given

theorem sectionGiven (part : Settings → Section α)
    (step : ∀ {s t : Settings} {m : String × Value}, s.assign m.1 m.2 = .ok t →
      part t = .parsed settings → part s = .parsed settings ∨
        m.1 = name ∧ ∃ given, m.2 = .object given ∧ read m.2 = .ok settings)
    (ok : assignAll members s = .ok t) (parsed : part t = .parsed settings) :
    part s = .parsed settings ∨
      ∃ given, (name, .object given) ∈ members ∧ read (.object given) = .ok settings := by
  induction members generalizing s with
  | nil =>
    cases ok
    exact .inl parsed
  | cons m rest ih =>
    obtain ⟨next, first, later⟩ := assignedCons.mp ok
    rcases ih later with early | ⟨given, member, read⟩
    · rcases step first early with start | ⟨rfl, given, object, read⟩
      · exact .inl start
      · exact .inr ⟨given, List.mem_cons.mpr (.inl (Prod.ext rfl object.symm)), object ▸ read⟩
    · exact .inr ⟨given, List.mem_cons_of_mem _ member, read⟩

theorem formatterStep {f : FormatterSettings} (ok : s.assign key v = .ok t)
    (parsed : t.formatter = .parsed f) : s.formatter = .parsed f ∨
      key = "formatter" ∧ ∃ given, v = .object given ∧ FormatterSettings.read v = .ok f := by
  rcases assignCases ok with ⟨part, named, given, rfl⟩ | ⟨_, _, _, rfl⟩ | ⟨inner, _, _, rfl⟩ | ⟨_, plain, rfl⟩
  · obtain ⟨members, object, read⟩ := sectionRead (given.trans (congrArg some parsed))
    exact .inr ⟨named, members, object, read⟩
  · exact .inl parsed
  · obtain ⟨w, raw⟩ := (rawReplaced inner).1
    rw [raw] at parsed
    cases parsed
  · exact .inl ((putSections plain).1 ▸ parsed)

theorem outputStep {o : OutputSettings} (ok : s.assign key v = .ok t)
    (parsed : t.output = .parsed o) : s.output = .parsed o ∨
      key = "output" ∧ ∃ given, v = .object given ∧ OutputSettings.read v = .ok o := by
  rcases assignCases ok with ⟨_, _, _, rfl⟩ | ⟨part, named, given, rfl⟩ | ⟨inner, _, _, rfl⟩ | ⟨_, plain, rfl⟩
  · exact .inl parsed
  · obtain ⟨members, object, read⟩ := sectionRead (given.trans (congrArg some parsed))
    exact .inr ⟨named, members, object, read⟩
  · obtain ⟨w, raw⟩ := (rawReplaced inner).2
    rw [raw] at parsed
    cases parsed
  · exact .inl ((putSections plain).2 ▸ parsed)

end Sections

section Members

variable {members first second inner : List (String × Value)}

theorem hiddenUnshown (hidden : s.shadowed = true) : s.value ≠ .ok r := by
  intro ok
  obtain ⟨_, _, _, shown, _⟩ := exportParts ok
  rw [hidden] at shown
  cases shown

theorem rawUnshown (raw : Raw s) : s.value ≠ .ok r := by
  intro ok
  obtain ⟨_, _, _, _, parsed, _⟩ := exportParts ok
  obtain ⟨w, raw⟩ := raw.1
  rw [raw] at parsed
  cases parsed

theorem reservedUnshown (named : key ∈ reserved) (members : List (String × Value)) (v : Value) :
    exported (.object (members ++ [(key, v)])) ≠ .ok r := by
  intro ok
  obtain ⟨t, all, shown⟩ := exportedAll.mp ok
  obtain ⟨s, last, _, step, ends⟩ := assignedAround.mp all
  cases ends
  rcases assignCases step with ⟨_, rfl, _⟩ | ⟨_, rfl, _⟩ | ⟨inner, _, _, rfl⟩ | ⟨known, _, rfl⟩
  · exact absurd named (by decide)
  · exact absurd named (by decide)
  · exact rawUnshown (rawReplaced inner) shown
  · obtain rfl | refusal := List.mem_cons.mp named
    · exact hiddenUnshown ((hiddenPut s _ v).mpr (.inr rfl)) shown
    · exact known refusal

theorem refusedUnread (named : key ∈ refused) (apart : key ≠ membersKey) (given : key ∈ members.map Prod.fst) :
    assignAll members s ≠ .ok t := by
  intro ok
  obtain ⟨m, member, rfl⟩ := List.mem_map.mp given
  obtain ⟨before, after, rfl⟩ := List.append_of_mem member
  obtain ⟨u, w, _, step, _⟩ := assignedAround.mp ok
  rw [← Outcome.optionOk, assignRefused named fun same => absurd same apart] at step
  cases step

def Interchangeable (first second : List (String × Value)) : Prop :=
  ∀ r, exported (.object first) = .ok r ↔ exported (.object second) = .ok r

theorem readInterchangeable (same : (read (.object first)).toOption = (read (.object second)).toOption) :
    Interchangeable first second := by
  intro r
  simp only [exported, Outcome.bindOk, ← Outcome.optionOk (x := read _), same]

theorem movedInterchangeable (order : first.Perm second) (distinct : (first.map Prod.fst).Nodup)
    (plain : ∀ inner, (membersKey, .object inner) ∉ first) : Interchangeable first second := by
  apply readInterchangeable
  rw [readGathered distinct plain, readGathered ((order.map Prod.fst).nodup_iff.mp distinct)
    fun inner given => plain inner (order.mem_iff.mpr given)]
  exact congrArg gathered (funext (memberMoved order distinct))

theorem assignOther (other : key ∉ fields) (free : key ∉ reserved) (s : Settings) (v : Value) :
    s.assign key v = .ok s := by
  rw [reserved, List.mem_cons, not_or] at free
  have plain : key ∉ sections := fun part => other (List.mem_append_right _ part)
  rw [assignPut free.2 plain]
  simp only [fields, sections, List.cons_append, List.nil_append, List.mem_cons, List.not_mem_nil,
    or_false, not_or] at other
  simp [put, other, free.1]

theorem otherDropped (other : key ∉ fields) (free : key ∉ reserved) (v : Value)
    (before after : List (String × Value)) :
    read (.object (before ++ (key, v) :: after)) = read (.object (before ++ after)) := by
  simp only [read, List.foldlM_append, List.foldlM_cons, assignOther other free]
  rfl

structure Overridden (members : List (String × Value)) : Prop where
  replaced : ∃ inner, (membersKey, .object inner) ∈ members ∧ exportKey ∉ inner.map Prod.fst
  assigned : ∀ key ∈ [classKey, referencesKey], key ∉ members.map Prod.fst
  formatter : ∃ given f, ("formatter", .object given) ∈ members ∧
    FormatterSettings.read (.object given) = .ok f
  output : ∃ given o v, ("output", .object given) ∈ members ∧ OutputSettings.read (.object given) = .ok o ∧
    o.value = .ok v

theorem exportedOverridden (distinct : (members.map Prod.fst).Nodup)
    (given : (membersKey, .object inner) ∈ members) (ok : exported (.object members) = .ok r) :
    Overridden members := by
  obtain ⟨s, all, shown⟩ := exportedAll.mp ok
  obtain ⟨f, o, v, visible, formatter, output, parsed, -⟩ := exportParts shown
  have assigned : ∀ key ∈ [classKey, referencesKey], key ∉ members.map Prod.fst := by
    intro key named member
    have both : ∀ key ∈ [classKey, referencesKey], key ∈ refused ∧ key ≠ membersKey := by decide
    exact refusedUnread (both key named).1 (both key named).2 member all
  obtain ⟨before, after, rfl⟩ := List.append_of_mem given
  obtain ⟨_, _, _, step, rest⟩ := assignedAround.mp all
  cases step
  have later : ∀ m ∈ after, m ∈ before ++ (membersKey, .object inner) :: after := fun m member =>
    List.mem_append_right _ (List.mem_cons_of_mem _ member)
  have apart : membersKey ∉ after.map Prod.fst := by
    rw [List.map_append, List.map_cons, List.nodup_append, List.nodup_cons] at distinct
    exact distinct.2.1.1
  obtain ⟨⟨w, raw⟩, w', raw'⟩ := rawReplaced inner
  refine ⟨⟨inner, given, fun hides => ?_⟩, assigned, ?_, ?_⟩
  · rw [hiddenKept apart ((hiddenReplaced inner).mpr hides) rest] at visible
    cases visible
  · rcases sectionGiven Settings.formatter formatterStep rest formatter with start | ⟨given, member, read⟩
    · rw [raw] at start
      cases start
    · exact ⟨given, f, later _ member, read⟩
  · rcases sectionGiven Settings.output outputStep rest output with start | ⟨given, member, read⟩
    · rw [raw'] at start
      cases start
    · exact ⟨given, o, v, later _ member, read, parsed⟩

theorem assignedOthers (plain : ∀ m ∈ members, m.1 ∉ refused ∧ m.1 ∉ sections) (s : Settings) :
    ∃ t, assignAll members s = .ok t := by
  induction members generalizing s with
  | nil => exact ⟨s, rfl⟩
  | cons m rest ih =>
    obtain ⟨⟨known, part⟩, plain⟩ := List.forall_mem_cons.mp plain
    obtain ⟨t, ok⟩ := ih plain (s.put m.1 m.2)
    exact ⟨t, assignedCons.mpr ⟨_, assignPut known part s m.2, ok⟩⟩

theorem movedLast (distinct : (members.map Prod.fst).Nodup) {last : List (String × Value)}
    (single : (last.map Prod.fst).Nodup) (given : last ⊆ members) :
    members.Perm (members.filter (fun m => m.1 ∉ last.map Prod.fst) ++ last) := by
  have picked : (members.filter fun m => !decide (m.1 ∉ last.map Prod.fst)).Perm last := by
    refine (List.perm_ext_iff_of_nodup (distinct.of_map.filter _) single.of_map).mpr fun m => ?_
    rw [List.mem_filter, Bool.not_eq_true', decide_eq_false_iff_not, not_not]
    constructor
    · rintro ⟨member, named⟩
      obtain ⟨n, inside, same⟩ := List.mem_map.mp named
      exact List.inj_on_of_nodup_map distinct (given inside) member same ▸ inside
    · exact fun inside => ⟨given inside, List.mem_map_of_mem inside⟩
  exact (List.filter_append_perm _ members).symm.trans (picked.append_left _)

def renewing (inner formatter output : List (String × Value)) : List (String × Value) :=
  [(membersKey, .object inner), ("formatter", .object formatter), ("output", .object output)]

theorem renewingKeys (inner formatter output : List (String × Value)) :
    (renewing inner formatter output).map Prod.fst = membersKey :: sections :=
  rfl

theorem renewed {front g h : List (String × Value)} {f : FormatterSettings} {o : OutputSettings}
    (plain : ∀ m ∈ front, m.1 ∉ refused ∧ m.1 ∉ sections) (visible : exportKey ∉ inner.map Prod.fst)
    (formatter : FormatterSettings.read (.object g) = .ok f) (output : OutputSettings.read (.object h) = .ok o)
    (parsed : o.value = .ok v) : ∃ r, exported (.object (front ++ renewing inner g h)) = .ok r := by
  obtain ⟨u, first⟩ := assignedOthers plain {}
  have later : assignAll [("formatter", .object g), ("output", .object h)] (replaceAll inner) =
      .ok { replaceAll inner with formatter := .parsed f, output := .parsed o } :=
    assignedCons.mpr ⟨_, Outcome.bindOk.mpr ⟨f, formatter, rfl⟩,
      assignedCons.mpr ⟨_, Outcome.bindOk.mpr ⟨o, output, rfl⟩, rfl⟩⟩
  exact ⟨_, exportedAll.mpr ⟨_, assignedAround.mpr ⟨u, _, first, rfl, later⟩,
    exportShown (mt (hiddenReplaced inner).mp visible) rfl rfl parsed⟩⟩

theorem overriddenExported (distinct : (members.map Prod.fst).Nodup) (overridden : Overridden members) :
    ∃ second, members.Perm second ∧ ∃ r, exported (.object second) = .ok r := by
  obtain ⟨⟨inner, replaced, visible⟩, assigned, ⟨g, f, formatter, read⟩, h, o, v, output, read', parsed⟩ :=
    overridden
  have keys := renewingKeys inner g h
  have given : renewing inner g h ⊆ members := by simp [renewing, replaced, formatter, output]
  -- whatever else there is goes before the object, and nothing is left of it
  refine ⟨_, movedLast distinct (keys ▸ by decide) given, renewed (fun m member => ?_) visible read read' parsed⟩
  rw [keys, List.mem_filter, decide_eq_true_eq, List.mem_cons, not_or] at member
  refine ⟨fun named => ?_, member.2.2⟩
  have others : ∀ key ∈ refused, key ≠ membersKey → key ∈ [classKey, referencesKey] := by decide
  exact assigned m.1 (others m.1 named member.2.1) (List.mem_map_of_mem member.1)

theorem overriddenMoved (order : first.Perm second) (overridden : Overridden second) : Overridden first := by
  obtain ⟨⟨inner, replaced, visible⟩, assigned, ⟨g, f, formatter, read⟩, h, o, v, output, shown⟩ := overridden
  exact ⟨⟨inner, order.mem_iff.mpr replaced, visible⟩,
    fun key named given => assigned key named ((order.map Prod.fst).mem_iff.mp given),
    ⟨g, f, order.mem_iff.mpr formatter, read⟩, h, o, v, order.mem_iff.mpr output, shown⟩

structure Mirrored (members : List (String × Value)) : Prop where
  back : ∀ r, exported (.object members) = .ok r → exported r = .ok r
  unordered : (members.map Prod.fst).Nodup →
    ((∀ second, members.Perm second → Interchangeable members second) ↔ ¬Overridden members)
  others : ∀ key ∉ fields, key ∉ reserved → ∀ v before after, members = before ++ after →
    Interchangeable (before ++ (key, v) :: after) members
  reserved : ∀ key ∈ reserved, ∀ v r, exported (.object (members ++ [(key, v)])) ≠ .ok r

theorem overriddenOrders (distinct : (members.map Prod.fst).Nodup) (overridden : Overridden members) :
    ¬∀ second, members.Perm second → Interchangeable members second := by
  intro same
  obtain ⟨second, order, r, ok⟩ := overriddenExported distinct overridden
  obtain ⟨inner, replaced, _⟩ := overridden.replaced
  have single : ([(membersKey, Value.object inner)].map Prod.fst).Nodup := List.nodup_singleton membersKey
  have moved := movedLast distinct single (by simpa using replaced)
  exact reservedUnshown (by decide) _ _ ((same _ moved r).mp ((same second order r).mpr ok))

theorem settingsMirrored (members : List (String × Value)) : Mirrored members where
  back _ := exportedBack
  unordered distinct := by
    refine ⟨fun same overridden => overriddenOrders distinct overridden same, fun free second order => ?_⟩
    by_cases replaced : ∃ inner, (membersKey, .object inner) ∈ members
    · obtain ⟨inner, given⟩ := replaced
      have distinct' := (order.map Prod.fst).nodup_iff.mp distinct
      exact fun r => iff_of_false (fun ok => free (exportedOverridden distinct given ok)) fun ok =>
        free (overriddenMoved order (exportedOverridden distinct' (order.mem_iff.mp given) ok))
    · exact movedInterchangeable order distinct (not_exists.mp replaced)
  others key other free v before after same :=
    same ▸ readInterchangeable (congrArg _ (otherDropped other free v before after))
  reserved key named v _ := reservedUnshown named members v

end Members

namespace Sample

def given : List (String × Value) :=
  [("output_dir", .text "a")]

def replacing : List (String × Value) :=
  [("__dict__", .object [("output_dir", .text "b")])]

def parts : List (String × Value) :=
  [("formatter", .object []), ("output", .object [])]

def directory (members : List (String × Value)) : Except ShapeError (Option Value) :=
  (exported (.object members)).map (·.get? "output_dir")

theorem exportHidden : directory [] = .ok (some (.text "generated")) ∧
    directory [("to_dict", .int 1)] = .error .wrongKind ∧
    directory (replacing ++ given ++ parts) = .ok (some (.text "a")) ∧
    directory (given ++ replacing ++ parts) = .ok (some (.text "b")) :=
  ⟨rfl, rfl, rfl, rfl⟩

end Sample

end Codegen.Settings
