import Codegen.Table
import Codegen.Text.Lines
import Mathlib.Data.List.Basic
import Mathlib.Data.List.Induction
import Mathlib.Data.List.Nodup
import Mathlib.Data.List.Permutation

/-! What a table answers after a change, and lists in which each text stands once, at the place of its
first occurrence. Both grow at the end only, so that their order tells the order of arrival. -/
namespace Codegen.Table

variable {κ υ : Type} [DecidableEq κ]

theorem findPresent {table : Table κ υ} {key : κ} {value : υ} :
    table.find? key = some value ↔ (key, value) ∈ table.entries := by
  obtain ⟨entries, distinct⟩ := table
  simp only [find?]
  induction entries with
  | nil => simp
  | cons entry rest ih =>
    obtain ⟨fresh, distinct⟩ := List.nodup_cons.mp distinct
    by_cases same : entry.1 = key
    · have absent : (key, value) ∉ rest := fun member =>
        fresh (List.mem_map.mpr ⟨_, member, same.symm⟩)
      simp [same, absent, Prod.ext_iff, eq_comm]
    · have other : (key, value) ≠ entry := fun equal => same (by rw [← equal])
      simp only [List.find?_cons, same, decide_false, List.mem_cons, other, false_or]
      exact ih distinct

theorem findAbsent {table : Table κ υ} {key : κ} : table.find? key = none ↔ key ∉ table.keys := by
  simp only [find?, keys, Option.map_eq_none_iff, List.find?_eq_none, decide_eq_true_eq,
    List.mem_map, not_exists, not_and]

theorem keyFound {table : Table κ υ} {key : κ} :
    key ∈ table.keys ↔ ∃ value, table.find? key = some value := by
  rw [← not_iff_not, ← findAbsent]
  cases table.find? key <;> simp

theorem containsKey {table : Table κ υ} {key : κ} : table.contains key = true ↔ key ∈ table.keys := by
  rw [keyFound, contains, Option.isSome_iff_exists]

theorem entriesPutFresh {table : Table κ υ} {key : κ} (fresh : key ∉ table.keys) (value : υ) :
    (table.put key value).entries = table.entries ++ [(key, value)] := by
  have absent : key ∉ table.entries.map Prod.fst := fresh
  simp only [put, dif_neg absent]

theorem entriesPutKnown {table : Table κ υ} {key : κ} (known : key ∈ table.keys) (value : υ) :
    (table.put key value).entries = replaced key value table.entries := by
  have present : key ∈ table.entries.map Prod.fst := known
  simp only [put, dif_pos present]

theorem memKeysPut {table : Table κ υ} {key other : κ} {value : υ} :
    other ∈ (table.put key value).keys ↔ other ∈ table.keys ∨ other = key := by
  rw [keysPut]
  split
  · rename_i known
    exact ⟨.inl, fun h => h.elim id (fun same => same ▸ known)⟩
  · simp

theorem memReplaced {entries : List (κ × υ)} {key other : κ} {value found : υ} :
    (other, found) ∈ replaced key value entries ↔
      (other ≠ key ∧ (other, found) ∈ entries) ∨
        (other = key ∧ found = value ∧ key ∈ entries.map Prod.fst) := by
  induction entries with
  | nil => simp [replaced]
  | cons entry rest ih =>
    obtain ⟨first, held⟩ := entry
    have tail : replaced key value ((first, held) :: rest) =
        (if first = key then (key, value) else (first, held)) :: replaced key value rest := rfl
    rw [tail, List.mem_cons, ih]
    by_cases same : first = key
    · subst same
      by_cases equal : other = first
      · simp only [equal, if_true, Prod.mk.injEq, true_and, List.map_cons, List.mem_cons, true_or]
        tauto
      · simp [equal]
    · by_cases equal : other = key
      · have apart : key ≠ first := fun h => same h.symm
        simp [equal, same, apart]
      · simp [same, equal]

theorem findPut (table : Table κ υ) (key other : κ) (value : υ) :
    (table.put key value).find? other = if other = key then some value else table.find? other := by
  refine Option.ext fun found => ?_
  rw [findPresent]
  by_cases known : key ∈ table.keys
  · rw [entriesPutKnown known, memReplaced]
    by_cases same : other = key
    · have present : key ∈ table.entries.map Prod.fst := known
      simp [same, present, eq_comm]
    · simp [same, findPresent]
  · rw [entriesPutFresh known]
    by_cases same : other = key
    · have absent : (key, found) ∉ table.entries := fun member =>
        known (List.mem_map.mpr ⟨_, member, rfl⟩)
      simp [same, absent, eq_comm]
    · simp [same, findPresent]

theorem findErase (table : Table κ υ) (key other : κ) :
    (table.erase key).find? other = if other = key then none else table.find? other := by
  refine Option.ext fun found => ?_
  rw [findPresent, erase, List.mem_filter, ← findPresent]
  by_cases same : other = key <;> simp [same]

theorem entriesRead (table : Table κ υ) (default : υ) :
    table.entries = table.keys.map (fun key => (key, (table.find? key).getD default)) := by
  rw [keys, List.map_map]
  refine (List.map_id _).symm.trans (List.map_congr_left fun entry member => ?_)
  have found : table.find? entry.1 = some entry.2 := findPresent.mpr member
  rw [Function.comp_apply, found, Option.getD_some, id]

theorem valuesMember {table : Table κ υ} {value : υ} :
    value ∈ table.values ↔ ∃ key, table.find? key = some value := by
  simp [values, findPresent]

theorem valuesKeyed {table : Table κ υ} {keyOf : υ → κ}
    (keyed : ∀ key value, table.find? key = some value → keyOf value = key) :
    table.values.map keyOf = table.keys := by
  rw [values, keys, List.map_map]
  refine List.map_congr_left fun entry member => ?_
  exact keyed entry.1 entry.2 (findPresent.mpr member)

theorem entriesSame {table other : Table κ υ} (same : ∀ key, table.find? key = other.find? key) :
    table.entries.Perm other.entries := by
  have distinct (table : Table κ υ) : table.entries.Nodup :=
    List.Nodup.of_map Prod.fst table.distinct
  refine (List.perm_ext_iff_of_nodup (distinct table) (distinct other)).mpr ?_
  rintro ⟨key, value⟩
  rw [← findPresent, ← findPresent, same]

theorem ofListSnoc (entries : List (κ × υ)) (entry : κ × υ) :
    ofList (entries ++ [entry]) = (ofList entries).put entry.1 entry.2 := by
  rw [ofList, List.foldl_append]
  rfl

theorem memKeysOfList {entries : List (κ × υ)} {key : κ} :
    key ∈ (ofList entries).keys ↔ key ∈ entries.map Prod.fst := by
  induction entries using List.reverseRecOn with
  | nil => rfl
  | append_singleton entries entry ih =>
    rw [ofListSnoc, memKeysPut, ih, List.map_append, List.mem_append, List.map_singleton,
      List.mem_singleton]

theorem findLast {before after : List (κ × υ)} {key : κ} {value : υ}
    (last : key ∉ after.map Prod.fst) :
    (ofList (before ++ (key, value) :: after)).find? key = some value := by
  induction after using List.reverseRecOn with
  | nil => rw [ofListSnoc, findPut, if_pos rfl]
  | append_singleton after entry ih =>
    rw [List.map_append, List.mem_append, not_or, List.map_singleton, List.mem_singleton] at last
    rw [← List.cons_append, ← List.append_assoc, ofListSnoc, findPut, if_neg last.2]
    exact ih last.1

theorem entriesOfList {entries : List (κ × υ)} (distinct : (entries.map Prod.fst).Nodup) :
    (ofList entries).entries = entries := by
  induction entries using List.reverseRecOn with
  | nil => rfl
  | append_singleton entries entry ih =>
    rw [List.map_append, List.map_singleton, List.nodup_append] at distinct
    obtain ⟨distinct, _, apart⟩ := distinct
    have fresh : entry.1 ∉ (ofList entries).keys := fun known =>
      apart entry.1 (memKeysOfList.mp known) entry.1 (List.mem_singleton.mpr rfl) rfl
    rw [ofListSnoc, entriesPutFresh fresh, ih distinct]

theorem lengthOfList {entries : List (κ × υ)} :
    (ofList entries).keys.length = entries.length ↔ (entries.map Prod.fst).Nodup := by
  constructor
  · intro whole
    have inside : (ofList entries).keys.Subperm (entries.map Prod.fst) :=
      List.subperm_of_subset (ofList entries).distinct fun _ => memKeysOfList.mp
    have shorter : (entries.map Prod.fst).length ≤ (ofList entries).keys.length :=
      Nat.le_of_eq (by rw [List.length_map, whole])
    exact (inside.perm_of_length_le shorter).nodup_iff.mp (ofList entries).distinct
  · intro distinct
    rw [keys, entriesOfList distinct, List.length_map]

end Codegen.Table

namespace Codegen.Text

theorem extendCons (texts more : List String) (s : String) :
    extend texts (s :: more) = extend (extend texts [s]) more := rfl

theorem extendAppend (texts first second : List String) :
    extend texts (first ++ second) = extend (extend texts first) second :=
  List.foldl_append

theorem extendOne (texts : List String) (s : String) :
    extend texts [s] = if s ∈ texts then texts else texts ++ [s] := rfl

theorem memExtend {texts more : List String} {s : String} :
    s ∈ extend texts more ↔ s ∈ texts ∨ s ∈ more := by
  induction more generalizing texts with
  | nil => simp [extend]
  | cons first rest ih =>
    rw [extendCons, ih, extendOne, List.mem_cons, ← or_assoc]
    by_cases known : first ∈ texts
    · rw [if_pos known]
      by_cases same : s = first
      · subst same; simp [known]
      · simp [same]
    · simp [known]

theorem extendDistinct {texts : List String} (distinct : texts.Nodup) (more : List String) :
    (extend texts more).Nodup := by
  induction more generalizing texts with
  | nil => exact distinct
  | cons first rest ih =>
    rw [extendCons]
    refine ih ?_
    rw [extendOne]
    split
    · exact distinct
    · rename_i fresh
      rw [List.nodup_append]
      refine ⟨distinct, by simp, ?_⟩
      intro a member b last equal
      exact fresh (by rw [← List.mem_singleton.mp last, ← equal]; exact member)

theorem firstsSnoc (texts : List String) (s : String) :
    (texts ++ [s]).eraseDups = extend texts.eraseDups [s] := by
  rw [List.eraseDups_append, extendOne]
  by_cases known : s ∈ texts <;> simp [List.removeAll, List.eraseDups_cons, known]

theorem firstsAppend (texts more : List String) :
    (texts ++ more).eraseDups = extend texts.eraseDups more := by
  induction more using List.reverseRecOn with
  | nil => simp [extend]
  | append_singleton more s ih => rw [← List.append_assoc, firstsSnoc, ih, extendAppend]

theorem extendFirsts (texts more : List String) :
    extend texts more = texts ++ more.eraseDups.filter (· ∉ texts) := by
  induction more using List.reverseRecOn with
  | nil => simp [extend]
  | append_singleton more s ih =>
    rw [extendAppend, extendOne, firstsSnoc, extendOne]
    simp only [memExtend, List.mem_eraseDups]
    by_cases known : s ∈ texts
    · by_cases again : s ∈ more <;> simp [known, again, ih]
    · by_cases again : s ∈ more <;> simp [known, again, ih]

theorem firstsDistinct (texts : List String) : texts.eraseDups.Nodup := by
  induction texts using List.reverseRecOn with
  | nil => exact List.nodup_nil
  | append_singleton texts s ih =>
    rw [firstsSnoc]
    exact extendDistinct ih [s]

theorem firstsDiffer {texts : List String} :
    1 < texts.eraseDups.length ↔ ∃ a ∈ texts, ∃ b ∈ texts, a ≠ b := by
  have distinct := firstsDistinct texts
  have same : ∀ s, s ∈ texts ↔ s ∈ texts.eraseDups := fun s => List.mem_eraseDups.symm
  simp only [same]
  generalize texts.eraseDups = kept at distinct
  match kept, distinct with
  | [], _ => simp
  | [a], _ => simp
  | a :: b :: rest, distinct =>
    have apart : a ≠ b := fun equal => (List.nodup_cons.mp distinct).1 (by simp [equal])
    exact ⟨fun _ => ⟨a, by simp, b, by simp, apart⟩, fun _ => by simp⟩

end Codegen.Text
