/-!
A table keeps its entries in the order in which their keys first arrived. Storing under a key that
is present replaces the value and keeps the place; a new key goes to the end. No key occurs twice,
which the type carries as a proof.
-/
namespace Codegen

structure Table (κ υ : Type) where
  entries : List (κ × υ)
  distinct : (entries.map Prod.fst).Nodup

namespace Table

variable {κ υ : Type} [DecidableEq κ]

def empty : Table κ υ :=
  ⟨[], List.nodup_nil⟩

instance : Inhabited (Table κ υ) := ⟨empty⟩

def keys (table : Table κ υ) : List κ :=
  table.entries.map Prod.fst

def values (table : Table κ υ) : List υ :=
  table.entries.map Prod.snd

def find? (table : Table κ υ) (key : κ) : Option υ :=
  (table.entries.find? (fun entry => decide (entry.1 = key))).map Prod.snd

def contains (table : Table κ υ) (key : κ) : Bool :=
  (table.find? key).isSome

def replaced (key : κ) (value : υ) (entries : List (κ × υ)) : List (κ × υ) :=
  entries.map (fun entry => if entry.1 = key then (key, value) else entry)

omit [DecidableEq κ] in
theorem distinctAppend {entries : List (κ × υ)} {key : κ} {value : υ}
    (distinct : (entries.map Prod.fst).Nodup) (fresh : key ∉ entries.map Prod.fst) :
    ((entries ++ [(key, value)]).map Prod.fst).Nodup := by
  rw [List.map_append, List.nodup_append]
  refine ⟨distinct, by simp, ?_⟩
  intro a ha b hb same
  simp only [List.map_cons, List.map_nil, List.mem_singleton] at hb
  exact fresh (by rw [← hb, ← same]; exact ha)

theorem keysReplaced (key : κ) (value : υ) (entries : List (κ × υ)) :
    (replaced key value entries).map Prod.fst = entries.map Prod.fst := by
  induction entries with
  | nil => rfl
  | cons entry rest ih =>
    unfold replaced at ih ⊢
    by_cases same : entry.1 = key
    · simp [same, ih]
    · simp [same, ih]

def put (table : Table κ υ) (key : κ) (value : υ) : Table κ υ :=
  if present : key ∈ table.entries.map Prod.fst then
    ⟨replaced key value table.entries, by rw [keysReplaced]; exact table.distinct⟩
  else
    ⟨table.entries ++ [(key, value)], distinctAppend table.distinct present⟩

def erase (table : Table κ υ) (key : κ) : Table κ υ :=
  ⟨table.entries.filter (fun entry => decide (entry.1 ≠ key)),
    table.distinct.sublist (List.Sublist.map Prod.fst List.filter_sublist)⟩

def ofList (entries : List (κ × υ)) : Table κ υ :=
  entries.foldl (fun table entry => table.put entry.1 entry.2) empty

theorem keysPut (table : Table κ υ) (key : κ) (value : υ) :
    (table.put key value).keys = if key ∈ table.keys then table.keys else table.keys ++ [key] := by
  unfold put keys
  split
  · exact keysReplaced key value table.entries
  · simp

end Table
end Codegen
