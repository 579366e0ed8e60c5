import Codegen.Proofs.Emission.Drafts

/-! What the buffer holds for one path: a text, a draft and the writers of texts. A write changes what is
held for its own path only, and does so by what was held there, so that the writes to a path alone
decide what a history leaves for it. -/
namespace Codegen

def Write.target : Write → String
  | emit t => t.target
  | append t => t.target
  | draft d => d.target

structure Cell where
  file : Option File := none
  draft : Option Draft := none
  writers : Option (List String) := none

namespace Cell

def noted (cell : Cell) (plugin : String) : Option (List String) :=
  some (Text.extend (cell.writers.getD []) [plugin])

def emit (cell : Cell) (t : TextWrite) : Cell :=
  { cell with file := some ⟨t.target, t.content, t.plugin⟩, writers := cell.noted t.plugin }

def append (cell : Cell) (t : TextWrite) : Cell :=
  match cell.file with
  | none => cell.emit t
  | some file =>
    if file.plugin = t.plugin then { cell with file := some { file with content := file.content ++ t.content } }
    else { cell with writers := cell.noted t.plugin }

def addDraft (cell : Cell) (d : DraftWrite) : Cell :=
  { cell with
    draft := some (match cell.draft with
      | none => ⟨d.target, d.fragments, d.plugin, d.header, d.imports⟩
      | some old =>
        { old with
          fragments := old.fragments ++ d.fragments
          plugin := Attribution.add old.plugin d.plugin
          imports := old.imports ++ d.imports }) }

def step (cell : Cell) : Write → Cell
  | .emit t => cell.emit t
  | .append t => cell.append t
  | .draft d => cell.addDraft d

end Cell

namespace Emissions

def cell (e : Emissions) (path : String) : Cell :=
  ⟨e.files.find? path, e.drafts.find? path, e.writers.find? path⟩

theorem cellEmit (e : Emissions) (t : TextWrite) (path : String) :
    (e.emit t.path t.content t.plugin).cell path =
      if path = t.target then (e.cell path).emit t else e.cell path := by
  have files := History.emitFiles e t path
  have writers := Table.findPut e.writers t.target path
    (Text.extend ((e.writers.find? t.target).getD []) [t.plugin])
  split
  · rename_i same
    subst same
    rw [if_pos rfl] at files writers
    exact (Cell.mk.injEq ..).mpr ⟨files, rfl, writers⟩
  · rename_i apart
    rw [if_neg apart] at files writers
    exact (Cell.mk.injEq ..).mpr ⟨files, rfl, writers⟩

theorem cellAppend (e : Emissions) (t : TextWrite) (path : String) :
    (e.append t.path t.content t.plugin).cell path =
      if path = t.target then (e.cell path).append t else e.cell path := by
  cases held : e.files.find? t.target with
  | none =>
    rw [History.appendFresh held, cellEmit]
    split
    · rename_i same
      subst same
      simp [Cell.append, cell, held]
    · rfl
  | some file =>
    by_cases own : file.plugin = t.plugin
    · rw [History.appendOwn held own]
      have files := Table.findPut e.files t.target path { file with content := file.content ++ t.content }
      split
      · rename_i same
        subst same
        simpa [Cell.append, cell, held, own] using files
      · rename_i apart
        simpa [cell, apart] using files
    · rw [History.appendForeign held own]
      have writers := Table.findPut e.writers t.target path
        (Text.extend ((e.writers.find? t.target).getD []) [t.plugin])
      split
      · rename_i same
        subst same
        simpa [Cell.append, Cell.noted, cell, addWriter, held, own] using writers
      · rename_i apart
        simpa [cell, addWriter, apart] using writers

theorem cellDraft (e : Emissions) (d : DraftWrite) (path : String) :
    ((Write.draft d).apply e).cell path =
      if path = d.target then (e.cell path).addDraft d else e.cell path := by
  have files : ((Write.draft d).apply e).files = e.files := rfl
  have writers : ((Write.draft d).apply e).writers = e.writers := rfl
  cases held : e.drafts.find? d.target with
  | none =>
    simp only [cell, files, writers, History.draftFresh held, Table.findPut]
    split
    · rename_i same
      subst same
      simp [Cell.addDraft, held]
    · rfl
  | some old =>
    simp only [cell, files, writers, History.draftLonger held, Table.findPut]
    split
    · rename_i same
      subst same
      simp [Cell.addDraft, held]
    · rfl

theorem cellApply (e : Emissions) (w : Write) (path : String) :
    (w.apply e).cell path = if path = w.target then (e.cell path).step w else e.cell path := by
  cases w with
  | emit t => exact cellEmit e t path
  | append t => exact cellAppend e t path
  | draft d => exact cellDraft e d path

end Emissions

namespace History

theorem cellWritten (writes : List Write) (path : String) :
    (written writes).cell path = (writes.filter (·.target = path)).foldl Cell.step {} := by
  induction writes using List.reverseRecOn with
  | nil => rfl
  | append_singleton writes w ih =>
    rw [writtenSnoc, Emissions.cellApply, List.filter_append, List.foldl_append, ih]
    by_cases same : w.target = path
    · simp [same]
    · simp [same, Ne.symm same]

end History
end Codegen
