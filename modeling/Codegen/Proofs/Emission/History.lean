import Codegen.Emission.Buffer
import Codegen.Proofs.Path
import Codegen.Proofs.Table

/-! Histories of writes. A write gives text to a path, appends text to it or adds fragments to its
draft, and paths are compared in their normalized form. What the buffer holds after a history can be
read off the history: who wrote text to a path, in which order the paths came, and what their texts
are. -/
namespace Codegen

structure TextWrite where
  path : String
  content : String
  plugin : String

structure DraftWrite where
  path : String
  fragments : List Fragment
  plugin : String
  header : Option String := none
  imports : List ImportRef := []

inductive Write where
  | emit (w : TextWrite)
  | append (w : TextWrite)
  | draft (d : DraftWrite)

def TextWrite.target (w : TextWrite) : String :=
  Path.normalize w.path

def DraftWrite.target (d : DraftWrite) : String :=
  Path.normalize d.path

def Write.apply (emissions : Emissions) : Write → Emissions
  | emit w => emissions.emit w.path w.content w.plugin
  | append w => emissions.append w.path w.content w.plugin
  | draft d => emissions.emitDraft d.path d.fragments d.plugin d.header d.imports

def Write.text? : Write → Option TextWrite
  | emit w => some w
  | append w => some w
  | draft _ => none

def Write.draft? : Write → Option DraftWrite
  | draft d => some d
  | _ => none

def Write.append? : Write → Option TextWrite
  | append w => some w
  | _ => none

namespace History

def written (writes : List Write) : Emissions :=
  writes.foldl Write.apply {}

def texts (writes : List Write) : List TextWrite :=
  writes.filterMap Write.text?

def drafts (writes : List Write) : List DraftWrite :=
  writes.filterMap Write.draft?

def textPaths (writes : List Write) : List String :=
  ((texts writes).map TextWrite.target).eraseDups

def draftPaths (writes : List Write) : List String :=
  ((drafts writes).map DraftWrite.target).eraseDups

def writersOf (writes : List Write) (path : String) : List String :=
  (((texts writes).filter (·.target = path)).map TextWrite.plugin).eraseDups

theorem writtenSnoc (writes : List Write) (w : Write) :
    written (writes ++ [w]) = w.apply (written writes) := by
  simp [written]

section Lists

variable {writes : List Write} {w : Write} {t : TextWrite}

theorem textPathsSnoc (text : w.text? = some t) :
    textPaths (writes ++ [w]) = Text.extend (textPaths writes) [t.target] := by
  simp [textPaths, texts, text, Text.firstsSnoc]

theorem writersOfSnoc (text : w.text? = some t) :
    writersOf (writes ++ [w]) t.target = Text.extend (writersOf writes t.target) [t.plugin] := by
  simp [writersOf, texts, text, Text.firstsSnoc]

theorem writersOfOther (text : w.text? = some t) {path : String} (other : path ≠ t.target) :
    writersOf (writes ++ [w]) path = writersOf writes path := by
  simp [writersOf, texts, text, other.symm]

theorem draftsText (text : w.text? = some t) : drafts (writes ++ [w]) = drafts writes := by
  cases w with
  | emit | append => simp [drafts, Write.draft?]
  | draft => cases text

theorem draftPathsText (text : w.text? = some t) :
    draftPaths (writes ++ [w]) = draftPaths writes := by
  unfold draftPaths
  rw [draftsText text]

theorem textsDraft (d : DraftWrite) : texts (writes ++ [.draft d]) = texts writes := by
  simp [texts, Write.text?]

theorem textPathsDraft (d : DraftWrite) : textPaths (writes ++ [.draft d]) = textPaths writes := by
  unfold textPaths
  rw [textsDraft]

theorem writersOfNone {path : String} : writersOf writes path = [] ↔ path ∉ textPaths writes := by
  rw [List.eq_nil_iff_forall_not_mem]
  simp only [writersOf, textPaths, List.mem_eraseDups, List.mem_map, List.mem_filter,
    decide_eq_true_eq]
  grind

end Lists

def appended (path plugin : String) (writes : List Write) : String :=
  String.join (((writes.filterMap Write.append?).filter
    (fun w => w.target = path ∧ w.plugin = plugin)).map (·.content))

structure Recorded (writes : List Write) (emissions : Emissions) : Prop where
  writers : emissions.writers.entries =
    (textPaths writes).map (fun path => (path, writersOf writes path))
  absent : ∀ path, emissions.files.find? path = none ↔ path ∉ textPaths writes
  owned : ∀ path file, emissions.files.find? path = some file →
    file.path = path ∧ file.plugin ∈ writersOf writes path
  drafts : emissions.drafts.keys = draftPaths writes
  filed : ∀ path draft, emissions.drafts.find? path = some draft → draft.path = path
  mixed : emissions.mixed = Table.empty

theorem writersFind {writes : List Write} {table : Table String (List String)}
    (same : table.entries = (textPaths writes).map (fun path => (path, writersOf writes path)))
    (path : String) : (table.find? path).getD [] = writersOf writes path := by
  cases found : table.find? path with
  | some plugins =>
    have member := Table.findPresent.mp found
    rw [same] at member
    obtain ⟨other, _, equal⟩ := List.mem_map.mp member
    cases equal
    rfl
  | none =>
    have unknown : path ∉ textPaths writes := by
      have absent := Table.findAbsent.mp found
      simpa [Table.keys, same, Function.comp_def] using absent
    exact (writersOfNone.mpr unknown).symm

theorem writersAdded {writes : List Write} {table : Table String (List String)} {w : Write}
    {t : TextWrite} (text : w.text? = some t)
    (same : table.entries = (textPaths writes).map (fun path => (path, writersOf writes path))) :
    (Emissions.addWriter table t.target t.plugin).entries = (textPaths (writes ++ [w])).map
      (fun path => (path, writersOf (writes ++ [w]) path)) := by
  have keys : table.keys = textPaths writes := by simp [Table.keys, same, Function.comp_def]
  rw [Emissions.addWriter, writersFind same, ← writersOfSnoc text, textPathsSnoc text, Text.extendOne]
  by_cases known : t.target ∈ textPaths writes
  · rw [if_pos known, Table.entriesPutKnown (keys ▸ known), same, Table.replaced, List.map_map]
    refine List.map_congr_left fun path _ => ?_
    by_cases equal : path = t.target
    · simp [equal]
    · simp [equal, writersOfOther text equal]
  · rw [if_neg known, Table.entriesPutFresh (keys ▸ known), same, List.map_append]
    refine congrArg (· ++ _) (List.map_congr_left fun path member => ?_)
    rw [writersOfOther text fun equal => known (equal ▸ member)]

theorem writersKnown {writes : List Write} {w : Write} {t : TextWrite} (text : w.text? = some t)
    (known : t.plugin ∈ writersOf writes t.target) :
    textPaths (writes ++ [w]) = textPaths writes ∧
      ∀ path, writersOf (writes ++ [w]) path = writersOf writes path := by
  have inside : t.target ∈ textPaths writes := by
    by_contra outside
    rw [writersOfNone.mpr outside] at known
    cases known
  refine ⟨by rw [textPathsSnoc text, Text.extendOne, if_pos inside], fun path => ?_⟩
  by_cases equal : path = t.target
  · rw [equal, writersOfSnoc text, Text.extendOne, if_pos known]
  · exact writersOfOther text equal

theorem textPathsMember {writes : List Write} {w : Write} {t : TextWrite} (text : w.text? = some t)
    {path : String} : path ∈ textPaths (writes ++ [w]) ↔ path ∈ textPaths writes ∨ path = t.target := by
  rw [textPathsSnoc text, Text.memExtend, List.mem_singleton]

theorem writersOfMember {writes : List Write} {w : Write} {t : TextWrite} (text : w.text? = some t)
    {path plugin : String} : plugin ∈ writersOf (writes ++ [w]) path ↔
      plugin ∈ writersOf writes path ∨ path = t.target ∧ plugin = t.plugin := by
  by_cases equal : path = t.target
  · rw [equal, writersOfSnoc text, Text.memExtend, List.mem_singleton]
    simp
  · rw [writersOfOther text equal]
    simp [equal]

/- A write of text changes the text of its path only, and leaves it with a writer of that path. -/
theorem recordedText {writes : List Write} {e next : Emissions} {w : Write} {t : TextWrite}
    (recorded : Recorded writes e) (text : w.text? = some t)
    (writers : next.writers.entries = (textPaths (writes ++ [w])).map
      (fun path => (path, writersOf (writes ++ [w]) path)))
    {file : File} (files : ∀ path, next.files.find? path =
      if path = t.target then some file else e.files.find? path)
    (placed : file.path = t.target) (owner : file.plugin ∈ writersOf (writes ++ [w]) t.target)
    (drafts : next.drafts = e.drafts) (mixed : next.mixed = e.mixed) :
    Recorded (writes ++ [w]) next where
  writers := writers
  absent path := by
    rw [files, textPathsMember text]
    by_cases same : path = t.target
    · simp [same]
    · simp [same, recorded.absent]
  owned path held found := by
    rw [files] at found
    split at found
    · rename_i same
      cases found
      exact ⟨placed.trans same.symm, same ▸ owner⟩
    · obtain ⟨path, plugin⟩ := recorded.owned path held found
      exact ⟨path, (writersOfMember text).mpr (.inl plugin)⟩
  drafts := by rw [drafts, draftPathsText text, recorded.drafts]
  filed := by rw [drafts]; exact recorded.filed
  mixed := mixed.trans recorded.mixed

theorem emitFiles (e : Emissions) (t : TextWrite) (path : String) :
    (e.emit t.path t.content t.plugin).files.find? path =
      if path = t.target then some ⟨t.target, t.content, t.plugin⟩ else e.files.find? path :=
  Table.findPut e.files t.target path ⟨t.target, t.content, t.plugin⟩

theorem appendFresh {e : Emissions} {t : TextWrite} (fresh : e.files.find? t.target = none) :
    e.append t.path t.content t.plugin = e.emit t.path t.content t.plugin := by
  have absent : e.files.find? (Path.normalize t.path) = none := fresh
  simp only [Emissions.append, absent, Emissions.emit, Path.normalizeTwice]

theorem appendOwn {e : Emissions} {t : TextWrite} {file : File}
    (held : e.files.find? t.target = some file) (own : file.plugin = t.plugin) :
    e.append t.path t.content t.plugin =
      { e with files := e.files.put t.target { file with content := file.content ++ t.content } } := by
  have found : e.files.find? (Path.normalize t.path) = some file := held
  simp only [Emissions.append, found, if_pos own]
  rfl

theorem appendForeign {e : Emissions} {t : TextWrite} {file : File}
    (held : e.files.find? t.target = some file) (foreign : file.plugin ≠ t.plugin) :
    e.append t.path t.content t.plugin =
      { e with writers := Emissions.addWriter e.writers t.target t.plugin } := by
  have found : e.files.find? (Path.normalize t.path) = some file := held
  simp only [Emissions.append, found, if_neg foreign]
  rfl

theorem recordedEmit {writes : List Write} {e : Emissions} (recorded : Recorded writes e)
    {w : Write} {t : TextWrite} (text : w.text? = some t) :
    Recorded (writes ++ [w]) (e.emit t.path t.content t.plugin) := by
  refine recordedText recorded text (writersAdded text recorded.writers) (emitFiles e t) rfl ?_ rfl rfl
  exact (writersOfMember text).mpr (.inr ⟨rfl, rfl⟩)

theorem recordedAppend {writes : List Write} {e : Emissions} (recorded : Recorded writes e)
    (t : TextWrite) :
    Recorded (writes ++ [.append t]) (e.append t.path t.content t.plugin) := by
  have text : (Write.append t).text? = some t := rfl
  cases found : e.files.find? t.target with
  | none =>
    rw [appendFresh found]
    exact recordedEmit recorded text
  | some file =>
    obtain ⟨placed, owner⟩ := recorded.owned _ file found
    have member := (writersOfMember text).mpr (.inl owner)
    by_cases own : file.plugin = t.plugin
    · rw [appendOwn found own]
      obtain ⟨paths, writers⟩ := writersKnown text (own ▸ owner)
      refine recordedText recorded text ?_ (fun path => Table.findPut e.files t.target path _)
        placed member rfl rfl
      rw [paths, recorded.writers]
      exact List.map_congr_left fun path _ => by rw [writers]
    · rw [appendForeign found own]
      refine recordedText recorded text (writersAdded text recorded.writers) (fun path => ?_)
        placed member rfl rfl
      split
      · rename_i equal
        rw [equal]
        exact found
      · rfl

theorem recordedDraft {writes : List Write} {e : Emissions} (recorded : Recorded writes e)
    (d : DraftWrite) : Recorded (writes ++ [.draft d])
      (e.emitDraft d.path d.fragments d.plugin d.header d.imports) := by
  have paths : textPaths (writes ++ [.draft d]) = textPaths writes := textPathsDraft d
  have writers : writersOf (writes ++ [.draft d]) = writersOf writes := by
    funext path
    unfold writersOf
    rw [textsDraft]
  refine ⟨?_, ?_, ?_, ?_, ?_, recorded.mixed⟩
  · rw [paths, writers]
    exact recorded.writers
  · rw [paths]
    exact recorded.absent
  · rw [writers]
    exact recorded.owned
  · have longer : draftPaths (writes ++ [.draft d]) = Text.extend (draftPaths writes) [d.target] := by
      simp [draftPaths, drafts, Write.draft?, Text.firstsSnoc]
    rw [longer, ← recorded.drafts, Text.extendOne]
    exact Table.keysPut e.drafts d.target _
  · intro path draft found
    simp only [Emissions.emitDraft] at found
    rw [Table.findPut] at found
    split at found
    · rename_i same
      cases found
      cases held : e.drafts.find? (Path.normalize d.path) with
      | none => exact same.symm
      | some old => exact (recorded.filed _ old held).trans same.symm
    · exact recorded.filed path draft found

theorem recordedStep {writes : List Write} {e : Emissions} (recorded : Recorded writes e)
    (w : Write) : Recorded (writes ++ [w]) (w.apply e) := by
  cases w with
  | emit t => exact recordedEmit recorded rfl
  | append t => exact recordedAppend recorded t
  | draft d => exact recordedDraft recorded d

theorem recordedRun (writes : List Write) : Recorded writes (written writes) := by
  induction writes using List.reverseRecOn with
  | nil =>
    refine ⟨rfl, fun path => ?_, ?_, rfl, ?_, rfl⟩
    · exact iff_of_true rfl List.not_mem_nil
    · intro path file found
      cases found
    · intro path draft found
      cases found
  | append_singleton writes w ih =>
    rw [written, List.foldl_append]
    exact recordedStep ih w

theorem textFound {writes : List Write} {path : String} :
    (∃ file, (written writes).files.find? path = some file) ↔ path ∈ textPaths writes := by
  rw [← Table.keyFound, ← not_iff_not, ← Table.findAbsent, (recordedRun writes).absent]

/- Once a path has a text, only appends of the plugin that owns it make it longer. -/
theorem appendedCons (path plugin : String) (w : Write) (writes : List Write) :
    appended path plugin (w :: writes) = appended path plugin [w] ++ appended path plugin writes := by
  rw [appended, ← List.singleton_append, List.filterMap_append, List.filter_append, List.map_append,
    String.join_append]
  rfl

theorem appendedOwn {w : TextWrite} : appended w.target w.plugin [.append w] = w.content := by
  simp [appended, Write.append?]

theorem appendedOther {w : TextWrite} {path plugin : String}
    (other : ¬(w.target = path ∧ w.plugin = plugin)) : appended path plugin [.append w] = "" := by
  simp [appended, Write.append?, other]

theorem contentStep {e : Emissions} {path content plugin : String}
    (found : e.files.find? path = some ⟨path, content, plugin⟩) {w : Write}
    (kept : ∀ t, w = .emit t → t.target ≠ path) : (w.apply e).files.find? path =
      some ⟨path, content ++ appended path plugin [w], plugin⟩ := by
  cases w with
  | emit t =>
    have other := kept t rfl
    have nothing : appended path plugin [.emit t] = "" := rfl
    rw [nothing, String.append_empty, ← found]
    exact (emitFiles e t path).trans (if_neg other.symm)
  | append t =>
    rw [Write.apply]
    by_cases same : t.target = path
    · subst same
      by_cases own : plugin = t.plugin
      · subst own
        rw [appendOwn found rfl, appendedOwn]
        exact (Table.findPut e.files t.target t.target _).trans (if_pos rfl)
      · rw [appendForeign found own, appendedOther fun both => own both.2.symm, String.append_empty]
        exact found
    · rw [appendedOther fun both => same both.1, String.append_empty, ← found]
      cases held : e.files.find? t.target with
      | none =>
        rw [appendFresh held]
        exact (emitFiles e t path).trans (if_neg (Ne.symm same))
      | some file =>
        by_cases own : file.plugin = t.plugin
        · rw [appendOwn held own]
          exact (Table.findPut e.files t.target path _).trans (if_neg (Ne.symm same))
        · rw [appendForeign held own]
  | draft d =>
    have nothing : appended path plugin [.draft d] = "" := rfl
    rw [nothing, String.append_empty]
    exact found

theorem contentRun {e : Emissions} {path content plugin : String}
    (found : e.files.find? path = some ⟨path, content, plugin⟩) {writes : List Write}
    (kept : ∀ t, Write.emit t ∈ writes → t.target ≠ path) :
    (writes.foldl Write.apply e).files.find? path =
      some ⟨path, content ++ appended path plugin writes, plugin⟩ := by
  induction writes generalizing e content with
  | nil => simpa [appended] using found
  | cons w rest ih =>
    have next := contentStep found (w := w) fun t same => kept t (by simp [same])
    rw [List.foldl_cons, ih next fun t member => kept t (List.mem_cons_of_mem _ member),
      String.append_assoc, ← appendedCons]

def Opens (before : List Write) (w : Write) (t : TextWrite) : Prop :=
  w = .emit t ∨ w = .append t ∧ t.target ∉ textPaths before

theorem contentOpened {before after : List Write} {w : Write} {t : TextWrite}
    (opens : Opens before w t) (kept : ∀ u, Write.emit u ∈ after → u.target ≠ t.target) :
    (written (before ++ w :: after)).files.find? t.target =
      some ⟨t.target, t.content ++ appended t.target t.plugin after, t.plugin⟩ := by
  have opened : (w.apply (written before)).files.find? t.target =
      some ⟨t.target, t.content, t.plugin⟩ := by
    have replaced : ((written before).emit t.path t.content t.plugin).files.find? t.target =
        some ⟨t.target, t.content, t.plugin⟩ :=
      (emitFiles (written before) t t.target).trans (if_pos rfl)
    rcases opens with rfl | ⟨rfl, fresh⟩
    · exact replaced
    · rw [Write.apply, appendFresh (((recordedRun before).absent t.target).mpr fresh)]
      exact replaced
  rw [written, List.foldl_append, List.foldl_cons]
  exact contentRun opened kept

end History
end Codegen
