import Codegen.Proofs.Emission.Drafts

/-! The buffers that the operations on them lead to. In each of them every draft lies under its own path,
so that the paths of the drafts are distinct. -/
namespace Codegen.Emissions

def Filed (e : Emissions) : Prop :=
  ∀ path draft, e.drafts.find? path = some draft → draft.path = path

inductive Reached : Emissions → Prop where
  | empty : Reached {}
  | write {e : Emissions} (before : Reached e) (w : Write) : Reached (w.apply e)
  | finalize {e : Emissions} (before : Reached e) (serializer : Serializer) (symbols : SymbolRegistry) :
      Reached (e.finalize serializer symbols).1
  | setContent {e : Emissions} (before : Reached e) (path content : String) :
      Reached (e.setContent path content)

section Filed

variable {e : Emissions}

theorem filedDraft (filed : e.Filed) (d : DraftWrite) : ((Write.draft d).apply e).Filed := by
  intro path draft found
  simp only [Write.apply, emitDraft] at found
  rw [Table.findPut] at found
  split at found
  · rename_i same
    cases found
    cases held : e.drafts.find? (Path.normalize d.path) with
    | none => exact same.symm
    | some old => exact (filed _ old held).trans same.symm
  · exact filed path draft found

theorem filedWrite (filed : e.Filed) (w : Write) : (w.apply e).Filed := by
  cases text : w.text? with
  | none =>
    cases w with
    | emit t | append t => cases text
    | draft d => exact filedDraft filed d
  | some t =>
    unfold Filed
    rw [History.appliedText text]
    exact filed

theorem finalizeDraftDrafts (serializer : Serializer) (symbols : SymbolRegistry) (draft : Draft) :
    (finalizeDraft serializer symbols e draft).1.drafts = e.drafts := by
  cases content : draftContent serializer symbols draft with
  | error cause => simp only [finalizeDraftError content, noted]
  | ok text => simp only [finalizeDraftOk content, placed, noted]

theorem finalizeDraftsKept (serializer : Serializer) (symbols : SymbolRegistry) (drafts : List Draft) :
    (finalizeDrafts serializer symbols drafts e).1.drafts = e.drafts := by
  induction drafts generalizing e with
  | nil => rfl
  | cons draft rest ih =>
    have kept := finalizeDraftDrafts (e := e) serializer symbols draft
    simp only [finalizeDrafts]
    split
    · rename_i next turned
      rw [turned] at kept
      rw [ih, kept]
    · rename_i next cause failed
      rw [failed] at kept
      exact kept

theorem filedFinalize (filed : e.Filed) (serializer : Serializer) (symbols : SymbolRegistry) :
    (e.finalize serializer symbols).1.Filed := by
  have kept := finalizeDraftsKept (e := e) serializer symbols e.drafts.values
  unfold finalize
  split
  · intro path draft found
    cases found
  · rename_i after cause failed
    rw [failed] at kept
    unfold Filed
    rw [kept]
    exact filed

theorem filedReached (reached : Reached e) : e.Filed := by
  induction reached with
  | empty =>
    intro path draft found
    cases found
  | write _ w ih => exact filedWrite ih w
  | finalize _ serializer symbols ih => exact filedFinalize ih serializer symbols
  | setContent _ path content ih =>
    unfold setContent
    split <;> exact ih

theorem filedDistinct (filed : e.Filed) : (e.drafts.values.map Draft.path).Nodup := by
  rw [Table.valuesKeyed filed]
  exact e.drafts.distinct

end Filed

end Codegen.Emissions
