import Codegen.Proofs.Emission.Calls
import Codegen.Proofs.Emission.Interleaving
import Codegen.Proofs.Emission.Refused

/-! How a builder answers after any calls, refused ones among them. What it holds is what the calls
amount to and does not depend on the workspace, which others may change between the calls. Once it is
settled what the file is made of, calls of the other kind are refused, and the file reaches the buffer
at most once. -/
namespace Codegen.Builder

def next (b : Builder) (call : Call) : Builder :=
  (b.apply {} call).1

def made (path plugin : String) (calls : List Call) : Builder :=
  calls.foldl next (start path plugin)

structure Held (path plugin : String) (calls : List Call) (b : Builder) : Prop where
  path : b.path = Path.normalize path
  plugin : b.plugin = plugin
  headers : b.headers = headersOf calls
  imports : b.imports = importsOf calls
  raw : b.raw = if mode calls = some .text then some (String.join (textsOf calls)) else none
  fragments : b.fragments = if mode calls = some .text then [] else fragmentsOf calls
  emitted : b.emitted = true ↔ Emitted calls

section Next

variable (b : Builder)

/- A refused call leaves the builder as it is, and so does a call that fails for what it finds in the
workspace, except that the builder then counts as emitted. -/
theorem applyNext (space : Workspace) (call : Call) : (b.apply space call).1 = b.next call := by
  cases call with
  | emit append =>
    simp only [next, apply, emit]
    split
    · rfl
    · split
      · rfl
      · split <;> split <;> rfl
  | fragments part =>
    simp only [next, apply]
    cases b.addFragments part <;> rfl
  | text content =>
    simp only [next, apply]
    cases b.addText content <;> rfl
  | _ => rfl

theorem nextFragments (part : Contribution) : b.next (.fragments part) =
    if b.raw.isSome then b
    else { b with fragments := b.fragments ++ part.fragments, exports := b.exports ++ part.exports } := by
  simp only [next, apply, addFragments]
  split <;> rfl

theorem nextText (content : String) : b.next (.text content) =
    if b.fragments = [] then { b with raw := some (b.raw.getD "" ++ content) } else b := by
  simp only [next, apply, addText, List.isEmpty_iff]
  split <;> rfl

theorem nextEmit (append : Bool) : b.next (.emit append) =
    if b.raw.isSome ∧ ¬b.imports.isEmpty then b else { b with emitted := true } := by
  simp only [next, apply, emit]
  split
  · rename_i emitted
    split
    · rfl
    · rw [← emitted]
  · split
    · rfl
    · split <;> rfl

end Next

section Step

variable {path plugin : String} {calls : List Call} {b : Builder} (held : Held path plugin calls b)

include held

theorem heldBarred : Barred calls ↔ b.raw.isSome ∧ ¬b.imports.isEmpty := by
  rw [Barred, held.raw, held.imports, List.isEmpty_iff]
  by_cases text : mode calls = some .text <;> simp [text]

theorem heldEmpty : b.fragments = [] ↔ mode calls ≠ some .fragments := by
  rw [held.fragments]
  cases known : mode calls with
  | none => simp [(modeNone.mp known).2]
  | some settled =>
    cases settled with
    | text => simp
    | fragments =>
      obtain ⟨before, part, after, rfl, given, _⟩ := fragmentsSettled known
      simp [fragmentsOf, Call.given, given]

theorem heldText : b.raw.isSome ↔ mode calls = some .text := by
  rw [held.raw]
  split <;> simp_all

theorem heldPlain (call : Call) (silent : call.mode? = none) (text : call.text? = none)
    (fragments : call.given = []) : b.raw = (if mode (calls ++ [call]) = some .text then
      some (String.join (textsOf (calls ++ [call]))) else none) ∧
    b.fragments = if mode (calls ++ [call]) = some .text then [] else fragmentsOf (calls ++ [call]) := by
  rw [modeSilent silent, textsSnoc, fragmentsSnoc, text, fragments, Option.toList_none, List.append_nil,
    List.append_nil]
  exact ⟨held.raw, held.fragments⟩

theorem heldHeader (line : String) : Held path plugin (calls ++ [.header line]) (b.header line) := by
  obtain ⟨raw, fragments⟩ := heldPlain held (.header line) rfl rfl rfl
  refine ⟨held.path, held.plugin, ?_, ?_, raw, fragments, ?_⟩
  · rw [headersSnoc, ← held.headers]
    rfl
  · rw [importsSnoc, ← held.imports]
    exact (List.append_nil _).symm
  · rw [emittedSnoc, ← held.emitted]
    exact (or_iff_left fun emits => nomatch emits.2).symm

theorem heldImport (ref : ImportRef) :
    Held path plugin (calls ++ [.addImport ref]) (b.addImport ref) := by
  obtain ⟨raw, fragments⟩ := heldPlain held (.addImport ref) rfl rfl rfl
  refine ⟨held.path, held.plugin, ?_, ?_, raw, fragments, ?_⟩
  · rw [headersSnoc, ← held.headers]
    exact (List.append_nil _).symm
  · rw [importsSnoc, ← held.imports]
    rfl
  · rw [emittedSnoc, ← held.emitted]
    exact (or_iff_left fun emits => nomatch emits.2).symm

theorem heldApart (call : Call) (header : call.header? = none) (ref : call.import? = none)
    (silent : ∀ append, call ≠ .emit append) : b.headers = headersOf (calls ++ [call]) ∧
      b.imports = importsOf (calls ++ [call]) ∧ (b.emitted = true ↔ Emitted (calls ++ [call])) := by
  rw [headersSnoc, importsSnoc, emittedSnoc, header, ref, Option.toList_none, Option.toList_none,
    List.append_nil, List.append_nil, held.emitted]
  refine ⟨held.headers, held.imports, (or_iff_left fun emits => ?_).symm⟩
  obtain ⟨append, same⟩ := emits.2
  exact silent append same

theorem heldFragments (part : Contribution) :
    Held path plugin (calls ++ [.fragments part]) (b.next (.fragments part)) := by
  obtain ⟨headers, imports, emitted⟩ := heldApart held (.fragments part) rfl rfl nofun
  have mode : mode (calls ++ [.fragments part]) = some .text ↔ mode calls = some .text := by
    simp [modeTextSnoc, Call.text?]
  have texts : textsOf (calls ++ [.fragments part]) = textsOf calls := by
    simp [textsSnoc, Call.text?]
  rw [nextFragments]
  by_cases text : b.raw.isSome
  · have settled := (heldText held).mp text
    rw [if_pos text]
    refine ⟨held.path, held.plugin, headers, imports, ?_, ?_, emitted⟩
    · simp only [mode, texts, held.raw]
    · simp only [mode, held.fragments, settled, if_true]
  · have unsettled := (heldText held).not.mp text
    rw [if_neg text]
    refine ⟨held.path, held.plugin, headers, imports, ?_, ?_, emitted⟩
    · simp only [mode, texts, held.raw]
    · simp only [mode, held.fragments, unsettled, if_false, fragmentsSnoc, Call.given]

theorem heldContent (content : String) :
    Held path plugin (calls ++ [.text content]) (b.next (.text content)) := by
  obtain ⟨headers, imports, emitted⟩ := heldApart held (.text content) rfl rfl nofun
  have texts : textsOf (calls ++ [.text content]) = textsOf calls ++ [content] := by
    simp [textsSnoc, Call.text?]
  have fragments : fragmentsOf (calls ++ [.text content]) = fragmentsOf calls := by
    simp [fragmentsSnoc, Call.given]
  rw [nextText]
  cases known : mode calls with
  | none =>
    have settled : mode (calls ++ [.text content]) = some .text := by simp [modeSnoc, known, Call.mode?]
    have empty := (heldEmpty held).mpr (by simp [known])
    rw [if_pos empty]
    refine ⟨held.path, held.plugin, headers, imports, ?_, ?_, emitted⟩
    · simp [settled, texts, held.raw, known, (modeNone.mp known).1]
    · rw [if_pos settled]
      exact empty
  | some settled =>
    have still : mode (calls ++ [.text content]) = some settled := settledEarly known
    cases settled with
    | text =>
      have empty := (heldEmpty held).mpr (by simp [known])
      rw [if_pos empty]
      refine ⟨held.path, held.plugin, headers, imports, ?_, ?_, emitted⟩
      · simp [still, texts, held.raw, known]
      · rw [if_pos still]
        exact empty
    | fragments =>
      have given : b.fragments ≠ [] := fun empty => (heldEmpty held).mp empty known
      rw [if_neg given]
      refine ⟨held.path, held.plugin, headers, imports, ?_, ?_, emitted⟩
      · simp [still, held.raw, known]
      · simp [still, held.fragments, known, fragments]

theorem heldEmit (append : Bool) :
    Held path plugin (calls ++ [.emit append]) (b.next (.emit append)) := by
  obtain ⟨raw, fragments⟩ := heldPlain held (.emit append) rfl rfl rfl
  have headers : b.headers = headersOf (calls ++ [.emit append]) := by
    simp [headersSnoc, Call.header?, held.headers]
  have imports : b.imports = importsOf (calls ++ [.emit append]) := by
    simp [importsSnoc, Call.import?, held.imports]
  have emitted : Emitted (calls ++ [.emit append]) ↔ Emitted calls ∨ ¬Barred calls := by
    simp [emittedSnoc]
  rw [nextEmit]
  by_cases barred : Barred calls
  · rw [if_pos ((heldBarred held).mp barred)]
    refine ⟨held.path, held.plugin, headers, imports, raw, fragments, ?_⟩
    rw [emitted, held.emitted, or_iff_left (not_not.mpr barred)]
  · rw [if_neg ((heldBarred held).not.mp barred)]
    exact ⟨held.path, held.plugin, headers, imports, raw, fragments,
      iff_of_true rfl (emitted.mpr (.inr barred))⟩

theorem heldNext (call : Call) : Held path plugin (calls ++ [call]) (b.next call) := by
  cases call with
  | header line => exact heldHeader held line
  | addImport ref => exact heldImport held ref
  | fragments part => exact heldFragments held part
  | text content => exact heldContent held content
  | emit append => exact heldEmit held append

end Step

theorem heldMade (path plugin : String) (calls : List Call) :
    Held path plugin calls (made path plugin calls) := by
  induction calls using List.reverseRecOn with
  | nil =>
    refine ⟨rfl, rfl, rfl, rfl, rfl, rfl, iff_of_false (by simp [made, start]) fun emitted => ?_⟩
    obtain ⟨before, append, early, _⟩ := emitted
    simpa using early.length_le
  | append_singleton calls call ih =>
    rw [made, List.foldl_append]
    exact heldNext ih call

section Emission

variable {path plugin : String} {calls : List Call} {b : Builder} (held : Held path plugin calls b)

include held

theorem heldTextAnswer (content : String) (space : Workspace) : (b.apply space (.text content)).2 =
    (space, if mode calls = some .fragments
      then .error (.misuse (.textAfterFragments (Path.normalize path))) else .ok ()) := by
  have given := heldEmpty held
  simp only [apply, addText, List.isEmpty_iff, given, held.path]
  by_cases settled : mode calls = some .fragments <;> simp [settled, settle]

theorem heldFragmentsAnswer (part : Contribution) (space : Workspace) :
    (b.apply space (.fragments part)).2 =
      (space, if mode calls = some .text
        then .error (.misuse (.fragmentsAfterText (Path.normalize path))) else .ok ()) := by
  have given := heldText held
  simp only [apply, addFragments, given, held.path]
  by_cases settled : mode calls = some .text <;> simp [settled, settle]

theorem heldWrite (append : Bool) :
    (Delivery.mk b append).write = handed path plugin append calls := by
  have header : b.headerText = headerOf calls := by
    simp only [headerText, headerOf, held.headers, List.isEmpty_iff]
  by_cases text : mode calls = some .text
  · simp [Delivery.write, handed, held.raw, text, header, held.path, held.plugin]
  · simp [Delivery.write, handed, held.raw, text, header, held.path, held.plugin, held.fragments, held.imports]

theorem heldReady (append : Bool) : (Delivery.mk b append).Ready ↔ ¬Emitted calls ∧ ¬Barred calls := by
  rw [heldBarred held, ← held.emitted]
  constructor
  · intro ready
    have fresh : ¬b.emitted = true := Bool.not_eq_true _ ▸ ready.fresh
    exact ⟨fresh, fun barred => barred.2 (List.isEmpty_iff.mpr (ready.plain barred.1))⟩
  · intro free
    refine ⟨by simpa using free.1, fun text => ?_⟩
    by_contra imports
    exact free.2 ⟨text, by simpa using imports⟩

theorem heldPassed {append : Bool} {space after : Workspace} :
    (b.emit append space).2 = (after, .ok ()) ↔ (¬Emitted calls ∧ ¬Barred calls) ∧
      ∃ symbols, registerExports (Path.normalize path) plugin b.exports space.symbols = (symbols, .ok ()) ∧
        after = ⟨symbols, (handed path plugin append calls).apply space.emissions⟩ := by
  have run : (Delivery.mk b append).run space = (after, .ok ()) ↔ _ := Delivery.runOk
  rwa [heldReady held, heldWrite held, held.path, held.plugin] at run

theorem heldTwice (emitted : Emitted calls) (append : Bool) (space : Workspace) :
    b.emit append space = (b, space, .error (.misuse (.emittedTwice (Path.normalize path) plugin))) := by
  rw [emit, if_pos (held.emitted.mpr emitted), held.path, held.plugin]

theorem heldImports (fresh : ¬Emitted calls) (barred : Barred calls) (append : Bool) (space : Workspace) :
    b.emit append space = (b, space, .error (.misuse (.importsOfText (Path.normalize path)))) := by
  rw [emit, if_neg (held.emitted.not.mpr fresh), if_pos ((heldBarred held).mp barred), held.path]

theorem heldMisused {append : Bool} {space after : Workspace} {cause : Error}
    (failed : (b.emit append space).2 = (after, .error cause)) :
    (∃ m, cause = .misuse m) ↔ Emitted calls ∨ Barred calls := by
  constructor
  · intro misused
    obtain ⟨m, rfl⟩ := misused
    by_contra free
    obtain ⟨fresh, plain⟩ := not_or.mp free
    simp only [emit, if_neg (held.emitted.not.mpr fresh), if_neg ((heldBarred held).not.mp plain)] at failed
    split at failed
    · rename_i symbols cause registered
      obtain ⟨_, _, _, _, _, clash⟩ := exportsRefused registered
      obtain ⟨_, _, _, conflict⟩ := SymbolRegistry.registerRefused clash
      rw [conflict] at failed
      cases failed
    · cases failed
  · intro either
    by_cases emitted : Emitted calls
    · rw [heldTwice held emitted] at failed
      cases failed
      exact ⟨_, rfl⟩
    · rw [heldImports held emitted (either.resolve_left emitted)] at failed
      cases failed
      exact ⟨_, rfl⟩

end Emission

structure Answered (path plugin : String) (calls : List Call) : Prop where
  next : ∀ call space, ((made path plugin calls).apply space call).1 = made path plugin (calls ++ [call])
  text : mode calls = some .text ↔ ∃ before content after,
    calls = before ++ .text content :: after ∧ fragmentsOf before = []
  fragments : mode calls = some .fragments ↔ ∃ before part after,
    calls = before ++ .fragments part :: after ∧ part.fragments ≠ [] ∧ textsOf before = []
  accepted : mode calls = some .text ↔ ∃ before content after,
    calls = before ++ .text content :: after ∧ mode before ≠ some .fragments
  header : ∀ line space, ((made path plugin calls).apply space (.header line)).2 = (space, .ok ())
  addImport : ∀ ref space, ((made path plugin calls).apply space (.addImport ref)).2 = (space, .ok ())
  addText : ∀ content space, ((made path plugin calls).apply space (.text content)).2 =
    (space, if mode calls = some .fragments
      then .error (.misuse (.textAfterFragments (Path.normalize path))) else .ok ())
  addFragments : ∀ part space, ((made path plugin calls).apply space (.fragments part)).2 =
    (space, if mode calls = some .text
      then .error (.misuse (.fragmentsAfterText (Path.normalize path))) else .ok ())
  twice : Emitted calls → ∀ append space, ((made path plugin calls).apply space (.emit append)).2 =
    (space, .error (.misuse (.emittedTwice (Path.normalize path) plugin)))
  imports : ¬Emitted calls → Barred calls → ∀ append space,
    ((made path plugin calls).apply space (.emit append)).2 =
      (space, .error (.misuse (.importsOfText (Path.normalize path))))
  failed : ∀ append space after cause,
    ((made path plugin calls).apply space (.emit append)).2 = (after, .error cause) →
      after.emissions = space.emissions ∧ ((∃ m, cause = .misuse m) ↔ Emitted calls ∨ Barred calls)
  returned : ∀ append space after,
    ((made path plugin calls).apply space (.emit append)).2 = (after, .ok ()) ↔
      (¬Emitted calls ∧ ¬Barred calls) ∧ ∃ symbols,
        registerExports (Path.normalize path) plugin (made path plugin calls).exports space.symbols =
            (symbols, .ok ()) ∧
          after = ⟨symbols, (handed path plugin append calls).apply space.emissions⟩
  once : ¬Barred calls → ∀ append more later space,
    ((made path plugin (calls ++ .emit append :: more)).apply space (.emit later)).2 =
      (space, .error (.misuse (.emittedTwice (Path.normalize path) plugin)))

theorem callsAnswered (path plugin : String) (calls : List Call) : Answered path plugin calls where
  next call space := by
    rw [applyNext, made, made, List.foldl_append]
    rfl
  text := modeText
  fragments := modeFragments
  accepted := modeTaken
  header _ _ := rfl
  addImport _ _ := rfl
  addText := heldTextAnswer (heldMade path plugin calls)
  addFragments := heldFragmentsAnswer (heldMade path plugin calls)
  twice emitted append space :=
    congrArg Prod.snd (heldTwice (heldMade path plugin calls) emitted append space)
  imports fresh barred append space :=
    congrArg Prod.snd (heldImports (heldMade path plugin calls) fresh barred append space)
  failed append space after cause failed :=
    ⟨(emissionRefused (Prod.ext rfl failed)).buffer, heldMisused (heldMade path plugin calls) failed⟩
  returned append space after := heldPassed (heldMade path plugin calls)
  once free append more later space := by
    have emitted : Emitted (calls ++ .emit append :: more) := ⟨calls, append, by simp, free⟩
    exact congrArg Prod.snd (heldTwice (heldMade path plugin _) emitted later space)

/- An empty list of fragments does not keep a text out, but an empty text keeps fragments out. -/
namespace Sample

theorem emptyMixed :
    ((made "a.py" "p" [.fragments { fragments := [] }]).apply {} (.text "x")).2.2 = .ok () ∧
      ((made "a.py" "p" [.text ""]).apply {} (.fragments { fragments := [] })).2.2 =
        .error (.misuse (.fragmentsAfterText "a.py")) :=
  ⟨rfl, rfl⟩

end Sample
end Codegen.Builder
