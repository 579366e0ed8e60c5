import Codegen.FileTree
import Codegen.Proofs.Outcome
import Codegen.Proofs.Table
import Mathlib.Logic.Function.Basic

/-! What changes to a file tree leave alone. Directories stay, so that a path that leads to a place leads
there ever after, and texts change only at the places that are written. -/
namespace Codegen.FileTree

def text? (tree : FileTree) (place : List String) : Option String :=
  match tree.entryAt place with
  | some (.file content) => some content
  | _ => none

structure Grown (tree after : FileTree) : Prop where
  workingDir : after.workingDir = tree.workingDir
  directories : ∀ place, tree.entryAt place = some .directory → after.entryAt place = some .directory

structure Enlarged (tree after : FileTree) : Prop where
  grown : Grown tree after
  texts : after.text? = tree.text?

structure Written (tree after : FileTree) (path : Path) (content : String) (place : List String) : Prop where
  grown : Grown tree after
  located : after.locate path = .ok (.named place)
  texts : after.text? = Function.update tree.text? place (some content)

variable {tree between after : FileTree} {place other : List String} {path : Path} {content : String}

theorem grownSame (tree : FileTree) : Grown tree tree :=
  ⟨rfl, fun _ => id⟩

theorem grownTrans (first : Grown tree between) (second : Grown between after) : Grown tree after :=
  ⟨second.workingDir.trans first.workingDir,
    fun place held => second.directories place (first.directories place held)⟩

theorem enlargedSame (tree : FileTree) : Enlarged tree tree :=
  ⟨grownSame tree, rfl⟩

theorem enlargedTrans (first : Enlarged tree between) (second : Enlarged between after) :
    Enlarged tree after :=
  ⟨grownTrans first.grown second.grown, second.texts.trans first.texts⟩

section Located

theorem followGrown (grown : Grown tree after) {start names : List String}
    (ok : tree.follow start names = .ok place) : after.follow start names = .ok place := by
  induction names generalizing start with
  | nil => exact ok
  | cons name rest ih =>
    rw [follow] at ok ⊢
    split at ok
    · rename_i up
      rw [if_pos up]
      exact ih ok
    · rename_i down
      rw [if_neg down]
      split at ok
      · rename_i held
        rw [grown.directories _ held]
        exact ih ok
      · cases ok
      · cases ok

theorem locateGrown (grown : Grown tree after) {end' : Place} (ok : tree.locate path = .ok end') :
    after.locate path = .ok end' := by
  have start : after.start path = tree.start path := by rw [FileTree.start, FileTree.start, grown.workingDir]
  unfold locate at ok ⊢
  cases last : path.names.getLast? with
  | none =>
    rw [last, ← start] at ok
    exact ok
  | some name =>
    rw [last] at ok
    obtain ⟨above, followed, ends⟩ := Outcome.bindOk.mp ok
    refine Outcome.bindOk.mpr ⟨above, ?_, ends⟩
    rw [start]
    exact followGrown grown followed

theorem followAppend (start names more : List String) :
    tree.follow start (names ++ more) = tree.follow start names >>= (tree.follow · more) := by
  induction names generalizing start with
  | nil => rfl
  | cons name rest ih =>
    rw [List.cons_append, follow, follow]
    split
    · exact ih _
    · split
      · exact ih _
      · rfl
      · rfl

theorem followPlain {start names : List String} (plain : ".." ∉ names)
    (ok : tree.follow start names = .ok place) : place = start ++ names := by
  induction names generalizing start with
  | nil =>
    cases ok
    rw [List.append_nil]
  | cons name rest ih =>
    obtain ⟨down, plain⟩ := not_or.mp (List.mem_cons.not.mp plain)
    rw [follow, if_neg (Ne.symm down)] at ok
    split at ok
    · rw [ih plain ok, List.append_assoc]
      rfl
    · cases ok
    · cases ok

theorem namedEnd (located : tree.locate path = .ok (.named place)) :
    ∃ init last above, path.names = init ++ [last] ∧ last ≠ ".." ∧
      tree.follow (tree.start path) init = .ok above ∧ place = above ++ [last] := by
  unfold locate at located
  split at located
  · cases located
  · rename_i last ends
    obtain ⟨init, whole⟩ := List.getLast?_eq_some_iff.mp ends
    obtain ⟨above, followed, named⟩ := Outcome.bindOk.mp located
    split at named
    · cases named
    · rename_i down
      cases named
      rw [whole, List.dropLast_concat] at followed
      exact ⟨init, last, above, whole, down, followed, rfl⟩

theorem locatedBelow {dir : Path} {names : List String} (plain : ".." ∉ names)
    (located : tree.locate { dir with names := dir.names ++ names } = .ok (.named place)) :
    (∃ base, tree.follow (tree.start dir) dir.names = .ok base ∧ place = base ++ names) ∨
      names = [] ∧ ∀ base, tree.follow (tree.start dir) dir.names = .ok base → place = base := by
  obtain ⟨init, last, above, whole, down, followed, rfl⟩ := namedEnd located
  change tree.follow (tree.start dir) init = .ok above at followed
  rcases List.eq_nil_or_concat names with rfl | ⟨front, end', rfl⟩
  · -- the path of the directory itself, which may as well be the path of a file
    refine .inr ⟨rfl, fun base itself => ?_⟩
    rw [List.append_nil] at whole
    rw [whole, followAppend, followed] at itself
    exact (followPlain (by simpa using Ne.symm down) itself).symm
  · rw [List.concat_eq_append, ← List.append_assoc] at whole
    obtain ⟨rfl, same⟩ := List.append_inj' whole rfl
    cases same
    rw [followAppend] at followed
    obtain ⟨base, itself, below⟩ := Outcome.bindOk.mp followed
    have fronted : ".." ∉ front := fun member => plain (by simp [member])
    rw [followPlain fronted below]
    exact .inl ⟨base, itself, by simp⟩

theorem placesApart {dir : Path} {names names' : List String} (plain : ".." ∉ names) (plain' : ".." ∉ names')
    (located : tree.locate { dir with names := dir.names ++ names } = .ok (.named place))
    (located' : tree.locate { dir with names := dir.names ++ names' } = .ok (.named place)) :
    names = names' := by
  rcases locatedBelow plain located with ⟨base, followed, rfl⟩ | ⟨rfl, itself⟩
  · rcases locatedBelow plain' located' with ⟨base', followed', same⟩ | ⟨rfl, itself⟩
    · rw [followed] at followed'
      cases followed'
      exact List.append_cancel_left same
    · exact List.append_cancel_left ((itself base followed).trans (List.append_nil base).symm)
  · rcases locatedBelow plain' located' with ⟨base', followed', same⟩ | ⟨rfl, _⟩
    · rw [itself base' followed'] at same
      exact List.append_cancel_left ((List.append_nil base').trans same)
    · rfl

end Located

theorem findText (located : tree.locate path = .ok (.named place)) (held : tree.text? place = some content) :
    tree.find? path = some (.file content) := by
  rw [find?, located]
  unfold text? at held
  split at held
  · rename_i found
    cases held
    exact found
  · cases held

section Changed

theorem entryPut (free : tree.entryAt place ≠ some .directory) (entry : Entry) (other : List String) :
    (tree.put place entry).entryAt other = if other = place then some entry else tree.entryAt other := by
  have inner : ¬(place = [] ∨ place = tree.workingDir) := fun top =>
    free (by rw [entryAt, if_pos top])
  by_cases same : other = place
  · subst same
    simp only [entryAt, put, if_neg inner, Table.findPut, if_true]
  · simp only [entryAt, put, Table.findPut, if_neg same]

theorem textPut (free : tree.entryAt place ≠ some .directory) (content : String) :
    (tree.put place (.file content)).text? = Function.update tree.text? place (some content) := by
  funext other
  rw [Function.update_apply, text?, entryPut free]
  by_cases same : other = place
  · rw [if_pos same, if_pos same]
  · rw [if_neg same, if_neg same, text?]

theorem grownPut (free : tree.entryAt place ≠ some .directory) (entry : Entry) :
    Grown tree (tree.put place entry) := by
  refine ⟨rfl, fun other held => ?_⟩
  rw [entryPut free, if_neg]
  · exact held
  · rintro rfl
    exact free held

theorem enlargedPut (absent : tree.entryAt place = none) : Enlarged tree (tree.put place .directory) := by
  have free : tree.entryAt place ≠ some .directory := by simp [absent]
  refine ⟨grownPut free _, funext fun other => ?_⟩
  rw [text?, text?, entryPut free]
  by_cases same : other = place
  · rw [if_pos same, same, absent]
  · rw [if_neg same]

end Changed

section Directories

theorem madeDirectory (ok : tree.makeDirectory path = .ok after) : Enlarged tree after := by
  obtain ⟨_ | place, _, ok⟩ := Outcome.bindOk.mp ok
  · cases ok
  · simp only at ok
    split at ok
    · cases ok
    · rename_i absent
      cases ok
      exact enlargedPut absent

theorem ensuredDirectory (ok : tree.ensureDirectory path = .ok after) : Enlarged tree after := by
  unfold ensureDirectory at ok
  split at ok
  · rename_i made
    cases ok
    exact madeDirectory made
  · split at ok
    · cases ok
      exact enlargedSame tree
    · cases ok

theorem ensuredAbove {root : String} {names : List String} {outcome : Except FileError Unit}
    (ended : ensureAbove root tree names = (after, outcome)) : Enlarged tree after := by
  induction names generalizing tree after outcome with
  | nil =>
    unfold ensureAbove at ended
    split at ended
    · rename_i made
      cases ended
      exact ensuredDirectory made
    · cases ended
      exact enlargedSame tree
  | cons last above ih =>
    unfold ensureAbove at ended
    simp only at ended
    split at ended
    · rename_i made
      cases ended
      exact madeDirectory made
    · split at ended
      · rename_i stopped
        cases ended
        exact ih stopped
      · rename_i between prepared
        split at ended
        · rename_i made
          cases ended
          exact enlargedTrans (ih prepared) (ensuredDirectory made)
        · cases ended
          exact ih prepared
    · split at ended <;> cases ended <;> exact enlargedSame tree

theorem ensuredDirectories {outcome : Except FileError Unit}
    (ended : tree.ensureDirectories path = (after, outcome)) : Enlarged tree after :=
  ensuredAbove ended

end Directories

section Files

theorem fileWritten (ok : tree.writeFile path content = .ok after) :
    ∃ place, tree.locate path = .ok (.named place) ∧ tree.entryAt place ≠ some .directory ∧
      after = tree.put place (.file content) := by
  obtain ⟨_ | place, located, ok⟩ := Outcome.bindOk.mp ok
  · cases ok
  · simp only at ok
    split at ok
    · cases ok
    · rename_i free
      cases ok
      exact ⟨place, located, free, rfl⟩

theorem writtenFile (ok : tree.writeFile path content = .ok after) :
    ∃ place, Written tree after path content place := by
  obtain ⟨place, located, free, rfl⟩ := fileWritten ok
  exact ⟨place, grownPut free _, locateGrown (grownPut free _) located, textPut free content⟩

theorem temporaryMade {temporary : Path} (ok : tree.makeTemporary path content = .ok (after, temporary)) :
    ∃ place, tree.locate temporary = .ok (.named place) ∧ tree.entryAt place = none ∧
      after = tree.put place (.file content) := by
  simp only [makeTemporary] at ok
  split at ok
  · cases ok
  · rename_i free found
    obtain ⟨made, written, last⟩ := Outcome.bindOk.mp ok
    cases last
    obtain ⟨place, located, _, rfl⟩ := fileWritten written
    have unused := List.find?_some found
    simp only [exists?, find?, located, Bool.not_eq_true', Option.isSome_eq_false_iff,
      Option.isNone_iff_eq_none] at unused
    exact ⟨place, located, unused, rfl⟩

theorem fileRemoved (located : tree.locate path = .ok (.named place))
    (free : tree.entryAt place ≠ some .directory) (other : List String) :
    (tree.removeFile path).entryAt other = if other = place then none else tree.entryAt other := by
  have inner : ¬(place = [] ∨ place = tree.workingDir) := fun top =>
    free (by rw [entryAt, if_pos top])
  simp only [removeFile, located, if_neg free]
  by_cases same : other = place
  · subst same
    simp only [entryAt, if_neg inner, Table.findErase, if_true]
  · simp only [entryAt, Table.findErase, if_neg same]

theorem grownRemoved (located : tree.locate path = .ok (.named place))
    (free : tree.entryAt place ≠ some .directory) : Grown tree (tree.removeFile path) := by
  refine ⟨?_, fun other held => ?_⟩
  · simp only [removeFile, located, if_neg free]
  · rw [fileRemoved located free, if_neg]
    · exact held
    · rintro rfl
      exact free held

structure Temporary (tree between : FileTree) (temporary : Path) (content : String) : Prop where
  found : between.find? temporary = some (.file content)
  grown : Grown tree between
  removed : Grown between (between.removeFile temporary)
  restored : ∀ place, (between.removeFile temporary).entryAt place = tree.entryAt place

theorem temporaryKept {temporary : Path}
    (ok : tree.makeTemporary path content = .ok (between, temporary)) :
    Temporary tree between temporary content := by
  obtain ⟨place, located, absent, rfl⟩ := temporaryMade ok
  have free : tree.entryAt place ≠ some .directory := by simp [absent]
  have grown := grownPut free (.file content)
  have reached := locateGrown grown located
  have held : (tree.put place (.file content)).entryAt place = some (.file content) := by
    rw [entryPut free, if_pos rfl]
  have notDirectory : (tree.put place (.file content)).entryAt place ≠ some .directory := by simp [held]
  refine ⟨by rw [find?, reached]; exact held, grown, grownRemoved reached notDirectory, fun other => ?_⟩
  rw [fileRemoved reached notDirectory, entryPut free]
  by_cases same : other = place
  · rw [if_pos same, same, absent]
  · rw [if_neg same, if_neg same]

theorem enlargedBack {temporary : Path} (kept : Temporary tree between temporary content) :
    Enlarged tree (between.removeFile temporary) := by
  refine ⟨grownTrans kept.grown kept.removed, funext fun place => ?_⟩
  rw [text?, text?, kept.restored]

theorem writtenReplaced {temporary : Path} (kept : Temporary tree between temporary content)
    (ok : between.replaceFile temporary path = .ok after) :
    ∃ place, Written tree after path content place := by
  obtain ⟨_ | place, located, ok⟩ := Outcome.bindOk.mp ok
  · simp only [kept.found] at ok
    cases ok
  · simp only [kept.found] at ok
    split at ok
    · cases ok
    · rename_i free
      cases ok
      -- without the temporary file the place is what it was in the tree that was given
      have free : (between.removeFile temporary).entryAt place ≠ some .directory := fun held =>
        free (kept.grown.directories place (kept.restored place ▸ held))
      have grown := grownPut free (.file content)
      refine ⟨place, grownTrans (enlargedBack kept).grown grown,
        locateGrown (grownTrans kept.removed grown) located, ?_⟩
      rw [textPut free, (enlargedBack kept).texts]

end Files

end Codegen.FileTree
