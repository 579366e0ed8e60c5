import Codegen.Path
import Mathlib.Data.List.Basic

/-! Normalized path texts: they hold no backslash and do not begin with a single dot and a slash, so
that normalizing them again changes nothing. -/
namespace Codegen.Path

theorem slashedTwice (c : Char) : slashed (slashed c) = slashed c := by
  unfold slashed
  split
  · rfl
  · rfl

theorem dropDotsKept {cs : List Char} (other : ∀ rest, cs = '.' :: '/' :: rest → False) :
    dropDots cs = cs := by
  rw [dropDots]
  exact other

theorem dropDotsSuffix (cs : List Char) : dropDots cs <:+ cs := by
  induction cs using dropDots.induct with
  | case1 rest ih =>
    rw [dropDots]
    exact ih.trans ((List.suffix_cons _ _).trans (List.suffix_cons _ _))
  | case2 cs other =>
    exact (dropDotsKept other).symm ▸ List.suffix_refl cs

theorem dropDotsTwice (cs : List Char) : dropDots (dropDots cs) = dropDots cs := by
  induction cs using dropDots.induct with
  | case1 rest ih =>
    rw [dropDots]
    exact ih
  | case2 cs other =>
    have kept := dropDotsKept other
    rw [kept, kept]

theorem normalizeTwice (s : String) : normalize (normalize s) = normalize s := by
  have kept : (dropDots (s.toList.map slashed)).map slashed = dropDots (s.toList.map slashed) := by
    refine (List.map_congr_left fun c member => ?_).trans (List.map_id _)
    obtain ⟨original, _, same⟩ := List.mem_map.mp ((dropDotsSuffix _).subset member)
    rw [← same, slashedTwice, id]
  simp only [normalize, String.toList_ofList, kept, dropDotsTwice]

theorem moduleFromDot (file target : String) : (moduleFrom file target).toList.head? = some '.' := by
  simp [moduleFrom, List.replicate_succ]

end Codegen.Path
