import Mathlib.Algebra.Ring.Nat
import SceneMarkup.Proofs.Stylesheet.Remarks

/-!
# Deep lines, reported and remarked on

The lint and the rule look at the same lines.  What they look at is said here without a running
counter: the depth of a line is the number of braces opened less the number closed in the text up to
its end.

## Main definitions

* `depthThrough` — the depth of a line.
* `IsDeep` — whether a line is over a limit.
* `IsRemarkedOn` — a line with a remark at its end.

## Main results

* `lineDepths_eq_map` — the running counter computes the depths.
* `overLimit_eq` — the report lists the deep lines with their depths, in order.
* `overLimit_markDeep` — remarks do not change the report.
* `remarks_agree_with_report` — **the report and the remarks are about the same lines, and neither
  disturbs the other.**
-/

namespace SceneMarkup
namespace Stylesheet

open Text

/-- The depth of line `i`: the braces opened less the braces closed up to its end. -/
def depthThrough (s : List Char) (i : Nat) : Int :=
  (((lines s).take (i + 1)).flatten.count '{' : Int) - ((lines s).take (i + 1)).flatten.count '}'

/-- Whether line `i` is over a limit.  A limit above `2 ^ 63 - 1` counts as that one. -/
def IsDeep (limit : Nat) (s : List Char) (i : Nat) : Prop :=
  (min limit (2 ^ 63 - 1) : Nat) < depthThrough s i

instance (limit : Nat) (s : List Char) (i : Nat) : Decidable (IsDeep limit s i) :=
  inferInstanceAs (Decidable ((min limit (2 ^ 63 - 1) : Nat) < depthThrough s i))

/-- The line `line'` is the line `line` with one remark at its end, in front of a carriage return if
the line ends with one. -/
def IsRemarkedOn (limit : Nat) (line line' : List Char) : Prop :=
  ∃ body ending, (ending = ['\r'] ∨ ending = [] ∧ body.getLast? ≠ some '\r') ∧
    line = body ++ ending ∧ line' = body ++ (remark limit ++ ending)

/-! ### Depths -/

theorem netBraces_append (u v : List Char) : netBraces (u ++ v) = netBraces u + netBraces v := by
  rw [netBraces, netBraces, netBraces, List.count_append, List.count_append]
  omega

/-- The running depths are those of the texts up to the lines. -/
theorem depthsFrom_eq_map (depth : Int) (ls : List (List Char)) :
    depthsFrom depth ls =
      (List.range ls.length).map fun i => depth + netBraces (ls.take (i + 1)).flatten := by
  induction ls generalizing depth with
  | nil => rfl
  | cons l ls ih =>
    rw [depthsFrom, ih, List.length_cons, List.range_succ_eq_map, List.map_cons, List.map_map]
    refine congrArg₂ List.cons ?_ (List.map_congr_left fun i _ => ?_)
    · simp
    · simp only [Function.comp, Nat.succ_eq_add_one, List.take_succ_cons, List.flatten_cons,
        netBraces_append]
      omega

/-- The running counter computes the depths of the lines. -/
theorem lineDepths_eq_map (s : List Char) :
    lineDepths s = (List.range (lines s).length).map (depthThrough s) := by
  rw [lineDepths, depthsFrom_eq_map]
  refine List.map_congr_left fun i _ => ?_
  rw [Int.zero_add]
  rfl

theorem isOver_depthThrough (limit : Nat) (s : List Char) (i : Nat) :
    isOver limit (depthThrough s i) = decide (IsDeep limit s i) := by
  have hgreatest : greatestLimit = 2 ^ 63 - 1 := rfl
  rw [isOver, hgreatest]
  rfl

/-! ### The report -/

theorem overLimitFrom_map (limit n k : Nat) (f : Nat → Int) :
    overLimitFrom limit n ((List.range' n k).map f) =
      ((List.range' n k).filter fun i => isOver limit (f i)).map fun i => (i, f i) := by
  induction k generalizing n with
  | zero => rfl
  | succ k ih =>
    rw [List.range'_succ, List.map_cons, overLimitFrom, ih (n + 1)]
    split
    · next h => rw [List.filter_cons_of_pos (by simpa using h), List.map_cons]
    · next h => rw [List.filter_cons_of_neg (by simpa using h)]

/-- The report lists the deep lines with their depths, in order. -/
theorem overLimit_eq (limit : Nat) (s : List Char) :
    overLimit limit s = ((List.range (lines s).length).filter fun i => IsDeep limit s i).map
      fun i => (i, depthThrough s i) := by
  rw [overLimit, lineDepths_eq_map, List.range_eq_range', overLimitFrom_map]
  refine congrArg _ (List.filter_congr fun i _ => ?_)
  rw [isOver_depthThrough]

/-- Remarks do not change the report. -/
theorem overLimit_markDeep (limit other : Nat) (s : List Char) :
    overLimit limit (markDeep other s) = overLimit limit s := by
  rw [overLimit, lineDepths_markDeep, overLimit]

theorem lintNesting_markDeep (limit other : Nat) (s : List Char) :
    lintNesting limit (markDeep other s) = lintNesting limit s := by
  rw [lintNesting, overLimit_markDeep, lintNesting]

/-! ### The remarks -/

theorem isRemarkedOn_remarked (limit : Nat) (line : List Char) :
    IsRemarkedOn limit line (remarked limit line) := by
  rw [remarked]
  split
  · next body hbody =>
    refine ⟨body.reverse, ['\r'], Or.inl rfl, ?_, by simp⟩
    rw [← List.reverse_reverse line, hbody, List.reverse_cons]
  · next hne =>
    refine ⟨line, [], Or.inr ⟨rfl, fun hlast => ?_⟩, by simp, by simp⟩
    obtain ⟨body, rfl⟩ := List.getLast?_eq_some_iff.1 hlast
    exact hne body.reverse (by simp)

/-- A line by its depth is the line, with a remark or without. -/
theorem markLine_cases (limit : Nat) (depth : Int) (line : List Char) :
    markLine limit depth line = line ∨ IsRemarkedOn limit line (markLine limit depth line) := by
  rw [markLine]
  split
  · exact Or.inr (isRemarkedOn_remarked limit line)
  · exact Or.inl rfl

/-- After the rule, the lines with a remark are those that had one and those over the limit. -/
theorem contains_markLine (limit : Nat) (depth : Int) (line : List Char) :
    contains remarkStart (markLine limit depth line) =
      (contains remarkStart line || isOver limit depth) := by
  cases ho : isOver limit depth with
  | false => simp [markLine, ho]
  | true =>
    cases hc : contains remarkStart line with
    | false => simp [markLine, ho, hc, contains_remarked]
    | true => simp [markLine, ho, hc]

/-- Each line is marked by its depth. -/
theorem markLines_map_range' (limit n : Nat) (f : Nat → Int) (ls : List (List Char)) :
    markLines limit ((List.range' n ls.length).map f) ls =
      ls.mapIdx fun i l => markLine limit (f (n + i)) l := by
  induction ls generalizing n with
  | nil => rfl
  | cons l ls ih =>
    rw [List.length_cons, List.range'_succ, List.map_cons, markLines, ih (n + 1), List.mapIdx_cons]
    refine congrArg₂ List.cons rfl ?_
    simp only [Nat.add_comm, Nat.add_left_comm]

/-- The lines of a text with remarks. -/
theorem lines_markDeep_eq_mapIdx (limit : Nat) (s : List Char) :
    lines (markDeep limit s) =
      (lines s).mapIdx fun i l => markLine limit (depthThrough s i) l := by
  rw [lines_markDeep, lineDepths_eq_map, List.range_eq_range', markLines_map_range']
  simp only [Nat.zero_add]

/-- **The report and the remarks are about the same lines, and neither disturbs the other.**  The
report lists the lines over the limit, in order, with their depths; it is the same with the remarks
made; a line has a remark afterwards if it had one or is over the limit; each line is what it was,
with at most one remark at its end; and the remarks are made once. -/
theorem remarks_agree_with_report (limit : Nat) (s : List Char) :
    overLimit limit s = ((List.range (lines s).length).filter fun i => IsDeep limit s i).map
        (fun i => (i, depthThrough s i)) ∧
      lintNesting limit (markDeep limit s) = lintNesting limit s ∧
      (lines (markDeep limit s)).length = (lines s).length ∧
      (∀ i : Fin (lines s).length, ∃ line', (lines (markDeep limit s))[i.val]? = some line' ∧
        (contains remarkStart line' = true ↔
          contains remarkStart (lines s)[i] = true ∨ IsDeep limit s i) ∧
        (line' = (lines s)[i] ∨ IsRemarkedOn limit (lines s)[i] line')) ∧
      markDeep limit (markDeep limit s) = markDeep limit s := by
  refine ⟨overLimit_eq limit s, lintNesting_markDeep limit limit s, ?_, ?_,
    markDeep_markDeep limit s⟩
  · rw [lines_markDeep_eq_mapIdx, List.length_mapIdx]
  · intro i
    refine ⟨markLine limit (depthThrough s i) (lines s)[i], ?_, ?_, markLine_cases _ _ _⟩
    · rw [lines_markDeep_eq_mapIdx, List.getElem?_mapIdx, List.getElem?_eq_getElem i.isLt]
      rfl
    · rw [contains_markLine, isOver_depthThrough, Bool.or_eq_true, decide_eq_true_iff]

end Stylesheet
end SceneMarkup
