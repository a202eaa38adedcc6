/-
Trees whose recomputed directories are all up to date.

Totals that are up to date are determined from the deepest directories
upwards.  So whatever order the recomputations came in, if in the end every
recomputed directory is up to date, the totals are the same but for the times.
-/

import Rollup.Proofs.Recomputation

namespace Rollup
namespace Directories

/-- Proves a property of a directory from that of its children in the tree. -/
theorem bottomUp (directories : Directories) {motive : Path → Prop}
    (step : ∀ path, (∀ child ∈ directories, child.parent = .ok path → motive child) →
      motive path) (path : Path) : motive path := by
  induction path using Path.belowInduction directories.keys with
  | step path inductionHypothesis =>
      refine step path fun child member childParent => ?_
      exact inductionHypothesis child (OrderedMap.mem_keys_iff.mpr member)
        (Path.IsAncestorOf.of_parent childParent)

/-- After some directories were recomputed, these are up to date and nothing
else has changed. -/
structure Settled (before : Directories) (recomputed : Path → Prop) (after : Directories) :
    Prop where
  contents : before.AgreeOn Directory.contents after
  untouched : ∀ path, ¬recomputed path → after.get? path = before.get? path
  upToDate : ∀ path, recomputed path → after.UpToDate path

namespace Settled

variable {before left right after : Directories} {recomputed other : Path → Prop}

theorem congr (settled : Settled before recomputed after)
    (same : ∀ path, recomputed path ↔ other path) : Settled before other after where
  contents := settled.contents
  untouched := fun path notOther => settled.untouched path (mt (same path).mp notOther)
  upToDate := fun path isOther => settled.upToDate path ((same path).mpr isOther)

/-- A settled tree is settled once more after itself. -/
theorem again (settled : Settled before recomputed after) : Settled after recomputed after where
  contents := AgreeOn.refl after
  untouched := fun _ _ => rfl
  upToDate := settled.upToDate

/-- Up-to-date totals of equal contents differ in their times only. -/
private theorem untimed_eq {leftNode rightNode : Directory} {path : Path}
    (contents : leftNode.contents = rightNode.contents)
    (leftFound : left.get? path = some leftNode) (rightFound : right.get? path = some rightNode)
    (leftUpToDate : left.UpToDate path) (rightUpToDate : right.UpToDate path)
    (below : ∀ child, child.parent = .ok path →
      (left.get? child).map Directory.untimed = (right.get? child).map Directory.untimed) :
    leftNode.untimed = rightNode.untimed := by
  obtain ⟨leftTime, leftTotals⟩ := leftUpToDate leftNode leftFound
  obtain ⟨rightTime, rightTotals⟩ := rightUpToDate rightNode rightFound
  have files : leftNode.files = rightNode.files := congrArg Prod.fst contents
  have subdirs : leftNode.subdirs = rightNode.subdirs := congrArg Prod.snd contents
  refine Directory.untimed_eq_of_contents contents ?_
  rw [leftTotals, rightTotals, Totals.untimed_compute, Totals.untimed_compute, files]
  congr 1
  refine listedTotals_congr subdirs fun child childParent => ?_
  have same := congrArg (Option.map Directory.totals) (below child childParent)
  rw [Option.map_map, Option.map_map] at same
  exact same

/-- What was recomputed determines the outcome but for the times. -/
theorem unique (leftSettled : Settled before recomputed left)
    (rightSettled : Settled before recomputed right) :
    left.AgreeOn Directory.untimed right := by
  intro path
  induction path using before.bottomUp with
  | step path inductionHypothesis =>
      by_cases isRecomputed : recomputed path
      · have agree := leftSettled.contents.symm.trans rightSettled.contents
        cases leftFound : left.get? path with
        | none =>
            have absent := mt (agree.mem_iff path).mpr (OrderedMap.not_mem_iff_get?.mpr leftFound)
            rw [OrderedMap.not_mem_iff_get?.mp absent]
        | some leftNode =>
            obtain ⟨rightNode, rightFound, contents⟩ := agree.exists_get? leftFound
            rw [rightFound]
            refine congrArg some (untimed_eq contents.symm leftFound rightFound
              (leftSettled.upToDate path isRecomputed)
              (rightSettled.upToDate path isRecomputed) ?_)
            intro child childParent
            by_cases present : child ∈ before
            · exact inductionHypothesis child present childParent
            · have absentLeft := mt (leftSettled.contents.mem_iff child).mpr present
              have absentRight := mt (rightSettled.contents.mem_iff child).mpr present
              rw [OrderedMap.not_mem_iff_get?.mp absentLeft,
                OrderedMap.not_mem_iff_get?.mp absentRight]
      · rw [leftSettled.untouched path isRecomputed, rightSettled.untouched path isRecomputed]

end Settled

end Directories

/-- A single recomputation settles the directory. -/
theorem Tree.Recomputed.settled {now : UInt64} {tree updated : Tree} {path : Path}
    (recomputed : Tree.Recomputed now tree path updated) :
    tree.directories.Settled (fun other => other = path) updated.directories where
  contents := recomputed.contents
  untouched := recomputed.others
  upToDate := by
    intro other same
    rw [same]
    exact recomputed.upToDate

end Rollup
