import FirstFailure.Proofs.Target.HexPath
import FirstFailure.Proofs.Target.Preorder
/-!
# What a look-up of targets promises

The look-ups a program has are the empty one and those of trees made from documents. No target of
such a tree has an empty path, because no text spells one and the root has no path at all.
-/

namespace FirstFailure

namespace TargetTree

variable {document : TargetDocument} {tree : TargetTree}

/-- The path of a target is one that some text of the document spells. -/
theorem path_ne_nil (h : ofDocument document = .ok tree) (handle : Nat) :
    (tree.node? handle).bind (·.physicalPath) ≠ some [] := by
  intro hpath
  obtain ⟨node, hnode, hnil⟩ := Option.bind_eq_some_iff.mp hpath
  have hmem : [] ∈ tree.nodes.filterMap (·.physicalPath) :=
    List.mem_filterMap.mpr ⟨node, List.mem_of_getElem? hnode, hnil⟩
  rw [filterMap_nodes h, TargetSpec.decodedPaths, List.mem_filterMap] at hmem
  obtain ⟨target, -, htarget⟩ := hmem
  obtain ⟨text, -, htext⟩ := Option.bind_eq_some_iff.mp htarget
  exact HexPath.parse_ne_nil (Outcome.toOption_eq_some_iff.mp htext) rfl

end TargetTree

/-- The look-ups that a program has: without a tree, or of a tree made from a document. -/
inductive TargetLookup.Provided : TargetLookup → Prop where
  | none : Provided .none
  | tree {document : TargetDocument} {tree : TargetTree}
      (h : TargetTree.ofDocument document = .ok tree) : Provided tree.toLookup

/-- Nothing is found by an empty path. -/
theorem TargetLookup.Provided.findByPath_nil {lookup : TargetLookup} (h : lookup.Provided)
    (top : Nat) : lookup.findByPath top [] = .none := by
  cases h with
  | none => rfl
  | @tree document tree h =>
    show tree.findByPath top [] = .none
    rw [TargetTree.findByPath, List.find?_eq_none]
    intro handle _
    simpa using TargetTree.path_ne_nil h handle

end FirstFailure
