import FirstFailure.Proofs.Target.Preorder
import Mathlib.Data.List.Lex
/-!
# Positions in a document

A position leads from the top of a document to a target: it lists the number of a child at every
level. The system itself, at the empty position, has the top targets for children. The positions of
a document are those that lead to a target, and in their lexicographic order they are a walk from
the top. Whatever is said in terms of positions therefore does not depend on how a walk is done.
-/

namespace FirstFailure

/-- The numbers of the children on the way to a target, counted from zero. -/
abbrev TargetPosition := List Nat

namespace TargetSpec

/-- The target at a position, seen from a target above it. -/
def at? (target : TargetSpec) : TargetPosition → Option TargetSpec
  | [] => some target
  | number :: rest => target.children[number]?.bind fun child => child.at? rest

mutual

/-- The positions of a target and of those below it, seen from that target. -/
def positions : TargetSpec → List TargetPosition
  | ⟨_, _, _, _, _, children⟩ => [] :: positionsFrom 0 children

/-- The positions of children of a target and of those below them. The first child has the given
number. -/
def positionsFrom (number : Nat) : List TargetSpec → List TargetPosition
  | [] => []
  | child :: rest => child.positions.map (number :: ·) ++ positionsFrom (number + 1) rest

end

@[simp] theorem at?_nil (target : TargetSpec) : target.at? [] = some target := rfl

theorem at?_cons (target : TargetSpec) (number : Nat) (rest : TargetPosition) :
    target.at? (number :: rest)
      = target.children[number]?.bind fun child => child.at? rest := rfl

theorem at?_append (target : TargetSpec) (position rest : TargetPosition) :
    target.at? (position ++ rest) = (target.at? position).bind fun below => below.at? rest := by
  induction position generalizing target with
  | nil => rfl
  | cons number position ih =>
    rw [List.cons_append, at?_cons, at?_cons, Option.bind_assoc]
    simp only [ih]

/-- The name of the target at a position. -/
def name? (target : TargetSpec) (position : TargetPosition) : Option String :=
  (target.at? position).map (·.name)

theorem positions_eq (target : TargetSpec) :
    target.positions = [] :: positionsFrom 0 target.children := by
  cases target
  rw [positions]

theorem positionsFrom_cons (number : Nat) (child : TargetSpec) (rest : List TargetSpec) :
    positionsFrom number (child :: rest)
      = [number] :: ((positionsFrom 0 child.children).map (number :: ·)
        ++ positionsFrom (number + 1) rest) := by
  rw [positionsFrom, positions_eq]
  rfl

theorem length_positionsFrom (number : Nat) (forest : List TargetSpec) :
    (positionsFrom number forest).length = countAll forest := by
  induction forest using forest_induction generalizing number with
  | nil => rfl
  | cons child rest hchildren hrest =>
    rw [positionsFrom_cons, countAll_cons, List.length_cons, List.length_append, List.length_map,
      hchildren, hrest]

theorem length_positions (target : TargetSpec) : target.positions.length = target.count := by
  rw [positions_eq, List.length_cons, length_positionsFrom, count_eq, Nat.add_comm]

/-! ## Positions are those of targets -/

/-- Some of the last children of a target are found from their numbers. -/
theorem children_of_drop {target child : TargetSpec} {rest : List TargetSpec} {number : Nat}
    (h : target.children.drop number = child :: rest) :
    target.children[number]? = some child ∧ target.children.drop (number + 1) = rest := by
  constructor
  · rw [← List.head?_drop, h]
    rfl
  · rw [← List.tail_drop, h]
    rfl

/-- The positions lead to the targets of a walk from the top, one after another. -/
theorem map_at?_positionsFrom {target : TargetSpec} {number : Nat} {forest : List TargetSpec}
    (h : target.children.drop number = forest) :
    (positionsFrom number forest).map target.at? = (preorderAll forest).map some := by
  induction forest using forest_induction generalizing target number with
  | nil => rfl
  | cons child rest hchildren hrest =>
    obtain ⟨hchild, hothers⟩ := children_of_drop h
    have hbelow : ((positionsFrom 0 child.children).map (number :: ·)).map target.at?
        = (preorderAll child.children).map some := by
      rw [List.map_map, ← hchildren List.drop_zero]
      apply List.map_congr_left
      intro below _
      simp [at?_cons, hchild]
    have hfirst : target.at? [number] = some child := by simp [at?_cons, hchild]
    rw [positionsFrom_cons, preorderAll_cons, List.map_cons, List.map_append, hbelow,
      hrest hothers, hfirst, List.map_cons, List.map_append]

/-- The positions from a number on are those that lead to a target and start with that number or a
greater one. -/
theorem mem_positionsFrom {target : TargetSpec} {number : Nat} {forest : List TargetSpec}
    (h : target.children.drop number = forest) {position : TargetPosition} :
    position ∈ positionsFrom number forest ↔
      (∃ first rest, position = first :: rest ∧ number ≤ first) ∧
        (target.at? position).isSome := by
  induction forest using forest_induction generalizing target number position with
  | nil =>
    simp only [positionsFrom, List.not_mem_nil, false_iff, not_and]
    rintro ⟨first, rest, rfl, hfirst⟩
    have hnone : target.children[first]? = none := by
      rw [List.getElem?_eq_none_iff]
      exact Nat.le_trans (List.drop_eq_nil_iff.mp h) hfirst
    simp [at?_cons, hnone]
  | cons child others hchildren hrest =>
    obtain ⟨hchild, hothers⟩ := children_of_drop h
    rw [positionsFrom_cons, List.mem_cons, List.mem_append, List.mem_map, hrest hothers]
    constructor
    · rintro (rfl | ⟨below, hbelow, rfl⟩ | ⟨⟨first, rest, rfl, hfirst⟩, hsome⟩)
      · simp [at?_cons, hchild]
      · refine ⟨⟨number, below, rfl, Nat.le_refl _⟩, ?_⟩
        rw [at?_cons, hchild]
        exact ((hchildren List.drop_zero).mp hbelow).2
      · exact ⟨⟨first, rest, rfl, by omega⟩, hsome⟩
    · rintro ⟨⟨first, rest, rfl, hfirst⟩, hsome⟩
      by_cases heq : first = number
      · -- At the child itself or below it.
        subst heq
        rw [at?_cons, hchild, Option.bind_some] at hsome
        cases rest with
        | nil => exact .inl rfl
        | cons next rest =>
          refine .inr (.inl ⟨_, (hchildren List.drop_zero).mpr ⟨?_, hsome⟩, rfl⟩)
          exact ⟨next, rest, rfl, Nat.zero_le _⟩
      · exact .inr (.inr ⟨⟨first, rest, rfl, by omega⟩, hsome⟩)

theorem mem_positions {target : TargetSpec} {position : TargetPosition} :
    position ∈ target.positions ↔ (target.at? position).isSome := by
  rw [positions_eq, List.mem_cons, mem_positionsFrom List.drop_zero]
  cases position with
  | nil => simp
  | cons number rest => simp

/-! ## Their order -/

theorem exists_first_of_mem {number : Nat} {forest : List TargetSpec}
    {position : TargetPosition} (h : position ∈ positionsFrom number forest) :
    ∃ first rest, position = first :: rest ∧ number ≤ first := by
  induction forest generalizing number with
  | nil => simp [positionsFrom] at h
  | cons child others ih =>
    rw [positionsFrom, List.mem_append, List.mem_map] at h
    rcases h with ⟨below, -, rfl⟩ | h
    · exact ⟨number, below, rfl, Nat.le_refl _⟩
    · obtain ⟨first, rest, rfl, hfirst⟩ := ih h
      exact ⟨first, rest, rfl, by omega⟩

theorem pairwise_positionsFrom (number : Nat) (forest : List TargetSpec) :
    (positionsFrom number forest).Pairwise (· < ·) := by
  induction forest using forest_induction generalizing number with
  | nil => simp [positionsFrom]
  | cons child others hchildren hrest =>
    have hlater : ∀ rest, ∀ later ∈ positionsFrom (number + 1) others, number :: rest < later := by
      intro rest later hlater
      obtain ⟨first, below, rfl, hfirst⟩ := exists_first_of_mem hlater
      exact List.cons_lt_cons_iff.mpr (.inl hfirst)
    rw [positionsFrom_cons, List.pairwise_cons, List.pairwise_append, List.pairwise_map]
    refine ⟨?_, ?_, hrest (number + 1), ?_⟩
    · -- The child stands before those below it and before the later children.
      intro position hposition
      rcases List.mem_append.mp hposition with hposition | hposition
      · obtain ⟨below, hmem, rfl⟩ := List.mem_map.mp hposition
        obtain ⟨first, rest, rfl, -⟩ := exists_first_of_mem hmem
        exact List.cons_lt_cons_iff.mpr (.inr ⟨rfl, List.nil_lt_cons _ _⟩)
      · exact hlater [] position hposition
    · exact (hchildren 0).imp fun hlt => List.cons_lt_cons_iff.mpr (.inr ⟨rfl, hlt⟩)
    · intro position hposition later hmem
      obtain ⟨below, -, rfl⟩ := List.mem_map.mp hposition
      exact hlater below later hmem

/-- Positions stand in lexicographic order. -/
theorem pairwise_positions (target : TargetSpec) : target.positions.Pairwise (· < ·) := by
  rw [positions_eq, List.pairwise_cons]
  constructor
  · intro position hposition
    obtain ⟨first, rest, rfl, -⟩ := exists_first_of_mem hposition
    exact List.nil_lt_cons _ _
  · exact pairwise_positionsFrom 0 target.children

theorem nodup_positions (target : TargetSpec) : target.positions.Nodup := by
  refine (pairwise_positions target).imp ?_
  rintro position later hlt rfl
  exact List.lt_irrefl _ hlt

end TargetSpec

namespace TargetDocument

/-- The system as a target: the document's top targets are its children. -/
def system (document : TargetDocument) : TargetSpec where
  name := "system"
  locationCode := document.locationCode
  children := document.targets

/-- The positions of a document. -/
def positions (document : TargetDocument) : List TargetPosition := document.system.positions

/-- The decoded path of the target at a position, if it has one that can be read. -/
def path? (document : TargetDocument) (position : TargetPosition) : Option Bytes :=
  (document.system.at? position).bind fun target =>
    target.physicalPath.bind fun text => (HexPath.parse text).toOption

theorem positions_eq (document : TargetDocument) :
    document.positions = [] :: TargetSpec.positionsFrom 0 document.targets :=
  TargetSpec.positions_eq _

end TargetDocument

end FirstFailure
