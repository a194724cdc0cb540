import Mathlib.Data.List.Basic

/-!
# Labelled trees

A tree has values at its leaves and a label at each inner node, whose children stand in
order. A function of the leaves changes a tree leaf by leaf and leaves everything else.
-/

namespace HederaSdk.Library

universe u v w x

inductive Rose (α : Type u) (β : Type v) where
  | leaf (a : α)
  | node (label : β) (children : List (Rose α β))

namespace Rose

variable {α : Type u} {β : Type v} {γ : Type w} {δ : Type x}

/-- Induction with a hypothesis for every child. -/
@[elab_as_elim]
theorem induct {motive : Rose α β → Prop} (leaf : ∀ a, motive (.leaf a))
    (node : ∀ label children, (∀ child ∈ children, motive child) → motive (.node label children))
    (tree : Rose α β) : motive tree := by
  apply @Rose.rec α β motive (fun children => ∀ child ∈ children, motive child)
  case leaf => exact leaf
  case node => exact node
  case nil =>
    intro child member
    cases member
  case cons =>
    intro first rest ofFirst ofRest child member
    rcases List.mem_cons.mp member with rfl | later
    · exact ofFirst
    · exact ofRest child later

mutual
def map (f : α → γ) : Rose α β → Rose γ β
  | .leaf a => .leaf (f a)
  | .node label children => .node label (mapAll f children)

def mapAll (f : α → γ) : List (Rose α β) → List (Rose γ β)
  | [] => []
  | child :: rest => map f child :: mapAll f rest
end

mutual
/-- The leaves in order. -/
def leaves : Rose α β → List α
  | .leaf a => [a]
  | .node _ children => leavesAll children

def leavesAll : List (Rose α β) → List α
  | [] => []
  | child :: rest => leaves child ++ leavesAll rest
end

theorem mapAll_eq (f : α → γ) (children : List (Rose α β)) : mapAll f children = children.map (map f) := by
  induction children with
  | nil => rfl
  | cons child rest inductionHypothesis => rw [mapAll, inductionHypothesis, List.map_cons]

theorem leavesAll_eq (children : List (Rose α β)) : leavesAll children = children.flatMap leaves := by
  induction children with
  | nil => rfl
  | cons child rest inductionHypothesis => rw [leavesAll, inductionHypothesis, List.flatMap_cons]

@[simp] theorem map_leaf (f : α → γ) (a : α) : map f (.leaf a : Rose α β) = .leaf (f a) := rfl

@[simp] theorem map_node (f : α → γ) (label : β) (children : List (Rose α β)) :
    map f (.node label children) = .node label (children.map (map f)) := by
  rw [map, mapAll_eq]

@[simp] theorem leaves_leaf (a : α) : (.leaf a : Rose α β).leaves = [a] := rfl

@[simp] theorem leaves_node (label : β) (children : List (Rose α β)) :
    (Rose.node label children).leaves = children.flatMap leaves := by
  rw [leaves, leavesAll_eq]

theorem map_map (g : γ → δ) (f : α → γ) (tree : Rose α β) : map g (map f tree) = map (g ∘ f) tree := by
  induction tree using induct with
  | leaf a => rfl
  | node label children inductionHypothesis =>
      rw [map_node, map_node, map_node, List.map_map]
      exact congrArg (Rose.node label) (List.map_congr_left inductionHypothesis)

/-- Two functions make the same tree when they agree on its leaves. -/
theorem map_congr_iff {f g : α → γ} {tree : Rose α β} :
    map f tree = map g tree ↔ ∀ a ∈ tree.leaves, f a = g a := by
  induction tree using induct with
  | leaf a => simp
  | node label children inductionHypothesis =>
      have each : children.map (map f) = children.map (map g) ↔
          ∀ child ∈ children, map f child = map g child := List.map_inj_left
      simp only [map_node, node.injEq, true_and, each, leaves_node, List.mem_flatMap]
      constructor
      · rintro same a ⟨child, member, inChild⟩
        exact (inductionHypothesis child member).mp (same child member) a inChild
      · intro same child member
        exact (inductionHypothesis child member).mpr fun a inChild => same a ⟨child, member, inChild⟩

theorem map_injective {f : α → γ} (injective : Function.Injective f) :
    Function.Injective (map f : Rose α β → Rose γ β) := by
  intro first
  induction first using induct with
  | leaf a =>
      intro second same
      cases second with
      | leaf b => exact congrArg Rose.leaf (injective (leaf.inj same))
      | node label children => cases same
  | node label children inductionHypothesis =>
      intro second same
      cases second with
      | leaf b => cases same
      | node label' children' =>
          rw [map_node, map_node, node.injEq] at same
          obtain ⟨rfl, images⟩ := same
          congr 1
          clear label
          induction children generalizing children' with
          | nil =>
              cases children' with
              | nil => rfl
              | cons child rest => cases images
          | cons child rest listHypothesis =>
              cases children' with
              | nil => cases images
              | cons child' rest' =>
                  rw [List.map_cons, List.map_cons, List.cons.injEq] at images
                  have heads := inductionHypothesis child List.mem_cons_self images.1
                  have tails := listHypothesis
                    (fun child member => inductionHypothesis child (List.mem_cons_of_mem _ member))
                    rest' images.2
                  rw [heads, tails]

end Rose

end HederaSdk.Library
