import Mathlib.Logic.Relation

/-! Relations without cycles, and how they grow edge by edge. -/
namespace Cycles
open Relation

variable {α : Type*} {r s : α → α → Prop}

/-- No element leads back to itself. -/
def Acyclic (r : α → α → Prop) : Prop := ∀ a, ¬TransGen r a a

theorem Acyclic.mono (h : Acyclic s) (hSub : ∀ a b, r a b → s a b) : Acyclic r :=
  fun a hCycle => h a (TransGen.mono hSub a a hCycle)

theorem acyclic_of_empty (h : ∀ a b, ¬r a b) : Acyclic r := by
  intro a hCycle
  obtain ⟨b, hStep, -⟩ := TransGen.head'_iff.mp hCycle
  exact h a b hStep

/-- One more edge. -/
def addEdge (r : α → α → Prop) (source dest : α) (a b : α) : Prop := r a b ∨ a = source ∧ b = dest

/-- A path over one more edge is an old path, or goes through the edge. -/
theorem transGen_addEdge {source dest a b : α} (h : TransGen (addEdge r source dest) a b) :
    TransGen r a b ∨ ReflTransGen r a source ∧ ReflTransGen r dest b := by
  induction h with
  | single hStep =>
      rcases hStep with hOld | ⟨rfl, rfl⟩
      · exact .inl (.single hOld)
      · exact .inr ⟨.refl, .refl⟩
  | tail _ hStep ih =>
      rcases hStep with hOld | ⟨rfl, rfl⟩
      · rcases ih with hPath | ⟨hFirst, hSecond⟩
        · exact .inl (hPath.tail hOld)
        · exact .inr ⟨hFirst, hSecond.tail hOld⟩
      · rcases ih with hPath | ⟨hFirst, -⟩
        · exact .inr ⟨hPath.to_reflTransGen, .refl⟩
        · exact .inr ⟨hFirst, .refl⟩

/-- An edge that no path leads back over closes no cycle. -/
theorem Acyclic.addEdge {source dest : α} (h : Acyclic r) (hBack : ¬ReflTransGen r dest source) :
    Acyclic (addEdge r source dest) := by
  intro a hCycle
  rcases transGen_addEdge hCycle with hOld | ⟨hFirst, hSecond⟩
  · exact h a hOld
  · exact hBack (hSecond.trans hFirst)

end Cycles
