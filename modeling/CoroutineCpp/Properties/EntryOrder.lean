import CoroutineCpp.Framework.PairOrder
import CoroutineCpp.Model.Sched
import Mathlib.Data.Int.Order.Basic

/-!
# Recovery entries as keys

`operator<` asks for a smaller task pointer *and* a smaller id.  `entry_order_iff` says for which
sets of entries this is a strict weak ordering whose incomparable elements are those that
`operator==` identifies: those on which the two components are always ordered the same way.
-/

namespace CoroutineCpp

open Framework TransitionSystem

namespace Sched

variable {s : Sched} {one oth : RecoveryEntry}

lemma entryLt_iff :
    s.entryLt one oth = true ↔
      BothLt (fun entry : RecoveryEntry => s.lock entry.tk) RecoveryEntry.id one oth := by
  simp [entryLt, BothLt]

lemma entryLt_eq_false_iff :
    s.entryLt one oth = false ↔
      ¬ BothLt (fun entry : RecoveryEntry => s.lock entry.tk) RecoveryEntry.id one oth := by
  rw [← entryLt_iff, Bool.not_eq_true]

lemma entryEq_iff : s.entryEq one oth = true ↔ s.lock one.tk = s.lock oth.tk ∧ one.id = oth.id := by
  simp [entryEq]

/-- **When entries can be keys.**  `operator<` is irreflexive and transitive.  On a set of entries
it is a strict weak ordering in which exactly the entries that `operator==` identifies are
incomparable, if and only if of any two entries the one with the smaller task pointer is the one
with the smaller id. -/
theorem entry_order_iff (s : Sched) (S : Set RecoveryEntry) :
    (∀ one, s.entryLt one one = false) ∧
    (∀ one oth third, s.entryLt one oth = true → s.entryLt oth third = true →
      s.entryLt one third = true) ∧
    (IsStrictWeakOrder S (fun one oth => s.entryLt one oth = true) ∧
        (∀ one ∈ S, ∀ oth ∈ S,
          s.entryLt one oth = false ∧ s.entryLt oth one = false ↔ s.entryEq one oth = true) ↔
      ∀ one ∈ S, ∀ oth ∈ S, s.lock one.tk < s.lock oth.tk ↔ one.id < oth.id) := by
  refine ⟨fun one => ?_, fun one oth third h h' => ?_, ?_⟩
  · rw [entryLt_eq_false_iff]
    exact irrefl _
  · rw [entryLt_iff] at h h' ⊢
    exact ⟨h.1.trans h'.1, h.2.trans h'.2⟩
  · simp only [entryLt_iff, entryLt_eq_false_iff, entryEq_iff]
    exact bothLt_weak_iff

/-- Three live tasks.  The first and the second entry are incomparable, and so are the second and
the third, but the first is below the third; and no two of them are equal. -/
theorem entry_order_incomparable :
    ∃ s, schedSystem.Reachable s ∧
      let a : RecoveryEntry := { tk := 1, id := 1 }
      let b : RecoveryEntry := { tk := 3, id := 0 }
      let c : RecoveryEntry := { tk := 2, id := 2 }
      (s.entryLt a b = false ∧ s.entryLt b a = false) ∧
      (s.entryLt b c = false ∧ s.entryLt c b = false) ∧ s.entryLt a c = true ∧
      s.entryEq a b = false ∧
      ¬ IsStrictWeakOrder RecoveryEntry (fun one oth => s.entryLt one oth = true) := by
  obtain ⟨s, hs, hp⟩ := exists_reachable_of_runUnder (G := fun _ _ => True) (M := schedSystem)
    [.addTasks 0 [1, 2, 3]] (fun s => s.alive 1 && s.alive 2 && s.alive 3)
    ⟨1, fun e => e, rfl⟩ (by decide)
  simp only [Bool.and_eq_true] at hp
  obtain ⟨⟨h₁, h₂⟩, h₃⟩ := hp
  refine ⟨s, hs, ?_⟩
  simp only [entryLt, entryEq, lock, h₁, h₂, h₃, if_true]
  refine ⟨by decide, by decide, by decide, by decide, fun h => ?_⟩
  have hincomp := h.incomp_trans { tk := 1, id := 1 } { tk := 3, id := 0 } { tk := 2, id := 2 }
  simp [h₁, h₂, h₃] at hincomp

end Sched

end CoroutineCpp
