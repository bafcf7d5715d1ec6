import Mathlib.Data.Set.CoeSort
import Mathlib.Order.Lattice
import Mathlib.Order.RelClasses

/-!
# Two keys compared at once

The relation `BothLt f g` puts one element below another if both of its keys are smaller.  It is a
strict order, but two elements whose keys are ordered differently are incomparable without being
equal in either key.  `bothLt_weak_iff` says on which sets it is as good as the lexicographic order:
those on which the two keys always agree.
-/

namespace Framework

variable {α β γ : Type*} [LinearOrder β] [LinearOrder γ] {f : α → β} {g : α → γ} {S : Set α}
  {a b : α}

/-- Both keys of `a` are smaller than those of `b`. -/
def BothLt (f : α → β) (g : α → γ) (a b : α) : Prop := f a < f b ∧ g a < g b

instance : IsStrictOrder α (BothLt f g) where
  irrefl _ h := lt_irrefl _ h.1
  trans _ _ _ h h' := ⟨h.1.trans h'.1, h.2.trans h'.2⟩

/-- The two keys order the elements of `S` the same way. -/
def KeysAgree (f : α → β) (g : α → γ) (S : Set α) : Prop :=
  ∀ a ∈ S, ∀ b ∈ S, f a < f b ↔ g a < g b

namespace KeysAgree

/-- Where the keys agree, one of them decides. -/
lemma bothLt_iff (h : KeysAgree f g S) (ha : a ∈ S) (hb : b ∈ S) : BothLt f g a b ↔ f a < f b :=
  and_iff_left_of_imp (h a ha b hb).mp

lemma incomparable_iff (h : KeysAgree f g S) (ha : a ∈ S) (hb : b ∈ S) :
    ¬ BothLt f g a b ∧ ¬ BothLt f g b a ↔ f a = f b ∧ g a = g b := by
  rw [h.bothLt_iff ha hb, h.bothLt_iff hb ha]
  constructor
  · rintro ⟨hab, hba⟩
    refine ⟨le_antisymm (not_lt.mp hba) (not_lt.mp hab), ?_⟩
    rw [h a ha b hb] at hab
    rw [h b hb a ha] at hba
    exact le_antisymm (not_lt.mp hba) (not_lt.mp hab)
  · rintro ⟨hf, -⟩
    exact ⟨hf.not_lt, hf.not_gt⟩

lemma isStrictWeakOrder (h : KeysAgree f g S) :
    IsStrictWeakOrder S (fun a b => BothLt f g a b) where
  irrefl a := irrefl (r := BothLt f g) a.1
  trans a b c := fun h h' => ⟨h.1.trans h'.1, h.2.trans h'.2⟩
  incomp_trans a b c hab hbc := by
    obtain ⟨hf, hg⟩ := (h.incomparable_iff a.2 b.2).mp hab
    obtain ⟨hf', hg'⟩ := (h.incomparable_iff b.2 c.2).mp hbc
    exact (h.incomparable_iff a.2 c.2).mpr ⟨hf.trans hf', hg.trans hg'⟩

/-- If only equal elements are incomparable, the keys agree. -/
lemma of_incomparable
    (h : ∀ a ∈ S, ∀ b ∈ S, ¬ BothLt f g a b ∧ ¬ BothLt f g b a → f a = f b ∧ g a = g b) :
    KeysAgree f g S := by
  intro a ha b hb
  constructor
  · intro hf
    by_contra hg
    have heq := h a ha b hb ⟨fun hlt => hg hlt.2, fun hlt => hf.asymm hlt.1⟩
    exact hf.ne heq.1
  · intro hg
    by_contra hf
    have heq := h a ha b hb ⟨fun hlt => hf hlt.1, fun hlt => hg.asymm hlt.2⟩
    exact hg.ne heq.2

end KeysAgree

/-- **Where comparing both keys at once orders by both keys.** -/
theorem bothLt_weak_iff :
    (IsStrictWeakOrder S (fun a b => BothLt f g a b) ∧
      ∀ a ∈ S, ∀ b ∈ S, ¬ BothLt f g a b ∧ ¬ BothLt f g b a ↔ f a = f b ∧ g a = g b) ↔
    KeysAgree f g S :=
  ⟨fun h => .of_incomparable fun a ha b hb => (h.2 a ha b hb).mp,
    fun h => ⟨h.isStrictWeakOrder, fun _ ha _ hb => h.incomparable_iff ha hb⟩⟩

end Framework
