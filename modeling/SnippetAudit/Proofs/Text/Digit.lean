import SnippetAudit.Proofs.Text.Trim
import SnippetAudit.Text.Digit

/-!
Digits of base ten that a number is written with. The first of them is no zero unless the number is
zero.
-/

namespace SnippetAudit.Text

theorem isDigit_of_mem_toDigits {n : Nat} {c : Char} (member : c ∈ Nat.toDigits 10 n) :
    isDigit c = true :=
  Nat.isDigit_of_mem_toDigits (by decide) (by decide) member

/-- A character that is no digit stands in no number. -/
theorem not_mem_toString {c : Char} (noDigit : c.isDigit = false) (n : Nat) :
    c ∉ (toString n).toList := by
  rw [Nat.toString_eq_ofList_toDigits, String.toList_ofList]
  intro member
  rw [Nat.isDigit_of_mem_toDigits (by decide) (by decide) member] at noDigit
  cases noDigit

theorem digitValue_digitChar {n : Nat} (small : n < 10) : digitValue n.digitChar = n := by
  have all : ∀ m < 10, digitValue m.digitChar = m := by decide
  exact all n small

theorem head?_toDigits_ne_zero {n : Nat} (positive : 0 < n) :
    (Nat.toDigits 10 n).head? ≠ some '0' := by
  induction n using Nat.strongRecOn with
  | ind n ih =>
    rw [Nat.toDigits_eq_if (by decide)]
    split
    · rename_i small
      have nonzero : ∀ m < 10, 0 < m → m.digitChar ≠ '0' := by decide
      simpa using nonzero n small positive
    · rename_i large
      have before := ih (n / 10) (by omega) (by omega)
      obtain ⟨c, more, cut⟩ :=
        List.exists_cons_of_ne_nil (Nat.toDigits_ne_nil (n := n / 10) (b := 10))
      rw [cut] at before ⊢
      exact before

end SnippetAudit.Text
